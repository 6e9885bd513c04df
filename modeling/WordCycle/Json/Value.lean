import WordCycle.Text.Slice

/-! JSON values. Strings are lists of letters, since an escape can write half of a surrogate pair
without the other half. Objects keep the order in which their keys were first written. -/

namespace WordCycle.Json
set_option autoImplicit false

/-- A letter of a JSON string: a character, or a surrogate that has no partner. -/
inductive Letter
  | char (c : Char)
  | half (unit : Nat)
  deriving DecidableEq

/-- The letters of a text. -/
def letters (t : Text) : List Letter := t.map .char

/-- The characters of a string that has no surrogate in it. -/
def plain? (s : List Letter) : Option Text :=
  s.mapM fun
    | .char c => some c
    | .half _ => none

/-- A JSON value. Integers have any size and are kept apart from floats. -/
inductive Value
  | null
  | bool (b : Bool)
  | int (n : Int)
  | float (x : Float)
  | str (s : List Letter)
  | arr (items : List Value)
  | obj (fields : List (List Letter × Value))

inductive Container
  | array
  | object
  deriving DecidableEq

def Container.name : Container → String
  | array => "array"
  | object => "object"

/-- The fields of an object. -/
abbrev Fields := List (List Letter × Value)

namespace Fields

def get? (fields : Fields) (key : List Letter) : Option Value := fields.lookup key

/-- Gives a key its value: in its place if it is there, else at the end. -/
def set (key : List Letter) (value : Value) : Fields → Fields
  | [] => [(key, value)]
  | (k, v) :: rest => if k = key then (k, value) :: rest else (k, v) :: set key value rest

/-- The fields as written one after the other: a repeated key keeps its first place and takes its
last value. -/
def ofWritten (written : Fields) : Fields :=
  written.foldl (fun fields (k, v) => fields.set k v) []

end Fields

end WordCycle.Json
