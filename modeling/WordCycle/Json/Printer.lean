import WordCycle.Json.Value
import WordCycle.Number.Notation

/-! Writing JSON with two blanks of indentation for each level. The text is made piece by piece, as
it is sent to a file: what precedes a piece that cannot be encoded has been written already. -/

namespace WordCycle.Json
set_option autoImplicit false

/-! ## Scalars -/

/-- A control character by its code in four hexadecimal digits. -/
def controlEscape (n : Nat) : Text :=
  "\\u00".toList ++ [Nat.digitChar (n / 16), Nat.digitChar (n % 16)]

/-- How a character stands in a quoted string. -/
def escape (c : Char) : Text :=
  if c = '"' then ['\\', '"']
  else if c = '\\' then ['\\', '\\']
  else if c = '\n' then ['\\', 'n']
  else if c = '\r' then ['\\', 'r']
  else if c = '\t' then ['\\', 't']
  else if c = '\x0c' then ['\\', 'f']
  else if c = '\x08' then ['\\', 'b']
  else if c.toNat < 0x20 then controlEscape c.toNat
  else [c]

/-- A string in quotes. Only quotes, backslashes and control characters are escaped. -/
def quoted (s : List Letter) : List Letter :=
  .char '"' :: s.flatMap (fun
    | .char c => letters (escape c)
    | .half unit => [.half unit]) ++ [.char '"']

/-- A value that is neither array nor object. -/
def Value.scalar? : Value → Option (List Letter)
  | .null => some (letters "null".toList)
  | .bool b => some (letters (if b then "true".toList else "false".toList))
  | .int n => some (letters (Number.integerText n))
  | .float x => some (letters (Number.floatText x))
  | .str s => some (quoted s)
  | .arr _ => none
  | .obj _ => none

/-! ## Pieces -/

/-- A new line at a level. -/
def newline (level : Nat) : List Letter := .char '\n' :: List.replicate (2 * level) (.char ' ')

/-- What stands between two items or fields. -/
def separator (level : Nat) : List Letter := .char ',' :: newline level

mutual

/-- The pieces of a value at a level. -/
def Value.pieces (level : Nat) : Value → List (List Letter)
  | .null => [letters "null".toList]
  | .bool b => [letters (if b then "true".toList else "false".toList)]
  | .int n => [letters (Number.integerText n)]
  | .float x => [letters (Number.floatText x)]
  | .str s => [quoted s]
  | .arr items =>
    if items.isEmpty then [letters ['[', ']']]
    else
      itemPieces (level + 1) (.char '[' :: newline (level + 1)) items
        ++ [newline level, [.char ']']]
  | .obj fields =>
    if fields.isEmpty then [letters ['\x7b', '\x7d']]
    else
      [.char '\x7b'] :: newline (level + 1) :: fieldPieces (level + 1) none fields
        ++ [newline level, [.char '\x7d']]

/-- The pieces of the items of an array. The first piece of an item begins with what separates it
from the one before. -/
def itemPieces (level : Nat) (lead : List Letter) : List Value → List (List Letter)
  | [] => []
  | value :: rest =>
    (match value.scalar? with
      | some s => [lead ++ s]
      | none => lead :: value.pieces level)
      ++ itemPieces level (separator level) rest

/-- The pieces of the fields of an object. -/
def fieldPieces (level : Nat) (lead : Option (List Letter)) :
    List (List Letter × Value) → List (List Letter)
  | [] => []
  | (key, value) :: rest =>
    lead.toList ++ quoted key :: letters [':', ' '] :: value.pieces level
      ++ fieldPieces level (some (separator level)) rest

end

/-- The pieces of a whole file. -/
def Value.written (v : Value) : List (List Letter) := v.pieces 0

end WordCycle.Json
