import WordCycle.Json.Value
import WordCycle.Number.Notation

/-! Reading JSON. Besides the grammar, the names of infinite and undefined numbers are accepted, and
integers of too many digits are refused, as are containers inside too many others. Reading goes from
left to right and the first fault is the one reported. -/

namespace WordCycle.Json
set_option autoImplicit false

/-- Why a text is not read. -/
inductive ReadError
  /-- The text is not JSON. -/
  | malformed
  /-- An integer of too many digits. -/
  | integerTooLong (digits : Nat)
  /-- A container inside as many others as can be open at once. -/
  | nestedTooDeeply (container : Container)
  deriving DecidableEq

/-- The most digits of an integer. -/
def maxDigits : Nat := 4300

/-- The most containers that can be open at once: each takes one of a thousand nested calls, and this
many are left by the calls under way when a settings file is read. It depends on these: read with fewer
calls under way (about ten), a text has room for some 990. -/
def maxDepth : Nat := 985

/-! ## Blanks and digits -/

/-- The characters that may stand between the parts of a value. -/
def isSpace (c : Char) : Bool := c == ' ' || c == '\t' || c == '\n' || c == '\r'

/-- The text from its first character on that is no blank. -/
def skipSpace (t : Text) : Text := t.dropWhile isSpace

/-- The number written by decimal digits. -/
def digitsValue (digits : Text) : Nat := digits.foldl (fun n c => n * 10 + (c.toNat - 48)) 0

/-- The value of a hexadecimal digit in either case. -/
def hexDigit? (c : Char) : Option Nat :=
  if c.isDigit then some (c.toNat - 48)
  else if 'a' ≤ c && c ≤ 'f' then some (c.toNat - 87)
  else if 'A' ≤ c && c ≤ 'F' then some (c.toNat - 55)
  else none

/-- The number written by hexadecimal digits. -/
def hexValue? (digits : Text) : Option Nat :=
  digits.foldlM (fun n c => (hexDigit? c).map (n * 16 + ·)) 0

/-! ## Strings -/

/-- What a letter behind a backslash stands for. -/
def unescape? : Char → Option Char
  | '"' => some '"'
  | '\\' => some '\\'
  | '/' => some '/'
  | 'b' => some '\x08'
  | 'f' => some '\x0c'
  | 'n' => some '\n'
  | 'r' => some '\r'
  | 't' => some '\t'
  | _ => none

/-- The letter of a UTF-16 unit that was written as an escape. -/
def letterOfUnit (unit : Nat) : Letter :=
  if 0xd800 ≤ unit && unit ≤ 0xdfff then .half unit else .char (Char.ofNat unit)

/-- Joins each high surrogate with the low one right behind it. -/
def joinHalves : List Letter → List Letter
  | .half h :: .half l :: rest =>
    if h < 0xdc00 && 0xdc00 ≤ l then
      .char (Char.ofNat (0x10000 + (h - 0xd800) * 0x400 + (l - 0xdc00))) :: joinHalves rest
    else .half h :: joinHalves (.half l :: rest)
  | a :: rest => a :: joinHalves rest
  | [] => []

/-- The letters up to the closing quote, surrogates still apart, and the text behind it. -/
def readLetters : Text → Option (List Letter × Text)
  | [] => none
  | '"' :: rest => some ([], rest)
  | '\\' :: 'u' :: a :: b :: c :: d :: rest => do
    let unit ← hexValue? [a, b, c, d]
    let (s, rest) ← readLetters rest
    return (letterOfUnit unit :: s, rest)
  | '\\' :: e :: rest => do
    let c ← unescape? e
    let (s, rest) ← readLetters rest
    return (.char c :: s, rest)
  | c :: rest =>
    if c.toNat < 0x20 || c = '\\' then none
    else do
      let (s, rest) ← readLetters rest
      return (.char c :: s, rest)

/-- A string behind its opening quote. -/
def readString (t : Text) : Except ReadError (List Letter × Text) :=
  match readLetters t with
  | some (s, rest) => .ok (joinHalves s, rest)
  | none => .error .malformed

/-! ## Numbers -/

/-- The digits before the point, of which the first is zero only if it is the only one. -/
def readWhole : Text → Option (Text × Text)
  | '0' :: rest => some (['0'], rest)
  | t =>
    let digits := t.takeWhile Char.isDigit
    if digits.isEmpty then none else some (digits, t.dropWhile Char.isDigit)

/-- The digits behind a point, if there are any; a point without them is left in the text. -/
def readFraction : Text → Option Text × Text
  | '.' :: rest =>
    let digits := rest.takeWhile Char.isDigit
    if digits.isEmpty then (none, '.' :: rest) else (some digits, rest.dropWhile Char.isDigit)
  | t => (none, t)

/-- The sign of an exponent. -/
def readSign : Text → Bool × Text
  | '-' :: rest => (true, rest)
  | '+' :: rest => (false, rest)
  | t => (false, t)

/-- The exponent, if it has digits; a mark without them is left in the text. -/
def readExponent (t : Text) : Option Int × Text :=
  match t with
  | [] => (none, t)
  | mark :: rest =>
    if mark = 'e' || mark = 'E' then
      let (negative, rest) := readSign rest
      let digits := rest.takeWhile Char.isDigit
      if digits.isEmpty then (none, t)
      else
        let size : Int := digitsValue digits
        (some (if negative then -size else size), rest.dropWhile Char.isDigit)
    else (none, t)

/-- A number behind its sign. It is a float if it has a fraction or an exponent. -/
def readNumber (negative : Bool) (t : Text) : Except ReadError (Value × Text) :=
  match readWhole t with
  | none => .error .malformed
  | some (whole, rest) =>
    let (fraction, rest) := readFraction rest
    let (exponent, rest) := readExponent rest
    if fraction.isNone && exponent.isNone then
      if maxDigits < whole.length then .error (.integerTooLong whole.length)
      else
        let size : Int := digitsValue whole
        .ok (.int (if negative then -size else size), rest)
    else
      let behind := fraction.getD []
      let size := Number.nearestFloat (digitsValue (whole ++ behind))
        (exponent.getD 0 - behind.length)
      .ok (.float (if negative then -size else size), rest)

/-! ## Values -/

/-- The values that are written by a name. -/
def names : List (Text × Value) := [
  ("null".toList, .null), ("true".toList, .bool true), ("false".toList, .bool false),
  ("NaN".toList, .float (0.0 / 0.0)), ("Infinity".toList, .float (1.0 / 0.0)),
  ("-Infinity".toList, .float (-1.0 / 0.0))]

/-- A value written by a name, or else a number. -/
def readScalar (t : Text) : Except ReadError (Value × Text) :=
  match names.find? fun (name, _) => name.isPrefixOf t with
  | some (name, value) => .ok (value, t.drop name.length)
  | none =>
    match t with
    | '-' :: rest => readNumber true rest
    | _ => readNumber false t

mutual

/-- A value at the beginning of a text, inside `depth` containers. Each character that is read uses
up at most two units of fuel. -/
def readValue (depth : Nat) : Nat → Text → Except ReadError (Value × Text)
  | 0, _ => .error .malformed
  | fuel + 1, t =>
    match t with
    | '"' :: rest => (readString rest).map fun (s, rest) => (.str s, rest)
    | '[' :: rest =>
      if maxDepth ≤ depth then .error (.nestedTooDeeply .array)
      else
        match skipSpace rest with
        | ']' :: rest => .ok (.arr [], rest)
        | rest => (readItems (depth + 1) fuel rest).map fun (items, rest) => (.arr items, rest)
    | '\x7b' :: rest =>
      if maxDepth ≤ depth then .error (.nestedTooDeeply .object)
      else
        match skipSpace rest with
        | '\x7d' :: rest => .ok (.obj [], rest)
        | rest =>
          (readFields (depth + 1) fuel rest).map fun (fields, rest) =>
            (.obj (Fields.ofWritten fields), rest)
    | _ => readScalar t

/-- The items of an array up to its closing bracket. -/
def readItems (depth : Nat) : Nat → Text → Except ReadError (List Value × Text)
  | 0, _ => .error .malformed
  | fuel + 1, t => do
    let (value, rest) ← readValue depth fuel t
    match skipSpace rest with
    | ',' :: rest =>
      let (items, rest) ← readItems depth fuel (skipSpace rest)
      return (value :: items, rest)
    | ']' :: rest => return ([value], rest)
    | _ => throw .malformed

/-- The fields of an object up to its closing brace. -/
def readFields (depth : Nat) : Nat → Text → Except ReadError (Fields × Text)
  | 0, _ => .error .malformed
  | fuel + 1, t =>
    match t with
    | '"' :: rest => do
      let (key, rest) ← readString rest
      match skipSpace rest with
      | ':' :: rest =>
        let (value, rest) ← readValue depth fuel (skipSpace rest)
        match skipSpace rest with
        | ',' :: rest =>
          let (fields, rest) ← readFields depth fuel (skipSpace rest)
          return ((key, value) :: fields, rest)
        | '\x7d' :: rest => return ([(key, value)], rest)
        | _ => throw .malformed
      | _ => throw .malformed
    | _ => .error .malformed

end

/-- Reads a text that holds one value and blanks around it. -/
def read (t : Text) : Except ReadError Value := do
  let (value, rest) ← readValue 0 (2 * t.length + 2) (skipSpace t)
  if (skipSpace rest).isEmpty then return value else throw .malformed

end WordCycle.Json
