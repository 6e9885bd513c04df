import WordCycle.Text.Decimal
import WordCycle.Text.Quoted

/-! Integers as people write them: decimal digits of any script, single underscores between them, a
sign before them and blanks around. -/

namespace WordCycle.Number
set_option autoImplicit false

/-- Why a text is not read as an integer. -/
inductive NumeralError
  | malformed (text : Text)
  | tooLong (digits : Nat)
  deriving DecidableEq

/-- The most digits that are read. -/
def NumeralError.maxDigits : Nat := 4300

/-- The wording of each fault; a long text is shown in part. -/
def NumeralError.message : NumeralError → String
  | malformed text =>
    "invalid literal for int() with base 10: " ++ String.ofList (text.quoted.take 200)
  | tooLong digits =>
    "Exceeds the limit (" ++ toString maxDigits
      ++ " digits) for integer string conversion: value has " ++ toString digits
      ++ " digits; use sys.set_int_max_str_digits() to increase the limit"

/-- Blanks that may surround a numeral once those of other scripts are plain ones. -/
def isPlainBlank (c : Char) : Bool := c == ' ' || ('\t' ≤ c && c ≤ '\r')

/-- The plain form of a character: digits and blanks of all scripts become those of ASCII, which
itself stays as it is. A character without plain form has none that a numeral could hold. -/
def plainForm (c : Char) : Char :=
  if c.toNat < 127 then c
  else if isBlank c then ' '
  else match decimalValue? c with
    | some d => Nat.digitChar d
    | none => '?'

/-- The digits at the beginning of a text, without the single underscores between them, and the
rest; none if an underscore does not stand between two digits. -/
def readDigits (afterDigit : Bool) : Text → Option (Text × Text)
  | [] => if afterDigit then some ([], []) else none
  | c :: rest =>
    if c.isDigit then (readDigits true rest).map fun (ds, rest) => (c :: ds, rest)
    else if c = '_' then if afterDigit then readDigits false rest else none
    else if afterDigit then some ([], c :: rest) else none

/-- The integer that a text writes. -/
def readInteger (t : Text) : Except NumeralError Int :=
  let plain := (t.map plainForm).dropWhile isPlainBlank
  let (negative, unsigned) : Bool × Text := match plain with
    | '-' :: rest => (true, rest)
    | '+' :: rest => (false, rest)
    | _ => (false, plain)
  match readDigits false unsigned with
  | none => .error (.malformed t)
  | some (digits, rest) =>
    if NumeralError.maxDigits < digits.length then .error (.tooLong digits.length)
    else if rest.all isPlainBlank then
      let size : Int := digits.foldl (fun n c => n * 10 + (c.toNat - 48)) 0
      .ok (if negative then -size else size)
    else .error (.malformed t)

end WordCycle.Number
