import WordCycle.File.Error
import WordCycle.Json.Value
import WordCycle.Number.Numeral
import WordCycle.Text.Utf8

/-! Why settings are not changed, read or written. -/

namespace WordCycle
set_option autoImplicit false

/-- Half of a surrogate pair cannot be written: `count` of them in a row, the first being `unit` at
position `pos` of the piece that is written. -/
structure EncodeError where
  unit : Nat
  pos : Nat
  count : Nat
  deriving DecidableEq

def EncodeError.message (e : EncodeError) : String :=
  (if e.count = 1 then
    "'utf-8' codec can't encode character '\\u" ++ String.ofList (Text.hexDigits 4 e.unit)
      ++ "' in position " ++ toString e.pos
  else
    "'utf-8' codec can't encode characters in position " ++ toString e.pos ++ "-"
      ++ toString (e.pos + e.count - 1))
    ++ ": surrogates not allowed"

inductive SettingsError
  | unknownKey (name : Text)
  /-- A value of a type that stands for no number. -/
  | notNumeric (kind : String)
  | infinite
  | undefined
  | numeral (e : Number.NumeralError)
  | decode (e : Utf8.DecodeError)
  | encode (e : EncodeError)
  /-- A file with a container inside too many others. -/
  | nestedTooDeeply (container : Json.Container)
  | file (e : FileError)
  deriving DecidableEq

def SettingsError.message : SettingsError → String
  | unknownKey name => String.ofList name.quoted
  | notNumeric kind =>
    "int() argument must be a string, a bytes-like object or a real number, not '" ++ kind ++ "'"
  | infinite => "cannot convert float infinity to integer"
  | undefined => "cannot convert float NaN to integer"
  | numeral e => e.message
  | decode e => e.message
  | encode e => e.message
  | nestedTooDeeply container =>
    "maximum recursion depth exceeded while decoding a JSON " ++ container.name
      ++ " from a unicode string"
  | file e => e.message

end WordCycle
