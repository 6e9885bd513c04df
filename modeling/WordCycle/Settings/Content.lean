import WordCycle.Json.Printer
import WordCycle.Json.Reader
import WordCycle.Settings.Key

/-! The settings in the content of a file. They are one group of a JSON object that other programs
share: reading takes the group, writing replaces it and keeps the rest. -/

namespace WordCycle
set_option autoImplicit false

namespace Settings

/-! ## Reading -/

def groupKey : List Json.Letter := Json.letters "cycle_autocomplete".toList

/-- The settings of a group. A setting that is missing has its default. -/
def ofGroup (group : Json.Fields) : Settings × List Notice :=
  Key.all.foldl (fun (s, notices) key =>
    match group.get? (Json.letters key.name) with
    | none => (s, notices)
    | some v =>
      let (s, more) := s.set key v
      (s, notices ++ more)) ({}, [])

/-- The settings of a stored value. Without the group they are the defaults. -/
def ofStored : Json.Value → Settings × List Notice
  | .obj fields =>
    match Json.Fields.get? fields groupKey with
    | none => ({}, [])
    | some (.obj group) => ofGroup group
    | some _ => ({}, [.malformedGroup])
  | _ => ({}, [])

/-- The value that a content stores; none if it is not JSON. Bytes that are no text, integers of too
many digits and containers inside too many others are errors. -/
def storedIn (content : Bytes) : Except SettingsError (Option Json.Value) :=
  match Utf8.decode content with
  | .error e => .error (.decode e)
  | .ok t =>
    match Json.read t with
    | .ok v => .ok (some v)
    | .error .malformed => .ok none
    | .error (.integerTooLong digits) => .error (.numeral (.tooLong digits))
    | .error (.nestedTooDeeply container) => .error (.nestedTooDeeply container)

/-- The settings in a content. -/
def ofContent (content : Bytes) : Except SettingsError (Settings × List Notice) := do
  match ← storedIn content with
  | some v => return ofStored v
  | none => return ({}, [.unreadable])

/-! ## Writing -/

/-- The group of the settings. -/
def toFields (s : Settings) : Json.Fields :=
  Key.all.map fun key => (Json.letters key.name, s.value key)

/-- The stored value with the group put into it. What is no object is not kept. -/
def storedWith (s : Settings) (old : Option Json.Value) : Json.Value :=
  let fields : Json.Fields := match old with
    | some (.obj fields) => fields
    | _ => []
  .obj (fields.set groupKey (.obj s.toFields))

/-- Whether a letter is half of a surrogate pair. -/
def isHalf : Json.Letter → Bool
  | .char _ => false
  | .half _ => true

/-- The bytes of the rest of a piece, which must be free of surrogates; the rest begins at a
position. -/
def encodeRest (pos : Nat) : List Json.Letter → Except EncodeError Bytes
  | [] => .ok []
  | .char c :: rest => (encodeRest (pos + 1) rest).map (Utf8.encodeChar c ++ ·)
  | .half unit :: rest => .error ⟨unit, pos, 1 + (rest.takeWhile isHalf).length⟩

/-- The bytes of the pieces before the first that cannot be encoded, and its error. -/
def encodePieces : List (List Json.Letter) → Bytes × Option EncodeError
  | [] => ([], none)
  | piece :: rest =>
    match encodeRest 0 piece with
    | .error e => ([], some e)
    | .ok bytes =>
      let (more, e) := encodePieces rest
      (bytes ++ more, e)

/-- What is written in place of a content that stored the given value, and the error that ends the
writing early. -/
def writtenOver (s : Settings) (old : Option Json.Value) : Bytes × Option EncodeError :=
  encodePieces (s.storedWith old).written

end Settings
end WordCycle
