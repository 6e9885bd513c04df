import WordCycle.Json.Value
import WordCycle.Number.Notation
import WordCycle.Settings.Basic
import WordCycle.Settings.Error

/-! Settings by name. A stored setting takes any JSON value and falls back to its default if the
value is not one of its own; a property of the settings converts what it is given first. -/

namespace WordCycle
set_option autoImplicit false

namespace Settings

/-! ## Stored settings -/

inductive Key
  | sortOrder
  | candidatesLimit
  | distanceLimit
  | skipFuzzyIfExact
  | removeTrailingWordPart
  deriving DecidableEq

/-- All of them, in the order in which they are stored. -/
def Key.all : List Key :=
  [sortOrder, candidatesLimit, distanceLimit, skipFuzzyIfExact, removeTrailingWordPart]

def Key.name : Key → Text
  | sortOrder => "sort_order".toList
  | candidatesLimit => "candidates_limit".toList
  | distanceLimit => "distance_limit".toList
  | skipFuzzyIfExact => "skip_fuzzy_if_exact".toList
  | removeTrailingWordPart => "remove_trailing_word_part".toList

def Key.ofName? (name : Text) : Option Key := Key.all.find? (·.name = name)

def value (s : Settings) : Key → Json.Value
  | .sortOrder => .int s.sortOrder.rank
  | .candidatesLimit => .int s.candidatesLimit
  | .distanceLimit => .int s.distanceLimit
  | .skipFuzzyIfExact => .bool s.skipFuzzyIfExact
  | .removeTrailingWordPart => .bool s.removeTrailingWordPart

/-- An integer between two bounds, which a float or a truth value never is. -/
def integerWithin (low high : Nat) : Json.Value → Option Nat
  | .int n => if low ≤ n && n ≤ high then some n.toNat else none
  | _ => none

/-- Whether a value counts as true: all but null, false, zero and what is empty. -/
def isTrue : Json.Value → Bool
  | .null => false
  | .bool b => b
  | .int n => n != 0
  | .float x => x != 0.0
  | .str s => !s.isEmpty
  | .arr items => !items.isEmpty
  | .obj fields => !fields.isEmpty

/-- The fewest and the most candidates of a pass. -/
def candidatesRange : Nat × Nat := (1, 100)

/-- The least and the greatest distance limit, in units of 1024. -/
def distanceRangeKb : Nat × Nat := (0, 100)

/-- The setting with a new value, if the value is one of its own. The two switches take the truth of
any value. -/
def set? (s : Settings) (key : Key) (v : Json.Value) : Option Settings :=
  match key with
  | .sortOrder => (integerWithin 0 1 v).map fun n => { s with sortOrder := .ofNumber n }
  | .candidatesLimit =>
    (integerWithin candidatesRange.1 candidatesRange.2 v).map fun n =>
      { s with candidatesLimit := n }
  | .distanceLimit =>
    (integerWithin (distanceRangeKb.1 * 1024) (distanceRangeKb.2 * 1024) v).map fun n =>
      { s with distanceLimit := n }
  | .skipFuzzyIfExact => some { s with skipFuzzyIfExact := isTrue v }
  | .removeTrailingWordPart => some { s with removeTrailingWordPart := isTrue v }

/-- The setting with its default. -/
def restore (s : Settings) (key : Key) : Settings :=
  let initial : Settings := {}
  match key with
  | .sortOrder => { s with sortOrder := initial.sortOrder }
  | .candidatesLimit => { s with candidatesLimit := initial.candidatesLimit }
  | .distanceLimit => { s with distanceLimit := initial.distanceLimit }
  | .skipFuzzyIfExact => { s with skipFuzzyIfExact := initial.skipFuzzyIfExact }
  | .removeTrailingWordPart => { s with removeTrailingWordPart := initial.removeTrailingWordPart }

/-- What is noted about settings besides an answer. -/
inductive Notice
  /-- A value was replaced by the default. -/
  | ignored (key : Key)
  | unreadable
  /-- The file holds something else in place of the settings. -/
  | malformedGroup
  | saved
  deriving DecidableEq

/-- Whether a notice is a warning, as opposed to an information. -/
def Notice.isWarning : Notice → Bool
  | saved => false
  | _ => true

/-- The wording of a notice, with its gaps. -/
def Notice.template : Notice → String
  | ignored _ => "Ignoring invalid %s=%r, using default"
  | unreadable => "Could not read %s: %s"
  | malformedGroup => "Malformed %r group in %s"
  | saved => "Saved configuration to %s"

/-- Sets a setting: a value that is not one of its own is noted and the default taken. -/
def set (s : Settings) (key : Key) (v : Json.Value) : Settings × List Notice :=
  match s.set? key v with
  | some s => (s, [])
  | none => (s.restore key, [.ignored key])

/-- Sets the setting of a name, which has to be known. -/
def setNamed (s : Settings) (name : Text) (v : Json.Value) :
    Except SettingsError (Settings × List Notice) :=
  match Key.ofName? name with
  | some key => .ok (s.set key v)
  | none => .error (.unknownKey name)

/-! ## Properties -/

inductive Property
  | sortOrder
  | candidatesLimit
  | distanceLimitKb
  | skipFuzzyIfExact
  | removeTrailingWordPart
  deriving DecidableEq

/-- The integer that a value stands for. Truth values count as numbers, floats are cut off, texts
are read. -/
def toInteger : Json.Value → Except SettingsError Int
  | .null => .error (.notNumeric "NoneType")
  | .bool b => .ok (if b then 1 else 0)
  | .int n => .ok n
  | .float x =>
    match Number.content x with
    | .finite b => .ok b.truncated
    | .infinite _ => .error .infinite
    | .undefined => .error .undefined
  | .str s =>
    match Json.plain? s with
    | some t => (Number.readInteger t).mapError .numeral
    | none => .error (.numeral (.malformed []))
  | .arr _ => .error (.notNumeric "list")
  | .obj _ => .error (.notNumeric "dict")

/-- Gives a property a value. The order and the distance, which is given in units of 1024, are
converted to integers first. -/
def assign (s : Settings) (p : Property) (v : Json.Value) :
    Except SettingsError (Settings × List Notice) :=
  match p with
  | .sortOrder => do return s.set .sortOrder (.int (← toInteger v))
  | .candidatesLimit => .ok (s.set .candidatesLimit v)
  | .distanceLimitKb => do return s.set .distanceLimit (.int ((← toInteger v) * 1024))
  | .skipFuzzyIfExact => .ok (s.set .skipFuzzyIfExact v)
  | .removeTrailingWordPart => .ok (s.set .removeTrailingWordPart v)

/-! ## Requests -/

inductive Change
  | set (name : Text) (v : Json.Value)
  | assign (p : Property) (v : Json.Value)

def change (s : Settings) : Change → Except SettingsError (Settings × List Notice)
  | .set name v => s.setNamed name v
  | .assign p v => s.assign p v

end Settings
end WordCycle
