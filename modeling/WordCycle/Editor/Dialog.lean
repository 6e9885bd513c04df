import WordCycle.Settings.Key

/-! The settings dialog: its inputs, how they show the settings, and how they are applied to them.
Sizes are shown in units of 1024, and each input is kept in its range. -/

namespace WordCycle
set_option autoImplicit false

/-- The dialog, by what its inputs show. -/
structure SettingsDialog where
  visible : Bool := false
  /-- The chosen order; none if none is chosen. -/
  sortOrder : Option SortOrder
  candidates : Nat
  /-- The distance limit in units of 1024. -/
  distance : Nat
  skipFuzzy : Bool
  removeTrailing : Bool
  deriving DecidableEq

namespace SettingsDialog

/-! ## Inputs -/

/-- A number brought into a range. -/
def clamp (range : Nat × Nat) (n : Int) : Nat := (max (range.1 : Int) (min n range.2)).toNat

/-- The dialog with all inputs showing the settings. -/
def refresh (d : SettingsDialog) (s : Settings) : SettingsDialog :=
  { d with
    sortOrder := some s.sortOrder
    candidates := clamp Settings.candidatesRange s.candidatesLimit
    distance := clamp Settings.distanceRangeKb s.distanceLimitKb
    skipFuzzy := s.skipFuzzyIfExact
    removeTrailing := s.removeTrailingWordPart }

/-- A new dialog for settings, not yet shown. -/
def ofSettings (s : Settings) : SettingsDialog :=
  refresh ⟨false, none, 0, 0, false, false⟩ s

inductive Input
  /-- Chooses an order by its place in the list. -/
  | sortOrder (index : Int)
  | candidates (n : Int)
  | distance (n : Int)
  | skipFuzzy (b : Bool)
  | removeTrailing (b : Bool)
  deriving DecidableEq

/-- The orders in the list. -/
def orders : List (Text × SortOrder) :=
  [("alphabetically".toList, .alphabetical), ("by distance".toList, .byDistance)]

def set (d : SettingsDialog) : Input → SettingsDialog
  | .sortOrder index =>
    { d with sortOrder := if index < 0 then none else (orders[index.toNat]?).map Prod.snd }
  | .candidates n => { d with candidates := clamp Settings.candidatesRange n }
  | .distance n => { d with distance := clamp Settings.distanceRangeKb n }
  | .skipFuzzy b => { d with skipFuzzy := b }
  | .removeTrailing b => { d with removeTrailing := b }

/-- The settings with what the inputs show, given one after the other. -/
def applied (d : SettingsDialog) (s : Settings) : Except SettingsError Settings := do
  let (s, _) ← s.assign .sortOrder
    (match d.sortOrder with
      | some o => .int o.rank
      | none => .null)
  let (s, _) ← s.assign .candidatesLimit (.int d.candidates)
  let (s, _) ← s.assign .distanceLimitKb (.int d.distance)
  let (s, _) ← s.assign .skipFuzzyIfExact (.bool d.skipFuzzy)
  let (s, _) ← s.assign .removeTrailingWordPart (.bool d.removeTrailing)
  return s

/-! ## Layout -/

inductive Button
  | ok
  | apply
  | cancel
  deriving DecidableEq

/-- A part of the dialog as the user sees it. -/
inductive Part
  | label (text : Text)
  | choice (items : List (Text × SortOrder))
  /-- A number with its range; the text that stands for its least value, if one does. -/
  | number (range : Nat × Nat) (special : Text)
  | check (text : Text)
  | buttons (all : List Button)
  | row (parts : List Part)

def title : Text := "Cycle Autocomplete Settings".toList

def layout : List Part := [
  .row [.label "Sort completions".toList, .choice orders],
  .row [.label "Limit number of possible completions".toList,
    .number Settings.candidatesRange []],
  .row [.label "Limit completion search radius [kbyte]".toList,
    .number Settings.distanceRangeKb "unlimited".toList],
  .check "Skip fuzzy matching if there are exact matches".toList,
  .check "Remove trailing word part on completion".toList,
  .buttons [.ok, .apply, .cancel]]

end SettingsDialog
end WordCycle
