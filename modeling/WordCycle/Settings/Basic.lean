import WordCycle.Candidate.Basic

/-! The settings of completion: how candidates are ordered, how many are collected, how far around
the caret they are looked for, and two switches. -/

namespace WordCycle
set_option autoImplicit false

structure Settings where
  sortOrder : SortOrder := .byDistance
  /-- The most candidates that one pass collects. -/
  candidatesLimit : Nat := 12
  /-- How far from the caret words are looked for, in bytes; zero stands for the whole text. -/
  distanceLimit : Nat := 0
  /-- Leave out the fuzzy pass if the exact one found a word. -/
  skipFuzzyIfExact : Bool := false
  /-- Replace the whole word at the caret, not only its part before the caret. -/
  removeTrailingWordPart : Bool := false
  deriving DecidableEq

/-- The distance limit in whole units of 1024. -/
def Settings.distanceLimitKb (s : Settings) : Nat := s.distanceLimit / 1024

end WordCycle
