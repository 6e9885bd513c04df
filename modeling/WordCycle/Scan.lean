import WordCycle.Candidate.Store
import WordCycle.Search
import WordCycle.Settings.Basic
import WordCycle.Subsequence

/-! Finding the candidates for a word: an exact pass and a fuzzy pass over the words in a window
around the caret, then the ranking. -/

namespace WordCycle
set_option autoImplicit false

/-! ## The window -/

/-- The part of a text of the given length that is searched around a position. Without a limit it
is the whole text. -/
def searchWindow (length pos : Int) (limitKb : Int) : Int × Int :=
  if 0 < limitKb then (max (pos - limitKb * 1024) 0, min (pos + limitKb * 1024) length)
  else (0, length)

/-! ## One pass -/

/-- A text with its extra word characters, and the place in it at which a word is completed. -/
structure Scan where
  text : Text
  extra : Text := []
  /-- The part of the word before the caret. -/
  typed : Text
  pos : Int

namespace Scan

/-- What a pass searches for: words that begin with what was typed, or, for the fuzzy pass, with
its first character in either case. -/
def search (s : Scan) (kind : MatchKind) : Search where
  pattern := match kind with
    | .exact => s.typed
    | .fuzzy => s.typed.take 1
  extra := s.extra
  matchCase := kind = .exact

/-- Whether a word that a pass met is offered to the store. -/
def fits (s : Scan) (kind : MatchKind) (word : Text) : Bool :=
  kind = .exact || isFuzzyMatch s.typed word

/-- The words that a pass meets in the window. -/
def occurrences (s : Scan) (settings : Settings) (kind : MatchKind) :
    Except EditError (List Search.Occurrence) :=
  let window := searchWindow s.text.length s.pos settings.distanceLimitKb
  (s.search kind).occurrences s.text window.1 window.2

/-- Offers the fitting words to a store, counts those that are new, and stops when the count
reaches the limit. -/
def collect (s : Scan) (kind : MatchKind) (limit : Nat) :
    List Search.Occurrence → Nat → CandidateStore → Except EditError (Nat × CandidateStore)
  | [], added, store => .ok (added, store)
  | o :: rest, added, store => do
    let (isNew, store) ←
      if s.fits kind o.word then store.upsert ⟨o.word, (s.pos - o.start).natAbs, kind⟩
      else .ok (false, store)
    let added := if isNew then added + 1 else added
    if added = limit then .ok (added, store) else collect s kind limit rest added store

/-- One pass over the window, with the number of new candidates. -/
def pass (s : Scan) (settings : Settings) (kind : MatchKind) (store : CandidateStore) :
    Except EditError (Nat × CandidateStore) := do
  s.collect kind settings.candidatesLimit (← s.occurrences settings kind) 0 store

/-! ## Both passes -/

/-- The ranked candidates for the word around the caret, closed by what going round leads back to:
the whole word if its part behind the caret is to be removed, else what was typed. The fuzzy pass
runs if the exact one found nothing or is not to be enough. -/
def candidates (s : Scan) (settings : Settings) (word : Text) :
    Except EditError CandidateStore := do
  let trailing := if settings.removeTrailingWordPart then word else s.typed
  let (found, store) ← s.pass settings .exact { word, trailing }
  let (_, store) ←
    if found = 0 || !settings.skipFuzzyIfExact then s.pass settings .fuzzy store
    else .ok (found, store)
  return (store.sort settings.sortOrder settings.skipFuzzyIfExact).finalize

end Scan
end WordCycle
