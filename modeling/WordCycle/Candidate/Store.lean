import WordCycle.Candidate.Basic
import WordCycle.EditError

/-! The candidates collected for one word. Each text is kept once, with its least distance; the
word itself and the trailing text are left out, and the trailing text comes back as the last entry
when the store is finalized, so that going round leads back to it. -/

namespace WordCycle
set_option autoImplicit false

structure CandidateStore where
  /-- The word that is being completed. -/
  word : Text := []
  /-- What the last entry brings back. -/
  trailing : Text := []
  regular : List Candidate := []
  /-- Whether the trailing entry has been added. -/
  finalized : Bool := false
  deriving DecidableEq

namespace CandidateStore

/-- All entries in the order in which they are offered. -/
def entries (s : CandidateStore) : List Candidate :=
  s.regular ++ if s.finalized then [⟨s.trailing, 0, .exact⟩] else []

def texts (s : CandidateStore) : List Text := s.entries.map Candidate.text

def size (s : CandidateStore) : Nat := s.regular.length + if s.finalized then 1 else 0

theorem length_entries (s : CandidateStore) : s.entries.length = s.size := by
  unfold entries size
  split <;> simp

def find? (s : CandidateStore) (text : Text) : Option Candidate :=
  s.regular.find? (·.text = text)

/-- Lowers the distance of the first candidate with a text to the given one. -/
def bringNearer (text : Text) (distance : Int) : List Candidate → List Candidate
  | [] => []
  | c :: rest =>
    if c.text = text then { c with distance := min c.distance distance } :: rest
    else c :: bringNearer text distance rest

/-- Offers a found word, and says whether it became a new candidate. -/
def insert (s : CandidateStore) (c : Candidate) : Bool × CandidateStore :=
  if (s.find? c.text).isSome then
    (false, { s with regular := bringNearer c.text c.distance s.regular })
  else if c.text = [] || c.text = s.word || c.text = s.trailing then (false, s)
  else (true, { s with regular := s.regular ++ [c] })

/-- Offers a found word to a store that may be finalized already, which is refused. -/
def upsert (s : CandidateStore) (c : Candidate) : Except EditError (Bool × CandidateStore) :=
  if s.finalized then .error .storeFinalized else .ok (s.insert c)

def sort (s : CandidateStore) (order : SortOrder) (ignoreKinds : Bool) : CandidateStore :=
  { s with regular := Candidate.ranked order ignoreKinds s.regular }

/-- Adds the trailing entry, if any candidate was found. -/
def finalize (s : CandidateStore) : CandidateStore :=
  { s with finalized := s.finalized || !s.regular.isEmpty }

def clear (s : CandidateStore) : CandidateStore := { s with regular := [], finalized := false }

/-! ## Requests -/

inductive Command
  | upsert (candidate : Candidate)
  | sort (order : SortOrder) (ignoreKinds : Bool)
  | find (text : Text)
  | texts
  | finalize
  | clear
  deriving DecidableEq

inductive Answer
  | nothing
  | inserted (isNew : Bool)
  | candidate (found : Option Candidate)
  | texts (all : List Text)
  deriving DecidableEq

/-- Carries out one request; one that is refused changes nothing. -/
def run (s : CandidateStore) : Command → Except EditError (Answer × CandidateStore)
  | .upsert c => (s.upsert c).map fun (isNew, s) => (.inserted isNew, s)
  | .sort order ignoreKinds => .ok (.nothing, s.sort order ignoreKinds)
  | .find text => .ok (.candidate (s.find? text), s)
  | .texts => .ok (.texts s.texts, s)
  | .finalize => .ok (.nothing, s.finalize)
  | .clear => .ok (.nothing, s.clear)

end CandidateStore
end WordCycle
