import WordCycle.Text.Order

/-! Candidates for a completion and the orders in which they are offered. -/

namespace WordCycle
set_option autoImplicit false

/-- How a word completes what was typed: it begins with it, or holds its characters in order. -/
inductive MatchKind
  | exact
  | fuzzy
  deriving DecidableEq

/-- The number of a kind; exact matches come first. -/
def MatchKind.rank : MatchKind → Nat
  | exact => 0
  | fuzzy => 1

def MatchKind.ofRank? (n : Int) : Option MatchKind :=
  if n = 0 then some exact else if n = 1 then some fuzzy else none

/-- How candidates of one kind are ordered. -/
inductive SortOrder
  | alphabetical
  | byDistance
  deriving DecidableEq

def SortOrder.rank : SortOrder → Nat
  | alphabetical => 0
  | byDistance => 1

/-- The order that a number asks for: zero is alphabetical, any other by distance. -/
def SortOrder.ofNumber (n : Int) : SortOrder := if n = 0 then alphabetical else byDistance

/-- A word that may be offered, with the distance of its nearest occurrence from the caret. -/
structure Candidate where
  text : Text
  distance : Int
  kind : MatchKind
  deriving DecidableEq

/-! ## Orders -/

/-- Whether the order of candidates of one kind lets the first stand before the second. -/
def SortOrder.allows (order : SortOrder) (a b : Candidate) : Bool :=
  match order with
  | alphabetical => a.text.isBefore b.text
  | byDistance => a.distance ≤ b.distance

/-- Whether a ranking lets the first candidate stand before the second. Unless the kinds are
ignored, exact matches stand before fuzzy ones. -/
def Candidate.mayPrecede (order : SortOrder) (ignoreKinds : Bool) (a b : Candidate) : Bool :=
  if ignoreKinds || a.kind = b.kind then order.allows a b else a.kind = .exact

/-- Puts a candidate into a ranking, before the first that it may precede. -/
def Candidate.insertRanked (order : SortOrder) (ignoreKinds : Bool) (c : Candidate) :
    List Candidate → List Candidate
  | [] => [c]
  | d :: rest =>
    if c.mayPrecede order ignoreKinds d then c :: d :: rest
    else d :: insertRanked order ignoreKinds c rest

theorem Candidate.insertRanked_perm (order : SortOrder) (ignoreKinds : Bool) (c : Candidate)
    (ranking : List Candidate) :
    (c.insertRanked order ignoreKinds ranking).Perm (c :: ranking) := by
  induction ranking with
  | nil => exact .refl _
  | cons d rest ih =>
    rw [insertRanked]
    split
    · exact .refl _
    · exact (ih.cons d).trans (.swap c d rest)

/-- The candidates in their ranking, put into it one after the other as they were found. So of two
that the ranking does not separate, the one found last comes first. -/
def Candidate.ranked (order : SortOrder) (ignoreKinds : Bool) (found : List Candidate) :
    List Candidate :=
  found.foldl (fun ranking c => c.insertRanked order ignoreKinds ranking) []

end WordCycle
