/-! Tables over code points: sets given by ascending ranges, and maps given by ascending runs of
code points that all move by one offset. -/

namespace WordCycle
set_option autoImplicit false

/-- A set of code points, as its ranges (first, last) in ascending order. -/
abbrev CodeRanges := List (Nat × Nat)

/-- Whether a code point lies in one of the ranges; the search ends at the first range above it. -/
def CodeRanges.contains : CodeRanges → Nat → Bool
  | [], _ => false
  | (first, last) :: rest, n =>
    if n < first then false else if n ≤ last then true else contains rest n

/-- Every `step`-th code point from `first` to `last`, all moved by the same offset. -/
structure CodeRun where
  first : Nat
  last : Nat
  step : Nat
  offset : Int

/-- Where the runs, in ascending order, send a code point, if one of them holds it. -/
def CodeRun.find? : List CodeRun → Nat → Option Nat
  | [], _ => none
  | run :: rest, n =>
    if n < run.first then none
    else if n ≤ run.last then
      if (n - run.first) % run.step = 0 then some (n + run.offset).toNat else none
    else find? rest n

end WordCycle
