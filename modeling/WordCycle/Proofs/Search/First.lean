import WordCycle.Proofs.Scan.Completeness
import WordCycle.Proofs.Search.Expression
import Mathlib.Order.Bounds.Basic

/-! What a search answers with: the least of the positions that it accepts, whatever the bounds, or none
if there are none. A search that minds letter case accepts a position exactly if the pattern stands there
behind no word character. -/

namespace WordCycle
set_option autoImplicit false

/-- The least of the given positions, or none if there are none. -/
def IsFirst (r : Option Nat) (positions : Set Nat) : Prop :=
  (∀ i, r = some i ↔ IsLeast positions i) ∧ (r = none ↔ positions = ∅)

namespace Search

/-- Where a search has a match within bounds. -/
def matchesWithin (s : Search) (text : Text) (start stop : Nat) : Set Nat :=
  {i | start ≤ i ∧ i + s.pattern.length ≤ stop ∧ s.fitsAt text i = true}

theorem isFirst_firstWithin (s : Search) (hne : s.pattern ≠ []) (text : Text) (start stop : Nat) :
    IsFirst (s.firstWithin text start stop) (s.matchesWithin text start stop) := by
  have hlen : 0 < s.pattern.length := List.length_pos_iff.mpr hne
  rw [firstWithin, firstFrom_eq s hne]
  constructor
  · intro i
    rw [List.find?_range'_eq_some, List.mem_range'_1, room]
    constructor
    · rintro ⟨hfits, ⟨hlow, hhigh⟩, hleast⟩
      refine ⟨⟨hlow, by omega, hfits⟩, ?_⟩
      rintro j ⟨hj, -, hfitsj⟩
      by_contra hlt
      have hnot := hleast j hj (by omega)
      simp [hfitsj] at hnot
    · rintro ⟨⟨hlow, hhigh, hfits⟩, hleast⟩
      refine ⟨hfits, by omega, fun j hj hlt => ?_⟩
      by_contra hfitsj
      have hle : i ≤ j := hleast ⟨hj, by omega, by simpa using hfitsj⟩
      omega
  · rw [List.find?_range'_eq_none, room, Set.eq_empty_iff_forall_notMem]
    constructor
    · rintro hnone i ⟨hlow, hhigh, hfits⟩
      have hnot := hnone i hlow (by omega)
      simp [hfits] at hnot
    · intro hempty i hlow hhigh
      have hnot := hempty i
      simp only [matchesWithin, Set.mem_ofPred_eq, not_and] at hnot
      simpa using hnot hlow (by omega)

theorem isCountable_of_fitsWord (length : Nat) {bound : Int} (h : fitsWord bound = true) :
    isCountable length bound = true ∧ isCountable length (max bound 0) = true := by
  simp [isCountable, fitsWord] at h ⊢
  omega

theorem isCountable_natCast {length pos : Nat} (h : pos ≤ length) :
    isCountable length pos = true ∧ isCountable length (max (pos : Int) 0) = true := by
  simp [isCountable, h]

/-- A search answers with the first of the given positions, and so does the expression that it is written
as. -/
structure Answers (s : Search) (text : Text) (start stop : Int) (positions : Set Nat)
    (r : Option Nat) : Prop where
  search : s.first? text start stop = .ok r
  expression : ∃ x, Expression.read (Expression.written s) = some x ∧
    x.first? s.matchCase text start stop = r
  first : IsFirst r positions

/-- Within bounds that can be counted, a search answers with the first of its matches between the bounds,
as far as they lie in the text. -/
theorem exists_answers (s : Search) (hne : s.pattern ≠ []) (text : Text) {start stop : Int}
    (hstart : isCountable text.length (max start 0) = true)
    (hstop : isCountable text.length stop = true) :
    ∃ r, s.Answers text start stop
      {i | max start 0 ≤ i ∧ (i + s.pattern.length : Int) ≤ min stop text.length ∧
        s.fitsAt text i = true} r := by
  have hlen : 0 < s.pattern.length := List.length_pos_iff.mpr hne
  refine ⟨_, s.first?_ok hne text hstart hstop,
    ⟨_, Expression.read_written s, (s.firstWithin_eq_first? hne text start stop).symm⟩, ?_⟩
  have hpositions : {i : Nat | max start 0 ≤ i ∧
      (i + s.pattern.length : Int) ≤ min stop text.length ∧ s.fitsAt text i = true} =
      s.matchesWithin text (min start.toNat text.length) (min stop.toNat text.length) := by
    ext i
    simp only [matchesWithin, Set.mem_ofPred_eq]
    constructor
    · rintro ⟨hlow, hhigh, hfits⟩
      exact ⟨by omega, by omega, hfits⟩
    · rintro ⟨hlow, hhigh, hfits⟩
      exact ⟨by omega, by omega, hfits⟩
  rw [hpositions]
  exact s.isFirst_firstWithin hne text _ _

/-! ## With regard to letter case -/

/-- A pattern stands in a text behind no word character, between bounds. -/
structure StartsAt (extra pattern text : Text) (start stop : Int) (i : Nat) : Prop where
  low : max start 0 ≤ i
  high : (i + pattern.length : Int) ≤ min stop text.length
  shows : text.slice i (i + pattern.length) = pattern
  before : i = 0 ∨ ∃ c, text[i - 1]? = some c ∧ isWordChar extra c = false

theorem any_charBefore_eq_false_iff (p : Char → Bool) (text : Text) {i : Nat} (h : i ≤ text.length) :
    (charBefore text i).any p = false ↔ i = 0 ∨ ∃ c, text[i - 1]? = some c ∧ p c = false := by
  cases i with
  | zero => simp [charBefore]
  | succ i => simp [charBefore, List.getElem?_eq_getElem h]

theorem fitsAt_iff_of_matchCase (extra pattern text : Text) {i : Nat} (h : i ≤ text.length) :
    fitsAt { pattern, extra } text i = true ↔ text.slice i (i + pattern.length) = pattern ∧
      (i = 0 ∨ ∃ c, text[i - 1]? = some c ∧ isWordChar extra c = false) := by
  have hslice : text.slice i (i + pattern.length) = (text.drop i).take pattern.length := by
    rw [← Int.natCast_add, Text.slice_natCast, Nat.add_sub_cancel_left]
  have haccepts : accepts { pattern, extra } = fun p c => c == p := rfl
  have hbefore : wordBefore { pattern, extra } = isWordChar extra := rfl
  rw [← any_charBefore_eq_false_iff _ text h, hslice, fitsAt, matchesAt, haccepts, hbefore,
    Bool.and_eq_true, Scan.beginsWith_iff_prefix, List.prefix_iff_eq_take, eq_comm]
  simp

/-- A search at word starts that minds letter case is exact. Whatever characters the text, the pattern
and the extra word characters are, and wherever the bounds lie, it answers with the least position from
the lower bound on at which the pattern stands before the upper bound and behind no word character, and
with none exactly if there is no such position. So does the expression that it is written as. -/
theorem first_exact (extra text : Text) {pattern : Text} (hne : pattern ≠ []) {start stop : Int}
    (hstart : fitsWord start = true) (hstop : fitsWord stop = true) :
    ∃ r x, first? { pattern, extra } text start stop = .ok r ∧
      Expression.read (Expression.written { pattern, extra }) = some x ∧
      x.first? true text start stop = r ∧
      (∀ i, r = some i ↔ IsLeast {i | StartsAt extra pattern text start stop i} i) ∧
      (r = none ↔ ∀ i, ¬StartsAt extra pattern text start stop i) := by
  obtain ⟨r, hfirst, ⟨x, hread, hmatch⟩, hsome, hnone⟩ :=
    exists_answers { pattern, extra } hne text (isCountable_of_fitsWord _ hstart).2
      (isCountable_of_fitsWord _ hstop).1
  have hpositions : {i : Nat | max start 0 ≤ i ∧ (i + pattern.length : Int) ≤ min stop text.length ∧
      fitsAt { pattern, extra } text i = true} = {i | StartsAt extra pattern text start stop i} := by
    ext i
    constructor
    · rintro ⟨hlow, hhigh, hfits⟩
      obtain ⟨hshows, hbefore⟩ :=
        (fitsAt_iff_of_matchCase extra pattern text (by omega)).mp hfits
      exact ⟨hlow, hhigh, hshows, hbefore⟩
    · intro h
      have hhigh := h.high
      exact ⟨h.low, hhigh,
        (fitsAt_iff_of_matchCase extra pattern text (by omega)).mpr ⟨h.shows, h.before⟩⟩
  rw [hpositions] at hsome hnone
  exact ⟨r, x, hfirst, hread, hmatch, hsome, hnone.trans Set.eq_empty_iff_forall_notMem⟩

/-- The extra characters and the pattern are signs of the notation. The pattern stands behind a hyphen
first, and behind a blank at 6. -/
theorem first_exact_signs :
    ".*".toList ≠ [] ∧ fitsWord (-7) = true ∧ fitsWord 0x7fffffffffffffff = true ∧
    ∃ x, first? { pattern := ".*".toList, extra := "^-]\\".toList } "a -.* .*".toList (-7)
        0x7fffffffffffffff = .ok (some 6) ∧
      Expression.written { pattern := ".*".toList, extra := "^-]\\".toList } =
        "(?<![\\w\\^\\-\\]\\\\])\\.\\*".toList ∧
      Expression.read "(?<![\\w\\^\\-\\]\\\\])\\.\\*".toList = some x ∧
      x.first? true "a -.* .*".toList (-7) 0x7fffffffffffffff = some 6 ∧
      IsLeast {i | StartsAt "^-]\\".toList ".*".toList "a -.* .*".toList (-7) 0x7fffffffffffffff i} 6 := by
  have hne : ".*".toList ≠ [] := by decide
  have hstart : fitsWord (-7) = true := by decide
  have hstop : fitsWord 0x7fffffffffffffff = true := by decide
  obtain ⟨r, x, hfirst, hread, hmatch, hsome, -⟩ :=
    first_exact "^-]\\".toList "a -.* .*".toList hne hstart hstop
  have hrun : first? { pattern := ".*".toList, extra := "^-]\\".toList } "a -.* .*".toList (-7)
      0x7fffffffffffffff = .ok (some 6) := by decide +kernel
  have hwritten : Expression.written { pattern := ".*".toList, extra := "^-]\\".toList } =
      "(?<![\\w\\^\\-\\]\\\\])\\.\\*".toList := by decide +kernel
  obtain rfl := Except.ok.inj (hfirst.symm.trans hrun)
  rw [hwritten] at hread
  exact ⟨hne, hstart, hstop, x, hrun, hwritten, hread, hmatch, (hsome 6).mp rfl⟩

end Search
end WordCycle
