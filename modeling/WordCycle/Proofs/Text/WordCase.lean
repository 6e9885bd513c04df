import WordCycle.Search

/-! Lower case and word characters. Lowering a letter gives a letter again, so before a match a search
that ignores case takes every word character for one. It may take more: some characters have case
and are no word characters, such as circled letters. -/

namespace WordCycle
set_option autoImplicit false

/-! ## Ranges and runs -/

/-- Whether one of the ranges holds all code points from `first` to `last`. -/
def CodeRanges.covers : CodeRanges → Nat → Nat → Bool
  | [], _, _ => false
  | range :: rest, first, last =>
    Nat.ble range.1 first &&
      bif Nat.blt range.2 first then covers rest first last else Nat.ble last range.2

/-- Whether none of the ranges holds a code point from `first` to `last`. -/
def CodeRanges.avoids : CodeRanges → Nat → Nat → Bool
  | [], _, _ => true
  | range :: rest, first, last =>
    bif Nat.blt range.2 first then avoids rest first last else Nat.blt last range.1

theorem CodeRanges.contains_of_covers {ranges : CodeRanges} {first last n : Nat}
    (h : ranges.covers first last = true) (hfirst : first ≤ n) (hlast : n ≤ last) :
    ranges.contains n = true := by
  induction ranges with
  | nil => cases h
  | cons range rest ih =>
    simp only [covers, Bool.cond_eq_ite, Bool.and_eq_true, Nat.ble_eq, Nat.blt_eq] at h
    obtain ⟨hlow, h⟩ := h
    rw [contains, if_neg (by omega)]
    split at h
    · rw [if_neg (by omega)]
      exact ih h
    · rw [Nat.ble_eq] at h
      rw [if_pos (by omega)]

theorem CodeRanges.not_contains_of_avoids {ranges : CodeRanges} {first last n : Nat}
    (h : ranges.avoids first last = true) (hfirst : first ≤ n) (hlast : n ≤ last) :
    ranges.contains n = false := by
  induction ranges with
  | nil => rfl
  | cons range rest ih =>
    simp only [avoids, Bool.cond_eq_ite, Nat.blt_eq] at h
    rw [contains]
    split at h
    · rw [if_neg (by omega : ¬n ≤ range.2), ih h]
      split <;> rfl
    · rw [Nat.blt_eq] at h
      rw [if_pos (by omega)]

/-- The code points that a run moves. -/
def CodeRun.points (run : CodeRun) : List Nat :=
  List.range' run.first ((run.last - run.first) / run.step + 1) run.step

theorem CodeRun.exists_of_find? {runs : List CodeRun} {n m : Nat} (h : find? runs n = some m) :
    ∃ run ∈ runs, n ∈ run.points ∧ run.first ≤ n ∧ n ≤ run.last ∧ m = (n + run.offset).toNat := by
  fun_induction find? runs n with
  | case1 => cases h
  | case2 => cases h
  | case3 run rest n hfirst hlast hstep =>
    refine ⟨run, List.mem_cons_self, ?_, by omega, hlast, (Option.some.inj h).symm⟩
    have hdiv := Nat.div_add_mod (n - run.first) run.step
    have hle : (n - run.first) / run.step ≤ (run.last - run.first) / run.step :=
      Nat.div_le_div_right (by omega)
    exact List.mem_range'.mpr ⟨(n - run.first) / run.step, by omega, by omega⟩
  | case4 => cases h
  | case5 run rest n hfirst hlast ih =>
    obtain ⟨run', hrun, hfound⟩ := ih h
    exact ⟨run', List.mem_cons_of_mem run hrun, hfound⟩

/-! ## The lower case table -/

/-- What holds of a run of the table, so that it can be read off its ends. -/
structure CodeRun.KeepsLetters (run : CodeRun) : Prop where
  /-- What it moves has case. -/
  cased : casedRanges.covers run.first run.last = true ∨
    run.points.all casedRanges.contains = true
  /-- It moves letters to letters, or no letters at all. -/
  letters : alphanumericRanges.covers (run.first + run.offset).toNat
      (run.last + run.offset).toNat = true ∨
    alphanumericRanges.avoids run.first run.last = true
  /-- What it moves beyond the basic plane are letters. -/
  astral : (run.last + run.offset).toNat ≤ 0xffff ∨
    alphanumericRanges.covers run.first run.last = true
  /-- It moves nothing to a code point that is no character. -/
  valid : (run.last + run.offset).toNat < 0xd800 ∨
    0xdfff < (run.first + run.offset).toNat ∧ (run.last + run.offset).toNat < 0x110000

instance (run : CodeRun) : Decidable run.KeepsLetters :=
  decidable_of_iff (_ ∧ _ ∧ _ ∧ _)
    ⟨fun h => ⟨h.1, h.2.1, h.2.2.1, h.2.2.2⟩, fun h => ⟨h.cased, h.letters, h.astral, h.valid⟩⟩

theorem loweringRuns_keepLetters : ∀ run ∈ loweringRuns, run.KeepsLetters := by
  decide +kernel

/-- A character is its own lower case form, or a run of the table moves it. -/
theorem lowerChar_cases (c : Char) : lowerChar c = c ∨
    ∃ run : CodeRun, run.KeepsLetters ∧ c.toNat ∈ run.points ∧ run.first ≤ c.toNat ∧
      c.toNat ≤ run.last ∧ (lowerChar c).toNat = (c.toNat + run.offset).toNat := by
  unfold lowerChar
  split
  · next m hfind =>
    obtain ⟨run, hrun, hpoint, hfirst, hlast, rfl⟩ := CodeRun.exists_of_find? hfind
    have hkeeps := loweringRuns_keepLetters run hrun
    refine Or.inr ⟨run, hkeeps, hpoint, hfirst, hlast, ?_⟩
    have hvalid : (c.toNat + run.offset).toNat.isValidChar := by
      have := hkeeps.valid
      unfold Nat.isValidChar
      omega
    rw [Char.ofNat, dif_pos hvalid]
    rfl
  · exact Or.inl rfl

theorem lowerChar_of_not_cased (c : Char) (h : isCased c = false) : lowerChar c = c := by
  refine (lowerChar_cases c).resolve_right ?_
  rintro ⟨run, hkeeps, hpoint, hfirst, hlast, -⟩
  have hcased : casedRanges.contains c.toNat = true := by
    rcases hkeeps.cased with hcovers | hpoints
    · exact CodeRanges.contains_of_covers hcovers hfirst hlast
    · exact List.all_eq_true.mp hpoints _ hpoint
  rw [isCased, hcased] at h
  cases h

theorem isAlphanumeric_lowerChar (c : Char) (h : isAlphanumeric c = true) :
    isAlphanumeric (lowerChar c) = true := by
  rcases lowerChar_cases c with heq | ⟨run, hkeeps, -, hfirst, hlast, htarget⟩
  · rwa [heq]
  · rcases hkeeps.letters with hcovers | havoids
    · rw [isAlphanumeric, htarget]
      exact CodeRanges.contains_of_covers hcovers (by omega) (by omega)
    · rw [isAlphanumeric, CodeRanges.not_contains_of_avoids havoids hfirst hlast] at h
      cases h

theorem isAlphanumeric_of_astral (c : Char) (h : 0xffff < (lowerChar c).toNat) :
    lowerChar c = c ∨ isAlphanumeric c = true := by
  rcases lowerChar_cases c with heq | ⟨run, hkeeps, -, hfirst, hlast, htarget⟩
  · exact Or.inl heq
  · refine Or.inr (CodeRanges.contains_of_covers ?_ hfirst hlast)
    exact hkeeps.astral.resolve_left (by omega)

/-! ## The character before a match -/

theorem isWordChar_iff (extra : Text) (c : Char) :
    isWordChar extra c = true ↔ isAlphanumeric c = true ∨ c = '_' ∨ c ∈ extra := by
  simp [isWordChar, or_assoc]

/-- Before a match every word character counts as one, with or without regard to case. -/
theorem Search.wordBefore_of_isWordChar (s : Search) (c : Char)
    (h : isWordChar s.extra c = true) : s.wordBefore c = true := by
  unfold wordBefore
  split
  · exact h
  rw [isWordChar_iff] at h ⊢
  by_cases hlowers : s.lowersBefore = true
  · rw [if_pos hlowers]
    by_cases halpha : isAlphanumeric c = true
    · exact Or.inl (isAlphanumeric_lowerChar c halpha)
    rcases h.resolve_left halpha with rfl | hextra
    · exact Or.inr (Or.inl (by decide))
    · refine Or.inr (Or.inr (List.mem_flatMap.mpr ⟨c, hextra, ?_⟩))
      unfold foldedExtra
      split
      · next hastral =>
        rw [(isAlphanumeric_of_astral c hastral).resolve_right halpha]
        exact List.mem_singleton_self c
      · exact List.mem_cons_self
  · rw [if_neg hlowers]
    refine h.imp_right (Or.imp_right fun hextra => List.mem_flatMap.mpr ⟨c, hextra, ?_⟩)
    -- No extra character has case, so this one stands for itself.
    have hcase : isCased c = false := by
      rw [Bool.not_eq_true, lowersBefore, List.any_eq_false] at hlowers
      have hnone := hlowers c hextra
      rw [Bool.or_eq_true, not_or, Bool.not_eq_true] at hnone
      exact hnone.1
    rw [foldedExtra, lowerChar_of_not_cased c hcase]
    split
    · exact List.mem_singleton_self c
    · exact List.mem_cons_self

end WordCycle
