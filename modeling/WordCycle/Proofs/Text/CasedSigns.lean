import WordCycle.Proofs.Text.WordCase

/-! Characters that have case and are no letters: the circled letters, and the mark that lowers an iota.
Apart from these, characters that stand for the same letter are word characters together. -/

namespace WordCycle
set_option autoImplicit false

/-- The iota below a letter, and the circled letters. -/
def isCasedSign (c : Char) : Bool :=
  c.toNat = 0x345 || (0x24b6 ≤ c.toNat && c.toNat ≤ 0x24e9)

/-! ## The tables -/

theorem loweringRuns_letters : ∀ run ∈ loweringRuns,
    alphanumericRanges.covers run.first run.last = true ∨
      (0x24b6 ≤ run.first ∧ run.last ≤ 0x24cf) ∨
      run.points.all alphanumericRanges.contains = true := by
  decide +kernel

theorem lowerChar_circled : ∀ n ∈ List.range' 0x24b6 26,
    (lowerChar (Char.ofNat n)).toNat = n + 26 ∧ isCased (lowerChar (Char.ofNat n)) = true ∧
      isAlphanumeric (lowerChar (Char.ofNat n)) = false := by
  decide +kernel

theorem lowerVariants_letters : ∀ v ∈ lowerVariants, casedRanges.contains v.1 = true ∧ v.1 ≤ 0xffff ∧
    ∀ m ∈ v.2, isAlphanumeric (Char.ofNat m) = true ∨ isCasedSign (Char.ofNat m) = true := by
  decide +kernel

/-- What differs from its lower case form is a letter or a circled capital. -/
theorem lowerChar_ne_cases {c : Char} (h : lowerChar c ≠ c) :
    isAlphanumeric c = true ∨ c.toNat ∈ List.range' 0x24b6 26 := by
  unfold lowerChar at h
  split at h
  · next m hfind =>
    obtain ⟨run, hrun, hpoint, hfirst, hlast, -⟩ := CodeRun.exists_of_find? hfind
    rcases loweringRuns_letters run hrun with hcovers | ⟨hlow, hhigh⟩ | hpoints
    · exact Or.inl (CodeRanges.contains_of_covers hcovers hfirst hlast)
    · exact Or.inr (List.mem_range'_1.mpr (by omega))
    · exact Or.inl (List.all_eq_true.mp hpoints _ hpoint)
  · exact absurd rfl h

theorem lowerChar_of_circled {c : Char} (h : c.toNat ∈ List.range' 0x24b6 26) :
    (lowerChar c).toNat = c.toNat + 26 ∧ isCased (lowerChar c) = true ∧
      isAlphanumeric (lowerChar c) = false := by
  have hcircled := lowerChar_circled c.toNat h
  rwa [Char.ofNat_toNat] at hcircled

theorem isAlphanumeric_of_lowerChar {c : Char} (h : isAlphanumeric (lowerChar c) = true) :
    isAlphanumeric c = true := by
  by_cases hc : lowerChar c = c
  · rwa [hc] at h
  · refine (lowerChar_ne_cases hc).resolve_right fun hcircled => ?_
    simp [(lowerChar_of_circled hcircled).2.2] at h

theorem isAlphanumeric_of_lowerChar_eq {c e : Char} (h : lowerChar c = e) (hne : c ≠ e)
    (he : isCased e = false) : isAlphanumeric c = true := by
  have hc : lowerChar c ≠ c := by rw [h]; exact hne.symm
  refine (lowerChar_ne_cases hc).resolve_right fun hcircled => ?_
  have hcased := (lowerChar_of_circled hcircled).2.1
  rw [h, he] at hcased
  cases hcased

/-! ## Forms of one letter -/

theorem mem_of_lookup {n : Nat} {found : List Nat} {table : List (Nat × List Nat)}
    (h : table.lookup n = some found) : (n, found) ∈ table := by
  obtain ⟨above, below, rfl, -⟩ := List.lookup_eq_some_iff.mp h
  simp

theorem mem_lowerForms {c d : Char} (h : d ∈ lowerForms c) :
    d = c ∨ isCased c = true ∧ c.toNat ≤ 0xffff ∧
      (isAlphanumeric d = true ∨ isCasedSign d = true) := by
  rcases List.mem_cons.mp h with hd | hd
  · exact Or.inl hd
  · cases hfound : lowerVariants.lookup c.toNat with
    | none => simp [hfound] at hd
    | some found =>
      obtain ⟨m, hm, rfl⟩ : ∃ m ∈ found, Char.ofNat m = d := by simpa [hfound] using hd
      obtain ⟨hcased, hbasic, hforms⟩ := lowerVariants_letters _ (mem_of_lookup hfound)
      exact Or.inr ⟨hcased, hbasic, hforms m hm⟩

theorem lowerForms_of_not_cased {c : Char} (h : isCased c = false) : lowerForms c = [c] := by
  cases hfound : lowerVariants.lookup c.toNat with
  | none => simp [lowerForms, hfound]
  | some found =>
    have hcased : isCased c = true := (lowerVariants_letters _ (mem_of_lookup hfound)).1
    rw [h] at hcased
    cases hcased

/-- A character that is the same letter as another one is that character, a letter or digit, or one of
the signs that have case. -/
theorem cases_of_sameLetter {e c : Char} (h : sameLetter e c = true) :
    c = e ∨ isAlphanumeric c = true ∨ isCasedSign c = true := by
  unfold sameLetter at h
  split at h
  · have hform : lowerChar c ∈ lowerForms (lowerChar e) := List.contains_iff_mem.mp h
    by_cases hc : lowerChar c = c
    · rw [hc] at hform
      rcases mem_lowerForms hform with hlower | ⟨-, -, hletter⟩
      · by_cases he : lowerChar e = e
        · exact Or.inl (hlower.trans he)
        · rcases lowerChar_ne_cases he with halpha | hcircled
          · rw [hlower]
            exact Or.inr (Or.inl (isAlphanumeric_lowerChar e halpha))
          · have hto := (lowerChar_of_circled hcircled).1
            have hrange := List.mem_range'_1.mp hcircled
            rw [← hlower] at hto
            refine Or.inr (Or.inr ?_)
            simp [isCasedSign]
            omega
      · exact Or.inr hletter
    · rcases lowerChar_ne_cases hc with halpha | hcircled
      · exact Or.inr (Or.inl halpha)
      · have hrange := List.mem_range'_1.mp hcircled
        refine Or.inr (Or.inr ?_)
        simp [isCasedSign]
        omega
  · exact Or.inl (beq_iff_eq.mp h)

end WordCycle
