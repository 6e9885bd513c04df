import WordCycle.Proofs.Search.First
import WordCycle.Proofs.Text.CasedSigns

/-! Word starts of a search that ignores letter case. It ignores case before a match as well: a character
there counts as a word character also if it is the same letter as an extra one. That makes a difference
behind the signs that have case only. -/

namespace WordCycle
set_option autoImplicit false

namespace Search

/-! ## The character before a match -/

theorem foldedExtra_of_not_cased {e : Char} (h : isCased e = false) : foldedExtra e = [e] := by
  rw [foldedExtra, lowerChar_of_not_cased e h, lowerForms_of_not_cased h, ite_self]

theorem lowersBefore_of_cased {s : Search} {e : Char} (he : e ∈ s.extra) (h : isCased e = true) :
    s.lowersBefore = true :=
  List.any_eq_true.mpr ⟨e, he, by rw [h, Bool.true_or]⟩

theorem isCased_of_lowersBefore {s : Search} (h : s.lowersBefore = false) {e : Char}
    (he : e ∈ s.extra) : isCased e = false := by
  have hnone := List.any_eq_false.mp h e he
  rw [Bool.or_eq_true, not_or, Bool.not_eq_true] at hnone
  exact hnone.1

theorem cases_of_mem_foldedExtra {e c : Char} (h : lowerChar c ∈ foldedExtra e) :
    c = e ∨ isAlphanumeric c = true ∨ sameLetter e c = true := by
  by_cases hne : c = e
  · exact Or.inl hne
  by_cases hcased : isCased e = true
  · unfold foldedExtra at h
    split at h
    · next hastral =>
      have he : lowerChar c = e := List.mem_singleton.mp h
      rcases isAlphanumeric_of_astral e hastral with hsame | halpha
      · rw [hsame, ← he] at hastral
        rcases isAlphanumeric_of_astral c hastral with hc | halpha
        · exact Or.inl (hc.symm.trans he)
        · exact Or.inr (Or.inl halpha)
      · rw [← he] at halpha
        exact Or.inr (Or.inl (isAlphanumeric_of_lowerChar halpha))
    · refine Or.inr (Or.inr ?_)
      rw [sameLetter, if_pos hcased]
      exact List.contains_iff_mem.mpr h
  · rw [Bool.not_eq_true] at hcased
    rw [foldedExtra_of_not_cased hcased, List.mem_singleton] at h
    exact Or.inr (Or.inl (isAlphanumeric_of_lowerChar_eq h hne hcased))

theorem mem_foldedExtra_of_sameLetter {e c : Char} (hcased : isCased e = true)
    (h : sameLetter e c = true) :
    c = e ∨ isAlphanumeric c = true ∨ lowerChar c ∈ foldedExtra e := by
  rw [sameLetter, if_pos hcased, List.contains_iff_mem] at h
  unfold foldedExtra
  split
  · next hastral =>
    -- beyond the basic plane a letter has one lower case form
    have hc : lowerChar c = lowerChar e := by
      rcases mem_lowerForms h with hc | ⟨-, hbasic, -⟩
      · exact hc
      · omega
    rcases isAlphanumeric_of_astral c (hc ▸ hastral) with hsame | halpha
    · rcases isAlphanumeric_of_astral e hastral with he | halpha
      · exact Or.inl (hsame.symm.trans (hc.trans he))
      · rw [← hsame, hc]
        exact Or.inr (Or.inl (isAlphanumeric_lowerChar e halpha))
    · exact Or.inr (Or.inl halpha)
  · exact Or.inr (Or.inr h)

/-- Where case is ignored, word characters and the same letters as extra ones count as word characters
before a match. -/
theorem wordBefore_iff {s : Search} (hcase : s.matchCase = false) (c : Char) :
    s.wordBefore c = true ↔ isWordChar s.extra c = true ∨ ∃ e ∈ s.extra, sameLetter e c = true := by
  have hword : c ∈ s.extra ∨ isAlphanumeric c = true → isWordChar s.extra c = true := by
    rw [isWordChar_iff]
    tauto
  constructor
  · intro h
    rw [wordBefore, if_neg (by simp [hcase]), isWordChar_iff] at h
    cases hlowers : s.lowersBefore with
    | true =>
      rw [if_pos hlowers] at h
      rcases h with halpha | hunderscore | hfolded
      · exact Or.inl (hword (Or.inr (isAlphanumeric_of_lowerChar halpha)))
      · by_cases hc : c = '_'
        · exact Or.inl ((isWordChar_iff _ _).mpr (Or.inr (Or.inl hc)))
        · exact Or.inl (hword (Or.inr (isAlphanumeric_of_lowerChar_eq hunderscore hc (by decide))))
      · obtain ⟨e, he, hform⟩ := List.mem_flatMap.mp hfolded
        rcases cases_of_mem_foldedExtra hform with rfl | halpha | hsame
        · exact Or.inl (hword (Or.inl he))
        · exact Or.inl (hword (Or.inr halpha))
        · exact Or.inr ⟨e, he, hsame⟩
    | false =>
      rw [if_neg (by simp [hlowers])] at h
      refine Or.inl ((isWordChar_iff _ _).mpr (h.imp_right (Or.imp_right fun hfolded => ?_)))
      obtain ⟨e, he, hform⟩ := List.mem_flatMap.mp hfolded
      rw [foldedExtra_of_not_cased (isCased_of_lowersBefore hlowers he), List.mem_singleton] at hform
      exact hform ▸ he
  · rintro (h | ⟨e, he, hsame⟩)
    · exact s.wordBefore_of_isWordChar c h
    cases hcased : isCased e with
    | false =>
      rw [sameLetter, if_neg (by simp [hcased]), beq_iff_eq] at hsame
      exact s.wordBefore_of_isWordChar c (hword (Or.inl (hsame ▸ he)))
    | true =>
      rcases mem_foldedExtra_of_sameLetter hcased hsame with rfl | halpha | hform
      · exact s.wordBefore_of_isWordChar c (hword (Or.inl he))
      · exact s.wordBefore_of_isWordChar c (hword (Or.inr halpha))
      · rw [wordBefore, if_neg (by simp [hcase]), if_pos (lowersBefore_of_cased he hcased), isWordChar_iff]
        exact Or.inr (Or.inr (List.mem_flatMap.mpr ⟨e, he, hform⟩))

theorem forms_of_not_sign {extra : Text} {b : Char} (hsign : isCasedSign b = false)
    (hno : isWordChar extra b = false) : ∀ e ∈ extra, sameLetter e b = false := by
  intro e he
  rw [← Bool.not_eq_true] at hno ⊢
  rw [isWordChar_iff] at hno
  intro hsame
  rcases cases_of_sameLetter hsame with rfl | halpha | hcased
  · exact hno (Or.inr (Or.inr he))
  · exact hno (Or.inl halpha)
  · rw [hsign] at hcased
    cases hcased

/-! ## Word starts -/

/-- A letter stands in a text behind no word character, and behind no other form of an extra one. -/
structure LetterAt (extra text : Text) (p : Char) (i : Nat) : Prop where
  letter : ∃ c, text[i]? = some c ∧ sameLetter p c = true
  before : i = 0 ∨ ∃ b, text[i - 1]? = some b ∧ isWordChar extra b = false ∧
    ∀ e ∈ extra, sameLetter e b = false

theorem wordStartAt_eq_self_iff (extra text : Text) {i : Nat} (h : i ≤ text.length) :
    wordStartAt extra text i = i ↔
      i = 0 ∨ ∃ b, text[i - 1]? = some b ∧ isWordChar extra b = false := by
  cases i with
  | zero => simp [wordStartAt]
  | succ i =>
    rw [wordStartAt, List.take_add_one, List.getElem?_eq_getElem h, Option.toList_some,
      List.reverse_append, List.reverse_singleton, List.singleton_append, List.takeWhile_cons]
    cases hword : isWordChar extra text[i] with
    | true =>
      simp [List.getElem?_eq_getElem h, hword]
      omega
    | false => simp [List.getElem?_eq_getElem h, hword]

theorem fitsAt_iff_letterAt (extra text : Text) (p : Char) (i : Nat) :
    fitsAt { pattern := [p], extra, matchCase := false } text i = true ↔ LetterAt extra text p i := by
  have hletter : beginsWith (accepts { pattern := [p], extra, matchCase := false }) [p] (text.drop i) =
      true ↔ ∃ c, text[i]? = some c ∧ sameLetter p c = true := by
    rw [← List.head?_drop]
    cases text.drop i <;> simp [beginsWith, accepts]
  have hbefore (b : Char) : wordBefore { pattern := [p], extra, matchCase := false } b = false ↔
      isWordChar extra b = false ∧ ∀ e ∈ extra, sameLetter e b = false := by
    rw [← Bool.not_eq_true, wordBefore_iff rfl]
    simp
  rw [fitsAt, matchesAt, Bool.and_eq_true, hletter, Bool.true_and, Bool.not_eq_true']
  constructor
  · rintro ⟨⟨c, hc, hsame⟩, hbehind⟩
    have hlt := (List.getElem?_eq_some_iff.mp hc).1
    rw [any_charBefore_eq_false_iff _ text (Nat.le_of_lt hlt)] at hbehind
    refine ⟨⟨c, hc, hsame⟩, ?_⟩
    rcases hbehind with hzero | ⟨b, hb, hno⟩
    · exact Or.inl hzero
    · exact Or.inr ⟨b, hb, (hbefore b).mp hno⟩
  · rintro ⟨⟨c, hc, hsame⟩, hbehind⟩
    have hlt := (List.getElem?_eq_some_iff.mp hc).1
    refine ⟨⟨c, hc, hsame⟩, ?_⟩
    rw [any_charBefore_eq_false_iff _ text (Nat.le_of_lt hlt)]
    rcases hbehind with hzero | ⟨b, hb, hno⟩
    · exact Or.inl hzero
    · exact Or.inr ⟨b, hb, (hbefore b).mpr hno⟩

/-- A search for one letter that ignores case answers with the first position in range at which the
letter stands behind no word character and behind no other form of an extra one; so does the expression
that it is written as. If the character before is none of the signs that have case, this means that the
letter stands there and that a word starts. -/
theorem first_ignoring_case (extra text : Text) (p : Char) :
    (∀ start stop : Nat, start ≤ text.length → stop ≤ text.length →
      ∃ r, Answers { pattern := [p], extra, matchCase := false } text start stop
        {i | start ≤ i ∧ i < stop ∧ LetterAt extra text p i} r) ∧
    ∀ i, (∀ b ∈ charBefore text i, isCasedSign b = false) →
      (LetterAt extra text p i ↔
        (∃ c, text[i]? = some c ∧ sameLetter p c = true) ∧ wordStartAt extra text i = i) := by
  refine ⟨fun start stop hstart hstop => ?_, fun i hsign => ?_⟩
  · obtain ⟨r, hanswers⟩ :=
      exists_answers { pattern := [p], extra, matchCase := false } (List.cons_ne_nil p []) text
        (isCountable_natCast hstart).2 (isCountable_natCast hstop).1
    have hpositions : {i : Nat | max (start : Int) 0 ≤ i ∧
        (i + [p].length : Int) ≤ min (stop : Int) text.length ∧
        fitsAt { pattern := [p], extra, matchCase := false } text i = true} =
        {i | start ≤ i ∧ i < stop ∧ LetterAt extra text p i} := by
      ext i
      simp only [Set.mem_ofPred_eq, fitsAt_iff_letterAt, List.length_singleton]
      constructor
      · rintro ⟨hlow, hhigh, hat⟩
        exact ⟨by omega, by omega, hat⟩
      · rintro ⟨hlow, hhigh, hat⟩
        exact ⟨by omega, by omega, hat⟩
    rw [hpositions] at hanswers
    exact ⟨r, hanswers⟩
  · constructor
    · rintro ⟨⟨c, hc, hsame⟩, hbefore⟩
      have hlt := (List.getElem?_eq_some_iff.mp hc).1
      refine ⟨⟨c, hc, hsame⟩, (wordStartAt_eq_self_iff extra text (Nat.le_of_lt hlt)).mpr ?_⟩
      exact hbefore.imp_right fun ⟨b, hb, hno, _⟩ => ⟨b, hb, hno⟩
    · rintro ⟨⟨c, hc, hsame⟩, hstart⟩
      have hlt := (List.getElem?_eq_some_iff.mp hc).1
      rw [wordStartAt_eq_self_iff extra text (Nat.le_of_lt hlt)] at hstart
      refine ⟨⟨c, hc, hsame⟩, ?_⟩
      rcases Nat.eq_zero_or_pos i with hzero | hpos
      · exact Or.inl hzero
      obtain ⟨b, hb, hno⟩ := hstart.resolve_left (by omega)
      have hbehind : charBefore text i = some b := by
        obtain ⟨j, rfl⟩ : ∃ j, i = j + 1 := ⟨i - 1, by omega⟩
        exact hb
      exact Or.inr ⟨b, hb, hno, forms_of_not_sign (hsign b hbehind) hno⟩

/-- The capital is passed over, since it stands behind the other form of the extra character; the letter
behind the blank is found. -/
theorem first_ignoring_case_blank :
    0 ≤ "ⒶF f".toList.length ∧ 4 ≤ "ⒶF f".toList.length ∧
    Answers { pattern := ['f'], extra := ['ⓐ'], matchCase := false } "ⒶF f".toList 0 4
      {i | 0 ≤ i ∧ i < 4 ∧ LetterAt ['ⓐ'] "ⒶF f".toList 'f' i} (some 3) ∧
    (∀ b ∈ charBefore "ⒶF f".toList 3, isCasedSign b = false) ∧
      wordStartAt ['ⓐ'] "ⒶF f".toList 3 = 3 := by
  have hlow : 0 ≤ "ⒶF f".toList.length := by decide
  have hhigh : 4 ≤ "ⒶF f".toList.length := by decide
  have hsign : ∀ b ∈ charBefore "ⒶF f".toList 3, isCasedSign b = false := by
    rintro b ⟨⟩
    rfl
  obtain ⟨hsearch, hstarts⟩ := first_ignoring_case ['ⓐ'] "ⒶF f".toList 'f'
  obtain ⟨r, hanswers⟩ := hsearch 0 4 hlow hhigh
  have hrun : first? { pattern := ['f'], extra := ['ⓐ'], matchCase := false } "ⒶF f".toList 0 4 =
      .ok (some 3) := by decide +kernel
  obtain rfl := Except.ok.inj (hanswers.search.symm.trans hrun)
  have hleast := (hanswers.first.1 3).mp rfl
  exact ⟨hlow, hhigh, hanswers, hsign, ((hstarts 3 hsign).mp hleast.1.2.2).2⟩

/-- A word starts behind a circled capital whose small form is an extra character. A search that minds
case finds it, one that ignores case does not. -/
theorem word_start_passed_over :
    isWordChar ['ⓐ'] 'Ⓐ' = false ∧ wordStartAt ['ⓐ'] "Ⓐf".toList 1 = 1 ∧
    first? { pattern := ['f'], extra := ['ⓐ'] } "Ⓐf".toList 0 2 = .ok (some 1) ∧
    first? { pattern := ['f'], extra := ['ⓐ'], matchCase := false } "Ⓐf".toList 0 2 = .ok none := by
  decide +kernel

end Search
end WordCycle
