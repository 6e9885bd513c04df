import WordCycle.Proofs.Word.Extent

/-! The extents of words as seen from two positions of a text. The word at the later one begins no later
than the earlier one exactly if the word at the earlier one ends no sooner than the later one, which is if
nothing but word characters stands between them. Whatever else relates the two extents follows from that. -/

namespace WordCycle
set_option autoImplicit false

/-! ## What stands between two positions -/

/-- Nothing but word characters stands between two positions. -/
def WordsOnly (extra text : Text) (p q : Int) : Prop :=
  ∀ c ∈ text.slice p q, isWordChar extra c = true

instance (extra text : Text) (p q : Int) : Decidable (WordsOnly extra text p q) :=
  List.decidableBAll (isWordChar extra · = true) (text.slice p q)

section
variable {extra text : Text} {p q r : Nat}

theorem wordsOnly_iff_of_between (hpq : p ≤ q) (hqr : q ≤ r) :
    WordsOnly extra text p r ↔ WordsOnly extra text p q ∧ WordsOnly extra text q r := by
  have hsplit : text.slice p r = text.slice p q ++ text.slice q r := by
    have hlength : r - p = (q - p) + (r - q) := by omega
    have hdrop : text.drop q = (text.drop p).drop (q - p) := by
      rw [List.drop_drop, Nat.add_sub_of_le hpq]
    rw [Text.slice_natCast, Text.slice_natCast, Text.slice_natCast, hlength, List.take_add, hdrop]
  rw [WordsOnly, hsplit]
  exact List.forall_mem_append

/-! ## The two scans -/

/-- A scan passes so many characters exactly if it stops at none of them. -/
theorem le_length_takeWhile_iff (f : Char → Bool) (t : Text) {n : Nat} (h : n ≤ t.length) :
    n ≤ (t.takeWhile f).length ↔ ∀ c ∈ t.take n, f c = true := by
  induction t generalizing n with
  | nil =>
    obtain rfl : n = 0 := Nat.le_zero.mp h
    simp
  | cons d t ih =>
    cases n with
    | zero => simp
    | succ n =>
      have hrest := ih (Nat.le_of_succ_le_succ h)
      cases hd : f d with
      | true => simp [hd, hrest]
      | false => simp [hd]

theorem wordStartAt_le_iff (hpq : p ≤ q) (hq : q ≤ text.length) :
    wordStartAt extra text q ≤ p ↔ WordsOnly extra text p q := by
  have hlength : (text.take q).length = q := by rw [List.length_take, Nat.min_eq_left hq]
  -- The scan goes backwards, so what it passes is the slice in reverse.
  have hslice : (text.take q).reverse.take (q - p) = (text.slice p q).reverse := by
    rw [List.take_reverse, hlength, Nat.sub_sub_self hpq, List.drop_take, Text.slice_natCast]
  have hscan := le_length_takeWhile_iff (isWordChar extra) (text.take q).reverse (n := q - p)
    (by rw [List.length_reverse, hlength]; exact Nat.sub_le q p)
  rw [hslice] at hscan
  simp only [List.mem_reverse] at hscan
  rw [WordsOnly, ← hscan, wordStartAt]
  omega

theorem le_wordEndAt_iff (hpq : p ≤ q) (hq : q ≤ text.length) :
    q ≤ wordEndAt extra text p ↔ WordsOnly extra text p q := by
  have hscan := le_length_takeWhile_iff (isWordChar extra) (text.drop p) (n := q - p)
    (by rw [List.length_drop]; exact Nat.sub_le_sub_right hq p)
  rw [WordsOnly, Text.slice_natCast, ← hscan, wordEndAt]
  omega

theorem wordsOnly_wordStartAt (hp : p ≤ text.length) :
    WordsOnly extra text (wordStartAt extra text p) p :=
  (wordStartAt_le_iff (wordStartAt_le extra text p) hp).mp (Nat.le_refl _)

theorem wordsOnly_wordEndAt (hp : p ≤ text.length) :
    WordsOnly extra text p (wordEndAt extra text p) :=
  (le_wordEndAt_iff (le_wordEndAt extra text p) (wordEndAt_le extra text hp)).mp (Nat.le_refl _)

/-! ## Order -/

theorem wordStartAt_mono (hpq : p ≤ q) (hq : q ≤ text.length) :
    wordStartAt extra text p ≤ wordStartAt extra text q := by
  have hp : p ≤ text.length := Nat.le_trans hpq hq
  rcases Nat.le_total p (wordStartAt extra text q) with h | h
  · exact Nat.le_trans (wordStartAt_le extra text p) h
  · have hword := (wordsOnly_iff_of_between h hpq).mp (wordsOnly_wordStartAt hq)
    exact (wordStartAt_le_iff h hp).mpr hword.1

theorem wordEndAt_mono (hpq : p ≤ q) (hq : q ≤ text.length) :
    wordEndAt extra text p ≤ wordEndAt extra text q := by
  have hp : p ≤ text.length := Nat.le_trans hpq hq
  rcases Nat.le_total (wordEndAt extra text p) q with h | h
  · exact Nat.le_trans h (le_wordEndAt extra text q)
  · have hword := (wordsOnly_iff_of_between hpq h).mp (wordsOnly_wordEndAt hp)
    exact (le_wordEndAt_iff h (wordEndAt_le extra text hp)).mpr hword.2

theorem wordStartAt_wordStartAt (hp : p ≤ text.length) :
    wordStartAt extra text (wordStartAt extra text p) = wordStartAt extra text p := by
  have hle := wordStartAt_le extra text p
  have hback := wordStartAt_le extra text (wordStartAt extra text p)
  have hword := (wordsOnly_iff_of_between hback hle).mpr
    ⟨wordsOnly_wordStartAt (Nat.le_trans hle hp), wordsOnly_wordStartAt hp⟩
  exact Nat.le_antisymm hback ((wordStartAt_le_iff (Nat.le_trans hback hle) hp).mpr hword)

theorem wordEndAt_wordEndAt (hp : p ≤ text.length) :
    wordEndAt extra text (wordEndAt extra text p) = wordEndAt extra text p := by
  have hle := le_wordEndAt extra text p
  have hend := wordEndAt_le extra text hp
  have hon := le_wordEndAt extra text (wordEndAt extra text p)
  have hword := (wordsOnly_iff_of_between hle hon).mpr
    ⟨wordsOnly_wordEndAt hp, wordsOnly_wordEndAt hend⟩
  exact Nat.le_antisymm
    ((le_wordEndAt_iff (Nat.le_trans hle hon) (wordEndAt_le extra text hend)).mpr hword) hon

/-! ## One run -/

theorem wordsOnly_iff_extents_eq (hpq : p ≤ q) (hq : q ≤ text.length) :
    WordsOnly extra text p q ↔ wordStartAt extra text p = wordStartAt extra text q ∧
      wordEndAt extra text p = wordEndAt extra text q := by
  have hp : p ≤ text.length := Nat.le_trans hpq hq
  constructor
  · intro hword
    have hbefore := (wordsOnly_iff_of_between (wordStartAt_le extra text p) hpq).mpr
      ⟨wordsOnly_wordStartAt hp, hword⟩
    have hbehind := (wordsOnly_iff_of_between hpq (le_wordEndAt extra text q)).mpr
      ⟨hword, wordsOnly_wordEndAt hq⟩
    constructor
    · refine Nat.le_antisymm (wordStartAt_mono hpq hq) ?_
      exact (wordStartAt_le_iff (Nat.le_trans (wordStartAt_le extra text p) hpq) hq).mpr hbefore
    · refine Nat.le_antisymm (wordEndAt_mono hpq hq) ?_
      exact (le_wordEndAt_iff (Nat.le_trans hpq (le_wordEndAt extra text q))
        (wordEndAt_le extra text hq)).mpr hbehind
  · rintro ⟨hstart, -⟩
    exact (wordStartAt_le_iff hpq hq).mp (hstart ▸ wordStartAt_le extra text p)

/-- From anywhere in a whole word, its two borders included, the extents are the ends of the word. -/
theorem IsWholeWord.extents_inside {word : Text} {start : Nat} (h : IsWholeWord extra text start word)
    (hstart : start ≤ p) (hstop : p ≤ start + word.length) :
    wordStartAt extra text p = start ∧ wordEndAt extra text p = start + word.length := by
  obtain ⟨hback, hon⟩ := h.extents
  have hword : WordsOnly extra text start (start + word.length : Nat) :=
    (le_wordEndAt_iff (Nat.le_add_right _ _) h.end_le).mp (Nat.le_of_eq hon.symm)
  obtain ⟨hfront, hrest⟩ := (wordsOnly_iff_of_between hstart hstop).mp hword
  have hfirst := (wordsOnly_iff_extents_eq hstart (Nat.le_trans hstop h.end_le)).mp hfront
  have hlast := (wordsOnly_iff_extents_eq hstop h.end_le).mp hrest
  exact ⟨hlast.1.trans hback, hfirst.2.symm.trans hon⟩

end

/-! ## Any positions -/

/-- Both extents are found from every two positions of a text, and they are adjoint: the word at the later
position begins no later than the earlier one exactly if the word at the earlier one ends no sooner than
the later one, which is if nothing but word characters stands between. The extents lie around their
position and inside the text, keep the order of positions and stay where they are; positions of one run
of word characters share them, and it is the ends of the run that they share. -/
theorem extents_adjoint (extra text : Text) {p q : Int} (hp : 0 ≤ p) (hpq : p ≤ q)
    (hq : q ≤ text.length) :
    ∃ start stop start' stop' : Int,
      wordStart extra text p = .ok start ∧ wordEnd extra text p = .ok stop ∧
      wordStart extra text q = .ok start' ∧ wordEnd extra text q = .ok stop' ∧
      (start' ≤ p ↔ q ≤ stop) ∧ (start' ≤ p ↔ WordsOnly extra text p q) ∧
      (0 ≤ start ∧ start ≤ p ∧ p ≤ stop ∧ stop ≤ text.length) ∧
      (start ≤ start' ∧ stop ≤ stop') ∧
      (wordStart extra text start = .ok start ∧ wordEnd extra text stop = .ok stop) ∧
      (WordsOnly extra text p q ↔ start = start' ∧ stop = stop') ∧
      ∀ (first : Nat) (word : Text), IsWholeWord extra text first word → first ≤ p →
        q ≤ first + word.length →
        start = first ∧ stop = first + word.length ∧ start' = first ∧ stop' = first + word.length := by
  obtain ⟨p, rfl⟩ := Int.eq_ofNat_of_zero_le hp
  obtain ⟨q, rfl⟩ := Int.eq_ofNat_of_zero_le (Int.le_trans hp hpq)
  rw [Int.ofNat_le] at hpq hq
  have hlen : p ≤ text.length := Nat.le_trans hpq hq
  have hback := wordStartAt_le extra text p
  have hend := wordEndAt_le extra text hlen
  refine ⟨_, _, _, _, wordStart_natCast extra text hlen, wordEnd_natCast extra text hlen,
    wordStart_natCast extra text hq, wordEnd_natCast extra text hq, ?_⟩
  simp only [Int.ofNat_le, Int.natCast_inj]
  refine ⟨(wordStartAt_le_iff hpq hq).trans (le_wordEndAt_iff hpq hq).symm,
    wordStartAt_le_iff hpq hq, ⟨Int.natCast_nonneg _, hback, le_wordEndAt extra text p, hend⟩,
    ⟨wordStartAt_mono hpq hq, wordEndAt_mono hpq hq⟩, ⟨?_, ?_⟩, wordsOnly_iff_extents_eq hpq hq, ?_⟩
  · rw [wordStart_natCast extra text (Nat.le_trans hback hlen), wordStartAt_wordStartAt hlen]
  · rw [wordEnd_natCast extra text hend, wordEndAt_wordEndAt hlen]
  · intro first word hword hfirst hstop
    have hstop : q ≤ first + word.length := by omega
    obtain ⟨hstart, hon⟩ := hword.extents_inside hfirst (Nat.le_trans hpq hstop)
    obtain ⟨hstart', hon'⟩ := hword.extents_inside (Nat.le_trans hfirst hpq) hstop
    rw [hstart, hon, hstart', hon', Int.natCast_add]
    exact ⟨rfl, rfl, rfl, rfl⟩

/-- The extra character of the text joins two words to one, which begins behind the blank. -/
theorem extents_adjoint_joined :
    let text := "a b-c".toList
    (0 : Int) ≤ 2 ∧ (2 : Int) ≤ 5 ∧ (5 : Int) ≤ text.length ∧ WordsOnly "-".toList text 2 5 ∧
      ∃ start stop start' stop' : Int,
        wordStart "-".toList text 2 = .ok start ∧ wordEnd "-".toList text 2 = .ok stop ∧
        wordStart "-".toList text 5 = .ok start' ∧ wordEnd "-".toList text 5 = .ok stop' ∧
        start' ≤ 2 ∧ 5 ≤ stop ∧ start = start' ∧ stop = stop' := by
  have hword : WordsOnly "-".toList "a b-c".toList 2 5 := by decide +kernel
  obtain ⟨start, stop, start', stop', hs, he, hs', he', hadjoint, honly, -, -, -, hshare, -⟩ :=
    extents_adjoint "-".toList "a b-c".toList (p := 2) (q := 5) (by decide) (by decide) (by decide)
  have hback := honly.mpr hword
  obtain ⟨hstart, hstop⟩ := hshare.mp hword
  exact ⟨by decide, by decide, by decide, hword, start, stop, start', stop', hs, he, hs', he', hback,
    hadjoint.mp hback, hstart, hstop⟩

end WordCycle
