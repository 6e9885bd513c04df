import WordCycle.Proofs.Scan.Nearest
import WordCycle.Proofs.Text.CaseFolding

/-! Fuzzy matches as subsequences of folded texts. Each character of the pattern is looked for at its first
place behind that of the one before it, and never taken back: a later place leaves less of the word for
the rest of the pattern, so no match is missed. -/

namespace WordCycle
set_option autoImplicit false

/-- The search goes on behind the first place of a character. -/
theorem isSubsequence_cons (c : Char) (pattern text : Text) :
    isSubsequence (c :: pattern) text =
      (text.idxOf? c).any fun i => isSubsequence pattern (text.drop (i + 1)) := by
  induction text with
  | nil => rfl
  | cons d text ih =>
    rw [isSubsequence, List.idxOf?_cons]
    by_cases hsame : c = d
    · simp [hsame]
    · have hother : (d == c) = false := by simpa using Ne.symm hsame
      rw [if_neg hsame, hother, ih]
      simp [Option.any_map]

theorem isFuzzyMatch_iff (pattern word : Text) :
    isFuzzyMatch pattern word = true ↔ pattern.foldCase.Sublist word.foldCase :=
  isSubsequence_iff _ _

theorem isFuzzyMatch_foldCase (pattern word : Text) :
    isFuzzyMatch pattern.foldCase word.foldCase = isFuzzyMatch pattern word := by
  rw [isFuzzyMatch, Text.foldCase_foldCase, Text.foldCase_foldCase, isFuzzyMatch]

namespace Scan

theorem ForWord.isFuzzyMatch_of_mem {s : Scan} {settings : Settings} {word : Text} {pos : Nat}
    {store : CandidateStore} (hs : s.ForWord pos) (hok : s.candidates settings word = .ok store)
    {c : Candidate} (hc : c ∈ store.regular) : isFuzzyMatch s.typed c.text = true := by
  cases hkind : c.kind with
  | exact => exact isFuzzyMatch_of_prefix (hs.begins_of_exact hok hc hkind)
  | fuzzy =>
    obtain ⟨store', hok', hmet⟩ := s.candidates_met settings word pos hs.pos_eq hs.pos_le
    obtain rfl := Except.ok.inj (hok'.symm.trans hok)
    obtain ⟨-, -, hfits, -⟩ := hmet c hc
    rw [hkind] at hfits
    exact hfits

end Scan

/-- A word is a fuzzy match of a pattern exactly if the folded pattern is a subsequence of the folded word,
though each character is only looked for at its first place behind the one before. So a word is a match of
itself and a match of a match is one of the pattern; which letter case is given does not matter, nor whether
a text is folded before; and a word that begins with the pattern is a match, as are all candidates of a
scan, the exact ones included. -/
theorem isFuzzyMatch_is_subsequence :
    (∀ pattern word : Text,
      isFuzzyMatch pattern word = true ↔ pattern.foldCase.Sublist word.foldCase) ∧
    (∀ (c : Char) (pattern text : Text), isSubsequence (c :: pattern) text =
      (text.idxOf? c).any fun i => isSubsequence pattern (text.drop (i + 1))) ∧
    (∀ word : Text, isFuzzyMatch word word = true) ∧
    (∀ pattern word word' : Text, isFuzzyMatch pattern word = true →
      isFuzzyMatch word word' = true → isFuzzyMatch pattern word' = true) ∧
    (∀ pattern pattern' word word' : Text, pattern.foldCase = pattern'.foldCase →
      word.foldCase = word'.foldCase → isFuzzyMatch pattern word = isFuzzyMatch pattern' word') ∧
    (∀ pattern word : Text,
      isFuzzyMatch pattern.foldCase word.foldCase = isFuzzyMatch pattern word) ∧
    (∀ pattern word : Text, pattern <+: word → isFuzzyMatch pattern word = true) ∧
    ∀ (extra text : Text) (pos : Nat) (settings : Settings), pos ≤ text.length →
      typedAt extra text pos ≠ [] →
      ∃ store, (Scan.atCaret extra text pos).candidates settings (wordAt extra text pos) = .ok store ∧
        ∀ c ∈ store.regular, isFuzzyMatch (typedAt extra text pos) c.text = true := by
  refine ⟨isFuzzyMatch_iff, isSubsequence_cons, ?_, ?_, ?_, isFuzzyMatch_foldCase,
    fun _ _ hbegins => isFuzzyMatch_of_prefix hbegins, ?_⟩
  · intro word
    exact (isFuzzyMatch_iff word word).mpr (List.Sublist.refl _)
  · intro pattern word word' hfirst hsecond
    rw [isFuzzyMatch_iff] at hfirst hsecond ⊢
    exact hfirst.trans hsecond
  · intro pattern pattern' word word' hpattern hword
    rw [isFuzzyMatch, hpattern, hword, isFuzzyMatch]
  · intro extra text pos settings hpos htyped
    have hs := Scan.forWord_atCaret hpos htyped
    obtain ⟨store, hok, -⟩ := (Scan.atCaret extra text pos).candidates_ok settings
      (wordAt extra text pos) pos rfl hpos
    exact ⟨store, hok, fun c hc => hs.isFuzzyMatch_of_mem hok hc⟩

/-- The sharp s folds to two letters, of which the pattern takes the second. -/
example : isFuzzyMatch "ST".toList "straße".toList = true ∧
    isFuzzyMatch "sß".toList "Straßs".toList = true ∧
    isFuzzyMatch "ßs".toList "Straße".toList = true ∧
    isFuzzyMatch "ßss".toList "Straße".toList = false := by decide +kernel

end WordCycle
