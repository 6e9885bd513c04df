import WordCycle.Text.CaseFolding

/-! Fuzzy matching: the characters of the pattern occur in the word in their order, with any others
between them and letter case ignored. -/

namespace WordCycle
set_option autoImplicit false

/-- Whether the first text is found in the second by looking for each character behind the place of
the one before it. -/
def isSubsequence : Text → Text → Bool
  | [], _ => true
  | _ :: _, [] => false
  | p :: pattern, c :: word =>
    if p = c then isSubsequence pattern word else isSubsequence (p :: pattern) word

theorem isSubsequence_iff (pattern word : Text) :
    isSubsequence pattern word = true ↔ pattern.Sublist word := by
  fun_induction isSubsequence pattern word with
  | case1 => simp
  | case2 => simp
  | case3 p pattern word ih => simp [ih]
  | case4 p pattern c word h ih => simp [ih, List.sublist_cons_iff, h]

/-- Whether a word is a fuzzy match of a pattern. -/
def isFuzzyMatch (pattern word : Text) : Bool :=
  isSubsequence pattern.foldCase word.foldCase

/-- A word that begins with the pattern is a fuzzy match of it. -/
theorem isFuzzyMatch_of_prefix {pattern word : Text} (h : pattern <+: word) :
    isFuzzyMatch pattern word = true := by
  obtain ⟨behind, rfl⟩ := h
  rw [isFuzzyMatch, isSubsequence_iff, Text.foldCase_append]
  exact List.sublist_append_left _ _

end WordCycle
