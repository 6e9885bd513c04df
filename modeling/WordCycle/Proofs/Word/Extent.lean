import WordCycle.Search
import Mathlib.Data.List.TakeWhile

/-! The word around a position, as a cut of the text into four parts: what stands before the word,
its characters before the position, those behind it, and what follows the word. Every position of a
text has such a cut, and both extents are read off it. -/

namespace WordCycle
set_option autoImplicit false

/-- A text cut at a position and at both ends of the word around it. The word is empty where the
position touches no word character. -/
structure WordCut (extra text : Text) (pos : Nat) (before typed rest behind : Text) : Prop where
  text_eq : text = before ++ typed ++ (rest ++ behind)
  pos_eq : pos = before.length + typed.length
  typed_word : ∀ c ∈ typed, isWordChar extra c = true
  rest_word : ∀ c ∈ rest, isWordChar extra c = true
  before_ends : ∀ c ∈ before.getLast?, isWordChar extra c = false
  behind_begins : ∀ c ∈ behind.head?, isWordChar extra c = false

/-- What stands between the beginning of the word around a position and the position. -/
def typedAt (extra text : Text) (pos : Nat) : Text :=
  text.slice (wordStartAt extra text pos) pos

/-- The word around a position. -/
def wordAt (extra text : Text) (pos : Nat) : Text :=
  text.slice (wordStartAt extra text pos) (wordEndAt extra text pos)

/-! ## Runs of word characters -/

theorem takeWhile_eq_nil_of_head? (p : Char → Bool) (t : Text)
    (h : ∀ c ∈ t.head?, p c = false) : t.takeWhile p = [] := by
  cases t with
  | nil => rfl
  | cons c t =>
    have hc : p c = false := h c rfl
    simp [hc]

theorem head?_dropWhile_eq_false (p : Char → Bool) (t : Text) :
    ∀ c ∈ (t.dropWhile p).head?, p c = false := by
  intro c hc
  have h := List.head?_dropWhile_not p t
  rw [Option.mem_def.mp hc] at h
  exact h

theorem takeWhile_run_append (p : Char → Bool) (run behind : Text)
    (hrun : ∀ c ∈ run, p c = true) (hbehind : ∀ c ∈ behind.head?, p c = false) :
    (run ++ behind).takeWhile p = run := by
  rw [List.takeWhile_append_of_pos hrun, takeWhile_eq_nil_of_head? p behind hbehind,
    List.append_nil]

/-! ## The cut at a position -/

theorem exists_wordCut (extra text : Text) (pos : Nat) (h : pos ≤ text.length) :
    ∃ before typed rest behind, WordCut extra text pos before typed rest behind := by
  let p := isWordChar extra
  let back := (text.take pos).reverse
  refine ⟨(back.dropWhile p).reverse, (back.takeWhile p).reverse,
    (text.drop pos).takeWhile p, (text.drop pos).dropWhile p, ?_⟩
  have hback : (back.dropWhile p).reverse ++ (back.takeWhile p).reverse = text.take pos := by
    rw [← List.reverse_append, List.takeWhile_append_dropWhile, List.reverse_reverse]
  constructor
  · rw [hback, List.takeWhile_append_dropWhile, List.take_append_drop]
  · rw [← List.length_append, hback, List.length_take, Nat.min_eq_left h]
  · intro c hc
    exact List.mem_takeWhile_imp (List.mem_reverse.mp hc)
  · intro c hc
    exact List.mem_takeWhile_imp hc
  · rw [List.getLast?_reverse]
    exact head?_dropWhile_eq_false p back
  · exact head?_dropWhile_eq_false p (text.drop pos)

namespace WordCut
variable {extra text before typed rest behind : Text} {pos : Nat}

theorem take_pos (h : WordCut extra text pos before typed rest behind) :
    text.take pos = before ++ typed := by
  rw [h.text_eq, h.pos_eq, ← List.length_append, List.take_left]

theorem drop_pos (h : WordCut extra text pos before typed rest behind) :
    text.drop pos = rest ++ behind := by
  rw [h.text_eq, h.pos_eq, ← List.length_append, List.drop_left]

theorem pos_le (h : WordCut extra text pos before typed rest behind) : pos ≤ text.length := by
  rw [h.text_eq, h.pos_eq, List.length_append, List.length_append]
  exact Nat.le_add_right _ _

theorem wordStartAt_eq (h : WordCut extra text pos before typed rest behind) :
    wordStartAt extra text pos = before.length := by
  have hrun : (text.take pos).reverse.takeWhile (isWordChar extra) = typed.reverse := by
    rw [h.take_pos, List.reverse_append]
    apply takeWhile_run_append
    · intro c hc
      exact h.typed_word c (List.mem_reverse.mp hc)
    · rw [List.head?_reverse]
      exact h.before_ends
  rw [wordStartAt, hrun, List.length_reverse, h.pos_eq, Nat.add_sub_cancel]

theorem wordEndAt_eq (h : WordCut extra text pos before typed rest behind) :
    wordEndAt extra text pos = pos + rest.length := by
  rw [wordEndAt, h.drop_pos, takeWhile_run_append _ _ _ h.rest_word h.behind_begins]

theorem typedAt_eq (h : WordCut extra text pos before typed rest behind) :
    typedAt extra text pos = typed := by
  rw [typedAt, h.wordStartAt_eq, Text.slice_natCast, h.text_eq, List.append_assoc,
    List.drop_left, h.pos_eq, Nat.add_sub_cancel_left, List.take_left]

theorem wordAt_eq (h : WordCut extra text pos before typed rest behind) :
    wordAt extra text pos = typed ++ rest := by
  have hlen : before.length + typed.length + rest.length - before.length
      = (typed ++ rest).length := by
    rw [List.length_append]
    omega
  have htext : text = before ++ (typed ++ rest ++ behind) := by
    rw [h.text_eq, List.append_assoc, List.append_assoc]
  rw [wordAt, h.wordStartAt_eq, h.wordEndAt_eq, Text.slice_natCast, h.pos_eq, hlen, htext,
    List.drop_left, List.take_left]

theorem typed_ne_nil (h : WordCut extra text pos before typed rest behind)
    (hlt : wordStartAt extra text pos < pos) : typed ≠ [] := by
  rintro rfl
  have hpos := h.pos_eq
  rw [h.wordStartAt_eq] at hlt
  rw [List.length_nil] at hpos
  omega

/-- The end of the word has the same word around it, now all in front. -/
theorem word_end (h : WordCut extra text pos before typed rest behind) :
    WordCut extra text (pos + rest.length) before (typed ++ rest) [] behind where
  text_eq := by rw [h.text_eq, List.nil_append, List.append_assoc, List.append_assoc, List.append_assoc]
  pos_eq := by rw [h.pos_eq, List.length_append, Nat.add_assoc]
  typed_word := by
    intro c hc
    exact (List.mem_append.mp hc).elim (h.typed_word c) (h.rest_word c)
  rest_word := by simp
  before_ends := h.before_ends
  behind_begins := h.behind_begins

end WordCut

theorem slice_wordEndAt (extra text : Text) (pos : Nat) :
    text.slice pos (wordEndAt extra text pos) = (text.drop pos).takeWhile (isWordChar extra) := by
  rw [Text.slice_natCast, wordEndAt, Nat.add_sub_cancel_left]
  exact (List.prefix_iff_eq_take.mp (List.takeWhile_prefix _)).symm

/-! ## Whole words -/

/-- A word of a text, which begins at `start`: word characters only, and none on either side. -/
def IsWholeWord (extra text : Text) (start : Nat) (word : Text) : Prop :=
  word ≠ [] ∧ ∃ before behind, WordCut extra text start before [] word behind

theorem any_charBefore_length (p : Char → Bool) (before behind : Text) :
    (Search.charBefore (before ++ behind) before.length).any p = before.getLast?.any p := by
  rcases List.eq_nil_or_concat before with rfl | ⟨init, last, rfl⟩
  · rfl
  · simp [Search.charBefore]

theorem typedAt_word {extra text : Text} {pos : Nat} (h : pos ≤ text.length) :
    ∀ c ∈ typedAt extra text pos, isWordChar extra c = true := by
  obtain ⟨before, typed, rest, behind, hcut⟩ := exists_wordCut extra text pos h
  rw [hcut.typedAt_eq]
  exact hcut.typed_word

/-- There is no word in front of a position if and only if no word character stands before it. -/
theorem typedAt_eq_nil_iff {extra text : Text} {pos : Nat} (h : pos ≤ text.length) :
    typedAt extra text pos = [] ↔
      (Search.charBefore text pos).any (isWordChar extra) = false := by
  obtain ⟨before, typed, rest, behind, hcut⟩ := exists_wordCut extra text pos h
  have hlast := any_charBefore_length (isWordChar extra) (before ++ typed) (rest ++ behind)
  rw [← hcut.text_eq, List.length_append, ← hcut.pos_eq] at hlast
  rw [hcut.typedAt_eq, hlast]
  rcases List.eq_nil_or_concat typed with rfl | ⟨init, last, rfl⟩
  · simpa [Option.any_eq_false] using hcut.before_ends
  · have hword := hcut.typed_word last (by simp)
    simp [← List.append_assoc, hword]

/-- A whole word begins behind no word character and is the run of word characters from there. -/
theorem isWholeWord_iff (extra text : Text) (start : Nat) (word : Text) :
    IsWholeWord extra text start word ↔
      word ≠ [] ∧ (Search.charBefore text start).any (isWordChar extra) = false ∧
        (text.drop start).takeWhile (isWordChar extra) = word := by
  constructor
  · rintro ⟨hne, before, behind, h⟩
    refine ⟨hne, ?_, ?_⟩
    · have hstart : start = before.length := by simpa using h.pos_eq
      have hends := h.before_ends
      rw [hstart, h.text_eq, List.append_assoc, any_charBefore_length]
      simpa [Option.any_eq_false] using hends
    · rw [h.drop_pos, takeWhile_run_append _ _ _ h.rest_word h.behind_begins]
  · rintro ⟨hne, hbefore, hword⟩
    have hdrop : text.drop start ≠ [] := by
      intro hnil
      rw [hnil] at hword
      exact hne hword.symm
    have hle : start ≤ text.length := by
      by_contra hgt
      exact hdrop (List.drop_eq_nil_of_le (by omega))
    have hlen : (text.take start).length = start := by
      rw [List.length_take, Nat.min_eq_left hle]
    refine ⟨hne, text.take start, (text.drop start).dropWhile (isWordChar extra), ?_⟩
    constructor
    · rw [List.append_nil, ← hword, List.takeWhile_append_dropWhile, List.take_append_drop]
    · rw [hlen, List.length_nil, Nat.add_zero]
    · simp
    · intro c hc
      rw [← hword] at hc
      exact List.mem_takeWhile_imp hc
    · have hlast := any_charBefore_length (isWordChar extra) (text.take start) (text.drop start)
      rw [List.take_append_drop, hlen, hbefore] at hlast
      simpa [Option.any_eq_false] using hlast.symm
    · exact head?_dropWhile_eq_false _ _

theorem IsWholeWord.head {extra text word : Text} {start : Nat}
    (h : IsWholeWord extra text start word) : ∃ d ∈ word.head?, isWordChar extra d = true := by
  obtain ⟨hne, before, behind, hcut⟩ := h
  obtain ⟨d, rest, rfl⟩ := List.exists_cons_of_ne_nil hne
  exact ⟨d, rfl, hcut.rest_word d List.mem_cons_self⟩

theorem IsWholeWord.end_le {extra text word : Text} {start : Nat}
    (h : IsWholeWord extra text start word) : start + word.length ≤ text.length := by
  obtain ⟨-, before, behind, hcut⟩ := h
  exact hcut.word_end.pos_le

/-- Both extents find the ends of a whole word, each from the other end. -/
theorem IsWholeWord.extents {extra text word : Text} {start : Nat}
    (h : IsWholeWord extra text start word) :
    wordStartAt extra text (start + word.length) = start ∧
      wordEndAt extra text start = start + word.length := by
  obtain ⟨-, before, behind, hcut⟩ := h
  have hstart : start = before.length := by simpa using hcut.pos_eq
  exact ⟨hcut.word_end.wordStartAt_eq.trans hstart.symm, hcut.wordEndAt_eq⟩

end WordCycle
