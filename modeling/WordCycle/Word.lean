import WordCycle.Text.Alphanumeric
import WordCycle.EditError

/-! Words: which characters form them, and how far a word reaches from a position inside it. The
extents from inside a text are given on natural numbers; the signed forms add what is answered for
positions outside. -/

namespace WordCycle
set_option autoImplicit false

/-! ## Word characters -/

/-- Letters, digits and the underscore form words, and so do the extra characters. -/
def isWordChar (extra : Text) (c : Char) : Bool :=
  isAlphanumeric c || c == '_' || extra.contains c

/-- The same question for a text: it is all letters and digits, or an underscore, or a part of the
extra characters as they are written. The empty text is such a part. -/
def isWordText (extra s : Text) : Bool :=
  (!s.isEmpty && s.all isAlphanumeric) || s == ['_'] || s.occursIn extra

theorem isWordText_singleton (extra : Text) (c : Char) :
    isWordText extra [c] = isWordChar extra c := by
  have h : Text.occursIn [c] extra = extra.contains c := by
    rw [Bool.eq_iff_iff, Text.occursIn_iff, List.contains_iff_mem]
    constructor
    · rintro ⟨a, b, rfl⟩
      simp
    · intro h
      obtain ⟨a, b, rfl⟩ := List.append_of_mem h
      exact ⟨a, b, by simp⟩
  simp [isWordText, isWordChar, h]

/-! ## Extents inside a text -/

/-- Where the word characters that end at a position begin. -/
def wordStartAt (extra text : Text) (pos : Nat) : Nat :=
  pos - ((text.take pos).reverse.takeWhile (isWordChar extra)).length

/-- Where the word characters that begin at a position end. -/
def wordEndAt (extra text : Text) (pos : Nat) : Nat :=
  pos + ((text.drop pos).takeWhile (isWordChar extra)).length

theorem wordStartAt_le (extra text : Text) (pos : Nat) : wordStartAt extra text pos ≤ pos :=
  Nat.sub_le _ _

theorem le_wordEndAt (extra text : Text) (pos : Nat) : pos ≤ wordEndAt extra text pos :=
  Nat.le_add_right _ _

theorem wordEndAt_le (extra text : Text) {pos : Nat} (h : pos ≤ text.length) :
    wordEndAt extra text pos ≤ text.length := by
  have := (List.takeWhile_sublist (isWordChar extra) (l := text.drop pos)).length_le
  simp only [wordEndAt, List.length_drop] at this ⊢
  omega

/-! ## Extents from any position -/

/-- The refusal of a character at a position outside the text. -/
def noCharacterAt (pos : Int) : EditError :=
  if fitsWord pos then .outsideText else .positionTooLarge

/-- Back over word characters. A position before the text stays, one behind it is refused. -/
def wordStart (extra text : Text) (pos : Int) : Except EditError Int :=
  if pos ≤ 0 then .ok pos
  else if pos ≤ text.length then .ok (wordStartAt extra text pos.toNat)
  else .error (noCharacterAt (pos - 1))

/-- Forward over word characters. A position behind the text stays. One before it counts from the
end, and a word that reaches the end goes on at the beginning. -/
def wordEnd (extra text : Text) (pos : Int) : Except EditError Int :=
  if text.length ≤ pos then .ok pos
  else if 0 ≤ pos then .ok (wordEndAt extra text pos.toNat)
  else if -text.length ≤ pos then
    let tail := text.drop (text.length + pos).toNat
    if tail.all (isWordChar extra) then .ok (wordEndAt extra text 0)
    else .ok (pos + (tail.takeWhile (isWordChar extra)).length)
  else .error (noCharacterAt pos)

theorem wordStart_natCast (extra text : Text) {pos : Nat} (h : pos ≤ text.length) :
    wordStart extra text pos = .ok (wordStartAt extra text pos : Nat) := by
  unfold wordStart
  split
  · have : pos = 0 := by omega
    subst this
    simp [wordStartAt]
  · simp [h]

theorem wordEnd_natCast (extra text : Text) {pos : Nat} (h : pos ≤ text.length) :
    wordEnd extra text pos = .ok (wordEndAt extra text pos : Nat) := by
  unfold wordEnd
  split
  · have : pos = text.length := by omega
    subst this
    simp [wordEndAt]
  · simp

end WordCycle
