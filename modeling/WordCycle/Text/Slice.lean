/-! Texts and their slices by signed positions. A negative position counts from the end of the text,
and a position beyond either end stands for that end. The lemmas say what this means for positions
inside the text. -/

namespace WordCycle
set_option autoImplicit false

/-- A text is the list of its characters; every position and every length counts characters. -/
abbrev Text := List Char

namespace Text

/-! ## Boundaries -/

/-- The boundary between characters that a signed position names in a text of the given length. -/
def boundary (length : Nat) (pos : Int) : Nat :=
  if pos < 0 then (length + pos).toNat else min pos.toNat length

theorem boundary_natCast (length pos : Nat) : boundary length pos = min pos length := by
  simp only [boundary]
  split
  · omega
  · rw [Int.toNat_natCast]

/-! ## Slices -/

/-- The characters from one position up to another, none if the second lies before the first. -/
def slice (t : Text) (start stop : Int) : Text :=
  let first := boundary t.length start
  (t.drop first).take (boundary t.length stop - first)

/-- The text with the characters before `start` and those from `stop` on kept, and `new` put
between them. -/
def splice (t : Text) (start stop : Int) (new : Text) : Text :=
  t.take (boundary t.length start) ++ new ++ t.drop (boundary t.length stop)

theorem slice_natCast (t : Text) (start stop : Nat) :
    t.slice start stop = (t.drop start).take (stop - start) := by
  simp only [slice, boundary_natCast]
  rcases Nat.le_total start t.length with h | h
  · rw [Nat.min_eq_left h]
    rcases Nat.le_total stop t.length with h' | h'
    · rw [Nat.min_eq_left h']
    · rw [Nat.min_eq_right h', List.take_of_length_le (by simp),
        List.take_of_length_le (by simp; omega)]
  · rw [Nat.min_eq_right h, List.drop_eq_nil_of_le (Nat.le_refl _), List.drop_eq_nil_of_le h]
    simp

theorem splice_natCast (t new : Text) (start stop : Nat) :
    t.splice start stop new = t.take start ++ new ++ t.drop stop := by
  simp only [splice, boundary_natCast]
  congr 1
  · rcases Nat.le_total start t.length with h | h
    · rw [Nat.min_eq_left h]
    · rw [Nat.min_eq_right h, List.take_of_length_le h, List.take_length]
  · rcases Nat.le_total stop t.length with h | h
    · rw [Nat.min_eq_left h]
    · rw [Nat.min_eq_right h, List.drop_eq_nil_of_le h, List.drop_length]

/-! ## Parts -/

/-- Whether the first text stands somewhere inside the second. -/
def occursIn (s : Text) : Text → Bool
  | [] => s.isEmpty
  | c :: t => s.isPrefixOf (c :: t) || occursIn s t

theorem occursIn_iff (s t : Text) : occursIn s t = true ↔ s <:+: t := by
  induction t with
  | nil => simp [occursIn]
  | cons c t ih => simp [occursIn, ih, List.infix_cons_iff, List.isPrefixOf_iff_prefix]

end Text
end WordCycle
