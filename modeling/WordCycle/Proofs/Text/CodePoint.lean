/-! Code points: a character is one below the last, and no half of a surrogate pair; each such number is
the code point of a character. -/

namespace WordCycle.CodePoint
set_option autoImplicit false

theorem valid (c : Char) : c.toNat < 0xd800 ∨ 0xdfff < c.toNat ∧ c.toNat < 0x110000 := by
  have h := c.valid
  simp only [UInt32.isValidChar, Nat.isValidChar] at h
  exact h

theorem toNat_ofNat (n : Nat) (h : n < 0xd800 ∨ 0xdfff < n ∧ n < 0x110000) :
    (Char.ofNat n).toNat = n := by
  have hvalid : n.isValidChar := h
  rw [Char.ofNat, dif_pos hvalid]
  rfl

end WordCycle.CodePoint
