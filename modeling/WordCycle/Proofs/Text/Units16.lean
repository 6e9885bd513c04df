import WordCycle.Proofs.Text.CodePoint
import WordCycle.Text.Units16

/-! A text and its UTF-16 units: reading the units back gives the text, and a boundary between
characters is found again from the number of units before it. -/

namespace WordCycle.Units16
set_option autoImplicit false

/-! ## Units read back -/

theorem toNat_toUInt16 {n : Nat} (h : n < 0x10000) : n.toUInt16.toNat = n := by
  rw [Nat.toUInt16_eq, UInt16.toNat_ofNat']
  omega

/-- A unit that opens no pair is read alone, whatever follows it. -/
theorem decode_cons {u : UInt16} (h : isHigh u = false) (rest : Units) :
    decode (u :: rest) =
      (if isHigh u || isLow u then '\ufffd' else Char.ofNat u.toNat) :: decode rest := by
  cases rest with
  | nil => rfl
  | cons v rest =>
    rw [decode, h, Bool.false_and]
    rfl

theorem decode_encodeChar_append (c : Char) (rest : Units) :
    decode (encodeChar c ++ rest) = c :: decode rest := by
  have hvalid := CodePoint.valid c
  unfold encodeChar
  split
  · next hwide =>
    have hfirst : (0xd800 + (c.toNat - 0x10000) / 0x400).toUInt16.toNat =
        0xd800 + (c.toNat - 0x10000) / 0x400 := toNat_toUInt16 (by omega)
    have hsecond : (0xdc00 + c.toNat % 0x400).toUInt16.toNat = 0xdc00 + c.toNat % 0x400 :=
      toNat_toUInt16 (by omega)
    have hhigh : isHigh (0xd800 + (c.toNat - 0x10000) / 0x400).toUInt16 = true := by
      rw [isHigh, hfirst]
      simp
      omega
    have hlow : isLow (0xdc00 + c.toNat % 0x400).toUInt16 = true := by
      rw [isLow, hsecond]
      simp
      omega
    have hsum : 0x10000 + (0xd800 + (c.toNat - 0x10000) / 0x400 - 0xd800) * 0x400 +
        (0xdc00 + c.toNat % 0x400 - 0xdc00) = c.toNat := by
      omega
    rw [List.cons_append, List.cons_append, List.nil_append, decode, hhigh, hlow, hfirst, hsecond,
      hsum, Char.ofNat_toNat]
    rfl
  · next hnarrow =>
    have hunit : c.toNat.toUInt16.toNat = c.toNat := toNat_toUInt16 (by omega)
    have hhigh : isHigh c.toNat.toUInt16 = false := by
      rw [isHigh, hunit]
      simp
      omega
    have hlow : isLow c.toNat.toUInt16 = false := by
      rw [isLow, hunit]
      simp
      omega
    rw [List.cons_append, List.nil_append, decode_cons hhigh, hhigh, hlow, hunit, Char.ofNat_toNat]
    rfl

theorem decode_encode (t : Text) : decode (encode t) = t := by
  induction t with
  | nil => rfl
  | cons c t ih =>
    have hcons : encode (c :: t) = encodeChar c ++ encode t := rfl
    rw [hcons, decode_encodeChar_append, ih]

/-! ## Units by the parts of a text -/

theorem take_encode (before behind : Text) :
    (encode (before ++ behind)).take (length before) = encode before := by
  rw [encode_append, ← length_encode, List.take_left]

theorem drop_encode (before behind : Text) :
    (encode (before ++ behind)).drop (length before) = encode behind := by
  rw [encode_append, ← length_encode, List.drop_left]

theorem ofPosition_natCast (t : Text) (pos : Nat) : ofPosition t pos = length (t.take pos) := by
  have h := t.slice_natCast 0 pos
  rw [List.drop_zero, Nat.sub_zero] at h
  rw [ofPosition]
  exact congrArg length h

theorem ofPosition_append (before behind : Text) :
    ofPosition (before ++ behind) before.length = length before := by
  rw [ofPosition_natCast, List.take_left]

/-! ## Boundaries found again -/

theorem width_pos (c : Char) : 0 < width c := by
  unfold width
  split
  · omega
  · omega

theorem toPosition_length_take (t : Text) (pos : Nat) (h : pos ≤ t.length) :
    toPosition t (length (t.take pos)) = pos := by
  induction t generalizing pos with
  | nil =>
    have hpos : pos = 0 := by simpa using h
    rw [hpos]
    rfl
  | cons c t ih =>
    cases pos with
    | zero => simp [toPosition, length]
    | succ pos =>
      have hrest := ih pos (by simpa using h)
      have hwidth := width_pos c
      have hunits : ((width c + length (t.take pos) : Nat) : Int) - width c =
          length (t.take pos) := by omega
      have hsome : ¬((width c + length (t.take pos) : Nat) : Int) ≤ 0 := by omega
      rw [List.take_succ_cons, length, toPosition, if_neg hsome, hunits, hrest, Nat.add_comm]

theorem toPosition_le (t : Text) (units : Int) : toPosition t units ≤ t.length := by
  induction t generalizing units with
  | nil => exact Nat.le_refl 0
  | cons c t ih =>
    have hrest := ih (units - width c)
    rw [toPosition, List.length_cons]
    split <;> omega

end WordCycle.Units16
