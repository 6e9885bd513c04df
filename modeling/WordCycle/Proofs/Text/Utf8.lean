import WordCycle.Proofs.Text.CodePoint
import WordCycle.Text.Utf8

/-! Reading and writing UTF-8 undo each other, so bytes are read exactly if they are the writing of a
text. -/

namespace WordCycle.Utf8
set_option autoImplicit false

theorem toNat_toUInt8 {n : Nat} (h : n < 0x100) : n.toUInt8.toNat = n := by
  rw [Nat.toUInt8_eq, UInt8.toNat_ofNat']
  omega

/-- The bytes that go on a character carry six bits each. -/
theorem toNat_continuation (n : Nat) : (0x80 + n % 0x40).toUInt8.toNat = 0x80 + n % 0x40 :=
  toNat_toUInt8 (by omega)

theorem isContinuation_toUInt8 (n : Nat) :
    isContinuation (0x80 + n % 0x40).toUInt8.toNat = true := by
  rw [toNat_continuation, isContinuation]
  simp
  omega

/-! ## One character read -/

theorem decodeFrom_one (pos : Nat) (b : UInt8) (rest : Bytes) (h : b.toNat < 0x80) :
    decodeFrom pos (b :: rest) =
      (decodeFrom (pos + 1) rest).map (Char.ofNat b.toNat :: ·) := by
  rw [decodeFrom.eq_def]
  simp only [if_pos h]
  cases decodeFrom (pos + 1) rest <;> rfl

theorem decodeFrom_two (pos : Nat) (b b₁ : UInt8) (rest : Bytes) (hlow : 0xc2 ≤ b.toNat)
    (hhigh : b.toNat < 0xe0) (h₁ : isContinuation b₁.toNat = true) :
    decodeFrom pos (b :: b₁ :: rest) =
      (decodeFrom (pos + 2) rest).map
        (Char.ofNat ((b.toNat - 0xc0) * 0x40 + (b₁.toNat - 0x80)) :: ·) := by
  rw [decodeFrom.eq_def]
  simp only [if_neg (show ¬b.toNat < 0x80 by omega), if_neg (show ¬b.toNat < 0xc2 by omega),
    if_pos hhigh, h₁, if_true]
  cases decodeFrom (pos + 2) rest <;> rfl

theorem decodeFrom_three (pos : Nat) (b b₁ b₂ : UInt8) (rest : Bytes) (hlow : 0xe0 ≤ b.toNat)
    (hhigh : b.toNat < 0xf0) (h₁ : isSecondOfThree b.toNat b₁.toNat = true)
    (h₂ : isContinuation b₂.toNat = true) :
    decodeFrom pos (b :: b₁ :: b₂ :: rest) =
      (decodeFrom (pos + 3) rest).map
        (Char.ofNat ((b.toNat - 0xe0) * 0x1000 + (b₁.toNat - 0x80) * 0x40 + (b₂.toNat - 0x80)) ::
          ·) := by
  rw [decodeFrom.eq_def]
  simp only [if_neg (show ¬b.toNat < 0x80 by omega), if_neg (show ¬b.toNat < 0xc2 by omega),
    if_neg (show ¬b.toNat < 0xe0 by omega), if_pos hhigh, h₁, h₂, if_true]
  cases decodeFrom (pos + 3) rest <;> rfl

theorem decodeFrom_four (pos : Nat) (b b₁ b₂ b₃ : UInt8) (rest : Bytes) (hlow : 0xf0 ≤ b.toNat)
    (hhigh : b.toNat < 0xf5) (h₁ : isSecondOfFour b.toNat b₁.toNat = true)
    (h₂ : isContinuation b₂.toNat = true) (h₃ : isContinuation b₃.toNat = true) :
    decodeFrom pos (b :: b₁ :: b₂ :: b₃ :: rest) =
      (decodeFrom (pos + 4) rest).map
        (Char.ofNat ((b.toNat - 0xf0) * 0x40000 + (b₁.toNat - 0x80) * 0x1000
          + (b₂.toNat - 0x80) * 0x40 + (b₃.toNat - 0x80)) :: ·) := by
  rw [decodeFrom.eq_def]
  simp only [if_neg (show ¬b.toNat < 0x80 by omega), if_neg (show ¬b.toNat < 0xc2 by omega),
    if_neg (show ¬b.toNat < 0xe0 by omega), if_neg (show ¬b.toNat < 0xf0 by omega), if_pos hhigh,
    h₁, h₂, h₃, if_true]
  cases decodeFrom (pos + 4) rest <;> rfl

/-! ## What was written is read -/

theorem decodeFrom_encodeChar_append (pos : Nat) (c : Char) (rest : Bytes) :
    decodeFrom pos (encodeChar c ++ rest) =
      (decodeFrom (pos + (encodeChar c).length) rest).map (c :: ·) := by
  have hvalid := CodePoint.valid c
  have hofNat := Char.ofNat_toNat c
  generalize hn : c.toNat = n at hvalid hofNat
  unfold encodeChar
  simp only [hn]
  split
  · next hone =>
    have hb : n.toUInt8.toNat = n := toNat_toUInt8 (by omega)
    have hread := decodeFrom_one pos n.toUInt8 rest (by omega)
    rw [hb, hofNat] at hread
    exact hread
  split
  · next hone htwo =>
    have hb : (0xc0 + n / 0x40).toUInt8.toNat = 0xc0 + n / 0x40 := toNat_toUInt8 (by omega)
    have hb₁ := toNat_continuation n
    have hread := decodeFrom_two pos (0xc0 + n / 0x40).toUInt8 (0x80 + n % 0x40).toUInt8 rest
      (by omega) (by omega) (isContinuation_toUInt8 n)
    have hsum : (0xc0 + n / 0x40 - 0xc0) * 0x40 + (0x80 + n % 0x40 - 0x80) = n := by omega
    rw [hb, hb₁, hsum, hofNat] at hread
    exact hread
  split
  · next hone htwo hthree =>
    have hb : (0xe0 + n / 0x1000).toUInt8.toNat = 0xe0 + n / 0x1000 := toNat_toUInt8 (by omega)
    have hb₁ := toNat_continuation (n / 0x40)
    have hb₂ := toNat_continuation n
    have hsecond : isSecondOfThree (0xe0 + n / 0x1000).toUInt8.toNat
        (0x80 + n / 0x40 % 0x40).toUInt8.toNat = true := by
      rw [isSecondOfThree, isContinuation_toUInt8, hb, hb₁, Bool.true_and]
      split
      · exact decide_eq_true (by omega)
      split
      · exact decide_eq_true (by omega)
      · rfl
    have hread := decodeFrom_three pos (0xe0 + n / 0x1000).toUInt8 (0x80 + n / 0x40 % 0x40).toUInt8
      (0x80 + n % 0x40).toUInt8 rest (by omega) (by omega) hsecond (isContinuation_toUInt8 n)
    have hsum : (0xe0 + n / 0x1000 - 0xe0) * 0x1000 + (0x80 + n / 0x40 % 0x40 - 0x80) * 0x40 +
        (0x80 + n % 0x40 - 0x80) = n := by omega
    rw [hb, hb₁, hb₂, hsum, hofNat] at hread
    exact hread
  · next hone htwo hthree =>
    have hb : (0xf0 + n / 0x40000).toUInt8.toNat = 0xf0 + n / 0x40000 := toNat_toUInt8 (by omega)
    have hb₁ := toNat_continuation (n / 0x1000)
    have hb₂ := toNat_continuation (n / 0x40)
    have hb₃ := toNat_continuation n
    have hsecond : isSecondOfFour (0xf0 + n / 0x40000).toUInt8.toNat
        (0x80 + n / 0x1000 % 0x40).toUInt8.toNat = true := by
      rw [isSecondOfFour, isContinuation_toUInt8, hb, hb₁, Bool.true_and]
      split
      · exact decide_eq_true (by omega)
      split
      · exact decide_eq_true (by omega)
      · rfl
    have hread := decodeFrom_four pos (0xf0 + n / 0x40000).toUInt8
      (0x80 + n / 0x1000 % 0x40).toUInt8 (0x80 + n / 0x40 % 0x40).toUInt8 (0x80 + n % 0x40).toUInt8
      rest (by omega) (by omega) hsecond (isContinuation_toUInt8 (n / 0x40))
      (isContinuation_toUInt8 n)
    have hsum : (0xf0 + n / 0x40000 - 0xf0) * 0x40000 + (0x80 + n / 0x1000 % 0x40 - 0x80) * 0x1000 +
        (0x80 + n / 0x40 % 0x40 - 0x80) * 0x40 + (0x80 + n % 0x40 - 0x80) = n := by omega
    rw [hb, hb₁, hb₂, hb₃, hsum, hofNat] at hread
    exact hread

theorem decodeFrom_encode (pos : Nat) (t : Text) : decodeFrom pos (encode t) = .ok t := by
  induction t generalizing pos with
  | nil => rfl
  | cons c t ih =>
    have hcons : encode (c :: t) = encodeChar c ++ encode t := rfl
    rw [hcons, decodeFrom_encodeChar_append, ih]
    rfl

/-! ## What is read was written -/

theorem ofNat_toNat (b : UInt8) : b.toNat.toUInt8 = b := by
  rw [Nat.toUInt8_eq, UInt8.ofNat_toNat]

theorem continuation_bounds {b : Nat} (h : isContinuation b = true) : 0x80 ≤ b ∧ b < 0xc0 := by
  simpa [isContinuation] using h

theorem encodeChar_one (b : UInt8) (h : b.toNat < 0x80) : encodeChar (Char.ofNat b.toNat) = [b] := by
  have hn := CodePoint.toNat_ofNat b.toNat (by omega)
  unfold encodeChar
  simp only [hn]
  rw [if_pos h, ofNat_toNat]

theorem encodeChar_two (b b₁ : UInt8) (hlow : 0xc2 ≤ b.toNat) (hhigh : b.toNat < 0xe0)
    (h₁ : isContinuation b₁.toNat = true) :
    encodeChar (Char.ofNat ((b.toNat - 0xc0) * 0x40 + (b₁.toNat - 0x80))) = [b, b₁] := by
  obtain ⟨hlow₁, hhigh₁⟩ := continuation_bounds h₁
  generalize hvalue : (b.toNat - 0xc0) * 0x40 + (b₁.toNat - 0x80) = n
  have hn := CodePoint.toNat_ofNat n (by omega)
  have hb : 0xc0 + n / 0x40 = b.toNat := by omega
  have hb₁ : 0x80 + n % 0x40 = b₁.toNat := by omega
  unfold encodeChar
  simp only [hn, hb, hb₁]
  rw [if_neg (by omega), if_pos (by omega), ofNat_toNat, ofNat_toNat]

theorem encodeChar_three (b b₁ b₂ : UInt8) (hlow : 0xe0 ≤ b.toNat) (hhigh : b.toNat < 0xf0)
    (h₁ : isSecondOfThree b.toNat b₁.toNat = true) (h₂ : isContinuation b₂.toNat = true) :
    encodeChar (Char.ofNat
      ((b.toNat - 0xe0) * 0x1000 + (b₁.toNat - 0x80) * 0x40 + (b₂.toNat - 0x80))) = [b, b₁, b₂] := by
  rw [isSecondOfThree, Bool.and_eq_true] at h₁
  obtain ⟨hcontinues, hsecond⟩ := h₁
  obtain ⟨hlow₁, hhigh₁⟩ := continuation_bounds hcontinues
  obtain ⟨hlow₂, hhigh₂⟩ := continuation_bounds h₂
  -- Overlong forms and surrogates are what the second byte rules out.
  have hfirst : b.toNat = 0xe0 → 0xa0 ≤ b₁.toNat := by
    intro heq
    simpa [heq] using hsecond
  have hsurrogate : b.toNat = 0xed → b₁.toNat < 0xa0 := by
    intro heq
    simpa [heq] using hsecond
  generalize hvalue : (b.toNat - 0xe0) * 0x1000 + (b₁.toNat - 0x80) * 0x40 + (b₂.toNat - 0x80) = n
  have hn := CodePoint.toNat_ofNat n (by omega)
  have hb : 0xe0 + n / 0x1000 = b.toNat := by omega
  have hb₁ : 0x80 + n / 0x40 % 0x40 = b₁.toNat := by omega
  have hb₂ : 0x80 + n % 0x40 = b₂.toNat := by omega
  unfold encodeChar
  simp only [hn, hb, hb₁, hb₂]
  rw [if_neg (by omega), if_neg (by omega), if_pos (by omega), ofNat_toNat, ofNat_toNat, ofNat_toNat]

theorem encodeChar_four (b b₁ b₂ b₃ : UInt8) (hlow : 0xf0 ≤ b.toNat) (hhigh : b.toNat < 0xf5)
    (h₁ : isSecondOfFour b.toNat b₁.toNat = true) (h₂ : isContinuation b₂.toNat = true)
    (h₃ : isContinuation b₃.toNat = true) :
    encodeChar (Char.ofNat
      ((b.toNat - 0xf0) * 0x40000 + (b₁.toNat - 0x80) * 0x1000 + (b₂.toNat - 0x80) * 0x40
        + (b₃.toNat - 0x80))) = [b, b₁, b₂, b₃] := by
  rw [isSecondOfFour, Bool.and_eq_true] at h₁
  obtain ⟨hcontinues, hsecond⟩ := h₁
  obtain ⟨hlow₁, hhigh₁⟩ := continuation_bounds hcontinues
  obtain ⟨hlow₂, hhigh₂⟩ := continuation_bounds h₂
  obtain ⟨hlow₃, hhigh₃⟩ := continuation_bounds h₃
  have hfirst : b.toNat = 0xf0 → 0x90 ≤ b₁.toNat := by
    intro heq
    simpa [heq] using hsecond
  have hlast : b.toNat = 0xf4 → b₁.toNat < 0x90 := by
    intro heq
    simpa [heq] using hsecond
  generalize hvalue : (b.toNat - 0xf0) * 0x40000 + (b₁.toNat - 0x80) * 0x1000
    + (b₂.toNat - 0x80) * 0x40 + (b₃.toNat - 0x80) = n
  have hn := CodePoint.toNat_ofNat n (by omega)
  have hb : 0xf0 + n / 0x40000 = b.toNat := by omega
  have hb₁ : 0x80 + n / 0x1000 % 0x40 = b₁.toNat := by omega
  have hb₂ : 0x80 + n / 0x40 % 0x40 = b₂.toNat := by omega
  have hb₃ : 0x80 + n % 0x40 = b₃.toNat := by omega
  unfold encodeChar
  simp only [hn, hb, hb₁, hb₂, hb₃]
  rw [if_neg (by omega), if_neg (by omega), if_neg (by omega), ofNat_toNat, ofNat_toNat, ofNat_toNat,
    ofNat_toNat]

/-- Reading goes on behind a character that was read. -/
theorem encode_of_bind {c : Char} {r : Except DecodeError Text} {t : Text} {bytes rest : Bytes}
    (hc : encodeChar c ++ rest = bytes) (hrest : ∀ {t : Text}, r = .ok t → rest = encode t)
    (h : (do return c :: (← r)) = Except.ok t) : bytes = encode t := by
  cases r with
  | error e => cases h
  | ok t' =>
    obtain rfl := Except.ok.inj h
    rw [← hc, hrest rfl]
    rfl

theorem encode_of_decodeFrom {pos : Nat} {bytes : Bytes} {t : Text}
    (h : decodeFrom pos bytes = .ok t) : bytes = encode t := by
  fun_induction decodeFrom pos bytes generalizing t with
  | case1 => rw [← Except.ok.inj h]; rfl
  | case2 pos b rest n hone =>
    rename_i ih
    exact encode_of_bind (congrArg (· ++ rest) (encodeChar_one b hone)) ih h
  | case5 pos b n hone hstart htwo b₁ rest h₁ =>
    rename_i ih
    have hchar := encodeChar_two b b₁ (Nat.not_lt.mp hstart) htwo h₁
    exact encode_of_bind (congrArg (· ++ rest) hchar) ih h
  | case9 pos b n hone hstart htwo hthree b₁ h₁ b₂ rest h₂ =>
    rename_i ih
    have hchar := encodeChar_three b b₁ b₂ (Nat.not_lt.mp htwo) hthree h₁ h₂
    exact encode_of_bind (congrArg (· ++ rest) hchar) ih h
  | case15 pos b n hone hstart htwo hthree hfour b₁ h₁ b₂ h₂ b₃ rest h₃ =>
    rename_i ih
    have hchar := encodeChar_four b b₁ b₂ b₃ (Nat.not_lt.mp hthree) hfour h₁ h₂ h₃
    exact encode_of_bind (congrArg (· ++ rest) hchar) ih h
  | _ => cases h

theorem decode_eq_ok_iff (bytes : Bytes) (t : Text) : decode bytes = .ok t ↔ bytes = encode t := by
  constructor
  · exact encode_of_decodeFrom
  · rintro rfl
    exact decodeFrom_encode 0 t

theorem encode_injective {s t : Text} (h : encode s = encode t) : s = t := by
  have hread := (decode_eq_ok_iff (encode s) s).mpr rfl
  rw [h, (decode_eq_ok_iff (encode t) t).mpr rfl] at hread
  exact (Except.ok.inj hread).symm

end WordCycle.Utf8
