import WordCycle.Buffer.Document
import WordCycle.Proofs.Text.Units16

/-! Positions in the text of a buffer beside positions in the units of its widget. Each boundary between
characters is a boundary between units; back from the units, one between the halves of a surrogate pair
becomes the boundary behind that character. So the way back is adjoint to the way there. -/

namespace WordCycle
set_option autoImplicit false

namespace Units16

/-! ## The way back as a lower bound -/

theorem length_take_le (t : Text) (pos : Nat) : length (t.take pos) ≤ length t := by
  have hparts := length_append (t.take pos) (t.drop pos)
  rw [List.take_append_drop] at hparts
  omega

theorem length_take_lt (t : Text) {pos pos' : Nat} (hlt : pos < pos') (hle : pos' ≤ t.length) :
    length (t.take pos) < length (t.take pos') := by
  induction t generalizing pos pos' with
  | nil => simp at hle; omega
  | cons c t ih =>
    obtain ⟨pos', rfl⟩ := Nat.exists_eq_succ_of_ne_zero (Nat.ne_zero_of_lt hlt)
    have hwidth := width_pos c
    cases pos with
    | zero =>
      rw [List.take_zero, List.take_succ_cons, length, length]
      omega
    | succ pos =>
      have hrest := ih (Nat.lt_of_succ_lt_succ hlt) (Nat.le_of_succ_le_succ hle)
      rw [List.take_succ_cons, List.take_succ_cons, length, length]
      omega

/-- A position lies at or behind the one found for a number of units exactly if that many units stand
before it. -/
theorem toPosition_le_iff (t : Text) (units : Int) (pos : Nat) (hunits : units ≤ length t) :
    toPosition t units ≤ pos ↔ units ≤ length (t.take pos) := by
  induction t generalizing units pos with
  | nil =>
    rw [List.take_nil]
    exact iff_of_true (Nat.zero_le pos) hunits
  | cons c t ih =>
    have hwidth := width_pos c
    rw [toPosition]
    split
    · next hnone => exact iff_of_true (Nat.zero_le pos) (by omega)
    · next hsome =>
      rw [length] at hunits
      cases pos with
      | zero =>
        rw [List.take_zero, length]
        omega
      | succ pos =>
        have hrest := ih (units - width c) pos (by omega)
        rw [List.take_succ_cons, length]
        omega

theorem toPosition_of_length_le (t : Text) (units : Int) (hunits : length t ≤ units) :
    toPosition t units = t.length := by
  induction t generalizing units with
  | nil => rfl
  | cons c t ih =>
    have hwidth := width_pos c
    rw [length] at hunits
    rw [toPosition, if_neg (by omega), ih _ (by omega), List.length_cons, Nat.add_comm]

theorem toPosition_mono (t : Text) {units units' : Int} (hle : units ≤ units') :
    toPosition t units ≤ toPosition t units' := by
  rcases Int.le_total units' (length t) with hinside | hbeyond
  · rw [toPosition_le_iff t units _ (Int.le_trans hle hinside)]
    exact Int.le_trans hle ((toPosition_le_iff t units' _ hinside).mp (Nat.le_refl _))
  · rw [toPosition_of_length_le t units' hbeyond]
    exact toPosition_le t units

/-! ## Between the halves of a pair -/

theorem zero_of_isHigh {c : Char} {i : Nat} {u : UInt16} (hget : (encodeChar c)[i]? = some u)
    (hhigh : isHigh u = true) : i = 0 ∧ width c = 2 := by
  have hvalid := CodePoint.valid c
  rw [isHigh, Bool.and_eq_true, decide_eq_true_eq, decide_eq_true_eq] at hhigh
  unfold encodeChar at hget
  unfold width
  split at hget
  · next hwide =>
    rcases i with - | - | i
    · exact ⟨rfl, if_pos hwide⟩
    · -- The second half of a pair is no first half.
      obtain rfl := Option.some.inj hget
      have hsecond : (0xdc00 + c.toNat % 0x400).toUInt16.toNat = 0xdc00 + c.toNat % 0x400 :=
        toNat_toUInt16 (by omega)
      omega
    · cases hget
  · next hnarrow =>
    rcases i with - | i
    · obtain rfl := Option.some.inj hget
      have hunit : c.toNat.toUInt16.toNat = c.toNat := toNat_toUInt16 (by omega)
      omega
    · cases hget

/-- A first half among the units of a text is that of a character of the text. -/
theorem exists_pair {t : Text} {i : Nat} {u : UInt16} (hget : (encode t)[i]? = some u)
    (hhigh : isHigh u = true) :
    ∃ (before : Text) (c : Char) (behind : Text),
      t = before ++ c :: behind ∧ length before = i ∧ width c = 2 := by
  induction t generalizing i with
  | nil => simp [encode] at hget
  | cons c t ih =>
    have hcons : encode (c :: t) = encodeChar c ++ encode t := rfl
    rw [hcons] at hget
    rcases Nat.lt_or_ge i (encodeChar c).length with hfirst | hrest
    · rw [List.getElem?_append_left hfirst] at hget
      obtain ⟨rfl, hwidth⟩ := zero_of_isHigh hget hhigh
      exact ⟨[], c, t, rfl, rfl, hwidth⟩
    · rw [List.getElem?_append_right hrest] at hget
      obtain ⟨before, d, behind, rfl, hlength, hwidth⟩ := ih hget
      refine ⟨c :: before, d, behind, rfl, ?_, hwidth⟩
      rw [length, hlength, ← length_encodeChar]
      omega

theorem length_take_succ (before : Text) (c : Char) (behind : Text) :
    length ((before ++ c :: behind).take (before.length + 1)) = length before + width c := by
  have hlength : (before ++ [c]).length = before.length + 1 := by simp
  rw [List.append_cons, ← hlength, List.take_left, length_append, length, length, Nat.add_zero]

/-- Inside a pair the position behind it is the first with as many units before it. -/
theorem toPosition_inside (before : Text) {c : Char} (behind : Text) (hwidth : width c = 2) :
    toPosition (before ++ c :: behind) (length before + 1 : Nat) = before.length + 1 := by
  have hfront : length ((before ++ c :: behind).take before.length) = length before := by
    rw [List.take_left]
  have hnext := length_take_succ before c behind
  have hinside := length_take_le (before ++ c :: behind) (before.length + 1)
  apply Nat.le_antisymm
  · rw [toPosition_le_iff _ _ _ (by omega)]
    omega
  · rw [← Nat.not_lt, Nat.lt_succ_iff, toPosition_le_iff _ _ _ (by omega)]
    omega

end Units16

namespace DocumentBuffer
variable (b : DocumentBuffer)

theorem toUnits_natCast (pos : Nat) : b.toUnits pos = Units16.length (b.text.take pos) :=
  Units16.ofPosition_natCast b.text pos

/-- Positions of the text and their numbers of units, for any text of a buffer. The number of units grows
with the position, and the position is found again from it. The position found for a number of units is
the first one with as many units before it, so it grows with that number; between the halves of a
surrogate pair it is the one behind the character, and beyond all units it is the end of the text. -/
theorem positions_adjoint :
    (∀ pos pos' : Nat, pos < pos' → pos' ≤ b.text.length → b.toUnits pos < b.toUnits pos') ∧
    (∀ pos : Nat, pos ≤ b.text.length → b.fromUnits (b.toUnits pos) = pos) ∧
    (∀ (pos : Nat) (units : Int), pos ≤ b.text.length → units ≤ (Units16.encode b.text).length →
      (b.fromUnits units ≤ pos ↔ units ≤ b.toUnits pos)) ∧
    (∀ units units' : Int, units ≤ units' → b.fromUnits units ≤ b.fromUnits units') ∧
    (∀ (units : Nat) (u : UInt16), (Units16.encode b.text)[units]? = some u →
      Units16.isHigh u = true → ∃ pos < b.text.length, b.toUnits pos = units ∧
        b.toUnits (pos + 1 : Nat) = units + 2 ∧ b.fromUnits (units + 1 : Nat) = pos + 1) ∧
    ∀ units : Int, (Units16.encode b.text).length < units → b.fromUnits units = b.text.length := by
  simp only [toUnits_natCast, fromUnits, Units16.length_encode]
  refine ⟨fun _ _ hlt hle => Units16.length_take_lt b.text hlt hle,
    fun pos hle => Units16.toPosition_length_take b.text pos hle,
    fun pos units _ hunits => Units16.toPosition_le_iff b.text units pos hunits,
    fun _ _ hle => Units16.toPosition_mono b.text hle, ?_,
    fun units hbeyond => Units16.toPosition_of_length_le b.text units (Int.le_of_lt hbeyond)⟩
  intro units u hget hhigh
  obtain ⟨before, c, behind, htext, rfl, hwidth⟩ := Units16.exists_pair hget hhigh
  rw [htext]
  refine ⟨before.length, ?_, ?_, ?_, Units16.toPosition_inside before behind hwidth⟩
  · rw [List.length_append, List.length_cons]
    omega
  · rw [List.take_left]
  · rw [Units16.length_take_succ, hwidth]

example :
    let b : DocumentBuffer := { widget := .ofText "a🚀b".toList }
    [-1, 0, 1, 2, 3, 4, 5].map b.fromUnits = [0, 0, 1, 2, 2, 3, 3] := by decide +kernel

end DocumentBuffer
end WordCycle
