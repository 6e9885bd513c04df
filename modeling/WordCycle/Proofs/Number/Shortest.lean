import WordCycle.Number.Shortest

/-! The shortest decimal of a float other than zero is not zero: zero lies below the interval of the numbers
that round to the float, so no grid has it for the nearest point. -/

namespace WordCycle.Number
set_option autoImplicit false

theorem Rounding.holds_zero {r : Rounding} (h : 0 < r.lower) : r.holds 0 = false := by
  have hlow : ¬r.lower ≤ 0 := Nat.not_le.mpr h
  have hlow' : ¬r.lower < 0 := Nat.not_lt_zero _
  rw [holds]
  split
  · rw [decide_eq_false hlow, Bool.false_and]
  · rw [decide_eq_false hlow', Bool.false_and]

theorem Rounding.nearest?_pos {r : Rounding} (h : 0 < r.lower) {grid n : Nat}
    (hn : r.nearest? grid = some n) : 0 < n := by
  have hlow : r.holds (r.value / grid * grid) = true → 0 < r.value / grid := by
    intro hholds
    rcases Nat.eq_zero_or_pos (r.value / grid) with hzero | hpos
    · rw [hzero, Nat.zero_mul, holds_zero h] at hholds
      cases hholds
    · exact hpos
  unfold nearest? at hn
  dsimp only at hn
  split at hn
  · next hboth =>
    split at hn
    · obtain rfl := Option.some.inj hn
      exact hlow (Bool.and_eq_true_iff.mp hboth).1
    · obtain rfl := Option.some.inj hn
      exact Nat.succ_pos _
  · split at hn
    · next honly =>
      obtain rfl := Option.some.inj hn
      exact hlow honly
    · split at hn
      · obtain rfl := Option.some.inj hn
        exact Nat.succ_pos _
      · cases hn

theorem Rounding.onGrid_lower_pos {r : Rounding} (h : 0 < r.lower) (exponent : Int) :
    0 < (r.onGrid exponent).1.lower := by
  rw [onGrid]
  split
  · exact h
  · exact Nat.mul_pos h (Nat.pow_pos (by decide))

theorem shortestFrom_digits_pos {r : Rounding} (h : 0 < r.lower) (leading : Int) {count digits : Nat}
    {d : Decimal} (hd : shortestFrom r leading count digits = some d) : 0 < d.digits := by
  induction count generalizing digits with
  | zero => cases hd
  | succ count ih =>
    rw [shortestFrom] at hd
    dsimp only at hd
    split at hd
    · next n hn =>
      obtain rfl := Option.some.inj hd
      exact Rounding.nearest?_pos (Rounding.onGrid_lower_pos h _) hn
    · exact ih hd

theorem Binary.rounding_lower_pos {b : Binary} (h : b.significand ≠ 0) : 0 < b.rounding.lower := by
  have hscale : 0 < if 0 ≤ b.exponent then Nat.pow 2 b.exponent.toNat else 1 := by
    split
    · exact Nat.pow_pos (by decide)
    · exact Nat.one_pos
  have hbelow : (if b.significand = 0x10000000000000 && b.exponent ≠ -1074 then 1 else 2) ≤ 2 := by
    split <;> omega
  exact Nat.mul_pos (by omega) hscale

theorem Binary.shortest_digits {b : Binary} (h : b.significand ≠ 0) :
    0 < b.shortest.digits ∨ b.shortest = ⟨0, 0⟩ := by
  rw [shortest]
  cases hd : shortestFrom b.rounding
    (leadingExponent b.rounding.value b.rounding.denominator) 17 0 with
  | none => exact .inr rfl
  | some d => exact .inl (shortestFrom_digits_pos (rounding_lower_pos h) _ hd)

end WordCycle.Number
