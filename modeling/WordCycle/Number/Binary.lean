/-! The numbers held by a float: a sign and a natural number times a power of two, or one of the
values that are no number. -/

namespace WordCycle.Number
set_option autoImplicit false

/-- A signed multiple of a power of two. -/
structure Binary where
  negative : Bool
  significand : Nat
  exponent : Int
  deriving DecidableEq

inductive Content
  | finite (value : Binary)
  | infinite (negative : Bool)
  | undefined
  deriving DecidableEq

/-- Splits a float into sign, exponent and fraction. The least exponent has no implied leading bit,
the greatest is set aside for infinities and undefined results. -/
def content (x : Float) : Content :=
  let bits := x.toBits.toNat
  let negative := 0x8000000000000000 ≤ bits
  let exponent : Nat := bits / 0x10000000000000 % 0x800
  let fraction : Nat := bits % 0x10000000000000
  if exponent = 2047 then
    if fraction = 0 then .infinite negative else .undefined
  else if exponent = 0 then .finite ⟨negative, fraction, -1074⟩
  else .finite ⟨negative, 0x10000000000000 + fraction, (exponent : Int) - 1075⟩

/-- The number with everything behind the point cut off. -/
def Binary.truncated (b : Binary) : Int :=
  let size : Nat := if 0 ≤ b.exponent then b.significand * Nat.pow 2 b.exponent.toNat
    else b.significand / Nat.pow 2 (-b.exponent).toNat
  if b.negative then -(size : Int) else size

end WordCycle.Number
