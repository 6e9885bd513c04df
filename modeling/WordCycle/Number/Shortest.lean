import WordCycle.Number.Binary

/-! The shortest decimal number that reads back as a given float. A decimal reads back if it lies in
the interval of the numbers that round to the float; of the shortest ones the nearest is taken, and
of two equally near the one with an even last digit. All comparisons are between natural numbers. -/

namespace WordCycle.Number
set_option autoImplicit false

/-- A decimal number `digits * 10 ^ exponent`. -/
structure Decimal where
  digits : Nat
  exponent : Int
  deriving DecidableEq

/-- The numbers that round to a positive float, over one denominator: the float itself and the ends
of the interval. The ends belong to it if the significand is even. -/
structure Rounding where
  value : Nat
  lower : Nat
  upper : Nat
  denominator : Nat
  closed : Bool

/-- The interval of a positive float. The gap below a power of two is half the gap above it, save
at the least exponent. -/
def Binary.rounding (b : Binary) : Rounding :=
  let scale := if 0 ≤ b.exponent then Nat.pow 2 b.exponent.toNat else 1
  let below := if b.significand = 0x10000000000000 && b.exponent ≠ -1074 then 1 else 2
  { value := 4 * b.significand * scale
    lower := (4 * b.significand - below) * scale
    upper := (4 * b.significand + 2) * scale
    denominator := 4 * if 0 ≤ b.exponent then 1 else Nat.pow 2 (-b.exponent).toNat
    closed := b.significand % 2 = 0 }

/-- Numerator and denominator brought to the grid of multiples of a power of ten: the grid point
with number `n` is `n * grid`. -/
def Rounding.onGrid (r : Rounding) (exponent : Int) : Rounding × Nat :=
  if 0 ≤ exponent then (r, r.denominator * Nat.pow 10 exponent.toNat)
  else
    let k := Nat.pow 10 (-exponent).toNat
    ({ r with value := r.value * k, lower := r.lower * k, upper := r.upper * k }, r.denominator)

/-- Whether a grid point reads back as the float. -/
def Rounding.holds (r : Rounding) (point : Nat) : Bool :=
  if r.closed then r.lower ≤ point && point ≤ r.upper else r.lower < point && point < r.upper

/-- The grid point next to the float that reads back, if one of its two neighbours does. -/
def Rounding.nearest? (r : Rounding) (grid : Nat) : Option Nat :=
  let n := r.value / grid
  let low := r.holds (n * grid)
  let high := r.holds ((n + 1) * grid)
  if low && high then
    let toLow := r.value - n * grid
    let toHigh := (n + 1) * grid - r.value
    if toLow < toHigh || (toLow = toHigh && n % 2 = 0) then some n else some (n + 1)
  else if low then some n
  else if high then some (n + 1)
  else none

/-- The exponent of the leading decimal digit of a positive fraction. The estimate from the binary
lengths is at most one too low. -/
def leadingExponent (numerator denominator : Nat) : Int :=
  let estimate := Int.fdiv (((numerator.log2 : Int) - denominator.log2 - 1) * 30103) 100000
  let reaches (e : Int) : Bool :=
    if 0 ≤ e then denominator * Nat.pow 10 e.toNat ≤ numerator
    else denominator ≤ numerator * Nat.pow 10 (-e).toNat
  if reaches (estimate + 2) then estimate + 2
  else if reaches (estimate + 1) then estimate + 1
  else if reaches estimate then estimate
  else estimate - 1

/-- The first grid, from one digit up to `count` digits, that has a point which reads back. -/
def shortestFrom (r : Rounding) (leading : Int) : Nat → Nat → Option Decimal
  | 0, _ => none
  | count + 1, digits =>
    let exponent := leading - digits
    let (r', grid) := r.onGrid exponent
    match r'.nearest? grid with
    | some n => some ⟨n, exponent⟩
    | none => shortestFrom r leading count (digits + 1)

/-- The shortest decimal of a float other than zero. Seventeen digits always suffice. -/
def Binary.shortest (b : Binary) : Decimal :=
  let r := b.rounding
  (shortestFrom r (leadingExponent r.value r.denominator) 17 0).getD ⟨0, 0⟩

end WordCycle.Number
