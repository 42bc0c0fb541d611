/-
MuxControl.Number.Binary64 — the finite numbers of the 64-bit binary
floating point format, in exact natural-number arithmetic.

A magnitude is a 53-bit mantissa shifted left by at most 2045 places,
counted in units of 2^-1074, the smallest positive number of the
format. `Magnitude.ofRatio` is the one place where anything is rounded:
it takes an exact ratio to the nearest magnitude, a half going to the
even neighbour, and answers `none` when the ratio is too large for the
format. Products, quotients and powers of ten are exact ratios handed
to it, so every operation of the format is one rounding of an exact
value.
-/

namespace MuxControl

/-- A power of ten. -/
def tenfold (n : Nat) : Nat := Nat.pow 10 n

/-- The least mantissa of 53 bits, 2^52. -/
def leastNormal : Nat := 0x10000000000000

/-- A non-negative finite number `mantissa · 2^shift · 2^-1074`, with
the one mantissa and shift that the format gives it: below 2^53, and at
least 2^52 unless the number is subnormal. -/
structure Magnitude where
  mantissa : Nat
  shift : Nat
  canonical : mantissa < 2 * leastNormal ∧ shift ≤ 2045 ∧ (shift = 0 ∨ leastNormal ≤ mantissa)
deriving DecidableEq, Repr

namespace Magnitude

/-- The number zero. -/
def zero : Magnitude := ⟨0, 0, by decide⟩

instance : Inhabited Magnitude := ⟨zero⟩

/-- A number is zero exactly when its mantissa is. -/
def isZero (x : Magnitude) : Bool := x.mantissa = 0

/-- The number times 2^1074, which is a natural number. -/
def scaled (x : Magnitude) : Nat := x.mantissa <<< x.shift

/-- The natural number nearest to `num / den`, a half going to the even
neighbour. -/
def nearestNat (num den : Nat) : Nat :=
  let q := num / den
  let r := num % den
  if 2 * r < den then q
  else if den < 2 * r then q + 1
  else q + q % 2

/-- The magnitude with this mantissa and shift, if the format has it. -/
def ofParts? (mantissa shift : Nat) : Option Magnitude :=
  if h : mantissa < 2 * leastNormal ∧ shift ≤ 2045 ∧ (shift = 0 ∨ leastNormal ≤ mantissa) then
    some ⟨mantissa, shift, h⟩
  else none

/-- The magnitude nearest to `num / den`, a half going to the even
mantissa; `none` when it would be infinite. The shift leaves 53 bits of
the integer part of `num / den · 2^1074`; rounding up to 2^53 moves to
the next shift. -/
def ofRatio (num den : Nat) : Option Magnitude :=
  let scaledNum := num <<< 1074
  let shift := (scaledNum / den).log2 - 52
  let mantissa := nearestNat scaledNum (den <<< shift)
  if mantissa = 2 * leastNormal then ofParts? leastNormal (shift + 1) else ofParts? mantissa shift

/-- The magnitude nearest to a natural number. -/
def ofNat (n : Nat) : Option Magnitude := ofRatio n 1

/-- The rounded product. -/
def mul (x y : Magnitude) : Option Magnitude :=
  ofRatio (x.scaled * y.scaled) (1 <<< 2148)

/-- The rounded quotient; the divisor is not zero. -/
def div (x y : Magnitude) : Option Magnitude :=
  ofRatio x.scaled y.scaled

/-- The magnitude nearest to `10^n`, for `n` up to 308. -/
def tenPow (n : Nat) : Option Magnitude := ofNat (tenfold n)

/-- The magnitude nearest to `digits · 10^exponent`, rounded once.
Exponents far outside the format are settled without computing the
power: a number of `k` digits lies between `10^(k-1)` and `10^k`. -/
def ofDecimal (digits : Nat) (exponent : Int) : Option Magnitude :=
  let places : Int := (Nat.toDigits 10 digits).length
  if digits = 0 then some zero
  else if places + exponent > 400 then none
  else if places + exponent < -400 then some zero
  else if exponent < 0 then ofRatio digits (tenfold (-exponent).toNat)
  else ofNat (digits * tenfold exponent.toNat)

end Magnitude

/-- A finite number with its sign; zero has two. -/
structure Binary64 where
  negative : Bool
  magnitude : Magnitude
deriving DecidableEq, Repr, Inhabited

/-- Numeric equality: the two zeros are equal. -/
def Binary64.same (x y : Binary64) : Bool :=
  x.magnitude = y.magnitude && (x.negative == y.negative || x.magnitude.isZero)

end MuxControl
