/-
MuxControl.Health.Level — peak sample magnitudes in decibels.

The level of a peak `p` is `20 · log10 (p / 32767)` rounded to the
nearest integer, and -90 for silence. A level is at least `n - 90`
exactly when `p / 32767` is at least `10^((2n - 181) / 40)`, that is when
`100^n ≤ p^40 · 10^181 / 32767^40`. So the level is read off the largest
power of a hundred below one ratio of natural numbers; no real number
is rounded, and no level lies on a boundary.
-/

namespace MuxControl

/-- The greatest magnitude of a positive 16-bit sample. -/
def fullScale : Nat := 32767

/-- The level of silence. -/
def silenceFloor : Int := -90

/-- The exponent of the largest power of a hundred that is at most `n`;
zero for `n = 0`. -/
def hundredfolds (n : Nat) : Nat :=
  if n < 100 then 0 else hundredfolds (n / 100) + 1
termination_by n

/-- The level of a peak, in decibels below full scale. -/
def decibels (peak : Nat) : Int :=
  hundredfolds (Nat.pow peak 40 * Nat.pow 10 181 / Nat.pow fullScale 40) + silenceFloor

/-- The magnitude of a signed 16-bit sample. -/
def magnitude (sample : Int) : Nat := sample.natAbs

end MuxControl
