/-
MuxControl.Proofs.PeakLevels — the level of a peak is the nearest integer
to its decibels below full scale.

`hundredfolds` is the logarithm to the base 100, rounded down
(`hundredfolds_eq_log`), so levels rise with the peak (`decibels_mono`)
and lie between the level of silence and 0 for samples of 16 bits.

`abs_sub_decibels_lt` says what is read off the powers of a hundred: the
level is less than one half away from `20 · log10 (p / 32767)`. No level
is as far away as one half: that would make a power of ten with an odd
exponent the ratio of two fortieth powers, one of them odd.
-/
import MuxControl.Health.Level
import MuxControl.Number.Word
import Mathlib.Analysis.SpecialFunctions.Log.Base
import Mathlib.Data.Nat.Log
import Mathlib.NumberTheory.Padics.PadicVal.Basic
import Mathlib.Tactic.Linarith
import Mathlib.Tactic.NormNum

namespace MuxControl

/-! ## Powers of a hundred -/

theorem hundredfolds_eq_log (n : Nat) : hundredfolds n = Nat.log 100 n := by
  induction n using hundredfolds.induct with
  | case1 n hlt => rw [hundredfolds, if_pos hlt, Nat.log_of_lt hlt]
  | case2 n hge ih =>
    have hlog := Nat.log_of_one_lt_of_le (b := 100) (n := n) (by decide) (by omega)
    rw [hundredfolds, if_neg hge, ih, hlog]

/-- The ratio of natural numbers that a level is read off. -/
def peakRatio (peak : Nat) : Nat := peak ^ 40 * 10 ^ 181 / fullScale ^ 40

theorem decibels_eq_log (peak : Nat) : decibels peak = Nat.log 100 (peakRatio peak) - 90 := by
  show (hundredfolds (peakRatio peak) : Int) + silenceFloor = _
  rw [hundredfolds_eq_log]
  rfl

theorem decibels_zero : decibels 0 = silenceFloor := by
  rw [decibels_eq_log, peakRatio]
  simp [silenceFloor]

theorem silenceFloor_le_decibels (peak : Nat) : silenceFloor ≤ decibels peak := by
  rw [decibels_eq_log, silenceFloor]
  omega

/-- Levels rise with the peak. -/
theorem decibels_mono : Monotone decibels := by
  intro a b hle
  have hratio : peakRatio a ≤ peakRatio b :=
    Nat.div_le_div_right (Nat.mul_le_mul_right _ (Nat.pow_le_pow_left hle 40))
  have hlog := Nat.log_mono_right (b := 100) hratio
  rw [decibels_eq_log, decibels_eq_log]
  omega

theorem decibels_le {peak loudest k : Nat} (hpeak : peak ≤ loudest)
    (hratio : peakRatio loudest < 100 ^ (k + 1)) : decibels peak ≤ k - 90 := by
  have hlog := Nat.log_lt_of_lt_pow' (Nat.succ_ne_zero k) hratio
  refine Int.le_trans (decibels_mono hpeak) ?_
  rw [decibels_eq_log]
  omega

/-- The magnitude of a sample of 16 bits is no louder than full scale. -/
theorem decibels_nonpos {peak : Nat} (hpeak : peak ≤ fullScale + 1) : decibels peak ≤ 0 :=
  decibels_le (k := 90) hpeak (by decide +kernel)

/-- No peak that 16 bits can hold is louder than 7 decibels. -/
theorem decibels_le_seven {peak : Nat} (hpeak : peak ≤ Word.max16) : decibels peak ≤ 7 :=
  decibels_le (k := 97) hpeak (by decide +kernel)

/-! ## Decibels -/

/-- The left side has an odd number of factors two, the right side an even
one. -/
theorem mul_pow_ne_mul_pow {peak : Nat} (hpeak : peak ≠ 0) (k : Nat) :
    peak ^ 40 * 10 ^ 181 ≠ fullScale ^ 40 * 10 ^ (2 * k) := by
  intro heq
  have htwos := congrArg (padicValNat 2) heq
  have hten : padicValNat 2 10 = 1 := by decide +kernel
  have hscale : padicValNat 2 fullScale = 0 := by decide +kernel
  rw [padicValNat.mul (pow_ne_zero _ hpeak) (by decide +kernel),
    padicValNat.mul (by decide +kernel) (pow_ne_zero _ (by decide))] at htwos
  simp only [padicValNat.pow, hten, hscale] at htwos
  omega

/-- The bounds of a level, without its logarithms. -/
theorem lt_and_lt_of_log {peak : Nat} (hpeak : 0 < peak) :
    fullScale ^ 40 * 10 ^ (2 * Nat.log 100 (peakRatio peak)) < peak ^ 40 * 10 ^ 181 ∧
      peak ^ 40 * 10 ^ 181 < fullScale ^ 40 * 10 ^ (2 * (Nat.log 100 (peakRatio peak) + 1)) := by
  have hscale : 0 < fullScale ^ 40 := by decide +kernel
  have hpositive : peakRatio peak ≠ 0 := by
    have hleast : fullScale ^ 40 ≤ 10 ^ 181 := by decide +kernel
    have hmore := Nat.le_mul_of_pos_left (10 ^ 181) (Nat.pow_pos (n := 40) hpeak)
    exact (Nat.div_pos (Nat.le_trans hleast hmore) hscale).ne'
  have hlower := Nat.pow_log_le_self 100 hpositive
  have hupper := Nat.lt_pow_succ_log_self (b := 100) (by decide) (peakRatio peak)
  rw [peakRatio, Nat.le_div_iff_mul_le hscale] at hlower
  rw [peakRatio, Nat.div_lt_iff_lt_mul hscale] at hupper
  rw [pow_mul, pow_mul, Nat.mul_comm, Nat.mul_comm (fullScale ^ 40)]
  refine ⟨lt_of_le_of_ne hlower fun heq => ?_, hupper⟩
  refine mul_pow_ne_mul_pow hpeak.ne' (Nat.log 100 (peakRatio peak)) ?_
  rw [pow_mul, Nat.mul_comm (fullScale ^ 40)]
  exact heq.symm

theorem logb_mul_pow {m : Nat} (hm : 0 < m) (k : Nat) :
    Real.logb 10 ((m ^ 40 * 10 ^ k : Nat) : ℝ) = 40 * Real.logb 10 m + k := by
  have hne : (m : ℝ) ≠ 0 := Nat.cast_ne_zero.mpr hm.ne'
  push_cast
  rw [Real.logb_mul (pow_ne_zero _ hne) (by positivity), Real.logb_pow, Real.logb_pow,
    Real.logb_self_eq_one (by norm_num)]
  push_cast
  ring

theorem logb_lt_of_lt {m n k l : Nat} (hm : 0 < m) (hn : 0 < n)
    (hlt : m ^ 40 * 10 ^ k < n ^ 40 * 10 ^ l) :
    40 * Real.logb 10 m + k < 40 * Real.logb 10 n + l := by
  rw [← logb_mul_pow hm, ← logb_mul_pow hn]
  refine Real.logb_lt_logb (by norm_num) ?_ (Nat.cast_lt.mpr hlt)
  exact Nat.cast_pos.mpr (Nat.mul_pos (Nat.pow_pos hm) (Nat.pow_pos (by decide)))

/-- **A level is the nearest integer** to the decibels of the peak, and no
other integer is as near. -/
theorem abs_sub_decibels_lt {peak : Nat} (hpeak : 0 < peak) :
    |20 * Real.logb 10 (peak / fullScale) - decibels peak| < 1 / 2 := by
  obtain ⟨hlower, hupper⟩ := lt_and_lt_of_log hpeak
  have hbelow := logb_lt_of_lt (by decide) hpeak hlower
  have habove := logb_lt_of_lt hpeak (by decide) hupper
  have hratio : Real.logb 10 ((peak : ℝ) / fullScale) =
      Real.logb 10 peak - Real.logb 10 fullScale :=
    Real.logb_div (Nat.cast_ne_zero.mpr hpeak.ne') (Nat.cast_ne_zero.mpr (by decide))
  rw [hratio, decibels_eq_log, abs_lt]
  push_cast at hbelow habove ⊢
  constructor <;> linarith

end MuxControl
