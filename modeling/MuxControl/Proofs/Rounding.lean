/-
MuxControl.Proofs.Rounding — what one rounding to a magnitude gives.

A ratio below `tooLarge` has a nearest magnitude (`ofRatio_spec`): its
integer part is cut to 53 bits (`cut_spec`), and what is cut off decides
whether the rest goes up. So a ratio grows by one part in 2^53 at most
and does not fall below a power of two (`ofRatio_bounds`), and a ratio in
the interval of a magnitude is rounded to it (`ofRatio_eq`).
-/
import Mathlib.Tactic.Linarith
import Mathlib.Tactic.Ring
import MuxControl.Number.Shortest

namespace MuxControl.Magnitude

/-- The shift that takes the smallest positive magnitude to one. -/
@[irreducible] def unitShift : Nat := 1074

theorem unitShift_eq : unitShift = 1074 := by unfold unitShift; rfl

/-- The shift below the greatest. -/
@[irreducible] def halfShift : Nat := 2044

theorem halfShift_eq : halfShift = 2044 := by unfold halfShift; rfl

/-- The number one times 2^1074. -/
def scaledOne : Nat := 2 ^ unitShift

/-- Half of the greatest step between two magnitudes, times 2^1074. -/
def halfStep : Nat := 2 ^ halfShift

/-- The least natural number that is too large for a magnitude times
2^1074: half a step above the greatest one. -/
def tooLarge : Nat := (4 * leastNormal - 1) * halfStep

theorem scaled_eq (x : Magnitude) : x.scaled = x.mantissa * 2 ^ x.shift :=
  Nat.shiftLeft_eq _ _

theorem shiftLeft_eq_mul_one (n : Nat) : n <<< 1074 = n * scaledOne := by
  rw [scaledOne, ← unitShift_eq, Nat.shiftLeft_eq]

theorem one_shiftLeft_eq : 1 <<< 2148 = scaledOne * scaledOne := by
  have hsum : 2148 = unitShift + unitShift := by rw [unitShift_eq]
  rw [hsum, Nat.shiftLeft_eq, Nat.one_mul, Nat.pow_add, scaledOne]

theorem scaledOne_pos : 0 < scaledOne := Nat.two_pow_pos unitShift

theorem leastNormal_le_scaledOne : leastNormal ≤ scaledOne := by
  have hshift : 52 ≤ unitShift := by rw [unitShift_eq]; decide
  exact Nat.pow_le_pow_right Nat.two_pos hshift

theorem halfStep_pos : 0 < halfStep := Nat.two_pow_pos halfShift

/-- A shift within the format is at most the greatest. -/
theorem two_pow_le_halfStep {shift : Nat} (h : shift ≤ 2045) : 2 ^ shift ≤ 2 * halfStep := by
  have hshift : shift ≤ halfShift + 1 := by rwa [halfShift_eq]
  rw [halfStep, Nat.mul_comm, ← Nat.pow_succ]
  exact Nat.pow_le_pow_right Nat.two_pos hshift

theorem halfStep_mul_le {shift k : Nat} (h : 2044 + k ≤ shift) : halfStep * 2 ^ k ≤ 2 ^ shift := by
  have hshift : halfShift + k ≤ shift := by rwa [halfShift_eq]
  rw [halfStep, ← Nat.pow_add]
  exact Nat.pow_le_pow_right Nat.two_pos hshift

/-! ## The nearest natural number -/

section Nearest

variable {den : Nat}

theorem nearestNat_bounds (num : Nat) (hden : 0 < den) :
    2 * num ≤ (2 * nearestNat num den + 1) * den ∧
      2 * nearestNat num den * den ≤ 2 * num + den := by
  have hsplit := Nat.div_add_mod num den
  have hrest := Nat.mod_lt num hden
  simp only [nearestNat]
  generalize num / den = q at hsplit
  generalize num % den = r at hsplit hrest
  subst hsplit
  have hcomm : den * q = q * den := Nat.mul_comm den q
  split
  · exact ⟨by linarith, by linarith⟩
  split
  · exact ⟨by linarith, by linarith⟩
  · have hhalf : 2 * r = den := by omega
    rcases Nat.mod_two_eq_zero_or_one q with heven | hodd
    · rw [heven]
      exact ⟨by linarith, by linarith⟩
    · rw [hodd]
      exact ⟨by linarith, by linarith⟩

/-- A ratio within half a step of a number, the ends belonging to an even
one. -/
theorem nearestNat_eq {num n : Nat} (hden : 0 < den) (hlow : 2 * n * den ≤ 2 * num + den)
    (hhigh : 2 * num ≤ (2 * n + 1) * den)
    (hodd : n % 2 = 1 → 2 * n * den < 2 * num + den ∧ 2 * num < (2 * n + 1) * den) :
    nearestNat num den = n := by
  have hsplit := Nat.div_add_mod num den
  have hrest := Nat.mod_lt num hden
  simp only [nearestNat]
  generalize num / den = q at hsplit
  generalize num % den = r at hsplit hrest
  subst hsplit
  have hcomm : den * q = q * den := Nat.mul_comm den q
  have hle : q ≤ n := by
    have hmul : 2 * q * den < (2 * n + 2) * den := by linarith
    have := Nat.lt_of_mul_lt_mul_right hmul
    omega
  have hge : n ≤ q + 1 := by
    have hmul : 2 * n * den < (2 * q + 3) * den := by linarith
    have := Nat.lt_of_mul_lt_mul_right hmul
    omega
  rcases Nat.lt_or_eq_of_le hle with hlt | rfl
  · -- The number is the next one, so the rest makes up half a step or more.
    obtain rfl : n = q + 1 := by omega
    have hhalf : den ≤ 2 * r := by linarith
    have htie : 2 * r = den → q % 2 = 1 := by
      intro htie
      refine Nat.mod_two_ne_zero.mp fun heven => ?_
      have hstrict := (hodd (by omega)).1
      linarith
    split
    · omega
    split
    · rfl
    · rw [htie (by omega)]
  · have hhalf : 2 * r ≤ den := by linarith
    have htie : 2 * r = den → q % 2 = 0 := by
      intro htie
      refine Nat.mod_two_ne_one.mp fun hone => ?_
      have hstrict := (hodd hone).2
      linarith
    split
    · rfl
    split
    · omega
    · rw [htie (by omega), Nat.add_zero]

theorem div_le_nearestNat (num den : Nat) : num / den ≤ nearestNat num den := by
  simp only [nearestNat]
  split
  · exact Nat.le_refl _
  split
  · exact Nat.le_succ _
  · exact Nat.le_add_right _ _

theorem le_nearestNat {num n : Nat} (hden : 0 < den) (h : den * n ≤ num) :
    n ≤ nearestNat num den := by
  refine Nat.le_trans ?_ (div_le_nearestNat num den)
  rwa [Nat.le_div_iff_mul_le hden, Nat.mul_comm]

theorem nearestNat_le {num n : Nat} (hden : 0 < den) (h : num < den * n) :
    nearestNat num den ≤ n := by
  obtain ⟨-, hdown⟩ := nearestNat_bounds num hden
  have hlt : 2 * nearestNat num den * den < (2 * n + 1) * den := by
    calc 2 * nearestNat num den * den ≤ 2 * num + den := hdown
      _ < (2 * n + 1) * den := by linarith
  have := Nat.lt_of_mul_lt_mul_right hlt
  omega

end Nearest

/-! ## One rounding -/

section Ratio

variable {num den : Nat}

theorem ofParts?_eq_some {mantissa shift : Nat} (hmantissa : mantissa < 2 * leastNormal)
    (hshift : shift ≤ 2045) (hnormal : shift ≠ 0 → leastNormal ≤ mantissa) :
    ∃ y, ofParts? mantissa shift = some y ∧ y.scaled = mantissa * 2 ^ shift := by
  have hcanonical : mantissa < 2 * leastNormal ∧ shift ≤ 2045 ∧
      (shift = 0 ∨ leastNormal ≤ mantissa) :=
    ⟨hmantissa, hshift, (Nat.eq_zero_or_pos shift).imp_right fun h => hnormal (Nat.ne_of_gt h)⟩
  exact ⟨⟨mantissa, shift, hcanonical⟩, dif_pos hcanonical, scaled_eq _⟩

/-- How many bits are cut off, so that 53 bits of the integer part are
left. -/
def cut (num den : Nat) : Nat := (num / den).log2 - 52

theorem cut_spec (num : Nat) (hden : 0 < den) :
    num < den * 2 ^ cut num den * (2 * leastNormal) ∧
      (cut num den ≠ 0 → den * 2 ^ cut num den * leastNormal ≤ num) := by
  have hlog : (num / den).log2 - 52 = cut num den := rfl
  generalize cut num den = shift at hlog ⊢
  refine ⟨?_, fun hshift => ?_⟩
  · have hbits : num / den < 2 ^ (shift + 53) :=
      Nat.lt_of_lt_of_le Nat.lt_log2_self (Nat.pow_le_pow_right (by decide) (by omega))
    rw [Nat.div_lt_iff_lt_mul hden] at hbits
    calc num < 2 ^ (shift + 53) * den := hbits
      _ = den * 2 ^ shift * (2 * leastNormal) := by
        rw [Nat.pow_add, Nat.mul_comm, ← Nat.mul_assoc]
        rfl
  · have hquotient : num / den ≠ 0 := by
      intro hzero
      rw [hzero] at hlog
      exact hshift hlog.symm
    have hbits : 2 ^ (shift + 52) ≤ num / den := by
      have hsplit : (num / den).log2 = shift + 52 := by omega
      rw [← hsplit]
      exact Nat.log2_self_le hquotient
    rw [Nat.le_div_iff_mul_le hden] at hbits
    calc den * 2 ^ shift * leastNormal = 2 ^ (shift + 52) * den := by
          rw [Nat.pow_add, Nat.mul_comm _ den, ← Nat.mul_assoc]
          rfl
      _ ≤ num := hbits

/-- What is cut off a number that is not too large fits into the format;
rounding up to the next power of two leaves room as well. -/
theorem cut_le (hden : 0 < den) (hfits : num < tooLarge * den) :
    cut num den ≤ 2045 ∧
      (nearestNat num (den * 2 ^ cut num den) = 2 * leastNormal → cut num den < 2045) := by
  obtain ⟨-, habove⟩ := cut_spec num hden
  obtain ⟨-, hdown⟩ := nearestNat_bounds num (Nat.mul_pos hden (Nat.two_pow_pos (cut num den)))
  generalize cut num den = shift at habove hdown ⊢
  have hlimit : tooLarge * den = (4 * leastNormal - 1) * (den * halfStep) := by
    rw [tooLarge, Nat.mul_assoc, Nat.mul_comm den]
  rw [hlimit] at hfits
  have hwide : ∀ k, 2044 + k ≤ shift → den * halfStep * 2 ^ k ≤ den * 2 ^ shift := by
    intro k hk
    rw [Nat.mul_assoc]
    exact Nat.mul_le_mul_left den (halfStep_mul_le hk)
  have hsmall : shift ≤ 2045 := by
    refine Nat.le_of_not_lt fun hlarge => ?_
    have hfloor := hwide 2 hlarge
    have hnum := habove (by omega)
    generalize den * halfStep = limit at hfits hfloor
    unfold leastNormal at hfits hnum
    omega
  refine ⟨hsmall, fun hcarry => Nat.lt_of_le_of_ne hsmall fun htight => ?_⟩
  have htwice := hwide 1 (Nat.le_of_eq htight.symm)
  rw [hcarry] at hdown
  generalize den * halfStep = limit at hfits htwice
  unfold leastNormal at hfits hdown
  omega

/-- **One rounding.** The nearest magnitude of a ratio that is not too
large is a multiple of `2^shift`; the ratio has at most 53 bits above
that, and exactly 53 unless nothing is cut off. -/
theorem ofRatio_spec (hden : 0 < den) (hfits : num * scaledOne < tooLarge * den) :
    ∃ y shift, ofRatio num den = some y ∧
      y.scaled = nearestNat (num * scaledOne) (den * 2 ^ shift) * 2 ^ shift ∧
      num * scaledOne < den * 2 ^ shift * (2 * leastNormal) ∧
      (shift ≠ 0 → den * 2 ^ shift * leastNormal ≤ num * scaledOne) := by
  simp only [ofRatio, shiftLeft_eq_mul_one]
  generalize num * scaledOne = scaledNum at hfits ⊢
  simp only [Nat.shiftLeft_eq]
  obtain ⟨hbelow, habove⟩ := cut_spec scaledNum hden
  obtain ⟨hsmall, hroom⟩ := cut_le hden hfits
  change ∃ y shift, (if nearestNat scaledNum (den * 2 ^ cut scaledNum den) = 2 * leastNormal
    then ofParts? leastNormal (cut scaledNum den + 1)
    else ofParts? (nearestNat scaledNum (den * 2 ^ cut scaledNum den)) (cut scaledNum den)) =
      some y ∧ _
  generalize cut scaledNum den = shift at hbelow habove hsmall hroom ⊢
  have hstep : 0 < den * 2 ^ shift := Nat.mul_pos hden (Nat.two_pow_pos shift)
  have hmost := nearestNat_le hstep hbelow
  have hleast : shift ≠ 0 → leastNormal ≤ nearestNat scaledNum (den * 2 ^ shift) :=
    fun hshift => le_nearestNat hstep (habove hshift)
  by_cases hcarry : nearestNat scaledNum (den * 2 ^ shift) = 2 * leastNormal
  · -- The mantissa is rounded up to the next power of two.
    obtain ⟨y, hy, hscaled⟩ := ofParts?_eq_some (by decide) (hroom hcarry) fun _ => Nat.le_refl _
    refine ⟨y, shift, by rw [if_pos hcarry, hy], ?_, hbelow, habove⟩
    rw [hscaled, hcarry, Nat.pow_succ]
    ring
  · obtain ⟨y, hy, hscaled⟩ :=
      ofParts?_eq_some (Nat.lt_of_le_of_ne hmost hcarry) hsmall hleast
    exact ⟨y, shift, by rw [if_neg hcarry, hy], hscaled, hbelow, habove⟩

/-- A ratio that has 53 bits grows by one part in 2^53 at most, and does
not fall below a power of two. -/
theorem ofRatio_bounds (hden : 0 < den) (hfits : num * scaledOne < tooLarge * den)
    (hlarge : den * leastNormal ≤ num * scaledOne) :
    ∃ y, ofRatio num den = some y ∧
      y.scaled * den * (2 * leastNormal) ≤ num * scaledOne * (2 * leastNormal + 1) ∧
      ∀ k, den * 2 ^ k ≤ num * scaledOne → 2 ^ k ≤ y.scaled := by
  obtain ⟨y, shift, hy, hscaled, -, habove⟩ := ofRatio_spec hden hfits
  generalize num * scaledOne = scaledNum at hlarge hscaled habove ⊢
  have hstep : 0 < den * 2 ^ shift := Nat.mul_pos hden (Nat.two_pow_pos shift)
  have hnormal : den * 2 ^ shift * leastNormal ≤ scaledNum := by
    by_cases hshift : shift = 0
    · rw [hshift, Nat.pow_zero, Nat.mul_one]
      exact hlarge
    · exact habove hshift
  refine ⟨y, hy, ?_, fun k hk => ?_⟩
  · obtain ⟨-, hdown⟩ := nearestNat_bounds scaledNum hstep
    calc y.scaled * den * (2 * leastNormal)
        = 2 * nearestNat scaledNum (den * 2 ^ shift) * (den * 2 ^ shift) * leastNormal := by
          rw [hscaled]
          ring
      _ ≤ (2 * scaledNum + den * 2 ^ shift) * leastNormal := Nat.mul_le_mul_right _ hdown
      _ = 2 * scaledNum * leastNormal + den * 2 ^ shift * leastNormal := Nat.add_mul _ _ _
      _ ≤ 2 * scaledNum * leastNormal + scaledNum := Nat.add_le_add_left hnormal _
      _ = scaledNum * (2 * leastNormal + 1) := by ring
  · -- The power of two is a multiple of the step, or below all 53 bits.
    have hmantissa := div_le_nearestNat scaledNum (den * 2 ^ shift)
    rw [hscaled]
    by_cases hsmall : k ≤ shift
    · have hone : 1 ≤ scaledNum / (den * 2 ^ shift) := by
        rw [Nat.one_le_div_iff hstep]
        exact Nat.le_trans (Nat.le_mul_of_pos_right _ (by decide)) hnormal
      calc 2 ^ k ≤ 1 * 2 ^ shift := by
            rw [Nat.one_mul]
            exact Nat.pow_le_pow_right Nat.two_pos hsmall
        _ ≤ _ := Nat.mul_le_mul_right _ (Nat.le_trans hone hmantissa)
    · obtain ⟨more, rfl⟩ := Nat.exists_eq_add_of_le (Nat.le_of_not_le hsmall)
      have hmore : 2 ^ more ≤ scaledNum / (den * 2 ^ shift) := by
        rw [Nat.le_div_iff_mul_le hstep]
        calc 2 ^ more * (den * 2 ^ shift) = den * 2 ^ (shift + more) := by
              rw [Nat.pow_add]
              ring
          _ ≤ scaledNum := hk
      calc 2 ^ (shift + more) = 2 ^ more * 2 ^ shift := by rw [Nat.pow_add, Nat.mul_comm]
        _ ≤ _ := Nat.mul_le_mul_right _ (Nat.le_trans hmore hmantissa)

/-- A magnitude is given by its number. -/
theorem eq_of_scaled_eq {x y : Magnitude} (h : x.scaled = y.scaled) : x = y := by
  -- With the greater shift the mantissa would have a bit too many.
  have hshift : ∀ {x y : Magnitude}, x.scaled = y.scaled → ¬x.shift < y.shift := by
    intro x y h hlt
    obtain ⟨hmantissa, -, -⟩ := x.canonical
    have hnormal := y.canonical.2.2.resolve_left (by omega)
    rw [scaled_eq, scaled_eq] at h
    have hlarge : 2 * leastNormal * 2 ^ x.shift ≤ x.mantissa * 2 ^ x.shift := by
      calc 2 * leastNormal * 2 ^ x.shift = leastNormal * 2 ^ (x.shift + 1) := by
            rw [Nat.pow_succ]
            ring
        _ ≤ y.mantissa * 2 ^ y.shift :=
            Nat.mul_le_mul hnormal (Nat.pow_le_pow_right Nat.two_pos hlt)
        _ = x.mantissa * 2 ^ x.shift := h.symm
    exact absurd (Nat.le_of_mul_le_mul_right hlarge (Nat.two_pow_pos _)) (by omega)
  have hsame : x.shift = y.shift :=
    Nat.le_antisymm (Nat.le_of_not_lt (hshift h.symm)) (Nat.le_of_not_lt (hshift h))
  rw [scaled_eq, scaled_eq, hsame] at h
  have hmantissa := Nat.eq_of_mul_eq_mul_right (Nat.two_pow_pos _) h
  cases x
  cases y
  simp_all

/-- How many quarters of a step the interval of a magnitude reaches down:
half as many below a power of two. -/
def reachBelow (x : Magnitude) : Nat := if x.mantissa = leastNormal ∧ 0 < x.shift then 1 else 2

theorem reachBelow_bounds (x : Magnitude) : 1 ≤ x.reachBelow ∧ x.reachBelow ≤ 2 := by
  unfold reachBelow
  split <;> decide

/-- A number lies in the interval of a magnitude, where `step` is one unit
of the mantissa; the ends belong to the interval if the mantissa is
even. -/
structure Covers (x : Magnitude) (step n : Nat) : Prop where
  low : (4 * x.mantissa - x.reachBelow) * step ≤ 4 * n
  high : 4 * n ≤ (4 * x.mantissa + 2) * step
  inside : x.mantissa % 2 = 1 →
    (4 * x.mantissa - x.reachBelow) * step < 4 * n ∧ 4 * n < (4 * x.mantissa + 2) * step

theorem step_mul_le {shift more k : Nat} (den : Nat) (h : shift + k ≤ more) :
    den * 2 ^ shift * 2 ^ k ≤ den * 2 ^ more := by
  rw [Nat.mul_assoc, ← Nat.pow_add]
  exact Nat.mul_le_mul_left den (Nat.pow_le_pow_right Nat.two_pos h)

section Covers

variable {x : Magnitude} {step n shift : Nat}

/-- The lower end without a difference. -/
theorem lowerEnd_add (hx : x.mantissa ≠ 0) (step : Nat) :
    (4 * x.mantissa - x.reachBelow) * step + x.reachBelow * step = 4 * (x.mantissa * step) := by
  have hreach := (reachBelow_bounds x).2
  rw [← Nat.add_mul, Nat.sub_add_cancel (by omega), Nat.mul_assoc]

theorem upperEnd_eq (x : Magnitude) (step : Nat) :
    (4 * x.mantissa + 2) * step = 4 * (x.mantissa * step) + 2 * step := by ring

/-- No interval reaches up to the middle behind the last mantissa. -/
theorem Covers.lt_top (h : x.Covers step n) (hstep : 0 < step) :
    4 * n < (8 * leastNormal - 2) * step := by
  have hmantissa := x.canonical.1
  rcases Nat.mod_two_eq_zero_or_one x.mantissa with heven | hone
  · have hle : 4 * x.mantissa + 2 < 8 * leastNormal - 2 := by
      unfold leastNormal at hmantissa ⊢
      omega
    exact Nat.lt_of_le_of_lt h.high (Nat.mul_lt_mul_of_pos_right hle hstep)
  · exact Nat.lt_of_lt_of_le (h.inside hone).2 (Nat.mul_le_mul_right _ (by omega))

theorem Covers.fits (h : x.Covers (den * 2 ^ x.shift) n) (hden : 0 < den) :
    n < tooLarge * den := by
  have htop := h.lt_top (Nat.mul_pos hden (Nat.two_pow_pos _))
  have hwide : den * 2 ^ x.shift ≤ den * (2 * halfStep) :=
    Nat.mul_le_mul_left den (two_pow_le_halfStep x.canonical.2.1)
  have hle := Nat.mul_le_mul_left (8 * leastNormal - 2) hwide
  have hlimit : (8 * leastNormal - 2) * (den * (2 * halfStep)) = 4 * (tooLarge * den) := by
    rw [tooLarge, show 8 * leastNormal - 2 = 2 * (4 * leastNormal - 1) by decide]
    ring
  omega

/-- In units of the mantissa the mantissa is nearest. -/
theorem Covers.nearest (h : x.Covers step n) (hx : x.mantissa ≠ 0) (hstep : 0 < step) :
    nearestNat n step = x.mantissa := by
  have hlower := lowerEnd_add hx step
  have hupper := upperEnd_eq x step
  have hreach : x.reachBelow * step ≤ 2 * step :=
    Nat.mul_le_mul_right _ (reachBelow_bounds x).2
  have hdouble : 2 * x.mantissa * step = 2 * (x.mantissa * step) := Nat.mul_assoc _ _ _
  have hsucc : (2 * x.mantissa + 1) * step = 2 * (x.mantissa * step) + step := by ring
  obtain ⟨hlow, hhigh, hinside⟩ := h
  refine nearestNat_eq hstep (by omega) (by omega) fun hone => ?_
  obtain ⟨hlow', hhigh'⟩ := hinside hone
  exact ⟨by omega, by omega⟩

/-- A number that is cut less than the magnitude lies just below a power
of two. It keeps one more bit, and the rest rounds up to that power. -/
theorem Covers.nearest_below (h : x.Covers (den * 2 ^ x.shift) n) (hden : 0 < den)
    (hshift : shift < x.shift) (hless : n < den * 2 ^ shift * (2 * leastNormal)) :
    nearestNat n (den * 2 ^ shift) * 2 ^ shift = x.mantissa * 2 ^ x.shift := by
  have hnormal : leastNormal ≤ x.mantissa := x.canonical.2.2.resolve_left (by omega)
  have hlow := h.low
  have hlower := lowerEnd_add (Nat.ne_of_gt (Nat.lt_of_lt_of_le (by decide) hnormal))
    (den * 2 ^ x.shift)
  have hleast : x.mantissa = leastNormal := by
    refine Nat.le_antisymm (Nat.le_of_not_lt fun hlarge => ?_) hnormal
    have hreach : x.reachBelow * (den * 2 ^ x.shift) ≤ 2 * (den * 2 ^ x.shift) :=
      Nat.mul_le_mul_right _ (reachBelow_bounds x).2
    have hmul : (leastNormal + 1) * (den * 2 ^ x.shift) ≤ x.mantissa * (den * 2 ^ x.shift) :=
      Nat.mul_le_mul_right _ hlarge
    have htwice := step_mul_le (k := 1) den hshift
    unfold leastNormal at hmul hless
    omega
  have hquarter : x.reachBelow = 1 := if_pos ⟨hleast, by omega⟩
  rw [hleast, hquarter] at hlow hlower
  have hnext : x.shift = shift + 1 := by
    refine Nat.le_antisymm (Nat.le_of_not_lt fun hfar => ?_) hshift
    have hfourfold := step_mul_le (k := 2) den hfar
    unfold leastNormal at hlow hlower hless
    omega
  have hdouble : den * 2 ^ x.shift = 2 * (den * 2 ^ shift) := by
    rw [hnext, Nat.pow_succ]
    ring
  rw [hdouble] at hlow hlower
  have hnearest : nearestNat n (den * 2 ^ shift) = 2 * leastNormal := by
    refine nearestNat_eq (Nat.mul_pos hden (Nat.two_pow_pos _)) ?_ ?_ fun hone => ?_
    · unfold leastNormal at hlow hlower ⊢
      omega
    · unfold leastNormal at hless ⊢
      omega
    · exact absurd hone (by decide)
  rw [hnearest, hleast, hnext, Nat.pow_succ]
  ring

/-- **Rounding to a given magnitude.** A ratio in the interval of a
magnitude is rounded to it. -/
theorem ofRatio_eq (hden : 0 < den) (hx : x.mantissa ≠ 0)
    (hcovers : x.Covers (den * 2 ^ x.shift) (num * scaledOne)) : ofRatio num den = some x := by
  have hstep : 0 < den * 2 ^ x.shift := Nat.mul_pos hden (Nat.two_pow_pos _)
  obtain ⟨y, shift, hy, hscaled, hless, hmore⟩ := ofRatio_spec hden (hcovers.fits hden)
  rw [hy, Option.some_inj]
  refine eq_of_scaled_eq ?_
  rw [hscaled, scaled_eq]
  rcases Nat.lt_trichotomy shift x.shift with hlt | rfl | hgt
  · exact hcovers.nearest_below hden hlt hless
  · rw [hcovers.nearest hx hstep]
  · -- A greater shift would leave fewer bits than the interval has.
    have hfloor := hmore (by omega)
    have htop := hcovers.lt_top hstep
    have htwice := step_mul_le (k := 1) den hgt
    unfold leastNormal at hfloor htop
    omega

end Covers

end Ratio

/-! ## Products, quotients and natural numbers -/

section Operations

variable {x y : Magnitude}

theorem scaled_lt_tooLarge (x : Magnitude) : x.scaled < tooLarge := by
  obtain ⟨hmantissa, hshift, -⟩ := x.canonical
  have hmul := Nat.mul_le_mul (Nat.le_sub_one_of_lt hmantissa) (two_pow_le_halfStep hshift)
  have hpos := halfStep_pos
  rw [scaled_eq, tooLarge]
  unfold leastNormal at hmul ⊢
  omega

/-- A positive natural number that is not too large. -/
theorem ofNat_bounds {n : Nat} (hpos : 0 < n) (hfits : n * scaledOne < tooLarge) :
    ∃ y, ofNat n = some y ∧
      y.scaled * (2 * leastNormal) ≤ n * scaledOne * (2 * leastNormal + 1) ∧
      scaledOne ≤ y.scaled := by
  have hone : scaledOne ≤ n * scaledOne := Nat.le_mul_of_pos_left _ hpos
  have hlarge : 1 * leastNormal ≤ n * scaledOne := by
    rw [Nat.one_mul]
    exact Nat.le_trans leastNormal_le_scaledOne hone
  obtain ⟨y, hy, hle, hpow⟩ := ofRatio_bounds Nat.one_pos (by rwa [Nat.mul_one]) hlarge
  refine ⟨y, hy, by rwa [Nat.mul_one] at hle, ?_⟩
  exact hpow unitShift (by rwa [Nat.one_mul])

/-- A natural number below 2^53 is a magnitude. -/
theorem ofNat_exact {n : Nat} (hn : n < 2 * leastNormal) :
    ∃ y, ofNat n = some y ∧ y.scaled = n * scaledOne := by
  have hlimit : 2 * leastNormal * scaledOne < tooLarge * 1 := by decide +kernel
  obtain ⟨y, shift, hy, hscaled, -, habove⟩ :=
    ofRatio_spec Nat.one_pos (Nat.lt_of_le_of_lt (Nat.mul_le_mul_right _ (Nat.le_of_lt hn)) hlimit)
  refine ⟨y, hy, ?_⟩
  -- Only zeros are cut off.
  have hshift : shift ≤ unitShift := by
    refine Nat.le_of_not_lt fun hlarge => ?_
    have hpow : 2 * scaledOne ≤ 2 ^ shift := by
      rw [scaledOne, Nat.mul_comm, ← Nat.pow_succ]
      exact Nat.pow_le_pow_right Nat.two_pos hlarge
    have hnum := habove (by omega)
    have hmul := Nat.mul_lt_mul_of_pos_right hn scaledOne_pos
    unfold leastNormal at hnum hmul
    omega
  obtain ⟨zeros, hzeros⟩ := Nat.exists_eq_add_of_le hshift
  have hmultiple : n * scaledOne = n * 2 ^ zeros * 2 ^ shift := by
    rw [scaledOne, hzeros, Nat.pow_add]
    ring
  have hpos := Nat.two_pow_pos shift
  rw [hscaled, Nat.one_mul, hmultiple, nearestNat_eq hpos]
  · linarith
  · linarith
  · exact fun _ => ⟨by linarith, by linarith⟩

/-- Dividing by one or more never overflows. -/
theorem div_eq_some (x : Magnitude) (hy : scaledOne ≤ y.scaled) : ∃ z, x.div y = some z := by
  have hden : 0 < y.scaled := Nat.lt_of_lt_of_le scaledOne_pos hy
  have hfits : x.scaled * scaledOne < tooLarge * y.scaled :=
    Nat.lt_of_le_of_lt (Nat.mul_le_mul_left _ hy)
      (Nat.mul_lt_mul_of_pos_right (scaled_lt_tooLarge x) hden)
  obtain ⟨z, -, hz, -⟩ := ofRatio_spec hden hfits
  exact ⟨z, hz⟩

theorem mul_eq_some (hfits : x.scaled * y.scaled < tooLarge * scaledOne) :
    ∃ z, x.mul y = some z := by
  have hden : 0 < 1 <<< 2148 := by
    rw [one_shiftLeft_eq]
    exact Nat.mul_pos scaledOne_pos scaledOne_pos
  have hscaled : x.scaled * y.scaled * scaledOne < tooLarge * (1 <<< 2148) := by
    rw [one_shiftLeft_eq, ← Nat.mul_assoc]
    exact Nat.mul_lt_mul_of_pos_right hfits scaledOne_pos
  obtain ⟨z, -, hz, -⟩ := ofRatio_spec hden hscaled
  exact ⟨z, hz⟩

end Operations

end MuxControl.Magnitude
