/-
MuxControl.Proofs.FloatText — what a printed floating point number is
read as.

The shortest decimal of a number lies in the interval that rounds to it
and has few digits (`shortest_spec`), so a reader that rounded once would
give every number back (`ofRatio_of_contains`). The reader here rounds
the significand, the power of ten and their product, each for itself:

* `reread?_eq_some`: every printed number is read, none becomes too large;
* `reread?_of_short`: a number with a short significand and a small
  exponent is read as itself;
* `readNumber_float`: what the text of a number is read as.

Other numbers may come back as a neighbour.
-/
import Mathlib.Algebra.Order.Field.Power
import Mathlib.Tactic.FieldSimp
import MuxControl.Proofs.NumberText
import MuxControl.Proofs.Rounding

namespace MuxControl

namespace Magnitude

theorem tenfold_eq (n : Nat) : tenfold n = 10 ^ n := rfl

/-! ## Grids -/

/-- The distance of the points of a grid, in the units of a rounding. -/
def gridStep (place : Nat) : Nat := 10 ^ place * (4 * scaledOne)

theorem gridStep_pos (place : Nat) : 0 < gridStep place :=
  Nat.mul_pos (Nat.pow_pos (by decide)) (Nat.mul_pos (by decide) scaledOne_pos)

theorem gridStep_succ (place : Nat) : gridStep (place + 1) = 10 * gridStep place := by
  rw [gridStep, gridStep, Nat.pow_succ]
  ring

theorem gridStep_eq (place : Nat) : gridStep place = 10 ^ place * gridStep 0 := by
  rw [gridStep, gridStep, Nat.pow_zero, Nat.one_mul]

theorem gridStep_add (a b : Nat) : gridStep (a + b) = 10 ^ a * gridStep b := by
  rw [gridStep, gridStep, Nat.pow_add, Nat.mul_assoc]

theorem two_pow_eq_gridStep : 2 ^ (unitShift + 2) = gridStep 0 := by
  rw [gridStep, scaledOne, Nat.pow_add]
  ring

theorem shiftLeft_eq_grid (n : Nat) : n <<< 1076 = n * gridStep 0 := by
  have hsum : 1076 = unitShift + 2 := by rw [unitShift_eq]
  rw [hsum, Nat.shiftLeft_eq, two_pow_eq_gridStep]

theorem shiftRight_eq_grid (n : Nat) : n >>> 1076 = n / gridStep 0 := by
  have hsum : 1076 = unitShift + 2 := by rw [unitShift_eq]
  rw [hsum, Nat.shiftRight_eq_div_pow, two_pow_eq_gridStep]

namespace Rounding

variable {tie : Tie} {r : Rounding} {grid digits : Nat}

theorem lowest_le_of_contains {point : Nat} (h : r.contains point = true) :
    r.lowest ≤ point ∧ point ≤ r.highest := by
  unfold contains at h
  split at h
  · simpa using h
  · have hopen : r.lowest < point ∧ point < r.highest := by simpa using h
    exact ⟨Nat.le_of_lt hopen.1, Nat.le_of_lt hopen.2⟩

theorem contains_of_lt {point : Nat} (hlow : r.lowest < point) (hhigh : point < r.highest) :
    r.contains point = true := by
  unfold contains
  split
  · simpa using ⟨Nat.le_of_lt hlow, Nat.le_of_lt hhigh⟩
  · simpa using ⟨hlow, hhigh⟩

theorem pick_cases (tie : Tie) (below : Nat) :
    tie.pick below = below ∨ tie.pick below = below + 1 := by
  cases tie with
  | even =>
    rcases Nat.mod_two_eq_zero_or_one below with h | h
    · exact .inl (by rw [Tie.pick, h, Nat.add_zero])
    · exact .inr (by rw [Tie.pick, h])
  | greater => exact .inr rfl

/-- A neighbour that is taken rounds to the magnitude. -/
theorem neighbour?_spec (h : r.neighbour? tie grid = some digits) :
    r.contains (digits * grid) = true ∧ digits ≤ r.centre / grid + 1 := by
  simp only [neighbour?] at h
  generalize r.centre / grid = below at h ⊢
  cases hbelow : r.contains (below * grid) with
  | true =>
    cases habove : r.contains ((below + 1) * grid) with
    | true =>
      simp only [hbelow, habove, Option.some.injEq] at h
      have hcases : digits = below ∨ digits = below + 1 := by
        rw [← h]
        split
        · exact .inl rfl
        split
        · exact .inr rfl
        · exact pick_cases tie below
      rcases hcases with rfl | rfl
      · exact ⟨hbelow, Nat.le_succ _⟩
      · exact ⟨habove, Nat.le_refl _⟩
    | false =>
      simp only [hbelow, habove, Option.some.injEq] at h
      exact ⟨h ▸ hbelow, h ▸ Nat.le_succ _⟩
  | false =>
    cases habove : r.contains ((below + 1) * grid) with
    | true =>
      simp only [hbelow, habove, Option.some.injEq] at h
      exact ⟨h ▸ habove, Nat.le_of_eq h.symm⟩
    | false => simp [hbelow, habove] at h

/-- A grid that is fine enough has a neighbour within the interval. -/
theorem neighbour?_of_fine (tie : Tie) (hgrid : 0 < grid) (hfine : r.lowest + grid ≤ r.centre)
    (hhigh : r.centre < r.highest) : ∃ digits, r.neighbour? tie grid = some digits := by
  have hbelow : r.contains (r.centre / grid * grid) = true := by
    have hsplit := Nat.div_add_mod r.centre grid
    have hrest := Nat.mod_lt r.centre hgrid
    rw [Nat.mul_comm] at hsplit
    exact contains_of_lt (by omega) (by omega)
  simp only [neighbour?, hbelow]
  split
  · exact ⟨_, rfl⟩
  · exact ⟨_, rfl⟩
  · next h _ => cases h
  · next h _ => cases h

/-- **What the search comes to.** A point of a grid that rounds to the
magnitude; where a coarser grid was tried, that one was too coarse. -/
theorem search_spec (tie : Tie) (r : Rounding) {step : Nat} (hgrid : gridStep 0 ≤ step)
    (hwide : r.lowest + step ≤ r.centre) (hhigh : r.centre < r.highest) (place : Nat) :
    ∃ digits, ∃ p : Nat, r.search tie place = ⟨digits, p - (lowestPlace : Int)⟩ ∧ p ≤ place ∧
      r.contains (digits * gridStep p) = true ∧ digits ≤ r.centre / gridStep p + 1 ∧
      (p < place → step < gridStep (p + 1)) := by
  induction place with
  | zero =>
    obtain ⟨digits, hdigits⟩ :=
      neighbour?_of_fine tie (r := r) (gridStep_pos 0) (by omega) hhigh
    have hgrid : 1 <<< 1076 = gridStep 0 := by rw [shiftLeft_eq_grid, Nat.one_mul]
    obtain ⟨hcontains, hle⟩ := neighbour?_spec hdigits
    refine ⟨digits, 0, ?_, Nat.le_refl _, hcontains, hle, fun h => absurd h (Nat.lt_irrefl 0)⟩
    rw [search, hgrid, hdigits]
    simp
  | succ place ih =>
    have hgrid : tenfold (place + 1) <<< 1076 = gridStep (place + 1) := by
      rw [shiftLeft_eq_grid, gridStep_eq (place + 1), tenfold_eq]
    simp only [search, hgrid]
    cases hhit : r.neighbour? tie (gridStep (place + 1)) with
    | some digits =>
      obtain ⟨hcontains, hle⟩ := neighbour?_spec hhit
      exact ⟨digits, place + 1, rfl, Nat.le_refl _, hcontains, hle,
        fun h => absurd h (Nat.lt_irrefl _)⟩
    | none =>
      obtain ⟨digits, p, hsearch, hp, hcontains, hle, hcoarse⟩ := ih
      refine ⟨digits, p, hsearch, Nat.le_succ_of_le hp, hcontains, hle, fun _ => ?_⟩
      rcases Nat.lt_or_eq_of_le hp with hlt | rfl
      · exact hcoarse hlt
      · -- This grid was tried in vain, so it is too coarse.
        refine Nat.lt_of_not_le fun hfine => ?_
        obtain ⟨digits', hdigits'⟩ :=
          neighbour?_of_fine tie (r := r) (gridStep_pos (p + 1)) (by omega) hhigh
        rw [hhit] at hdigits'
        cases hdigits'

end Rounding

/-! ## The shortest decimal -/

section Shortest

variable {x : Magnitude}

/-- The step from a magnitude to the next, in quarters of the units of a
rounding. -/
def quarterStep (x : Magnitude) : Nat := 2 ^ x.shift * 10 ^ lowestPlace

theorem gridStep_zero_le (x : Magnitude) : gridStep 0 ≤ x.quarterStep := by
  have hfour : 4 * scaledOne ≤ 10 ^ lowestPlace := by decide +kernel
  calc gridStep 0 = 4 * scaledOne := Nat.one_mul _
    _ ≤ 10 ^ lowestPlace := hfour
    _ ≤ x.quarterStep := Nat.le_mul_of_pos_left _ (Nat.two_pow_pos _)

theorem quarterStep_pos (x : Magnitude) : 0 < x.quarterStep :=
  Nat.lt_of_lt_of_le (gridStep_pos 0) (gridStep_zero_le x)

theorem rounding_eq (x : Magnitude) :
    x.rounding =
      ⟨(4 * x.mantissa - x.reachBelow) * x.quarterStep, 4 * x.mantissa * x.quarterStep,
        (4 * x.mantissa + 2) * x.quarterStep, x.mantissa % 2 = 0⟩ := by
  have hstep : (1 <<< x.shift) * tenfold lowestPlace = x.quarterStep := by
    rw [Nat.shiftLeft_eq, Nat.one_mul, tenfold_eq, quarterStep]
  simp only [rounding, hstep, reachBelow]

/-- The interval of a magnitude is a quarter step wide at least. -/
theorem rounding_wide (hx : x.mantissa ≠ 0) :
    x.rounding.lowest + x.quarterStep ≤ x.rounding.centre ∧
      x.rounding.centre < x.rounding.highest ∧
      x.rounding.highest = (4 * x.mantissa + 2) * x.quarterStep := by
  obtain ⟨hone, htwo⟩ := reachBelow_bounds x
  rw [rounding_eq]
  refine ⟨?_, Nat.mul_lt_mul_of_pos_right (by omega) (quarterStep_pos x), rfl⟩
  simp only
  rw [← Nat.succ_mul]
  exact Nat.mul_le_mul_right _ (by omega)

theorem centre_lt_gridStep (x : Magnitude) : x.rounding.centre < gridStep 651 := by
  have hlimit : tooLarge ≤ 10 ^ 309 * scaledOne := by decide +kernel
  have hplaces : gridStep 651 = 10 ^ 309 * gridStep lowestPlace := gridStep_add 309 lowestPlace
  rw [rounding_eq, hplaces]
  generalize 10 ^ 309 = whole at hlimit ⊢
  calc 4 * x.mantissa * x.quarterStep = x.scaled * (4 * 10 ^ lowestPlace) := by
        rw [scaled_eq, quarterStep]
        ring
    _ < tooLarge * (4 * 10 ^ lowestPlace) :=
        Nat.mul_lt_mul_of_pos_right (scaled_lt_tooLarge x)
          (Nat.mul_pos (by decide) (Nat.pow_pos (by decide)))
    _ ≤ whole * scaledOne * (4 * 10 ^ lowestPlace) := Nat.mul_le_mul_right _ hlimit
    _ = whole * gridStep lowestPlace := by
        rw [gridStep]
        ring

/-- The search begins on a grid whose first point lies above the
magnitude. -/
theorem start_spec (x : Magnitude) {start : Nat}
    (hstart : start = (Nat.toDigits 10 (x.rounding.centre >>> 1076)).length) :
    x.rounding.centre < gridStep start ∧ start ≤ 651 := by
  have hlt : ∀ n, x.rounding.centre >>> 1076 < 10 ^ n ↔ x.rounding.centre < gridStep n := by
    intro n
    rw [shiftRight_eq_grid, Nat.div_lt_iff_lt_mul (gridStep_pos 0), ← gridStep_eq]
  have hlength : ∀ n, 0 < n → (start ≤ n ↔ x.rounding.centre < gridStep n) := by
    intro n hn
    rw [← hlt, hstart, Nat.length_toDigits_le_iff (by decide) hn]
  have hpos : 0 < start := hstart ▸ Nat.length_toDigits_pos
  exact ⟨(hlength start hpos).mp (Nat.le_refl _),
    (hlength 651 (by decide)).mpr (centre_lt_gridStep x)⟩

/-- **The shortest decimal.** It rounds to the magnitude, and it has at
most 18 digits. -/
theorem shortest_spec (tie : Tie) (hx : x.mantissa ≠ 0) :
    ∃ digits, ∃ p : Nat, x.shortest tie = ⟨digits, p - (lowestPlace : Int)⟩ ∧ p ≤ 651 ∧
      x.rounding.contains (digits * gridStep p) = true ∧ digits < 10 ^ 18 := by
  have hzero : x.isZero = false := decide_eq_false hx
  obtain ⟨hwide, hhigh, hhighest⟩ := rounding_wide hx
  obtain ⟨hcentre, hstart⟩ := start_spec x rfl
  unfold shortest
  rw [hzero]
  simp only [Bool.false_eq_true, if_false]
  generalize (Nat.toDigits 10 (x.rounding.centre >>> 1076)).length = start at hcentre hstart
  obtain ⟨digits, p, hsearch, hp, hcontains, hle, hcoarse⟩ :=
    Rounding.search_spec tie _ (gridStep_zero_le x) hwide hhigh start
  refine ⟨digits, p, hsearch, Nat.le_trans hp hstart, hcontains, ?_⟩
  rcases Nat.lt_or_eq_of_le hp with hlt | rfl
  · -- The next coarser grid is wider than a quarter step, and the interval holds few of those.
    have hmantissa := x.canonical.1
    have hbound : digits * gridStep p < (40 * x.mantissa + 20) * gridStep p := by
      calc digits * gridStep p ≤ (4 * x.mantissa + 2) * x.quarterStep :=
            hhighest ▸ (Rounding.lowest_le_of_contains hcontains).2
        _ < (4 * x.mantissa + 2) * gridStep (p + 1) :=
            Nat.mul_lt_mul_of_pos_left (hcoarse hlt) (Nat.succ_pos _)
        _ = (40 * x.mantissa + 20) * gridStep p := by
            rw [gridStep_succ]
            ring
    have hdigits := Nat.lt_of_mul_lt_mul_right hbound
    unfold leastNormal at hmantissa
    omega
  · rw [Nat.div_eq_of_lt hcentre] at hle
    omega

/-- **A decimal that rounds to a magnitude.** Where a ratio is worth as
much as a point in the interval, it is rounded to the magnitude. -/
theorem ofRatio_of_contains {digits p num den : Nat} (hx : x.mantissa ≠ 0) (hden : 0 < den)
    (hcontains : x.rounding.contains (digits * gridStep p) = true)
    (hvalue : digits * 10 ^ p * den = num * 10 ^ lowestPlace) : ofRatio num den = some x := by
  have hplaces : 0 < 10 ^ lowestPlace := Nat.pow_pos (by decide)
  -- Both sides of every bound, times the powers of ten.
  have hpoint : digits * gridStep p * den = 4 * (num * scaledOne) * 10 ^ lowestPlace := by
    calc digits * gridStep p * den = digits * 10 ^ p * den * (4 * scaledOne) := by
          rw [gridStep]
          ring
      _ = 4 * (num * scaledOne) * 10 ^ lowestPlace := by
          rw [hvalue]
          ring
  have hstep : ∀ n, n * x.quarterStep * den = n * (den * 2 ^ x.shift) * 10 ^ lowestPlace := by
    intro n
    rw [quarterStep]
    ring
  have hle : ∀ {a b : Nat}, a * 10 ^ lowestPlace ≤ b * 10 ^ lowestPlace → a ≤ b :=
    fun h => Nat.le_of_mul_le_mul_right h hplaces
  have hlt : ∀ {a b : Nat}, a * 10 ^ lowestPlace < b * 10 ^ lowestPlace → a < b :=
    fun h => Nat.lt_of_mul_lt_mul_right h
  obtain ⟨hlow, hhigh⟩ := Rounding.lowest_le_of_contains hcontains
  rw [rounding_eq] at hlow hhigh
  refine ofRatio_eq hden hx ⟨hle ?_, hle ?_, fun hone => ?_⟩
  · rw [← hstep, ← hpoint]
    exact Nat.mul_le_mul_right den hlow
  · rw [← hstep, ← hpoint]
    exact Nat.mul_le_mul_right den hhigh
  · rw [rounding_eq, Rounding.contains] at hcontains
    simp only [hone, Nat.one_ne_zero, decide_false, Bool.false_eq_true, if_false,
      Bool.and_eq_true, decide_eq_true_eq] at hcontains
    refine ⟨hlt ?_, hlt ?_⟩
    · rw [← hstep, ← hpoint]
      exact Nat.mul_lt_mul_of_pos_right hcontains.1 hden
    · rw [← hstep, ← hpoint]
      exact Nat.mul_lt_mul_of_pos_right hcontains.2 hden

end Shortest

end Magnitude

/-! ## The significand and the exponent of a printed decimal -/

namespace Decimal

variable {d : Decimal} {layout : Layout}

/-- The digits that are kept and the zeros that are left out. -/
theorem digits_eq (d : Decimal) :
    ∃ k : Nat, d.digits = digitsNumber d.significant.1 * 10 ^ k ∧
      d.significant.2 = d.significant.1.length + k + d.exponent ∧
      d.significant.1.length + k = (Nat.toDigits 10 d.digits).length := by
  obtain ⟨k, hall, hpoint⟩ := significant_spec d
  refine ⟨k, ?_, hpoint, by rw [hall, List.length_append, List.length_replicate]⟩
  calc d.digits = digitsNumber (Nat.toDigits 10 d.digits) := (digitsNumber_toDigits _).symm
    _ = digitsNumber d.significant.1 * 10 ^ k := by
      rw [hall, digitsNumber_append, digitsNumber_zeros, List.length_replicate, Nat.add_zero,
        Nat.mul_comm]

/-- What a printed decimal is read as stands for the decimal. -/
theorem written_value (layout : Layout) (hd : d.digits ≠ 0) :
    ((d.written layout).1 : ℚ) * 10 ^ (d.written layout).2 = d.digits * 10 ^ d.exponent := by
  obtain ⟨k, hdigits, hpoint, -⟩ := digits_eq d
  have hten : (10 : ℚ) ≠ 0 := by norm_num
  have hvalue : (d.digits : ℚ) * 10 ^ d.exponent =
      digitsNumber d.significant.1 * 10 ^ (k + d.exponent) := by
    rw [hdigits, zpow_add₀ hten, zpow_natCast]
    push_cast
    ring
  rw [hvalue]
  unfold written
  generalize d.significant = s at hpoint ⊢
  obtain ⟨ds, point⟩ := s
  simp only [hd, if_false] at hpoint ⊢
  split
  · have hexponent : ((point.toNat - ds.length + 1 : Nat) : Int) + (-1) = k + d.exponent := by
      omega
    rw [← hexponent, zpow_add₀ hten, zpow_natCast]
    push_cast
    ring
  · have hexponent : point - ds.length = k + d.exponent := by omega
    rw [hexponent]

/-- A decimal of 18 digits is read from a significand of 18 digits. -/
theorem written_fst_lt (hd : d.digits < 10 ^ 18) : (d.written Json.numberLayout).1 < 10 ^ 18 := by
  obtain ⟨k, hdigits, hpoint, -⟩ := digits_eq d
  have hlt := digitsNumber_lt (isDigits_significant d)
  have hle : digitsNumber d.significant.1 ≤ d.digits :=
    hdigits ▸ Nat.le_mul_of_pos_right _ (Nat.pow_pos (by decide))
  unfold written
  generalize d.significant = s at hlt hle ⊢
  obtain ⟨ds, point⟩ := s
  simp only at hlt hle ⊢
  split
  · exact Nat.pow_pos (by decide)
  split
  · -- Only numbers below 10^16 have their zeros written out.
    next hintegral =>
    have hsmall : point ≤ 16 := by
      have hleading : -5 ≤ point - 1 ∧ point - 1 < 16 := by
        simpa [Json.numberLayout] using hintegral.1
      omega
    have hplaces : ds.length + (point.toNat - ds.length + 1) ≤ 17 := by omega
    calc digitsNumber ds * 10 ^ (point.toNat - ds.length + 1)
        < 10 ^ ds.length * 10 ^ (point.toNat - ds.length + 1) :=
          Nat.mul_lt_mul_of_pos_right hlt (Nat.pow_pos (by decide))
      _ = 10 ^ (ds.length + (point.toNat - ds.length + 1)) := (Nat.pow_add _ _ _).symm
      _ ≤ 10 ^ 17 := Nat.pow_le_pow_right (by decide) hplaces
      _ ≤ 10 ^ 18 := by decide
  · exact Nat.lt_of_le_of_lt hle hd

end Decimal

/-! ## Scaling -/

namespace Json

open Magnitude

theorem ofNat_significand {n : Nat} (hn : n ≤ maxSignificand) : ∃ y, ofNat n = some y := by
  have hlimit : maxSignificand * scaledOne < tooLarge := by decide +kernel
  have hfits : n * scaledOne < tooLarge * 1 := by
    rw [Nat.mul_one]
    exact Nat.lt_of_le_of_lt (Nat.mul_le_mul_right _ hn) hlimit
  obtain ⟨y, -, hy, -⟩ := ofRatio_spec Nat.one_pos hfits
  exact ⟨y, hy⟩

theorem tenPow_bounds {n : Nat} (hn : n ≤ greatestPower) :
    ∃ y, tenPow n = some y ∧
      y.scaled * (2 * leastNormal) ≤ 10 ^ n * scaledOne * (2 * leastNormal + 1) ∧
      scaledOne ≤ y.scaled := by
  have hlimit : 10 ^ greatestPower * scaledOne < tooLarge := by decide +kernel
  have hpow : 10 ^ n ≤ 10 ^ greatestPower := Nat.pow_le_pow_right (by decide) hn
  exact ofNat_bounds (Nat.pow_pos (by decide))
    (Nat.lt_of_le_of_lt (Nat.mul_le_mul_right _ hpow) hlimit)

theorem divideRounds_eq_some {step : Magnitude} (hstep : scaledOne ≤ step.scaled) (rounds : Nat)
    (x : Magnitude) : ∃ y, divideRounds step rounds x = some y := by
  induction rounds generalizing x with
  | zero => exact ⟨x, rfl⟩
  | succ rounds ih =>
    rw [divideRounds]
    split
    · exact ⟨x, rfl⟩
    · obtain ⟨z, hz⟩ := div_eq_some x hstep
      rw [hz]
      exact ih z

/-- Dividing by a power of ten never fails. -/
theorem shrink_eq_some (x : Magnitude) (places : Nat) : ∃ y, shrink x places = some y := by
  obtain ⟨step, hstep, -, hone⟩ := tenPow_bounds (Nat.le_refl greatestPower)
  have hlast : places - (places - 1) / greatestPower * greatestPower ≤ greatestPower := by
    have hsplit := Nat.div_add_mod (places - 1) greatestPower
    have hrest := Nat.mod_lt (places - 1) (show 0 < greatestPower by decide)
    rw [Nat.mul_comm] at hsplit
    omega
  obtain ⟨last, hlast, -, hlastOne⟩ := tenPow_bounds hlast
  obtain ⟨y, hy⟩ := divideRounds_eq_some hone ((places - 1) / greatestPower) x
  obtain ⟨z, hz⟩ := div_eq_some y hlastOne
  refine ⟨z, ?_⟩
  simp only [shrink, hstep, hlast, hy, hz, Option.bind_eq_bind, Option.bind_some]

theorem scale_of_neg {significand : Nat} {exponent : Int}
    (hsignificand : significand ≤ maxSignificand) (hexponent : exponent < 0) :
    ∃ y, scale significand exponent = some y := by
  obtain ⟨x, hx⟩ := ofNat_significand hsignificand
  obtain ⟨y, hy⟩ := shrink_eq_some x (-exponent).toNat
  refine ⟨y, ?_⟩
  unfold scale
  rw [hx]
  exact (if_pos hexponent).trans hy

/-- Scaling up is one product. -/
theorem scale_up {significand places : Nat} {x y : Magnitude} (hx : ofNat significand = some x)
    (hplaces : places ≤ greatestPower) (hy : tenPow places = some y) :
    scale significand places = x.mul y := by
  have hnonneg : ¬(places : Int) < 0 := by omega
  have hwithin : (places : Int) ≤ greatestPower := Int.ofNat_le.mpr hplaces
  unfold scale
  rw [hx]
  refine (if_neg hnonneg).trans ((if_pos hwithin).trans ?_)
  rw [Int.toNat_natCast, hy]
  rfl

/-- Scaling down by a power of ten that is a magnitude is one quotient. -/
theorem scale_down {significand places : Nat} {x y : Magnitude} (hx : ofNat significand = some x)
    (hpos : 0 < places) (hplaces : places ≤ greatestPower) (hy : tenPow places = some y) :
    scale significand (-places) = x.div y := by
  obtain ⟨step, hstep, -, -⟩ := tenPow_bounds (Nat.le_refl greatestPower)
  have hrounds : (places - 1) / greatestPower = 0 := Nat.div_eq_of_lt (by omega)
  have hneg : -(places : Int) < 0 := by omega
  unfold scale
  rw [hx]
  refine (if_pos hneg).trans ?_
  rw [Int.neg_neg, Int.toNat_natCast]
  simp only [shrink, hrounds, Nat.zero_mul, Nat.sub_zero, divideRounds, hstep, hy,
    Option.bind_eq_bind, Option.bind_some]

/-- A product fits if it leaves room for the roundings of both factors. -/
theorem scale_of_product {significand places : Nat} (hpos : 0 < significand)
    (hsignificand : significand ≤ maxSignificand) (hplaces : places ≤ greatestPower)
    (hfits : significand * 10 ^ places * scaledOne * (2 * leastNormal + 1) ^ 2 <
      tooLarge * (2 * leastNormal) ^ 2) :
    ∃ y, scale significand places = some y := by
  have hlimit : maxSignificand * scaledOne < tooLarge := by decide +kernel
  obtain ⟨x, hx, hxle, -⟩ := ofNat_bounds hpos
    (Nat.lt_of_le_of_lt (Nat.mul_le_mul_right _ hsignificand) hlimit)
  obtain ⟨y, hy, hyle, -⟩ := tenPow_bounds hplaces
  have hproduct : x.scaled * y.scaled < tooLarge * scaledOne := by
    refine Nat.lt_of_mul_lt_mul_right (a := (2 * leastNormal) ^ 2) ?_
    calc x.scaled * y.scaled * (2 * leastNormal) ^ 2
        = x.scaled * (2 * leastNormal) * (y.scaled * (2 * leastNormal)) := by ring
      _ ≤ significand * scaledOne * (2 * leastNormal + 1) *
            (10 ^ places * scaledOne * (2 * leastNormal + 1)) := Nat.mul_le_mul hxle hyle
      _ = significand * 10 ^ places * scaledOne * (2 * leastNormal + 1) ^ 2 * scaledOne := by ring
      _ < tooLarge * (2 * leastNormal) ^ 2 * scaledOne :=
          Nat.mul_lt_mul_of_pos_right hfits scaledOne_pos
      _ = tooLarge * scaledOne * (2 * leastNormal) ^ 2 := by ring
  obtain ⟨z, hz⟩ := mul_eq_some hproduct
  exact ⟨z, (scale_up hx hplaces hy).trans hz⟩

/-! ## Reading a printed magnitude -/

/-- The significand and the exponent that the text of a magnitude is read
as. -/
def written (x : Magnitude) : Nat × Int := (x.shortest numberLayout.tie).written numberLayout

/-- What a printed magnitude is read as. -/
def reread? (x : Magnitude) : Option Magnitude := scale (written x).1 (written x).2

theorem written_fst_le (x : Magnitude) : (written x).1 ≤ maxSignificand := by
  have hdigits : (x.shortest numberLayout.tie).digits < 10 ^ 18 := by
    by_cases hx : x.mantissa = 0
    · have hzero : x.isZero = true := decide_eq_true hx
      rw [shortest, if_pos hzero]
      decide
    · obtain ⟨digits, p, hshortest, -, -, hlt⟩ := shortest_spec _ hx
      rwa [hshortest]
  exact Nat.le_trans (Nat.le_of_lt (Decimal.written_fst_lt hdigits)) (by decide)

theorem written_zero {x : Magnitude} (hx : x.mantissa = 0) : written x = (0, -1) := by
  have hzero : x.isZero = true := decide_eq_true hx
  rw [written, shortest, if_pos hzero]
  rfl

/-- What is written is worth as much as a decimal that rounds to the
magnitude. -/
theorem written_spec {x : Magnitude} (hx : x.mantissa ≠ 0) :
    ∃ digits p : Nat, digits ≠ 0 ∧ x.rounding.contains (digits * gridStep p) = true ∧
      ((written x).1 : ℚ) * 10 ^ (written x).2 = digits * 10 ^ ((p : Int) - lowestPlace) := by
  obtain ⟨digits, p, hshortest, -, hcontains, -⟩ := shortest_spec numberLayout.tie hx
  have hdigits : digits ≠ 0 := by
    intro hzero
    obtain ⟨hlow, -⟩ := Rounding.lowest_le_of_contains hcontains
    obtain ⟨-, htwo⟩ := reachBelow_bounds x
    rw [rounding_eq, hzero, Nat.zero_mul] at hlow
    have hpos := Nat.mul_pos (show 0 < 4 * x.mantissa - x.reachBelow by omega) (quarterStep_pos x)
    exact Nat.not_le_of_lt hpos hlow
  refine ⟨digits, p, hdigits, hcontains, ?_⟩
  have hvalue := Decimal.written_value (d := x.shortest numberLayout.tie) numberLayout
    (by rwa [hshortest])
  change ((written x).1 : ℚ) * 10 ^ (written x).2 = _ at hvalue
  rw [hvalue, hshortest]

/-- A value that is the same as a decimal, with and without an exponent. -/
theorem value_of_nonneg {significand places digits p : Nat}
    (hvalue : (significand : ℚ) * 10 ^ (places : Int) = digits * 10 ^ ((p : Int) - lowestPlace)) :
    significand * 10 ^ places * 10 ^ lowestPlace = digits * 10 ^ p := by
  have hten : (10 : ℚ) ≠ 0 := by norm_num
  rw [zpow_sub₀ hten, zpow_natCast, zpow_natCast, zpow_natCast, mul_div_assoc',
    eq_div_iff (pow_ne_zero _ hten)] at hvalue
  exact_mod_cast hvalue

theorem value_of_neg {significand places digits p : Nat}
    (hvalue : (significand : ℚ) * 10 ^ (-(places : Int)) =
      digits * 10 ^ ((p : Int) - lowestPlace)) :
    significand * 10 ^ lowestPlace = digits * 10 ^ p * 10 ^ places := by
  have hten : (10 : ℚ) ≠ 0 := by norm_num
  rw [zpow_neg, zpow_sub₀ hten, zpow_natCast, zpow_natCast, zpow_natCast, mul_div_assoc',
    ← div_eq_mul_inv, div_eq_div_iff (pow_ne_zero _ hten) (pow_ne_zero _ hten)] at hvalue
  exact_mod_cast hvalue

/-- A magnitude that is written with an exponent of zero or more lies
within half a step of what is written. -/
theorem written_le {x : Magnitude} {places : Nat} (hplaces : (written x).2 = places) :
    0 < (written x).1 ∧
      (written x).1 * 10 ^ places * (2 * scaledOne) ≤ (2 * x.mantissa + 1) * 2 ^ x.shift := by
  have hx : x.mantissa ≠ 0 := by
    intro hzero
    rw [written_zero hzero] at hplaces
    cases hplaces
  obtain ⟨digits, p, hdigits, hcontains, hvalue⟩ := written_spec hx
  rw [hplaces] at hvalue
  have hwhole := value_of_nonneg hvalue
  generalize (written x).1 = significand at hwhole ⊢
  refine ⟨Nat.pos_of_ne_zero fun hzero => ?_, ?_⟩
  · rw [hzero, Nat.zero_mul, Nat.zero_mul, eq_comm, Nat.mul_eq_zero] at hwhole
    exact hwhole.elim hdigits (Nat.pow_pos (by decide)).ne'
  · have hhigh := (Rounding.lowest_le_of_contains hcontains).2
    rw [(rounding_wide hx).2.2, quarterStep, gridStep] at hhigh
    refine Nat.le_of_mul_le_mul_right (c := 2 * 10 ^ lowestPlace) ?_
      (Nat.mul_pos (by decide) (Nat.pow_pos (by decide)))
    calc significand * 10 ^ places * (2 * scaledOne) * (2 * 10 ^ lowestPlace)
        = significand * 10 ^ places * 10 ^ lowestPlace * (4 * scaledOne) := by ring
      _ = digits * (10 ^ p * (4 * scaledOne)) := by rw [hwhole, Nat.mul_assoc]
      _ ≤ (4 * x.mantissa + 2) * (2 ^ x.shift * 10 ^ lowestPlace) := hhigh
      _ = (2 * x.mantissa + 1) * 2 ^ x.shift * (2 * 10 ^ lowestPlace) := by ring

/-- Half a step above a magnitude is not too large. -/
theorem halfStepAbove_le (x : Magnitude) : (2 * x.mantissa + 1) * 2 ^ x.shift ≤ 2 * tooLarge := by
  obtain ⟨hmantissa, hshift, -⟩ := x.canonical
  have hmul := Nat.mul_le_mul (show 2 * x.mantissa + 1 ≤ 4 * leastNormal - 1 by omega)
    (two_pow_le_halfStep hshift)
  rwa [Nat.mul_left_comm] at hmul

/-- Half a step above a magnitude that is not one of the three greatest
leaves room for two roundings. -/
theorem halfStepAbove_room {x : Magnitude}
    (hsmall : ¬(x.shift = 2045 ∧ 2 * leastNormal - 4 < x.mantissa)) :
    (2 * x.mantissa + 1) * 2 ^ x.shift * (2 * leastNormal + 1) ^ 2 <
      2 * tooLarge * (2 * leastNormal) ^ 2 := by
  obtain ⟨hmantissa, hshift, -⟩ := x.canonical
  have hpos := halfStep_pos
  by_cases hlast : x.shift = 2045
  · have hle : 2 * x.mantissa + 1 ≤ 4 * leastNormal - 7 := by
      unfold leastNormal at hsmall ⊢
      omega
    have hmul := Nat.mul_le_mul hle (two_pow_le_halfStep hshift)
    calc (2 * x.mantissa + 1) * 2 ^ x.shift * (2 * leastNormal + 1) ^ 2
        ≤ (4 * leastNormal - 7) * (2 * halfStep) * (2 * leastNormal + 1) ^ 2 :=
          Nat.mul_le_mul_right _ hmul
      _ = (4 * leastNormal - 7) * (2 * leastNormal + 1) ^ 2 * (2 * halfStep) := by ring
      _ < (4 * leastNormal - 1) * (2 * leastNormal) ^ 2 * (2 * halfStep) :=
          Nat.mul_lt_mul_of_pos_right (by decide) (by omega)
      _ = 2 * tooLarge * (2 * leastNormal) ^ 2 := by
          rw [tooLarge]
          ring
  · have hhalf : 2 ^ x.shift ≤ halfStep := by
      have hnext := two_pow_le_halfStep (show x.shift + 1 ≤ 2045 by omega)
      rw [Nat.pow_succ] at hnext
      omega
    have hmul := Nat.mul_le_mul (show 2 * x.mantissa + 1 ≤ 4 * leastNormal - 1 by omega) hhalf
    calc (2 * x.mantissa + 1) * 2 ^ x.shift * (2 * leastNormal + 1) ^ 2
        ≤ tooLarge * (2 * leastNormal + 1) ^ 2 := Nat.mul_le_mul_right _ hmul
      _ < tooLarge * (2 * (2 * leastNormal) ^ 2) :=
          Nat.mul_lt_mul_of_pos_left (by decide) (Nat.mul_pos (by decide) hpos)
      _ = 2 * tooLarge * (2 * leastNormal) ^ 2 := by ring

/-- The three greatest magnitudes leave no room for two roundings; they
are read all the same. -/
theorem reread?_greatest :
    ∀ k < 3, ((ofParts? (2 * leastNormal - 1 - k) 2045).bind reread?).isSome = true := by
  decide +kernel

/-- **Every printed magnitude is read.** No rounding on the way leaves the
format. -/
theorem reread?_eq_some (x : Magnitude) : ∃ y, reread? x = some y := by
  have hfits := written_fst_le x
  rcases Int.lt_or_le (written x).2 0 with hneg | hnonneg
  · exact scale_of_neg hfits hneg
  obtain ⟨places, hplaces⟩ := Int.eq_ofNat_of_zero_le hnonneg
  obtain ⟨hpos, hroom⟩ := written_le hplaces
  by_cases htop : x.shift = 2045 ∧ 2 * leastNormal - 4 < x.mantissa
  · have hself : ofParts? x.mantissa x.shift = some x := dif_pos x.canonical
    have hmantissa : 2 * leastNormal - 1 - (2 * leastNormal - 1 - x.mantissa) = x.mantissa := by
      have := x.canonical.1
      omega
    have hread := reread?_greatest (2 * leastNormal - 1 - x.mantissa) (by omega)
    rw [hmantissa, ← htop.1, hself, Option.bind_some] at hread
    exact Option.isSome_iff_exists.mp hread
  have hwithin : places ≤ greatestPower := by
    refine Nat.le_of_not_lt fun hlarge => ?_
    have hlimit : tooLarge < 10 ^ (greatestPower + 1) * scaledOne := by decide +kernel
    have hpow : 10 ^ (greatestPower + 1) * scaledOne ≤ 10 ^ places * scaledOne :=
      Nat.mul_le_mul_right _ (Nat.pow_le_pow_right (by decide) hlarge)
    have hwritten : 10 ^ places * (2 * scaledOne) ≤ 2 * tooLarge :=
      calc 10 ^ places * (2 * scaledOne) ≤ (written x).1 * 10 ^ places * (2 * scaledOne) :=
            Nat.mul_le_mul_right _ (Nat.le_mul_of_pos_left _ hpos)
        _ ≤ 2 * tooLarge := Nat.le_trans hroom (halfStepAbove_le x)
    rw [Nat.mul_left_comm] at hwritten
    exact Nat.not_lt_of_le (Nat.le_of_mul_le_mul_left hwritten (by decide))
      (Nat.lt_of_lt_of_le hlimit hpow)
  unfold reread?
  rw [hplaces]
  refine scale_of_product hpos hfits hwithin (Nat.lt_of_mul_lt_mul_right (a := 2) ?_)
  calc (written x).1 * 10 ^ places * scaledOne * (2 * leastNormal + 1) ^ 2 * 2
      = (written x).1 * 10 ^ places * (2 * scaledOne) * (2 * leastNormal + 1) ^ 2 := by ring
    _ ≤ (2 * x.mantissa + 1) * 2 ^ x.shift * (2 * leastNormal + 1) ^ 2 :=
        Nat.mul_le_mul_right _ hroom
    _ < 2 * tooLarge * (2 * leastNormal) ^ 2 := halfStepAbove_room htop
    _ = tooLarge * (2 * leastNormal) ^ 2 * 2 := by ring

/-! ## Numbers that are read as they are -/

theorem tenPow_exact {n : Nat} (hn : n < 23) :
    ∃ y, tenPow n = some y ∧ y.scaled = 10 ^ n * scaledOne := by
  have hall : ∀ n < 23, (tenPow n).map scaled = some (10 ^ n * scaledOne) := by decide +kernel
  exact Option.map_eq_some_iff.mp (hall n hn)

/-- **Short numbers come back.** A number that is written with at most 53
bits and an exponent of at most 22 is read as itself: its significand and
its power of ten are magnitudes, so only the last step rounds. -/
theorem reread?_of_short {x : Magnitude} (hsignificand : (written x).1 < 2 * leastNormal)
    (hexponent : (written x).2.natAbs < 23) : reread? x = some x := by
  by_cases hx : x.mantissa = 0
  · have hzero : x = zero := eq_of_scaled_eq (by rw [scaled_eq, hx, Nat.zero_mul]; rfl)
    rw [reread?, written_zero hx, hzero]
    decide +kernel
  obtain ⟨digits, p, -, hcontains, hvalue⟩ := written_spec hx
  obtain ⟨a, ha, hascaled⟩ := ofNat_exact hsignificand
  obtain ⟨b, hb, hbscaled⟩ := tenPow_exact hexponent
  rcases Int.lt_or_le (written x).2 0 with hneg | hnonneg
  · have hplaces : (written x).2 = -((written x).2.natAbs : Int) := by omega
    generalize (written x).2.natAbs = places at hexponent hb hbscaled hplaces
    rw [hplaces] at hvalue
    have hwhole := value_of_neg hvalue
    have hwithin : places ≤ greatestPower := Nat.le_of_lt_succ (Nat.lt_trans hexponent (by decide))
    rw [reread?, hplaces, scale_down ha (by omega) hwithin hb, div]
    refine ofRatio_of_contains hx ?_ hcontains ?_
    · rw [hbscaled]
      exact Nat.mul_pos (Nat.pow_pos (by decide)) scaledOne_pos
    · rw [hascaled, hbscaled, ← Nat.mul_assoc, ← hwhole]
      ring
  · obtain ⟨places, hplaces⟩ := Int.eq_ofNat_of_zero_le hnonneg
    rw [hplaces] at hvalue hexponent hb hbscaled
    rw [Int.natAbs_natCast] at hexponent hb hbscaled
    have hwhole := value_of_nonneg hvalue
    have hwithin : places ≤ greatestPower := Nat.le_of_lt_succ (Nat.lt_trans hexponent (by decide))
    rw [reread?, hplaces, scale_up ha hwithin hb, mul, one_shiftLeft_eq]
    refine ofRatio_of_contains hx (Nat.mul_pos scaledOne_pos scaledOne_pos) hcontains ?_
    rw [hascaled, hbscaled, ← hwhole]
    ring

/-! ## The text of a floating point number -/

theorem leading_le (x : Magnitude) :
    ((x.shortest numberLayout.tie).significant.2 - 1).natAbs ≤ maxExponent := by
  by_cases hx : x.mantissa = 0
  · have hzero : x.isZero = true := decide_eq_true hx
    rw [shortest, if_pos hzero]
    decide
  · obtain ⟨digits, p, hshortest, hp, -, hlt⟩ := shortest_spec numberLayout.tie hx
    obtain ⟨k, -, hpoint, hlength⟩ := Decimal.digits_eq ⟨digits, p - (lowestPlace : Int)⟩
    have hfew : (Nat.toDigits 10 digits).length ≤ 18 :=
      (Nat.length_toDigits_le_iff (by decide) (by decide)).mpr hlt
    rw [hshortest]
    generalize Decimal.significant ⟨digits, p - (lowestPlace : Int)⟩ = s at hpoint hlength
    obtain ⟨ds, point⟩ := s
    change point = ds.length + k + (p - (342 : Nat)) at hpoint
    simp only at hlength
    have hbounds : -342 ≤ point ∧ point ≤ 1000 := by omega
    change (point - 1).natAbs ≤ 0x7FFFFFFF
    omega

end Json

/-- What a floating point number is read as when it has been written. -/
def Binary64.reread (x : Binary64) : Binary64 :=
  ⟨x.negative, (Json.reread? x.magnitude).getD x.magnitude⟩

namespace Json

theorem scaledNumber_of_scale {negative : Bool} {significand : Nat} {exponent : Int}
    {y : Magnitude} {rest : List Char} (hy : scale significand exponent = some y) :
    scaledNumber negative significand exponent rest = .ok (.float ⟨negative, y⟩, rest) := by
  unfold scaledNumber
  rw [hy]

/-- **Reading a printed floating point number.** It is read, up to its
sign, as what its significand and its exponent are scaled to. -/
theorem readNumber_float (x : Binary64) {rest : List Char} (hrest : EndsNumber rest) :
    readNumber x.negative ((x.magnitude.shortest numberLayout.tie).render numberLayout ++ rest) =
      .ok (.float x.reread, rest) := by
  rw [readNumber_render x.negative (written_fst_le x.magnitude) (leading_le x.magnitude) hrest]
  obtain ⟨y, hy⟩ := reread?_eq_some x.magnitude
  have hreread : x.reread = ⟨x.negative, y⟩ := by
    rw [Binary64.reread, hy, Option.getD_some]
  rw [hreread]
  exact scaledNumber_of_scale hy

end Json

end MuxControl
