/-
MuxControl.Proofs.NumberText — what the text of a number is read as.

The readers take digits as long as they fit. Where all of them fit, as
they do in every number that is printed here, the significand is the
number that the digits stand for and no digit is passed over
(`takeDigits_of_le`), so a written number is read as a significand and
an exponent that can be told from its text:

* `readNumber_toDigits`: digits alone are an integer;
* `readNumber_fraction`, `readNumber_scientific`: a point, or a point and
  an exponent, make a number that is scaled;
* `readNumber_render`: a printed decimal is scaled from the pair
  `Decimal.written` gives, which stands for the same value.

All of this holds before any text that cannot go on with the number
(`EndsNumber`).
-/
import Mathlib.Algebra.Ring.Nat
import Mathlib.Data.List.TakeWhile
import MuxControl.Json.Parser
import MuxControl.Json.Printer

namespace MuxControl

/-- The number that decimal digits stand for. -/
def digitsNumber (ds : List Char) : Nat := Nat.ofDigitChars 10 ds 0

/-- Decimal digits. -/
def IsDigits (ds : List Char) : Prop := ∀ c ∈ ds, c.isDigit = true

/-- Digits that a number may begin with: without a zero in front, unless
that is the only digit. -/
structure IsWhole (ds : List Char) : Prop where
  digits : IsDigits ds
  nonempty : ds ≠ []
  zero : ds.head? = some '0' → ds = ['0']

/-! ## Digits -/

section Digits

variable {ds ds' : List Char} {n : Nat}

theorem le_ofDigitChars (ds : List Char) (n : Nat) : n ≤ Nat.ofDigitChars 10 ds n := by
  rw [Nat.ofDigitChars_eq_ofDigitChars_zero]
  exact Nat.le_trans (Nat.le_mul_of_pos_left n (Nat.pow_pos (by decide))) (Nat.le_add_right _ _)

theorem ofDigitChars_eq (ds : List Char) (n : Nat) :
    Nat.ofDigitChars 10 ds n = 10 ^ ds.length * n + digitsNumber ds :=
  Nat.ofDigitChars_eq_ofDigitChars_zero

theorem digitsNumber_append (ds ds' : List Char) :
    digitsNumber (ds ++ ds') = 10 ^ ds'.length * digitsNumber ds + digitsNumber ds' := by
  rw [digitsNumber, Nat.ofDigitChars_append, ofDigitChars_eq]
  rfl

theorem digitsNumber_zeros (n : Nat) : digitsNumber (List.replicate n '0') = 0 := by
  rw [digitsNumber, Nat.ofDigitChars_replicate_zero, Nat.mul_zero]

@[simp] theorem digitsNumber_toDigits (n : Nat) : digitsNumber (Nat.toDigits 10 n) = n :=
  Nat.ofDigitChars_ten_toDigits

theorem digitsNumber_lt (hds : IsDigits ds) : digitsNumber ds < 10 ^ ds.length := by
  induction ds with
  | nil => exact Nat.one_pos
  | cons c rest ih =>
    have hc : c.toNat - '0'.toNat ≤ 9 := by
      have hrange := Char.isDigit_iff_toNat.mp (hds c List.mem_cons_self)
      have hnine : '9'.toNat = '0'.toNat + 9 := rfl
      omega
    have hrest := ih fun d hd => hds d (List.mem_cons_of_mem c hd)
    have hcons : digitsNumber (c :: rest) =
        10 ^ rest.length * (c.toNat - '0'.toNat) + digitsNumber rest := by
      rw [digitsNumber, Nat.ofDigitChars_cons, ofDigitChars_eq]
      simp
    have hscaled : 10 ^ rest.length * (c.toNat - '0'.toNat) ≤ 10 ^ rest.length * 9 :=
      Nat.mul_le_mul_left _ hc
    rw [hcons, List.length_cons, Nat.pow_succ]
    omega

theorem isDigits_toDigits (n : Nat) : IsDigits (Nat.toDigits 10 n) :=
  fun _ hmem => Nat.isDigit_of_mem_toDigits (by decide) (by decide) hmem

theorem isDigits_zeros (n : Nat) : IsDigits (List.replicate n '0') := by
  intro c hmem
  rw [List.eq_of_mem_replicate hmem]
  decide

theorem IsDigits.append (hds : IsDigits ds) (hds' : IsDigits ds') : IsDigits (ds ++ ds') :=
  List.forall_mem_append.mpr ⟨hds, hds'⟩

/-- A number that is not zero does not begin with one. -/
theorem head?_toDigits (hn : 0 < n) : (Nat.toDigits 10 n).head? ≠ some '0' := by
  induction n using Nat.strongRecOn with
  | ind n ih =>
    rcases Nat.lt_or_ge n 10 with hlt | hge
    · rw [Nat.toDigits_of_lt_base hlt]
      have hall : ∀ d < 10, 0 < d → Nat.digitChar d ≠ '0' := by decide
      simpa using hall n hlt hn
    · have hfront := ih (n / 10) (by omega) (by omega)
      rw [Nat.toDigits_of_base_le (by decide) hge, List.head?_append]
      cases hdigits : Nat.toDigits 10 (n / 10) with
      | nil => exact absurd hdigits Nat.toDigits_ne_nil
      | cons c cs =>
        rw [hdigits] at hfront
        exact hfront

theorem isWhole_toDigits (n : Nat) : IsWhole (Nat.toDigits 10 n) where
  digits := isDigits_toDigits n
  nonempty := Nat.toDigits_ne_nil
  zero hhead := by
    rcases Nat.eq_zero_or_pos n with rfl | hn
    · exact Nat.toDigits_zero 10
    · exact absurd hhead (head?_toDigits hn)

/-- Digits that do not begin with a zero, and zeros behind them. -/
theorem IsWhole.zeros (hds : IsDigits ds) (hne : ds ≠ []) (hfirst : ds.head? ≠ some '0')
    (n : Nat) : IsWhole (ds ++ List.replicate n '0') where
  digits := hds.append (isDigits_zeros n)
  nonempty := List.append_ne_nil_of_left_ne_nil hne _
  zero hhead := by
    cases ds with
    | nil => exact absurd rfl hne
    | cons c cs => exact absurd hhead hfirst

theorem IsWhole.take (hds : IsDigits ds) (hne : ds ≠ []) (hfirst : ds.head? ≠ some '0') {n : Nat}
    (hn : 0 < n) : IsWhole (ds.take n) where
  digits c hc := hds c (List.mem_of_mem_take hc)
  nonempty hnil := (List.take_eq_nil_iff.mp hnil).elim (Nat.pos_iff_ne_zero.mp hn) hne
  zero hhead := by
    rw [List.head?_take, if_neg (by omega)] at hhead
    exact absurd hhead hfirst

/-- What stands behind digits and does not go on with them. -/
theorem takeWhile_digits (hds : IsDigits ds) {rest : List Char}
    (hrest : ∀ c ∈ rest.head?, c.isDigit = false) :
    (ds ++ rest).takeWhile Char.isDigit = ds ∧ (ds ++ rest).dropWhile Char.isDigit = rest := by
  rw [List.takeWhile_append_of_pos hds, List.dropWhile_append_of_pos hds]
  cases rest with
  | nil => simp
  | cons c rest =>
    have hc : c.isDigit = false := hrest c rfl
    simp [hc]

end Digits

namespace Json

/-! ## Digits that fit -/

/-- Digits that fit are all taken. -/
theorem takeDigits_of_le {bound n : Nat} {ds : List Char}
    (hfits : Nat.ofDigitChars 10 ds n ≤ bound) :
    takeDigits bound n ds = (Nat.ofDigitChars 10 ds n, []) := by
  induction ds generalizing n with
  | nil => rfl
  | cons c rest ih =>
    have hnext : n * 10 + digitValue c = 10 * n + (c.toNat - '0'.toNat) := by
      rw [Nat.mul_comm]
      rfl
    rw [Nat.ofDigitChars_cons, ← hnext] at hfits ⊢
    rw [takeDigits, if_pos (Nat.le_trans (le_ofDigitChars rest _) hfits), ih hfits]

/-! ## What may stand behind a number -/

/-- What does not go on with a number that stands before it. -/
def EndsNumber (rest : List Char) : Prop :=
  ∀ c ∈ rest.head?, c.isDigit = false ∧ c ≠ '.' ∧ c ≠ 'e' ∧ c ≠ 'E'

theorem endsNumber_nil : EndsNumber [] := fun _ hnone => by cases hnone

theorem endsNumber_cons {c : Char} (rest : List Char)
    (hc : c.isDigit = false ∧ c ≠ '.' ∧ c ≠ 'e' ∧ c ≠ 'E') : EndsNumber (c :: rest) := by
  intro d hd
  obtain rfl := Option.some.inj hd
  exact hc

section Reading

variable {negative : Bool} {significand : Nat} {exponent : Int} {ds rest : List Char}

theorem EndsNumber.head (hrest : EndsNumber rest) : ∀ c ∈ rest.head?, c.isDigit = false :=
  fun c hc => (hrest c hc).1

/-- An integer that ends here. -/
theorem finishInteger_of_ends (hrest : EndsNumber rest) :
    finishInteger negative significand rest =
      if !negative then .ok (.int significand, rest)
      else if significand = 0 || significand > Word.max63 + 1 then
        scaledNumber negative significand 0 rest
      else .ok (.int (-significand), rest) := by
  cases rest with
  | nil => rfl
  | cons c rest =>
    obtain ⟨_, hpoint, hletter, hcapital⟩ := hrest c rfl
    unfold finishInteger
    split
    · next heq => exact absurd (List.cons.inj heq).1 hpoint
    · next heq => exact absurd (List.cons.inj heq).1 hletter
    · next heq => exact absurd (List.cons.inj heq).1 hcapital
    · rfl

theorem readScale_of_ends (hrest : EndsNumber rest) :
    readScale negative significand exponent rest =
      scaledNumber negative significand exponent rest := by
  cases rest with
  | nil => rfl
  | cons c rest =>
    obtain ⟨_, _, hletter, hcapital⟩ := hrest c rfl
    unfold readScale
    split
    · next heq => exact absurd (List.cons.inj heq).1 hletter
    · next heq => exact absurd (List.cons.inj heq).1 hcapital
    · rfl

/-! ## The parts of a number -/

theorem readNumber_whole (hwhole : IsWhole ds) (hfits : digitsNumber ds ≤ maxSignificand)
    (hrest : ∀ c ∈ rest.head?, c.isDigit = false) :
    readNumber negative (ds ++ rest) = finishInteger negative (digitsNumber ds) rest := by
  obtain ⟨htake, hdrop⟩ := takeWhile_digits hwhole.digits hrest
  cases ds with
  | nil => exact absurd rfl hwhole.nonempty
  | cons c cs =>
    by_cases hzero : c = '0'
    · subst hzero
      obtain rfl := (List.cons.inj (hwhole.zero rfl)).2
      cases rest with
      | nil => rfl
      | cons d rest =>
        have hd : d.isDigit = false := hrest d rfl
        simp only [List.cons_append, List.nil_append, readNumber, hd]
        rfl
    · have hdigit : c.isDigit = true := hwhole.digits c List.mem_cons_self
      rw [List.cons_append] at htake hdrop ⊢
      unfold readNumber
      split
      · next heq => cases heq
      · next heq => exact absurd (List.cons.inj heq).1 hzero
      · next heq =>
        obtain ⟨rfl, rfl⟩ := List.cons.inj heq
        simp only [hdigit, Bool.not_true, Bool.false_eq_true, if_false, htake, hdrop]
        rw [takeDigits_of_le hfits]
        rfl

theorem readFraction_eq (hds : IsDigits ds) (hne : ds ≠ [])
    (hfits : Nat.ofDigitChars 10 ds significand ≤ maxSignificand)
    (hrest : ∀ c ∈ rest.head?, c.isDigit = false) :
    readFraction negative significand exponent (ds ++ rest) =
      readScale negative (Nat.ofDigitChars 10 ds significand) (exponent - ds.length) rest := by
  obtain ⟨htake, hdrop⟩ := takeWhile_digits hds hrest
  unfold readFraction
  simp only [htake, hdrop, takeDigits_of_le hfits, List.length_nil, Nat.sub_zero]
  split
  · exact absurd rfl hne
  · exact absurd rfl hne
  · rfl

theorem readExponent_eq {n : Nat} (hn : n ≤ maxExponent) (down : Bool)
    (hrest : ∀ c ∈ rest.head?, c.isDigit = false) :
    readExponent negative significand exponent
        ((if down then '-' else '+') :: (Nat.toDigits 10 n ++ rest)) =
      scaledNumber negative significand (if down then exponent - n else exponent + n) rest := by
  obtain ⟨htake, hdrop⟩ := takeWhile_digits (isDigits_toDigits n) hrest
  have htaken : takeDigits maxExponent 0 (Nat.toDigits 10 n) = (n, []) := by
    rw [takeDigits_of_le (by rw [Nat.ofDigitChars_ten_toDigits]; exact hn),
      Nat.ofDigitChars_ten_toDigits]
  have hfirst : ∀ {c s}, Nat.toDigits 10 n ++ rest = c :: s → c.isDigit = true := by
    intro c s heq
    refine isDigits_toDigits n c ?_
    cases hdigits : Nat.toDigits 10 n with
    | nil => exact absurd hdigits Nat.toDigits_ne_nil
    | cons d ds =>
      rw [hdigits, List.cons_append] at heq
      exact (List.cons.inj heq).1 ▸ List.mem_cons_self
  generalize Nat.toDigits 10 n ++ rest = s at htake hdrop hfirst
  cases s with
  | nil =>
    rw [List.takeWhile_nil] at htake
    exact absurd htake.symm Nat.toDigits_ne_nil
  | cons c s =>
    cases down <;>
      simp [readExponent, hfirst rfl, htake, hdrop, htaken]

/-! ## Whole numbers -/

/-- A written number without point and exponent is the integer it says,
if that fits 64 bits. -/
theorem readNumber_toDigits {n : Nat} (hn : n ≤ Word.max64) (hrest : EndsNumber rest) :
    readNumber false (Nat.toDigits 10 n ++ rest) = .ok (.int n, rest) := by
  rw [readNumber_whole (isWhole_toDigits n) (by rwa [digitsNumber_toDigits]) hrest.head,
    digitsNumber_toDigits, finishInteger_of_ends hrest]
  rfl

theorem readNumber_toDigits_negative {n : Nat} (hpos : 0 < n) (hn : n ≤ Word.max63 + 1)
    (hrest : EndsNumber rest) :
    readNumber true (Nat.toDigits 10 n ++ rest) = .ok (.int (-n), rest) := by
  have hfits : n ≤ maxSignificand := Nat.le_trans hn (by decide)
  have hkept : (n = 0 || n > Word.max63 + 1) = false := by simp; omega
  rw [readNumber_whole (isWhole_toDigits n) (by rwa [digitsNumber_toDigits]) hrest.head,
    digitsNumber_toDigits, finishInteger_of_ends hrest, hkept]
  rfl

/-! ## Numbers with a point or an exponent -/

variable (negative)

/-- Digits, a point, and digits. -/
theorem readNumber_fraction {fs : List Char} (hwhole : IsWhole ds) (hfs : IsDigits fs)
    (hne : fs ≠ []) (hfits : digitsNumber (ds ++ fs) ≤ maxSignificand)
    (hrest : ∀ c ∈ rest.head?, c.isDigit = false) :
    readNumber negative (ds ++ '.' :: (fs ++ rest)) =
      readScale negative (digitsNumber (ds ++ fs)) (-fs.length) rest := by
  have hall : Nat.ofDigitChars 10 fs (digitsNumber ds) = digitsNumber (ds ++ fs) := by
    rw [ofDigitChars_eq, digitsNumber_append]
  have hleft : digitsNumber ds ≤ maxSignificand :=
    Nat.le_trans (hall ▸ le_ofDigitChars fs _) hfits
  have hpoint : ∀ c ∈ ('.' :: (fs ++ rest)).head?, c.isDigit = false := by
    intro c hc
    obtain rfl := Option.some.inj hc
    decide
  rw [readNumber_whole hwhole hleft hpoint]
  change readFraction negative (digitsNumber ds) 0 (fs ++ rest) = _
  rw [readFraction_eq hfs hne (by rwa [hall]) hrest, hall, Int.zero_sub]

/-- Digits, a point, digits, and nothing more. -/
theorem readNumber_positional {fs : List Char} (hwhole : IsWhole ds) (hfs : IsDigits fs)
    (hne : fs ≠ []) (hfits : digitsNumber (ds ++ fs) ≤ maxSignificand) (hrest : EndsNumber rest) :
    readNumber negative (ds ++ '.' :: (fs ++ rest)) =
      scaledNumber negative (digitsNumber (ds ++ fs)) (-fs.length) rest := by
  rw [readNumber_fraction negative hwhole hfs hne hfits hrest.head, readScale_of_ends hrest]

/-- One digit, further digits behind a point if there are any, and an
exponent. -/
theorem readNumber_scientific {c : Char} {fs : List Char} (hwhole : IsWhole [c])
    (hfs : IsDigits fs) (hfits : digitsNumber (c :: fs) ≤ maxSignificand) {leading : Int}
    (hleading : leading.natAbs ≤ maxExponent) (hrest : EndsNumber rest) :
    readNumber negative
        ((if fs = [] then [c] else c :: '.' :: fs) ++
          'e' :: (if leading < 0 then '-' else '+') :: (Nat.toDigits 10 leading.natAbs ++ rest)) =
      scaledNumber negative (digitsNumber (c :: fs)) (leading - fs.length) rest := by
  have hletter : ∀ s : List Char, ∀ d ∈ ('e' :: s).head?, d.isDigit = false := by
    intro s d hd
    obtain rfl := Option.some.inj hd
    decide
  -- Behind the letter stands the exponent, whatever exponent the fraction has given so far.
  have hscaled : ∀ given : Int,
      readExponent negative (digitsNumber (c :: fs)) given
          ((if leading < 0 then '-' else '+') :: (Nat.toDigits 10 leading.natAbs ++ rest)) =
        scaledNumber negative (digitsNumber (c :: fs)) (given + leading) rest := by
    intro given
    have hsum : (if decide (leading < 0) = true then given - (leading.natAbs : Int)
        else given + leading.natAbs) = given + leading := by
      by_cases hneg : leading < 0
      · rw [if_pos (by simpa using hneg)]
        omega
      · rw [if_neg (by simpa using hneg)]
        omega
    rw [← hsum, ← readExponent_eq hleading _ hrest.head]
    simp
  by_cases hnone : fs = []
  · subst hnone
    rw [if_pos rfl, readNumber_whole hwhole hfits (hletter _)]
    change readExponent negative (digitsNumber [c]) 0 _ = _
    rw [hscaled 0]
    simp
  · rw [if_neg hnone]
    change readNumber negative ([c] ++ '.' :: (fs ++ 'e' :: _)) = _
    rw [readNumber_fraction negative hwhole hfs hnone hfits (hletter _)]
    change readExponent negative (digitsNumber (c :: fs)) (-fs.length) _ = _
    rw [hscaled, Int.add_comm, Int.sub_eq_add_neg]

end Reading

end Json

/-! ## Printed decimals -/

namespace Decimal

/-- The significand and the exponent that the text of a decimal is read
as. A whole number in positional notation has its zeros written out, and
one behind the point. -/
def written (layout : Layout) (d : Decimal) : Nat × Int :=
  let (digits, point) := d.significant
  if d.digits = 0 then (0, -1)
  else if layout.positional (point - 1) ∧ digits.length ≤ point then
    (digitsNumber digits * 10 ^ (point.toNat - digits.length + 1), -1)
  else (digitsNumber digits, point - digits.length)

variable {layout : Layout} {d : Decimal}

/-- Only zeros are left out at the end. -/
theorem significant_spec (d : Decimal) :
    ∃ k, Nat.toDigits 10 d.digits = d.significant.1 ++ List.replicate k '0' ∧
      d.significant.2 = d.significant.1.length + k + d.exponent := by
  let all := Nat.toDigits 10 d.digits
  let zeros := all.reverse.takeWhile (· = '0')
  have hzeros : zeros.reverse = List.replicate zeros.length '0' := by
    rw [List.eq_replicate_iff]
    refine ⟨List.length_reverse, fun c hc => ?_⟩
    simpa using List.mem_takeWhile_imp (List.mem_reverse.mp hc)
  have hall : all = d.significant.1 ++ List.replicate zeros.length '0' := by
    rw [← hzeros]
    change all = (all.reverse.dropWhile (· = '0')).reverse ++ zeros.reverse
    rw [← List.reverse_append, List.takeWhile_append_dropWhile, List.reverse_reverse]
  refine ⟨zeros.length, hall, ?_⟩
  change (all.length : Int) + d.exponent = _
  rw [hall, List.length_append, List.length_replicate, Int.natCast_add]

/-- The digits that are kept begin with one that is not zero. -/
theorem head?_significant (hd : d.digits ≠ 0) :
    d.significant.1 ≠ [] ∧ d.significant.1.head? ≠ some '0' := by
  obtain ⟨k, hall, -⟩ := significant_spec d
  have hfirst := head?_toDigits (Nat.pos_of_ne_zero hd)
  rw [hall] at hfirst
  refine ⟨fun hnil => hd ?_, fun hzero => ?_⟩
  · rw [hnil, List.nil_append] at hall
    rw [← digitsNumber_toDigits d.digits, hall, digitsNumber_zeros]
  · rw [List.head?_append, hzero] at hfirst
    exact absurd rfl hfirst

theorem isDigits_significant (d : Decimal) : IsDigits d.significant.1 := by
  obtain ⟨k, hall, -⟩ := significant_spec d
  have hdigits := isDigits_toDigits d.digits
  rw [hall] at hdigits
  exact fun c hc => hdigits c (List.mem_append_left _ hc)

end Decimal

namespace Json

section Printed

variable (negative : Bool) {layout : Layout} {ds rest : List Char} {point : Int}

/-- A decimal below one: all its digits stand behind the point. -/
theorem readNumber_belowOne (hdigits : IsDigits ds) (hne : ds ≠ [])
    (hfits : digitsNumber ds ≤ maxSignificand) (hpoint : point ≤ 0) (hrest : EndsNumber rest) :
    readNumber negative ('0' :: '.' :: (List.replicate (-point).toNat '0' ++ ds ++ rest)) =
      scaledNumber negative (digitsNumber ds) (point - ds.length) rest := by
  have hnumber : digitsNumber (['0'] ++ (List.replicate (-point).toNat '0' ++ ds)) =
      digitsNumber ds := by
    rw [← List.append_assoc, digitsNumber_append, List.singleton_append, ← List.replicate_succ,
      digitsNumber_zeros, Nat.mul_zero, Nat.zero_add]
  have hexponent : -((List.replicate (-point).toNat '0' ++ ds).length : Int) =
      point - ds.length := by
    rw [List.length_append, List.length_replicate]
    omega
  have hread := readNumber_positional negative (isWhole_toDigits 0)
    ((isDigits_zeros (-point).toNat).append hdigits)
    (List.append_ne_nil_of_right_ne_nil _ hne) (hnumber ▸ hfits) hrest
  rw [Nat.toDigits_zero, hnumber, hexponent] at hread
  exact hread

/-- A whole decimal: no digit stands behind the point but a zero that is
put there. -/
theorem readNumber_integral (hdigits : IsDigits ds) (hne : ds ≠ []) (hfirst : ds.head? ≠ some '0')
    (zeros : Nat) (hfits : digitsNumber ds * 10 ^ (zeros + 1) ≤ maxSignificand)
    (hrest : EndsNumber rest) :
    readNumber negative (ds ++ List.replicate zeros '0' ++ '.' :: '0' :: rest) =
      scaledNumber negative (digitsNumber ds * 10 ^ (zeros + 1)) (-1) rest := by
  have hnumber : digitsNumber ((ds ++ List.replicate zeros '0') ++ ['0']) =
      digitsNumber ds * 10 ^ (zeros + 1) := by
    rw [List.append_assoc, ← List.replicate_succ', digitsNumber_append, digitsNumber_zeros,
      List.length_replicate, Nat.mul_comm]
    rfl
  rw [← hnumber] at hfits ⊢
  exact readNumber_positional negative (IsWhole.zeros hdigits hne hfirst zeros) (isDigits_zeros 1)
    (by decide) hfits hrest

/-- A decimal whose point stands between two of its digits. -/
theorem readNumber_mixed (hdigits : IsDigits ds) (hne : ds ≠ []) (hfirst : ds.head? ≠ some '0')
    (hfits : digitsNumber ds ≤ maxSignificand) (hpoint : 0 < point) (hlong : point < ds.length)
    (hrest : EndsNumber rest) :
    readNumber negative (ds.take point.toNat ++ '.' :: (ds.drop point.toNat ++ rest)) =
      scaledNumber negative (digitsNumber ds) (point - ds.length) rest := by
  have hwhole : IsWhole (ds.take point.toNat) := IsWhole.take hdigits hne hfirst (by omega)
  have hbehind : ds.drop point.toNat ≠ [] := by
    rw [Ne, List.drop_eq_nil_iff]
    omega
  have hexponent : -((ds.drop point.toNat).length : Int) = point - ds.length := by
    rw [List.length_drop]
    omega
  have hread := readNumber_positional negative hwhole
    (fun c hc => hdigits c (List.mem_of_mem_drop hc)) hbehind
    (by rwa [List.take_append_drop]) hrest
  rwa [List.take_append_drop, hexponent] at hread

/-- **Reading a printed decimal.** It is scaled from the significand and
the exponent that its text shows. -/
theorem readNumber_render {d : Decimal} (hfits : (d.written layout).1 ≤ maxSignificand)
    (hleading : (d.significant.2 - 1).natAbs ≤ maxExponent) (hrest : EndsNumber rest) :
    readNumber negative (d.render layout ++ rest) =
      scaledNumber negative (d.written layout).1 (d.written layout).2 rest := by
  by_cases hzero : d.digits = 0
  · simp only [Decimal.render, Decimal.written, hzero, if_true]
    exact readNumber_positional negative (isWhole_toDigits 0) (isDigits_zeros 1) (by decide)
      (by decide) hrest
  have hdigits := Decimal.isDigits_significant d
  obtain ⟨hne, hfirst⟩ := Decimal.head?_significant hzero
  unfold Decimal.render
  unfold Decimal.written at hfits ⊢
  generalize d.significant = s at hdigits hne hfirst hfits hleading ⊢
  obtain ⟨ds, point⟩ := s
  simp only [hzero, if_false] at hdigits hne hfirst hfits hleading ⊢
  have hlength := List.length_pos_iff.mpr hne
  cases hpositional : layout.positional (point - 1) with
  | true =>
    simp only [hpositional, true_and, if_true] at hfits ⊢
    by_cases hpoint : point ≤ 0
    · rw [if_pos hpoint]
      rw [if_neg (by omega)] at hfits ⊢
      exact readNumber_belowOne negative hdigits hne hfits hpoint hrest
    · rw [if_neg hpoint]
      by_cases hintegral : (ds.length : Int) ≤ point
      · have htake : ds.take point.toNat = ds := List.take_of_length_le (by omega)
        have hdrop : ds.drop point.toNat = [] := List.drop_of_length_le (by omega)
        rw [if_pos hintegral] at hfits ⊢
        rw [htake, hdrop, if_pos rfl, List.append_assoc]
        exact readNumber_integral negative hdigits hne hfirst _ hfits hrest
      · have hbefore : (ds.take point.toNat).length = point.toNat := by
          rw [List.length_take]
          omega
        have hbehind : ds.drop point.toNat ≠ [] := by
          rw [Ne, List.drop_eq_nil_iff]
          omega
        rw [if_neg hintegral] at hfits ⊢
        rw [hbefore, Nat.sub_self, List.replicate_zero, List.append_nil, if_neg hbehind,
          List.append_assoc]
        exact readNumber_mixed negative hdigits hne hfirst hfits (by omega) (by omega) hrest
  | false =>
    simp only [hpositional, Bool.false_eq_true, false_and, if_false] at hfits ⊢
    cases ds with
    | nil => exact absurd rfl hne
    | cons c fs =>
      have hwhole : IsWhole [c] := by
        refine ⟨fun d hd => hdigits d ?_, List.cons_ne_nil c [], fun hzero => absurd hzero hfirst⟩
        rw [List.mem_singleton.mp hd]
        exact List.mem_cons_self
      have hread := readNumber_scientific negative hwhole
        (fun d hd => hdigits d (List.mem_cons_of_mem c hd)) hfits hleading hrest
      have hexponent : point - 1 - (fs.length : Int) = point - (c :: fs).length := by
        rw [List.length_cons]
        omega
      rw [hexponent] at hread
      rw [← hread]
      cases fs <;> simp

end Printed

end Json

end MuxControl
