/-
MuxControl.Number.Shortest — the shortest decimal that reads back as a
given binary number, and its layout as text.

`Magnitude.shortest` looks for a multiple of a power of ten among the
reals that round to the number, from the coarsest power downwards. On
each grid only the two neighbours of the number can be the nearest
point, so the first grid on which a neighbour rounds to the number
gives the fewest digits, and of two such neighbours the nearer one is
taken. `Layout` says which exponents a format writes positionally, and
which neighbour it takes when both are equally near; the number of
digits never depends on it.
-/
import MuxControl.Number.Binary64

namespace MuxControl

/-- The decimal number `digits · 10^exponent`. -/
structure Decimal where
  digits : Nat
  exponent : Int
deriving DecidableEq, Repr

/-- Which of two neighbouring digits a format takes for a number halfway
between them: the even one, or the greater one. -/
inductive Tie where
  | even
  | greater
deriving DecidableEq, Repr, Inhabited

/-- The one taken of a natural number and its successor. -/
def Tie.pick : Tie → Nat → Nat
  | .even, below => below + below % 2
  | .greater, below => below + 1

namespace Magnitude

/-- Exponents are counted from here: `10^-342` lies below every step
that telling two magnitudes apart can need. -/
def lowestPlace : Nat := 342

/-- The reals that round to a magnitude, in units of a quarter of
2^-1074 · 10^-342. The ends belong to it when the mantissa is even. -/
structure Rounding where
  lowest : Nat
  centre : Nat
  highest : Nat
  closed : Bool

/-- The interval of a magnitude: half a step either way, a quarter step
below a power of two, where the steps beneath are half as long. -/
def rounding (x : Magnitude) : Rounding :=
  let step := (1 <<< x.shift) * tenfold lowestPlace
  let below := if x.mantissa = leastNormal ∧ 0 < x.shift then 1 else 2
  { lowest := (4 * x.mantissa - below) * step
    centre := 4 * x.mantissa * step
    highest := (4 * x.mantissa + 2) * step
    closed := x.mantissa % 2 = 0 }

/-- Whether a real of the same unit rounds to the magnitude. -/
def Rounding.contains (r : Rounding) (point : Nat) : Bool :=
  if r.closed then r.lowest ≤ point && point ≤ r.highest
  else r.lowest < point && point < r.highest

/-- The multiple of `grid` nearest to the centre among its two
neighbours that round to the magnitude. -/
def Rounding.neighbour? (tie : Tie) (r : Rounding) (grid : Nat) : Option Nat :=
  let below := r.centre / grid
  let above := below + 1
  match r.contains (below * grid), r.contains (above * grid) with
  | true, true =>
    let down := r.centre - below * grid
    let up := above * grid - r.centre
    some (if down < up then below else if up < down then above else tie.pick below)
  | true, false => some below
  | false, true => some above
  | false, false => none

/-- The first hit on the grids `10^place, 10^(place-1), …`. -/
def Rounding.search (tie : Tie) (r : Rounding) : Nat → Decimal
  | 0 => ⟨(r.neighbour? tie (1 <<< 1076)).getD (r.centre >>> 1076), -(lowestPlace : Int)⟩
  | place + 1 =>
    match r.neighbour? tie (tenfold (place + 1) <<< 1076) with
    | some digits => ⟨digits, (place + 1 : Nat) - (lowestPlace : Int)⟩
    | none => r.search tie place

/-- The shortest decimal that rounds to the magnitude, and of those the
nearest to it. -/
def shortest (tie : Tie) (x : Magnitude) : Decimal :=
  if x.isZero then ⟨0, 0⟩
  else
    let r := x.rounding
    r.search tie (Nat.toDigits 10 (r.centre >>> 1076)).length

end Magnitude

/-- How a format writes numbers: which exponents of the leading digit it
writes positionally, and what it does with a tie. -/
structure Layout where
  positional : Int → Bool
  tie : Tie

/-- The digits of a decimal without trailing zeros, and the place of
its point: the value is `0.digits · 10^point`. -/
def Decimal.significant (d : Decimal) : List Char × Int :=
  let all := Nat.toDigits 10 d.digits
  ((all.reverse.dropWhile (· = '0')).reverse, all.length + d.exponent)

/-- The text of a decimal. A positional number has at least one digit
on each side of its point; any other has one digit before it, no point
when that is the only digit, and a signed exponent. -/
def Decimal.render (layout : Layout) (d : Decimal) : List Char :=
  if d.digits = 0 then ['0', '.', '0']
  else
    let (digits, point) := d.significant
    let leading := point - 1
    if layout.positional leading then
      if point ≤ 0 then '0' :: '.' :: (List.replicate (-point).toNat '0' ++ digits)
      else
        let whole := digits.take point.toNat
        let fraction := digits.drop point.toNat
        whole ++ List.replicate (point.toNat - whole.length) '0' ++
          '.' :: (if fraction = [] then ['0'] else fraction)
    else
      let mantissa := match digits with
        | [] => ['0']
        | [c] => [c]
        | c :: rest => c :: '.' :: rest
      mantissa ++ 'e' :: (if leading < 0 then '-' else '+') :: Nat.toDigits 10 leading.natAbs

/-- The text of a binary number: its shortest decimal behind its sign. -/
def Binary64.render (layout : Layout) (x : Binary64) : List Char :=
  (if x.negative then ['-'] else []) ++ (x.magnitude.shortest layout.tie).render layout

end MuxControl
