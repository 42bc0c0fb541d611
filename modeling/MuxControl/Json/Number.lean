/-
MuxControl.Json.Number — how a written number is read.

A number without fraction and exponent that fits 64 bits is an integer.
Any other is read approximately: its digits go into a 64-bit
significand as long as they fit, and the significand is then scaled by
a power of ten in floating point arithmetic, with one rounding for the
significand and one for each step of the scaling. The result may
differ from the nearest floating point number in its last place.
-/
import MuxControl.Json.Basic
import MuxControl.Json.Error
import MuxControl.Number.Word

namespace MuxControl.Json

/-- The greatest significand. -/
def maxSignificand : Nat := Word.max64

/-- The greatest exponent that is read as a number. -/
def maxExponent : Nat := Word.max31

/-- The value of a decimal digit. -/
def digitValue (c : Char) : Nat := c.toNat - '0'.toNat

/-- Take digits into a number while it stays within a bound. Answers
the number and the digits that were left over. -/
def takeDigits (bound : Nat) : Nat → List Char → Nat × List Char
  | n, [] => (n, [])
  | n, c :: rest =>
    let next := n * 10 + digitValue c
    if next ≤ bound then takeDigits bound next rest else (n, c :: rest)

/-- The exponents up to which powers of ten are floating point numbers. -/
def greatestPower : Nat := 308

/-- Divide by a step a number of times; zero stays zero. -/
def divideRounds (step : Magnitude) : Nat → Magnitude → Option Magnitude
  | 0, x => some x
  | rounds + 1, x => if x.isZero then some x else x.div step >>= divideRounds step rounds

/-- Divide by a power of ten: by the greatest one as long as more than
that is left, then by what is left. -/
def shrink (x : Magnitude) (places : Nat) : Option Magnitude := do
  let rounds := (places - 1) / greatestPower
  let step ← Magnitude.tenPow greatestPower
  let last ← Magnitude.tenPow (places - rounds * greatestPower)
  let y ← divideRounds step rounds x
  y.div last

/-- The significand times ten to the exponent; `none` when it is too
large. -/
def scale (significand : Nat) (exponent : Int) : Option Magnitude :=
  match Magnitude.ofNat significand with
  | none => none
  | some x =>
    if exponent < 0 then shrink x (-exponent).toNat
    else if exponent ≤ greatestPower then Magnitude.tenPow exponent.toNat >>= x.mul
    else if x.isZero then some x
    else none

/-- The number made of a significand and an exponent. -/
def scaledNumber (negative : Bool) (significand : Nat) (exponent : Int) (rest : List Char) :
    Except Failure (Json × List Char) :=
  match scale significand exponent with
  | some x => .ok (.float ⟨negative, x⟩, rest)
  | none => .error (.here .numberOutOfRange rest)

/-- Read an exponent, behind its letter. Digits beyond the greatest
exponent make a number other than zero too large or, behind a minus
sign, zero. -/
def readExponent (negative : Bool) (significand : Nat) (exponent : Int) (s : List Char) :
    Except Failure (Json × List Char) :=
  let (down, s) := match s with
    | '+' :: rest => (false, rest)
    | '-' :: rest => (true, rest)
    | rest => (false, rest)
  match s with
  | [] => .error (.here .eofInValue [])
  | c :: _ =>
    if !c.isDigit then .error (.atNext .invalidNumber s)
    else
      let rest := s.dropWhile Char.isDigit
      match takeDigits maxExponent 0 (s.takeWhile Char.isDigit) with
      | (n, []) =>
        scaledNumber negative significand (if down then exponent - n else exponent + n) rest
      | (_, _ :: beyond) =>
        if significand ≠ 0 && !down then .error (.here .numberOutOfRange (beyond ++ rest))
        else .ok (.float ⟨negative, .zero⟩, rest)

/-- What may follow the digits of a number: an exponent or nothing. -/
def readScale (negative : Bool) (significand : Nat) (exponent : Int) (s : List Char) :
    Except Failure (Json × List Char) :=
  match s with
  | 'e' :: rest => readExponent negative significand exponent rest
  | 'E' :: rest => readExponent negative significand exponent rest
  | rest => scaledNumber negative significand exponent rest

/-- Read a fraction, behind its point. Its digits go on filling the
significand, each lowering the exponent; digits that no longer fit are
passed over. -/
def readFraction (negative : Bool) (significand : Nat) (exponent : Int) (s : List Char) :
    Except Failure (Json × List Char) :=
  let digits := s.takeWhile Char.isDigit
  match digits, s with
  | [], [] => .error (.here .eofInValue [])
  | [], _ :: _ => .error (.atNext .invalidNumber s)
  | _, _ =>
    let (filled, left) := takeDigits maxSignificand significand digits
    let taken : Nat := digits.length - left.length
    readScale negative filled (exponent - taken) (s.dropWhile Char.isDigit)

/-- What may follow an integer that fits: a fraction, an exponent, or
nothing, which makes it an integer. A negative integer below the 64-bit
range and a negative zero are floating point numbers. -/
def finishInteger (negative : Bool) (significand : Nat) (s : List Char) :
    Except Failure (Json × List Char) :=
  match s with
  | '.' :: rest => readFraction negative significand 0 rest
  | 'e' :: rest => readExponent negative significand 0 rest
  | 'E' :: rest => readExponent negative significand 0 rest
  | rest =>
    if !negative then .ok (.int significand, rest)
    else if significand = 0 || significand > Word.max63 + 1 then
      scaledNumber negative significand 0 rest
    else .ok (.int (-significand), rest)

/-- Read a number behind its sign. -/
def readNumber (negative : Bool) (s : List Char) : Except Failure (Json × List Char) :=
  match s with
  | [] => .error (.here .eofInValue [])
  | '0' :: rest =>
    match rest with
    | c :: _ =>
      if c.isDigit then .error (.atNext .invalidNumber rest) else finishInteger negative 0 rest
    | [] => finishInteger negative 0 rest
  | c :: _ =>
    if !c.isDigit then .error (.atNext .invalidNumber s)
    else
      let rest := s.dropWhile Char.isDigit
      match takeDigits maxSignificand 0 (s.takeWhile Char.isDigit) with
      | (n, []) => finishInteger negative n rest
      | (n, left) =>
        match rest with
        | '.' :: fraction => readFraction negative n left.length fraction
        | rest => readScale negative n left.length rest

end MuxControl.Json
