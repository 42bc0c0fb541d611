/-
MuxControl.Toml.Scalar — numbers, dates, times and booleans.

Digits may be parted by single underscores. An integer is written in
decimal with an optional sign, or unsigned in hexadecimal, octal or
binary, and fits 64 bits with sign. A floating point number is read to
the nearest one; it may be infinite only below zero or by name.
-/
import MuxControl.Number.Word
import MuxControl.Text.Scan
import MuxControl.Toml.Basic
import MuxControl.Toml.Text

namespace MuxControl.Toml

open Text (expect?)

/-- Digits behind the first: each may follow an underscore. -/
def moreDigits (isDigit : Char → Bool) : List Char → List Char × List Char
  | '_' :: c :: rest =>
    if isDigit c then
      let (digits, rest) := moreDigits isDigit rest
      (c :: digits, rest)
    else ([], '_' :: c :: rest)
  | c :: rest =>
    if isDigit c then
      let (digits, rest) := moreDigits isDigit rest
      (c :: digits, rest)
    else ([], c :: rest)
  | [] => ([], [])

/-- One digit or more, without the underscores between them. -/
def digits? (isDigit : Char → Bool) : List Char → Option (List Char × List Char)
  | c :: rest =>
    if isDigit c then
      let (digits, rest) := moreDigits isDigit rest
      some (c :: digits, rest)
    else none
  | [] => none

/-- A sign, if one stands here; true for minus. -/
def sign : List Char → Bool × List Char
  | '+' :: rest => (false, rest)
  | '-' :: rest => (true, rest)
  | s => (false, s)

/-- Decimal digits that do not start with a zero, or a single zero. -/
def wholeDigits? : List Char → Option (List Char × List Char)
  | '0' :: rest => some (['0'], rest)
  | s => digits? Char.isDigit s

/-- The number that digits write in a base of at most sixteen. -/
def numberIn (base : Nat) (digits : List Char) : Nat :=
  digits.foldl (fun n c => n * base + (Text.hexValue? c).getD 0) 0

/-- An integer that fits 64 bits with sign. -/
def inRange? (i : Int) : Option Int :=
  if -(Word.max63 : Int) - 1 ≤ i ∧ i ≤ Word.max63 then some i else none

/-- An unsigned integer in a base, behind the letter of the base. -/
def based? (base : Nat) (isDigit : Char → Bool) (s : List Char) : Option (Int × List Char) := do
  let (digits, rest) ← digits? isDigit s
  let i ← inRange? (numberIn base digits)
  return (i, rest)

/-- An integer. -/
def integer? : List Char → Option (Int × List Char)
  | '0' :: 'x' :: rest => based? 16 Text.isHexDigit rest
  | '0' :: 'o' :: rest => based? 8 (fun c => '0' ≤ c && c ≤ '7') rest
  | '0' :: 'b' :: rest => based? 2 (fun c => c = '0' || c = '1') rest
  | s => do
    let (negative, s) := sign s
    let (digits, rest) ← wholeDigits? s
    let n : Int := numberIn 10 digits
    let i ← inRange? (if negative then -n else n)
    return (i, rest)

/-- The digits of a fraction with its point, if one stands here. -/
def fraction? : List Char → Option (List Char × List Char)
  | '.' :: rest => digits? Char.isDigit rest
  | _ => none

/-- An exponent with its letter, if one stands here. -/
def exponent? : List Char → Option (Int × List Char)
  | c :: rest =>
    if c = 'e' || c = 'E' then do
      let (negative, rest) := sign rest
      let (digits, rest) ← digits? Char.isDigit rest
      let n : Int := numberIn 10 digits
      return (if negative then -n else n, rest)
    else none
  | [] => none

/-- A number with a fraction, an exponent, or both. -/
def decimal? (s : List Char) : Option (FloatValue × List Char) := do
  let (negative, s) := sign s
  let (whole, s) ← wholeDigits? s
  let (fraction, exponent, rest) ←
    match fraction? s with
    | some (fraction, rest) =>
      match exponent? rest with
      | some (exponent, rest) => some (fraction, exponent, rest)
      | none => some (fraction, 0, rest)
    | none =>
      match exponent? s with
      | some (exponent, rest) => some ([], exponent, rest)
      | none => none
  let digits := numberIn 10 (whole ++ fraction)
  match Magnitude.ofDecimal digits (exponent - fraction.length) with
  | some magnitude => some (.finite ⟨negative, magnitude⟩, rest)
  | none => if negative then some (.infinite true, rest) else none

/-- A floating point value that is written by name. -/
def named? (s : List Char) : Option (FloatValue × List Char) :=
  let (negative, s) := sign s
  match s with
  | 'i' :: 'n' :: 'f' :: rest => some (.infinite negative, rest)
  | 'n' :: 'a' :: 'n' :: rest => some (.nan, rest)
  | _ => none

/-- A number of exactly `count` digits. -/
def fixed? (count : Nat) (s : List Char) : Option (Nat × List Char) :=
  let digits := s.take count
  if digits.length = count && digits.all Char.isDigit then
    some (numberIn 10 digits, s.drop count)
  else none

/-- The number of days of a month. -/
def daysOf (year month : Nat) : Nat :=
  if month = 2 then
    if year % 4 = 0 && (year % 100 ≠ 0 || year % 400 = 0) then 29 else 28
  else if month = 4 || month = 6 || month = 9 || month = 11 then 30
  else 31

/-- What is left behind a date. -/
def date? (s : List Char) : Option (List Char) := do
  let (year, s) ← fixed? 4 s
  let s ← expect? '-' s
  let (month, s) ← fixed? 2 s
  guard (1 ≤ month && month ≤ 12)
  let s ← expect? '-' s
  let (day, s) ← fixed? 2 s
  guard (1 ≤ day && day ≤ daysOf year month)
  return s

/-- What is left behind an hour and a minute. -/
def minute? (s : List Char) : Option (List Char) := do
  let (hour, s) ← fixed? 2 s
  guard (hour ≤ 23)
  let s ← expect? ':' s
  let (minute, s) ← fixed? 2 s
  guard (minute ≤ 59)
  return s

/-- What is left behind a time; the last minute of a day may have
sixty-one seconds. -/
def time? (s : List Char) : Option (List Char) := do
  let s ← minute? s
  let s ← expect? ':' s
  let (second, s) ← fixed? 2 s
  guard (second ≤ 60)
  match s with
  | '.' :: c :: rest => return if c.isDigit then rest.dropWhile Char.isDigit else s
  | _ => return s

/-- What is left behind the offset of a time, if one stands here. -/
def skipOffset (s : List Char) : List Char :=
  match s with
  | 'Z' :: rest => rest
  | 'z' :: rest => rest
  | '+' :: rest => (minute? rest).getD s
  | '-' :: rest => (minute? rest).getD s
  | _ => s

/-- What is left behind a date, a time, or both. -/
def dateTime? (s : List Char) : Option (List Char) :=
  match date? s with
  | none => time? s
  | some rest =>
    match rest with
    | c :: behind =>
      if c = 'T' || c = 't' || c = ' ' then
        match time? behind with
        | some rest => some (skipOffset rest)
        | none => some rest
      else some rest
    | [] => some []

/-- A number, a date or a time, behind which no part of one is left. -/
def numeric? (s : List Char) : Option (Scalar × List Char) :=
  match dateTime? s with
  | some rest => some (.dateTime, rest)
  | none =>
    match (decimal? s).orElse (fun _ => named? s) with
    | some (x, rest) => some (.float x, rest)
    | none => (integer? s).map fun (i, rest) => (.integer i, rest)

/-- A boolean. -/
def boolean? : List Char → Option (Scalar × List Char)
  | 't' :: 'r' :: 'u' :: 'e' :: rest => some (.boolean true, rest)
  | 'f' :: 'a' :: 'l' :: 's' :: 'e' :: rest => some (.boolean false, rest)
  | _ => none

/-- A value without parts. -/
def scalar? (rounds : Nat) (s : List Char) : Option (Scalar × List Char) :=
  match s with
  | [] => none
  | c :: _ =>
    if c = '"' || c = '\'' then (string? rounds s).map fun (t, rest) => (.string t, rest)
    else if c = 't' || c = 'f' then boolean? s
    else if c = 'i' || c = 'n' then (named? s).map fun (x, rest) => (.float x, rest)
    else if c = '+' || c = '-' || c.isDigit then numeric? s
    else none

end MuxControl.Toml
