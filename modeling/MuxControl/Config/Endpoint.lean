/-
MuxControl.Config.Endpoint — the written form of a network endpoint.

An endpoint is an address and a port between which a colon stands: four
decimal numbers between points, or an address of eight groups between
brackets, which may leave out one run of zero groups, end in four
decimal numbers, and name a scope behind a percent sign.
-/
import MuxControl.Number.Word
import MuxControl.Text.Hex
import MuxControl.Text.Scan

namespace MuxControl.Endpoint

open Text

/-- A decimal number of at most `greatest`, of any number of digits. -/
def decimal? (greatest : Nat) (s : List Char) : Option (Nat × List Char) :=
  match s.takeWhile Char.isDigit with
  | [] => none
  | digits =>
    let n := Nat.ofDigitChars 10 digits 0
    if n ≤ greatest then some (n, s.dropWhile Char.isDigit) else none

/-- A number of an address of four: at most 255, three digits, and no
zero before another digit. -/
def octet? (s : List Char) : Option (List Char) :=
  let digits := s.takeWhile Char.isDigit
  match digits with
  | [] => none
  | '0' :: _ :: _ => none
  | _ =>
    if digits.length ≤ 3 ∧ Nat.ofDigitChars 10 digits 0 ≤ 255 then some (s.drop digits.length)
    else none

/-- What is left behind four numbers between points. -/
def dotted? (s : List Char) : Option (List Char) := do
  let s ← octet? s
  let s ← expect? '.' s
  let s ← octet? s
  let s ← expect? '.' s
  let s ← octet? s
  let s ← expect? '.' s
  octet? s

/-- What is left behind a group of one to four hexadecimal digits. -/
def group? (s : List Char) : Option (List Char) :=
  let digits := s.takeWhile Text.isHexDigit
  if 1 ≤ digits.length ∧ digits.length ≤ 4 then some (s.drop digits.length) else none

/-- How much of an address was read: the number of groups, whether the
last two were written as four decimal numbers, and what is left. -/
structure Groups where
  count : Nat
  dotted : Bool
  rest : List Char

/-- Read up to `room` groups between colons, of which `count` have been
read. Four decimal numbers count for two groups and end the row. -/
def groups : (room count : Nat) → List Char → Groups
  | 0, count, s => ⟨count, false, s⟩
  | room + 1, count, s =>
    let start? := if count = 0 then some s else expect? ':' s
    match start?.bind fun s => if 1 ≤ room then dotted? s else none with
    | some rest => ⟨count + 2, true, rest⟩
    | none =>
      match start?.bind group? with
      | some rest => groups room (count + 1) rest
      | none => ⟨count, false, s⟩

/-- What is left behind an address of eight groups. -/
def grouped? (s : List Char) : Option (List Char) :=
  let head := groups 8 0 s
  if head.count = 8 then some head.rest
  else if head.dotted then none
  else do
    let s ← expect? ':' head.rest
    let s ← expect? ':' s
    return (groups (7 - head.count) 0 s).rest

/-- What is left behind a scope, if one is named here. -/
def skipScope (s : List Char) : List Char :=
  match s with
  | '%' :: rest =>
    match decimal? Word.max32 rest with
    | some (_, rest) => rest
    | none => s
  | _ => s

/-- Whether a port and nothing else stands here, behind a colon. -/
def isPort (s : List Char) : Bool :=
  match (expect? ':' s).bind (decimal? Word.max16) with
  | some (_, []) => true
  | _ => false

/-- Whether a text is an endpoint of four numbers. -/
def isDotted (s : List Char) : Bool := (dotted? s).any isPort

/-- Whether a text is an endpoint of eight groups. -/
def isGrouped (s : List Char) : Bool :=
  let inner? := (expect? '[' s).bind grouped?
  let behind? := inner?.bind fun s => expect? ']' (skipScope s)
  behind?.any isPort

/-- Whether a text is a network endpoint. -/
def isValid (text : String) : Bool := isDotted text.toList || isGrouped text.toList

end MuxControl.Endpoint
