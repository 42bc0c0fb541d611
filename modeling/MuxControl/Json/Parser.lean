/-
MuxControl.Json.Parser — reading JSON text.

The readers take the list of characters that is left and answer a value
with what is left behind it, or a failure. Nesting is bounded, so
`readValue` recurses on the number of containers that may still be
opened; the loops over items and members are bounded by the length of
the text, since each round takes at least one character.
-/
import MuxControl.Json.Number
import MuxControl.Text.Hex

namespace MuxControl.Json

/-- The white space of JSON. -/
def isSpace (c : Char) : Bool := c = ' ' || c = '\n' || c = '\t' || c = '\r'

/-- What is left behind white space. -/
def skipSpace (s : List Char) : List Char := s.dropWhile isSpace

/-- Four bytes that are not all hexadecimal digits are taken before
they are refused. -/
def badHex (s : List Char) : Failure :=
  if 4 ≤ byteSize s then ⟨.invalidEscape, s, 4⟩ else .here .eofInString []

/-- The units that open a pair of units. -/
def isLeading (unit : Nat) : Bool := 0xD800 ≤ unit && unit ≤ 0xDBFF

/-- The units that close a pair of units. -/
def isTrailing (unit : Nat) : Bool := 0xDC00 ≤ unit && unit ≤ 0xDFFF

/-- The character that a pair of units stands for. -/
def pairChar (leading trailing : Nat) : Char :=
  Char.ofNat ((leading - 0xD800) * 0x400 + (trailing - 0xDC00) + 0x10000)

/-- Four hexadecimal digits, and what is left behind them. -/
def readUnit (s : List Char) : Except Failure (Nat × { r : List Char // r.length < s.length }) :=
  match s with
  | a :: b :: c :: d :: rest =>
    match Text.hexNumber? [a, b, c, d] with
    | some unit => .ok (unit, ⟨rest, by simp only [List.length_cons]; omega⟩)
    | none => .error (badHex (a :: b :: c :: d :: rest))
  | s => .error (badHex s)

/-- The second unit of a pair, behind the first. -/
def readTrailing (leading : Nat) (s : List Char) :
    Except Failure (Char × { r : List Char // r.length < s.length }) :=
  match s with
  | [] => .error (.here .eofInString [])
  | '\\' :: [] => .error (.here .eofInString [])
  | '\\' :: 'u' :: s =>
    match readUnit s with
    | .error e => .error e
    | .ok (trailing, ⟨rest, h⟩) =>
      if isTrailing trailing then
        .ok (pairChar leading trailing, ⟨rest, by simp only [List.length_cons]; omega⟩)
      else .error (.here .loneSurrogate rest)
  | '\\' :: s => .error (.atNext .unexpectedEndOfHexEscape s)
  | s => .error (.atNext .unexpectedEndOfHexEscape s)

/-- The letters that follow a backslash for one character. -/
def letterEscape? (c : Char) : Option Char :=
  match c with
  | '"' => some '"'
  | '\\' => some '\\'
  | '/' => some '/'
  | 'b' => some '\x08'
  | 'f' => some '\x0c'
  | 'n' => some '\n'
  | 'r' => some '\r'
  | 't' => some '\t'
  | _ => none

/-- Read an escape, behind its backslash. -/
def readEscape (s : List Char) : Except Failure (Char × { r : List Char // r.length < s.length }) :=
  match s with
  | [] => .error (.here .eofInString [])
  | 'u' :: s =>
    match readUnit s with
    | .error e => .error e
    | .ok (unit, ⟨rest, h⟩) =>
      if isTrailing unit then .error (.here .loneSurrogate rest)
      else if isLeading unit then
        match readTrailing unit rest with
        | .error e => .error e
        | .ok (c, ⟨rest', h'⟩) => .ok (c, ⟨rest', by simp only [List.length_cons]; omega⟩)
      else .ok (Char.ofNat unit, ⟨rest, by simp only [List.length_cons]; omega⟩)
  | c :: rest =>
    match letterEscape? c with
    | some c => .ok (c, ⟨rest, by simp⟩)
    | none => .error (.atNext .invalidEscape (c :: rest))

/-- Read a string behind its opening quote, onto the characters read so
far in reverse. -/
def readString (read : List Char) (s : List Char) : Except Failure (String × List Char) :=
  match s with
  | [] => .error (.here .eofInString [])
  | '"' :: rest => .ok (String.ofList read.reverse, rest)
  | '\\' :: s =>
    match readEscape s with
    | .error e => .error e
    | .ok (c, ⟨rest, _⟩) => readString (c :: read) rest
  | c :: rest =>
    if c.toNat < 0x20 then .error (.atNext .controlCharacter (c :: rest))
    else readString (c :: read) rest
termination_by s.length

/-- Read the letters of a name. -/
def readIdent (value : Json) : (letters s : List Char) → Except Failure (Json × List Char)
  | [], s => .ok (value, s)
  | _ :: _, [] => .error (.here .eofInValue [])
  | l :: letters, c :: rest =>
    if c = l then readIdent value letters rest else .error (.atNext .expectedIdent (c :: rest))

/-- A reader of values. -/
abbrev Reader := List Char → Except Failure (Json × List Char)

/-- Read items behind the opening bracket or a comma, onto the items
read so far in reverse. -/
def readItems (item : Reader) : Nat → List Json → Reader
  | 0, _, s => .error (.here .eofInList s)
  | rounds + 1, read, s =>
    match item s with
    | .error e => .error e
    | .ok (v, rest) =>
      match skipSpace rest with
      | [] => .error (.here .eofInList [])
      | ']' :: rest => .ok (.array (v :: read).reverse, rest)
      | ',' :: rest =>
        match skipSpace rest with
        | [] => .error (.here .eofInValue [])
        | ']' :: rest => .error (.atNext .trailingComma (']' :: rest))
        | rest => readItems item rounds (v :: read) rest
      | rest => .error (.atNext .expectedListCommaOrEnd rest)

/-- Read a list behind its opening bracket. -/
def readList (item : Reader) (rounds : Nat) (s : List Char) : Except Failure (Json × List Char) :=
  match skipSpace s with
  | [] => .error (.here .eofInList [])
  | ']' :: rest => .ok (.array [], rest)
  | rest => readItems item rounds [] rest

/-- Read one member, behind the opening quote of its name. -/
def readMember (item : Reader) (s : List Char) :
    Except Failure ((String × Json) × List Char) :=
  match readString [] s with
  | .error e => .error e
  | .ok (name, rest) =>
    match skipSpace rest with
    | [] => .error (.here .eofInObject [])
    | ':' :: rest =>
      match item rest with
      | .error e => .error e
      | .ok (v, rest) => .ok ((name, v), rest)
    | rest => .error (.atNext .expectedColon rest)

/-- Read members, the first of them behind its opening quote, into the
members read so far; the last member of a name stays. -/
def readMembers (item : Reader) : Nat → List (String × Json) → Reader
  | 0, _, s => .error (.here .eofInObject s)
  | rounds + 1, read, s =>
    match readMember item s with
    | .error e => .error e
    | .ok ((name, v), rest) =>
      let read := Keyed.put name v read
      match skipSpace rest with
      | [] => .error (.here .eofInObject [])
      | '\x7d' :: rest => .ok (.object read, rest)
      | ',' :: rest =>
        match skipSpace rest with
        | [] => .error (.here .eofInValue [])
        | '"' :: rest => readMembers item rounds read rest
        | '\x7d' :: rest => .error (.atNext .trailingComma ('\x7d' :: rest))
        | rest => .error (.atNext .keyMustBeString rest)
      | rest => .error (.atNext .expectedObjectCommaOrEnd rest)

/-- Read an object behind its opening brace. -/
def readObject (item : Reader) (rounds : Nat) (s : List Char) :
    Except Failure (Json × List Char) :=
  match skipSpace s with
  | [] => .error (.here .eofInObject [])
  | '\x7d' :: rest => .ok (.object [], rest)
  | '"' :: rest => readMembers item rounds [] rest
  | rest => .error (.atNext .keyMustBeString rest)

/-- How deep containers may be nested. -/
def maxDepth : Nat := 127

/-- Read a value in which at most `depth` containers may be nested. -/
def readValue (rounds : Nat) (depth : Nat) (s : List Char) : Except Failure (Json × List Char) :=
  match skipSpace s with
  | [] => .error (.here .eofInValue [])
  | 'n' :: rest => readIdent .null ['u', 'l', 'l'] rest
  | 't' :: rest => readIdent (.bool true) ['r', 'u', 'e'] rest
  | 'f' :: rest => readIdent (.bool false) ['a', 'l', 's', 'e'] rest
  | '-' :: rest => readNumber true rest
  | '"' :: rest =>
    match readString [] rest with
    | .error e => .error e
    | .ok (s, rest) => .ok (.string s, rest)
  | '[' :: rest =>
    match depth with
    | 0 => .error (.atNext .recursionLimit ('[' :: rest))
    | depth + 1 => readList (readValue rounds depth) rounds rest
  | '\x7b' :: rest =>
    match depth with
    | 0 => .error (.atNext .recursionLimit ('\x7b' :: rest))
    | depth + 1 => readObject (readValue rounds depth) rounds rest
  | c :: rest =>
    if c.isDigit then readNumber false (c :: rest)
    else .error (.atNext .expectedValue (c :: rest))

/-- Read a text that holds one value and nothing else but white space. -/
def parseChars (text : List Char) : Except Error Json :=
  match readValue text.length maxDepth text with
  | .error f => .error (f.within text)
  | .ok (v, rest) =>
    match skipSpace rest with
    | [] => .ok v
    | rest => .error ((Failure.atNext .trailingCharacters rest).within text)

/-- Read a text that holds one value and nothing else but white space. -/
def parse (text : String) : Except Error Json := parseChars text.toList

end MuxControl.Json
