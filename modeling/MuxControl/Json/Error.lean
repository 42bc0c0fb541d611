/-
MuxControl.Json.Error — why a text is not a JSON value, and where.

A place is the number of bytes of the text that had been taken when the
failure was noticed. A reader that stops before a character it has only
looked at counts one byte of it; at the end of the text there is no
byte to count.
-/

namespace MuxControl.Json

/-- What is wrong. -/
inductive Cause where
  | eofInList
  | eofInObject
  | eofInString
  | eofInValue
  | expectedColon
  | expectedListCommaOrEnd
  | expectedObjectCommaOrEnd
  | expectedIdent
  | expectedValue
  | invalidEscape
  | invalidNumber
  | numberOutOfRange
  | controlCharacter
  | keyMustBeString
  | loneSurrogate
  | trailingComma
  | trailingCharacters
  | unexpectedEndOfHexEscape
  | recursionLimit
deriving DecidableEq, Repr, Inhabited

/-- The wording of a cause. -/
def Cause.message : Cause → String
  | .eofInList => "EOF while parsing a list"
  | .eofInObject => "EOF while parsing an object"
  | .eofInString => "EOF while parsing a string"
  | .eofInValue => "EOF while parsing a value"
  | .expectedColon => "expected `:`"
  | .expectedListCommaOrEnd => "expected `,` or `]`"
  | .expectedObjectCommaOrEnd => "expected `,` or `\x7d`"
  | .expectedIdent => "expected ident"
  | .expectedValue => "expected value"
  | .invalidEscape => "invalid escape"
  | .invalidNumber => "invalid number"
  | .numberOutOfRange => "number out of range"
  | .controlCharacter => "control character (\\u0000-\\u001F) found while parsing a string"
  | .keyMustBeString => "key must be a string"
  | .loneSurrogate => "lone leading surrogate in hex escape"
  | .trailingComma => "trailing comma"
  | .trailingCharacters => "trailing characters"
  | .unexpectedEndOfHexEscape => "unexpected end of hex escape"
  | .recursionLimit => "recursion limit exceeded"

/-- The number of bytes of a text in UTF-8. -/
def byteSize (s : List Char) : Nat := s.foldr (fun c n => c.utf8Size + n) 0

/-- A failure inside a text: what was left of it, and how many bytes of
that count as taken. -/
structure Failure where
  cause : Cause
  rest : List Char
  ahead : Nat
deriving DecidableEq, Repr

/-- A failure noticed where the reader stands. -/
def Failure.here (cause : Cause) (rest : List Char) : Failure := ⟨cause, rest, 0⟩

/-- A failure noticed at the byte after the reader's place. -/
def Failure.atNext (cause : Cause) (rest : List Char) : Failure := ⟨cause, rest, 1⟩

/-- A line, counted from 1, and a column in bytes, counted from 0. -/
structure Position where
  line : Nat
  column : Nat
deriving DecidableEq, Repr, Inhabited

/-- The position behind a number of bytes of a text. -/
def Position.advance : Position → Nat → List Char → Position
  | p, _, [] => p
  | p, bytes, c :: rest =>
    if bytes = 0 then p
    else if c = '\n' then advance ⟨p.line + 1, 0⟩ (bytes - 1) rest
    else if bytes < c.utf8Size then ⟨p.line, p.column + bytes⟩
    else advance ⟨p.line, p.column + c.utf8Size⟩ (bytes - c.utf8Size) rest

/-- A cause and the position of its failure. -/
structure Error where
  cause : Cause
  position : Position
deriving DecidableEq, Repr, Inhabited

/-- The failure as an error about the whole text it happened in. -/
def Failure.within (f : Failure) (text : List Char) : Error :=
  let left := byteSize f.rest
  let taken := byteSize text - left + min f.ahead left
  ⟨f.cause, Position.advance ⟨1, 0⟩ taken text⟩

/-- The wording of an error. -/
def Error.message (e : Error) : String :=
  s!"{e.cause.message} at line {e.position.line} column {e.position.column}"

end MuxControl.Json
