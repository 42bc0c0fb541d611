/-
MuxControl.Wire.Line — cutting a byte stream into lines of bounded
length.

Each read looks at a window of at most one byte more than its limit. It
takes everything up to the first newline of the window, or the whole
window if there is none; what it takes is gone, whether it makes a line
or not. The size of the window has 64 bits; for the greatest limit it
does not fit them, and the read panics.
-/
import MuxControl.Number.Word

namespace MuxControl.Wire

/-- Bytes still to be read. -/
abbrev Bytes := List UInt8

/-- Why no line could be read. -/
inductive LineError where
  | failed (reason : String)
  | tooLong (limit : Nat)
  | notUtf8
deriving DecidableEq, Repr, Inhabited

/-- The wording of a line error. -/
def LineError.message : LineError → String
  | .failed reason => "read failed: " ++ reason
  | .tooLong limit => s!"line exceeds {limit} bytes"
  | .notUtf8 => "line is not valid UTF-8"

/-- The newline byte. -/
def newlineByte : UInt8 := 10

/-- The carriage return byte. -/
def returnByte : UInt8 := 13

/-- The number of bytes a read may take, if it fits 64 bits. -/
def budget? (limit : Nat) : Option Nat := if limit < Word.max64 then some (limit + 1) else none

/-- Text from its UTF-8 bytes. -/
def decode? (bytes : Bytes) : Option String := String.fromUTF8? ⟨bytes.toArray⟩

/-- The UTF-8 bytes of a text. -/
def encode (text : String) : Bytes := text.toUTF8.toList

/-- A piece of a stream: what stands before the newline that ends it,
whether there is one, and the bytes behind it. -/
structure Piece where
  body : Bytes
  ended : Bool
  rest : Bytes

/-- The number of bytes that the piece took from the stream. -/
def Piece.size (p : Piece) : Nat := p.body.length + if p.ended then 1 else 0

/-- The next piece of a stream, within a number of bytes. -/
def nextPiece (window : Nat) (bytes : Bytes) : Piece :=
  let shown := bytes.take window
  let body := shown.takeWhile (· ≠ newlineByte)
  let ended := body.length < shown.length
  ⟨body, ended, bytes.drop (body.length + if ended then 1 else 0)⟩

/-- The bytes without one carriage return at their end. -/
def withoutReturn (bytes : Bytes) : Bytes :=
  if bytes.getLast? = some returnByte then bytes.dropLast else bytes

/-- The line that a piece makes, if any: none when nothing was left to
read. An ended piece loses its newline and one carriage return before
it; one that is not ended is a line of its own within the limit. -/
def Piece.line (limit : Nat) (p : Piece) : Except LineError (Option String) :=
  if p.size = 0 then .ok none
  else if !p.ended && limit < p.size then .error (.tooLong limit)
  else
    match decode? (if p.ended then withoutReturn p.body else p.body) with
    | some text => .ok (some text)
    | none => .error .notUtf8

/-- Read the next line of at most `limit` bytes; no line is the end of the
stream. Answers what is left of the stream too, and nothing at all if the
read panics. -/
def nextLine? (limit : Nat) (bytes : Bytes) :
    Option (Except LineError (Option String) × Bytes) :=
  (budget? limit).map fun window =>
    let piece := nextPiece window bytes
    (piece.line limit, piece.rest)

/-- Read one line for each limit, going on after errors. A read that
panics takes the lines before it along. -/
def readLines? (bytes : Bytes) : List Nat → Option (List (Except LineError (Option String)))
  | [] => some []
  | limit :: limits =>
    match nextLine? limit bytes with
    | none => none
    | some (line, rest) => (readLines? rest limits).map (line :: ·)

end MuxControl.Wire
