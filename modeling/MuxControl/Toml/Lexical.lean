/-
MuxControl.Toml.Lexical — blanks, comments and line ends.

Every reader takes the characters that are left and answers what is
left behind the thing it read; `none` means that it is not there.
-/

namespace MuxControl.Toml

/-- A space or a tab. -/
def isBlank (c : Char) : Bool := c = ' ' || c = '\t'

/-- What is left behind blanks. -/
def skipBlanks (s : List Char) : List Char := s.dropWhile isBlank

/-- Characters that a comment may hold: no control character but the
tab. -/
def isCommentChar (c : Char) : Bool :=
  c = '\t' || (0x20 ≤ c.toNat && c.toNat ≠ 0x7F)

/-- A line feed, alone or behind a carriage return. -/
def newline? : List Char → Option (List Char)
  | '\n' :: rest => some rest
  | '\r' :: '\n' :: rest => some rest
  | _ => none

/-- What is left behind a comment, if one starts here. -/
def skipComment : List Char → List Char
  | '#' :: rest => rest.dropWhile isCommentChar
  | s => s

/-- The end of the line, or of the text, behind blanks and a comment. -/
def lineEnd? (s : List Char) : Option (List Char) :=
  match skipComment (skipBlanks s) with
  | [] => some []
  | s => newline? s

/-- What is left behind blanks, comments and newlines; `rounds` bounds
the number of lines. -/
def skipLines : (rounds : Nat) → List Char → List Char
  | 0, s => s
  | rounds + 1, s =>
    let behindBlanks := skipBlanks s
    match newline? (skipComment behindBlanks) with
    | some rest => skipLines rounds rest
    | none => behindBlanks

end MuxControl.Toml
