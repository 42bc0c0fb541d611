/-
MuxControl.Toml.Text — the four kinds of TOML strings.

Basic strings have escapes and literal ones have none; either kind may
run over several lines between threefold quotes. A newline is always
read as a line feed, and one right behind the opening quotes is left
out. Up to two quotes may stand before the closing ones.
-/
import MuxControl.Text.Hex
import MuxControl.Toml.Lexical

namespace MuxControl.Toml

/-- Characters that a string may hold unescaped. -/
def isTextChar (c : Char) : Bool := isCommentChar c

/-- The character with a code point that is no surrogate. -/
def charOf? (code : Nat) : Option Char :=
  if h : code.isValidChar then some (Char.ofNatAux code h) else none

/-- The character whose code point the next `count` hexadecimal digits
write. -/
def codePoint? (count : Nat) (s : List Char) : Option (Char × List Char) := do
  let digits := s.take count
  guard (digits.length = count)
  let code ← Text.hexNumber? digits
  let c ← charOf? code
  return (c, s.drop count)

/-- An escape, behind its backslash. -/
def escape? : List Char → Option (Char × List Char)
  | 'b' :: rest => some ('\x08', rest)
  | 'f' :: rest => some ('\x0c', rest)
  | 'n' :: rest => some ('\n', rest)
  | 'r' :: rest => some ('\r', rest)
  | 't' :: rest => some ('\t', rest)
  | '\\' :: rest => some ('\\', rest)
  | '"' :: rest => some ('"', rest)
  | 'u' :: rest => codePoint? 4 rest
  | 'U' :: rest => codePoint? 8 rest
  | _ => none

/-- The characters of a text read in reverse. -/
def textOf (read : List Char) : String := String.ofList read.reverse

/-- A basic string on one line, behind its opening quote. -/
def basic? : (rounds : Nat) → (read s : List Char) → Option (String × List Char)
  | 0, _, _ => none
  | rounds + 1, read, s =>
    match s with
    | '"' :: rest => some (textOf read, rest)
    | '\\' :: rest => do
      let (c, rest) ← escape? rest
      basic? rounds (c :: read) rest
    | c :: rest => if isTextChar c then basic? rounds (c :: read) rest else none
    | [] => none

/-- A literal string on one line, behind its opening quote. -/
def literal? (s : List Char) : Option (String × List Char) :=
  let body := s.takeWhile fun c => c ≠ '\'' && isTextChar c
  match s.drop body.length with
  | '\'' :: rest => some (String.ofList body, rest)
  | _ => none

/-- The number of quotes that stand here in a row. -/
def quoteRun (quote : Char) (s : List Char) : Nat := (s.takeWhile (· = quote)).length

/-- The end of a string over several lines, at a row of three quotes or
more: three of them close it, up to two before these belong to the
text, and a longer row belongs to nothing. -/
def close? (quote : Char) (read s : List Char) : Option (String × List Char) :=
  let run := quoteRun quote s
  if run ≤ 5 then some (textOf (List.replicate (run - 3) quote ++ read), s.drop run) else none

/-- What is left behind blanks and newlines. -/
def skipBlankLines : (rounds : Nat) → List Char → List Char
  | 0, s => s
  | rounds + 1, s =>
    match newline? (skipBlanks s) with
    | some rest => skipBlankLines rounds rest
    | none => skipBlanks s

/-- A backslash at the end of a line takes the newline with it, and all
blanks and newlines that follow: what is left, behind the backslash. -/
def continued? (rounds : Nat) (s : List Char) : Option (List Char) :=
  (newline? (skipBlanks s)).map (skipBlankLines rounds)

/-- A basic string over several lines, behind its opening quotes. -/
def basicLines? : (rounds : Nat) → (read s : List Char) → Option (String × List Char)
  | 0, _, _ => none
  | rounds + 1, read, s =>
    if 3 ≤ quoteRun '"' s then close? '"' read s
    else
      match newline? s, s with
      | some rest, _ => basicLines? rounds ('\n' :: read) rest
      | none, '\\' :: rest =>
        match continued? rounds rest with
        | some rest => basicLines? rounds read rest
        | none => do
          let (c, rest) ← escape? rest
          basicLines? rounds (c :: read) rest
      | none, c :: rest => if isTextChar c then basicLines? rounds (c :: read) rest else none
      | none, [] => none

/-- A literal string over several lines, behind its opening quotes. -/
def literalLines? : (rounds : Nat) → (read s : List Char) → Option (String × List Char)
  | 0, _, _ => none
  | rounds + 1, read, s =>
    if 3 ≤ quoteRun '\'' s then close? '\'' read s
    else
      match newline? s, s with
      | some rest, _ => literalLines? rounds ('\n' :: read) rest
      | none, c :: rest => if isTextChar c then literalLines? rounds (c :: read) rest else none
      | none, [] => none

/-- What is left behind a newline, if one stands here. -/
def skipNewline (s : List Char) : List Char := (newline? s).getD s

/-- A string of any kind. -/
def string? (rounds : Nat) : List Char → Option (String × List Char)
  | '"' :: '"' :: '"' :: rest => basicLines? rounds [] (skipNewline rest)
  | '"' :: rest => basic? rounds [] rest
  | '\'' :: '\'' :: '\'' :: rest => literalLines? rounds [] (skipNewline rest)
  | '\'' :: rest => literal? rest
  | _ => none

end MuxControl.Toml
