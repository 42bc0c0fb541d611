/-
MuxControl.Json.Printer — the two written forms of a JSON value.

The compact form has no white space. The pretty form puts every item
and member on a line of its own, two spaces deeper than its container,
and leaves empty containers on one line.
-/
import MuxControl.Json.Basic
import MuxControl.Number.Shortest

namespace MuxControl.Json

/-- Floating point numbers are written positionally from 1e-5 up to
below 1e16; a tie goes to the even digit. -/
def numberLayout : Layout := ⟨fun leading => -5 ≤ leading && leading < 16, .even⟩

/-- How a character is written inside a string: the quote, the
backslash and the characters below the space are escaped, the commonest
of these by a letter. -/
def escapeChar (c : Char) : List Char :=
  match c with
  | '"' => ['\\', '"']
  | '\\' => ['\\', '\\']
  | '\x08' => ['\\', 'b']
  | '\t' => ['\\', 't']
  | '\n' => ['\\', 'n']
  | '\x0c' => ['\\', 'f']
  | '\r' => ['\\', 'r']
  | c =>
    if c.toNat < 0x20 then
      ['\\', 'u', '0', '0', Nat.digitChar (c.toNat / 16), Nat.digitChar (c.toNat % 16)]
    else [c]

/-- A string between quotes. -/
def renderString (s : String) : List Char :=
  '"' :: (s.toList.flatMap escapeChar ++ ['"'])

/-- An integer in decimal digits. -/
def renderInt (i : Int) : List Char :=
  (if i < 0 then ['-'] else []) ++ Nat.toDigits 10 i.natAbs

mutual

/-- The compact form. -/
def render : Json → List Char
  | .null => ['n', 'u', 'l', 'l']
  | .bool true => ['t', 'r', 'u', 'e']
  | .bool false => ['f', 'a', 'l', 's', 'e']
  | .int i => renderInt i
  | .float x => x.render numberLayout
  | .string s => renderString s
  | .array items => '[' :: (renderItems items ++ [']'])
  | .object members => '\x7b' :: (renderMembers members ++ ['\x7d'])

/-- Items between commas. -/
def renderItems : List Json → List Char
  | [] => []
  | [x] => render x
  | x :: xs => render x ++ ',' :: renderItems xs

/-- Members between commas. -/
def renderMembers : List (String × Json) → List Char
  | [] => []
  | [(k, x)] => renderString k ++ ':' :: render x
  | (k, x) :: xs => renderString k ++ ':' :: (render x ++ ',' :: renderMembers xs)

end

/-- A new line indented for a nesting depth. -/
def newline (depth : Nat) : List Char := '\n' :: List.replicate (2 * depth) ' '

mutual

/-- The pretty form of a value that stands at a nesting depth. -/
def renderPretty (depth : Nat) : Json → List Char
  | .array [] => ['[', ']']
  | .array (x :: xs) => '[' :: (prettyItems (depth + 1) (x :: xs) ++ newline depth ++ [']'])
  | .object [] => ['\x7b', '\x7d']
  | .object (m :: ms) =>
    '\x7b' :: (prettyMembers (depth + 1) (m :: ms) ++ newline depth ++ ['\x7d'])
  | .null => render .null
  | .bool b => render (.bool b)
  | .int i => render (.int i)
  | .float x => render (.float x)
  | .string s => render (.string s)

/-- Items, each on its own line. -/
def prettyItems (depth : Nat) : List Json → List Char
  | [] => []
  | [x] => newline depth ++ renderPretty depth x
  | x :: xs => newline depth ++ renderPretty depth x ++ ',' :: prettyItems depth xs

/-- Members, each on its own line. -/
def prettyMembers (depth : Nat) : List (String × Json) → List Char
  | [] => []
  | [(k, x)] => newline depth ++ renderString k ++ ':' :: ' ' :: renderPretty depth x
  | (k, x) :: xs =>
    newline depth ++ renderString k ++
      ':' :: ' ' :: (renderPretty depth x ++ ',' :: prettyMembers depth xs)

end

/-- The compact form as a text. -/
def compact (v : Json) : String := String.ofList (render v)

/-- The pretty form as a text. -/
def pretty (v : Json) : String := String.ofList (renderPretty 0 v)

end MuxControl.Json
