/-
MuxControl.Text.Quoted — a text between quotes, as diagnostics show it.

Quotes, backslashes and the commonest control characters are escaped by
a backslash; any other character that would not stand visibly by itself
is shown by its code point in hexadecimal.
-/
import MuxControl.Text.Printable

namespace MuxControl.Text

/-- How a diagnostic shows one character of a quoted text. -/
def quotedChar (c : Char) : List Char :=
  match c with
  | '\x00' => ['\\', '0']
  | '\t' => ['\\', 't']
  | '\r' => ['\\', 'r']
  | '\n' => ['\\', 'n']
  | '\\' => ['\\', '\\']
  | '"' => ['\\', '"']
  | c =>
    if isShownPlain c then [c]
    else ['\\', 'u', '\x7b'] ++ Nat.toDigits 16 c.toNat ++ ['\x7d']

/-- A text between double quotes. -/
def quoted (s : String) : String :=
  String.ofList ('"' :: s.toList.flatMap quotedChar ++ ['"'])

end MuxControl.Text
