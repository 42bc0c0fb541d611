/-
MuxControl.Text.Scan — the smallest step of a reader that takes the
characters that are left and answers what is left behind what it read.
-/

namespace MuxControl.Text

/-- What is left behind a character that has to stand here. -/
def expect? (c : Char) : List Char → Option (List Char)
  | d :: rest => if d = c then some rest else none
  | [] => none

end MuxControl.Text
