/-
MuxControl.Toml.Reader — the grammar of a TOML text.

A text is a sequence of lines: comments, headers and assignments. Only
whether a text is well formed is known of one that is not: every reader
answers `none` for it. Loops are bounded by the length of the text,
nesting by a fixed depth.
-/
import MuxControl.Toml.Scalar
import MuxControl.Toml.Table

namespace MuxControl.Toml

open Text (expect?)

/-- How many containers may be nested, and how many keys a dotted key
may have. -/
def maxDepth : Nat := 79

/-- Characters of a key without quotes. -/
def isBareKeyChar (c : Char) : Bool := c.isAlphanum || c = '-' || c = '_'

/-- A single key. -/
def key? (rounds : Nat) : List Char → Option (String × List Char)
  | '"' :: rest => basic? rounds [] rest
  | '\'' :: rest => literal? rest
  | s =>
    match s.takeWhile isBareKeyChar with
    | [] => none
    | name => some (String.ofList name, s.dropWhile isBareKeyChar)

/-- Keys between points, with blanks around each. -/
def dottedKey? (limit : Nat) : (rounds : Nat) → List Char → Option (List String × List Char)
  | 0, _ => none
  | rounds + 1, s => do
    let (key, rest) ← key? limit (skipBlanks s)
    match skipBlanks rest with
    | '.' :: rest => do
      let (keys, rest) ← dottedKey? limit rounds rest
      return (key :: keys, rest)
    | rest => return ([key], rest)

/-- The path of an assignment or a header. -/
def path? (limit : Nat) (s : List Char) : Option (List String × List Char) :=
  dottedKey? limit maxDepth s

/-- A reader of values. -/
abbrev ValueReader := List Char → Option (Node × List Char)

/-- The items of an array, behind its bracket or a comma. A comma may
follow the last one. -/
def items? (limit : Nat) (value : ValueReader) :
    (rounds : Nat) → (read : List Node) → List Char → Option (Node × List Char)
  | 0, _, _ => none
  | rounds + 1, read, s =>
    match skipLines limit s with
    | ']' :: rest => some (.array read.reverse, rest)
    | s => do
      let (item, rest) ← value s
      match skipLines limit rest with
      | ',' :: rest => items? limit value rounds (item :: read) rest
      | ']' :: rest => some (.array (item :: read).reverse, rest)
      | _ => none

/-- A path and its value. -/
def assignment? (limit : Nat) (value : ValueReader) (s : List Char) :
    Option ((List String × Node) × List Char) := do
  let (path, rest) ← path? limit s
  let rest ← expect? '=' rest
  let (node, rest) ← value (skipBlanks rest)
  return ((path, node), rest)

/-- The assignments of an inline table, behind its brace or a comma. -/
def assignments? (limit : Nat) (value : ValueReader) :
    (rounds : Nat) → (read : List (List String × Node)) → List Char →
      Option (Node × List Char)
  | 0, _, _ => none
  | rounds + 1, read, s => do
    let (assignment, rest) ← assignment? limit value s
    let read := assignment :: read
    match skipBlanks rest with
    | ',' :: rest => assignments? limit value rounds read rest
    | '\x7d' :: rest => do
      let table ← inlineOf read.reverse
      return (table, rest)
    | _ => none

/-- A value in which at most `depth` containers are nested. -/
def value? (limit : Nat) : (depth : Nat) → List Char → Option (Node × List Char)
  | depth, '[' :: rest =>
    match depth with
    | 0 => none
    | depth + 1 => items? limit (value? limit depth) limit [] rest
  | depth, '\x7b' :: rest =>
    match depth with
    | 0 => none
    | depth + 1 =>
      match skipBlanks rest with
      | '\x7d' :: rest => some (.inline [], rest)
      | rest => assignments? limit (value? limit depth) limit [] rest
  | _, s => (scalar? limit s).map fun (x, rest) => (.scalar x, rest)

/-- A header, behind its first bracket, opens a table. -/
def header? (limit : Nat) (d : Draft) : List Char → Option (Draft × List Char)
  | '[' :: rest => do
    let (path, rest) ← path? limit rest
    let rest ← expect? ']' rest
    let rest ← expect? ']' rest
    let d ← d.openListed path
    return (d, rest)
  | rest => do
    let (path, rest) ← path? limit rest
    let rest ← expect? ']' rest
    let d ← d.openTable path
    return (d, rest)

/-- What stands at the start of a line, up to its end. -/
def statement? (limit : Nat) (d : Draft) (s : List Char) : Option (Draft × List Char) :=
  match s with
  | '[' :: rest => header? limit d rest
  | '#' :: _ => some (d, s)
  | '\n' :: _ => some (d, s)
  | '\r' :: _ => some (d, s)
  | s => do
    let ((path, node), rest) ← assignment? limit (value? limit maxDepth) s
    let d ← d.assign path node
    return (d, rest)

/-- The lines of a text. -/
def statements? (limit : Nat) : (rounds : Nat) → Draft → List Char → Option Draft
  | 0, d, s => if s.isEmpty then some d else none
  | rounds + 1, d, s =>
    match skipBlanks s with
    | [] => some d
    | s => do
      let (d, rest) ← statement? limit d s
      let rest ← lineEnd? rest
      statements? limit rounds d rest

/-- A text without the mark of its byte order. -/
def skipMark : List Char → List Char
  | '\uFEFF' :: rest => rest
  | s => s

/-- The table that a text denotes, if it is well formed. -/
def parse? (text : String) : Option Node := do
  let s := skipMark text.toList
  let limit := s.length + 1
  let d ← statements? limit limit .start s
  d.finish

end MuxControl.Toml
