/-
MuxControl.Console.Arguments — reading the words of a command line.

Options come first. Each of them takes a value, attached to its name or
given as the next word, and is given at most once. The words are read
from left to right, and the first one that asks for help or cannot be
understood decides the matter.
-/
import MuxControl.Number.Word

namespace MuxControl.Console

/-- Why a command line is not carried out. -/
inductive Halt where
  | help
  | misused
deriving DecidableEq, Repr, Inhabited

/-- The exit code of a command line that is not carried out. -/
def Halt.exitCode : Halt → Nat
  | .help => 0
  | .misused => 2

/-- An option of a record of options: its long name, its letter if it
has one, and what its value does to the record. -/
structure Setter (α : Type) where
  name : String
  letter : Option Char
  set : String → α → Option α

/-- How a word reads where options may stand. -/
inductive Reading (α : Type) where
  | help
  | option (setter : Setter α) (attached : Option String)
  | dashes
  | plain
  | unknown

/-- A long option: its name, and behind an equals sign its value. -/
def Reading.ofLong {α : Type} (setters : List (Setter α)) (cs : List Char) : Reading α :=
  let name := String.ofList (cs.takeWhile (· ≠ '='))
  let attached := match cs.dropWhile (· ≠ '=') with
    | '=' :: value => some (String.ofList value)
    | _ => none
  if name = "help" then if attached.isNone then .help else .unknown
  else match setters.find? (·.name = name) with
    | some setter => .option setter attached
    | none => .unknown

/-- A short option: its letter, and what is attached to it. -/
def Reading.ofShort {α : Type} (setters : List (Setter α)) (letter : Char) (cs : List Char) :
    Reading α :=
  if letter = 'h' then .help
  else match setters.find? (·.letter = some letter) with
    | none => .unknown
    | some setter => .option setter (match cs with
      | [] => none
      | '=' :: value => some (String.ofList value)
      | value => some (String.ofList value))

/-- How a word reads. A single dash is a plain word. -/
def Reading.of {α : Type} (setters : List (Setter α)) (word : String) : Reading α :=
  match word.toList with
  | ['-', '-'] => .dashes
  | '-' :: '-' :: cs => .ofLong setters cs
  | '-' :: letter :: cs => .ofShort setters letter cs
  | _ => .plain

/-- Whether a word may be the value of the option before it. -/
def isValue (word : String) : Bool :=
  match word.toList with
  | '-' :: _ :: _ => false
  | _ => true

/-- Read the options at the head of a command line into a record, and
answer the words from the first plain one on. Nothing may follow the
two dashes that end the options. -/
def readOptions {α : Type} (setters : List (Setter α)) (given : List String) (record : α) :
    List String → Except Halt (α × List String)
  | [] => .ok (record, [])
  | word :: rest =>
    match Reading.of setters word with
    | .help => .error .help
    | .unknown => .error .misused
    | .plain => .ok (record, word :: rest)
    | .dashes => if rest.isEmpty then .ok (record, []) else .error .misused
    | .option setter attached =>
      if given.contains setter.name then .error .misused
      else
        match attached, rest with
        | some value, rest =>
          match setter.set value record with
          | some record => readOptions setters (setter.name :: given) record rest
          | none => .error .misused
        | none, [] => .error .misused
        | none, value :: rest =>
          match if isValue value then setter.set value record else none with
          | some record => readOptions setters (setter.name :: given) record rest
          | none => .error .misused

/-- The only plain word among words without options; any word may stand
behind two dashes. -/
def onlyPlain : Option String → List String → Except Halt String
  | found, [] => match found with
    | some word => .ok word
    | none => .error .misused
  | found, word :: rest =>
    match Reading.of ([] : List (Setter Unit)) word with
    | .help => .error .help
    | .plain => if found.isSome then .error .misused else onlyPlain (some word) rest
    | .dashes => match found, rest with
      | some word, [] => .ok word
      | none, [word] => .ok word
      | _, _ => .error .misused
    | _ => .error .misused

/-- A text that is not empty. -/
def nonEmpty? (text : String) : Option String := if text = "" then none else some text

/-- The number of a port: decimal digits, which a plus may precede. A
minus may precede zero. -/
def portNumber? (text : String) : Option Nat :=
  let (negative, digits) := match text.toList with
    | '+' :: digits => (false, digits)
    | '-' :: digits => (true, digits)
    | digits => (false, digits)
  if digits.isEmpty || !digits.all Char.isDigit then none
  else
    let n := digits.foldl (fun n c => n * 10 + (c.toNat - '0'.toNat)) 0
    if n ≤ (if negative then 0 else Word.max16) then some n else none

end MuxControl.Console
