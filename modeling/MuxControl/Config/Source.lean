/-
MuxControl.Config.Source — configurations from files.

A file is read, parsed, checked for its shape and validated, in this
order; the first step that fails is what is reported.
-/
import MuxControl.Config.Validation
import MuxControl.File
import MuxControl.Toml.Reader

namespace MuxControl

/-- Why a configuration could not be loaded. -/
inductive ConfigError where
  | unreadable (fault : FileFault)
  | malformed
  | shape (error : ShapeError)
  | invalid (violations : List Violation)
deriving DecidableEq, Repr, Inhabited

/-- The wording of a configuration error. The place and the reason of
malformed text are not told. -/
def ConfigError.message : ConfigError → String
  | .unreadable fault => "IO error: " ++ fault.message
  | .malformed => "Parse error"
  | .shape e => "Parse error: " ++ e.message
  | .invalid violations =>
    "Validation failed: " ++ String.intercalate ", " (violations.map Violation.message)

namespace Settings

/-- The configuration that a text writes over the defaults, valid or
not. -/
def ofText (text : String) : Except ConfigError Settings :=
  match Toml.parse? text with
  | none => .error .malformed
  | some node =>
    match read (.ofToml node) with
    | .error e => .error (.shape e)
    | .ok s => .ok s

/-- A configuration that has no violations. -/
def checked (s : Settings) : Except ConfigError Settings :=
  match s.violations with
  | [] => .ok s
  | violations => .error (.invalid violations)

/-- The valid configuration that a text writes. -/
def parse (text : String) : Except ConfigError Settings := ofText text >>= checked

theorem checked_eq (s : Settings) :
    s.checked = if s.Valid then .ok s else .error (.invalid s.violations) := by
  unfold checked
  split
  · next hnone => exact (if_pos hnone).symm
  · next hsome => exact (if_neg hsome).symm

/-- What a text is parsed into is valid. -/
theorem valid_of_parse {text : String} {s : Settings} (h : parse text = .ok s) : s.Valid := by
  unfold parse at h
  cases hread : ofText text with
  | error e =>
    rw [hread] at h
    cases h
  | ok read =>
    rw [hread] at h
    have hchecked : read.checked = .ok s := h
    rw [checked_eq] at hchecked
    split at hchecked
    · next hvalid =>
      cases hchecked
      exact hvalid
    · cases hchecked

/-- The valid configuration that a file holds. -/
def load (file : FileContent) : Except ConfigError Settings :=
  match file.text with
  | .ok text => parse text
  | .error fault => .error (.unreadable fault)

end Settings

end MuxControl
