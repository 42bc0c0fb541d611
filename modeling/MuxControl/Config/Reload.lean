/-
MuxControl.Config.Reload — following the changes of a configuration
file.

A reload forwards the configuration of the file when it loads and
differs from the one forwarded last; a file that does not load changes
nothing.
-/
import MuxControl.Config.Source

namespace MuxControl

/-- A section of the configuration. -/
inductive Section where
  | server
  | inputs
  | observability
deriving DecidableEq, Repr, Inhabited

/-- The name of a section. -/
def Section.name : Section → String
  | .server => "server"
  | .inputs => "inputs"
  | .observability => "observability"

namespace Settings

/-- The sections in which two configurations differ. -/
def changedSections (old new : Settings) : List Section :=
  (if old.server ≠ new.server then [.server] else []) ++
  (if old.inputs ≠ new.inputs then [.inputs] else []) ++
  (if old.observability ≠ new.observability then [.observability] else [])

/-- A configuration with one section of another. -/
def withSection (base other : Settings) : Section → Settings
  | .server => { base with server := other.server }
  | .inputs => { base with inputs := other.inputs }
  | .observability => { base with observability := other.observability }

end Settings

/-- The configuration that was forwarded last. -/
structure Reloader where
  applied : Settings
deriving DecidableEq, Repr, Inhabited

namespace Reloader

/-- What a change of the file brings: a configuration to forward, if it
differs, or the reason why the file was rejected. -/
def reload (r : Reloader) (file : FileContent) : Reloader × Except ConfigError (Option Settings) :=
  match Settings.load file with
  | .error e => (r, .error e)
  | .ok new =>
    if r.applied.changedSections new = [] then (r, .ok none)
    else (⟨new⟩, .ok (some new))

/-- What a change of the file forwards. -/
def forwarded (r : Reloader) (file : FileContent) : Option Settings :=
  (r.reload file).2.toOption.join

/-- The configurations that a sequence of changes forwards, each with
its change, and the reloader after them. -/
def run (r : Reloader) : List FileContent → List (Option Settings) × Reloader
  | [] => ([], r)
  | file :: files =>
    let (rest, last) := run (r.reload file).1 files
    (r.forwarded file :: rest, last)

end Reloader

end MuxControl
