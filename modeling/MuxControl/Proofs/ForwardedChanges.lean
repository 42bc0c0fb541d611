/-
MuxControl.Proofs.ForwardedChanges — what the reloader forwards is what
changed.

Of the configurations that load, one after another, the reloader forwards
each that differs from the one before it; the first is held against the
one that it began with. `changes` says so of any list, by looking at
neighbours, while the reloader goes by what it forwarded last. Both agree
since what is not forwarded is the same as what was: whether or not it
forwards, the reloader has what loaded last (`Reloader.applied_reload`).

All rests on the sections that are named as changed. None is named just
for equal configurations (`Settings.changedSections_eq_nil`), a section is
named just if it differs (`Settings.mem_changedSections`), and with the
named ones replaced the old configuration is the new one
(`Settings.replace_changed`).
-/
import Mathlib.Data.List.ReduceOption
import MuxControl.Proofs.HotReload

namespace MuxControl

namespace Settings

/-! ## The sections that changed -/

/-- A configuration with some sections of another. -/
def withSections (base other : Settings) (sections : List Section) : Settings :=
  sections.foldl (fun base changed => base.withSection other changed) base

/-- A section is named just if it differs. -/
theorem mem_changedSections (old new : Settings) (changed : Section) :
    changed ∈ old.changedSections new ↔ old.withSection new changed ≠ old := by
  obtain ⟨oldServer, oldInputs, oldObservability⟩ := old
  obtain ⟨newServer, newInputs, newObservability⟩ := new
  cases changed with
  | server => simp [changedSections, withSection, eq_comm]
  | inputs => simp [changedSections, withSection, eq_comm]
  | observability => simp [changedSections, withSection, eq_comm]

/-- The old configuration with the sections that changed is the new one. -/
theorem replace_changed (old new : Settings) :
    old.withSections new (old.changedSections new) = new := by
  obtain ⟨oldServer, oldInputs, oldObservability⟩ := old
  obtain ⟨newServer, newInputs, newObservability⟩ := new
  unfold withSections changedSections
  rw [List.foldl_append, List.foldl_append]
  -- Each section is the same in both, or it is replaced.
  by_cases hserver : oldServer = newServer <;> by_cases hinputs : oldInputs = newInputs <;>
    by_cases hobservability : oldObservability = newObservability <;>
    simp [hserver, hinputs, hobservability, withSection]

end Settings

/-! ## Changes of a list -/

/-- Of a list, what differs from its predecessor; that of the first one is
given. -/
def changes {α : Type} [DecidableEq α] (first : α) (list : List α) : List α :=
  ((list.zip (first :: list)).filter fun neighbours => neighbours.1 ≠ neighbours.2).map Prod.fst

section Changes

variable {α : Type} [DecidableEq α] (first next : α) (list : List α)

theorem changes_cons :
    changes first (next :: list) =
      (if next = first then [] else [next]) ++ changes next list := by
  unfold changes
  rw [List.zip_cons_cons, List.filter_cons]
  by_cases hsame : next = first
  · simp [hsame]
  · simp [hsame]

end Changes

namespace Reloader

/-- The configurations that load, in the order of the changes of the
file. -/
def loaded (files : List FileContent) : List Settings :=
  files.filterMap fun file => (Settings.load file).toOption

/-- Whether or not it forwards what loads, the reloader has it. -/
theorem applied_reload (r : Reloader) (file : FileContent) :
    (r.reload file).1 = ⟨(Settings.load file).toOption.getD r.applied⟩ := by
  obtain ⟨e, hload, hreload⟩ | ⟨hload, hreload⟩ | ⟨new, hload, hreload⟩ := r.reload_cases file <;>
    rw [hload, hreload] <;> rfl

/-- What loads is forwarded if it differs from what the reloader has. -/
theorem forwarded_eq (r : Reloader) (file : FileContent) :
    r.forwarded file = (Settings.load file).toOption.filter (· ≠ r.applied) := by
  unfold forwarded reload
  cases hload : Settings.load file with
  | error e => rfl
  | ok new =>
    by_cases hsame : r.applied = new
    · subst hsame
      have hnone : r.applied.changedSections r.applied = [] :=
        Settings.changedSections_eq_nil.mpr rfl
      simp [hnone, Except.toOption, Option.filter_some]
    · have hchanged : r.applied.changedSections new ≠ [] :=
        fun hnone => hsame (Settings.changedSections_eq_nil.mp hnone)
      simp [hchanged, Except.toOption, Option.filter_some, Ne.symm hsame]

theorem loaded_cons (file : FileContent) (files : List FileContent) :
    loaded (file :: files) = (Settings.load file).toOption.toList ++ loaded files := by
  unfold loaded
  rw [List.filterMap_cons]
  cases (Settings.load file).toOption <;> rfl

theorem run_cons (r : Reloader) (file : FileContent) (files : List FileContent) :
    r.run (file :: files) =
      (r.forwarded file :: ((r.reload file).1.run files).1, ((r.reload file).1.run files).2) := rfl

/-- What is forwarded over a run is what changed. -/
theorem forwarded_run (r : Reloader) (files : List FileContent) :
    (r.run files).1.reduceOption = changes r.applied (loaded files) := by
  induction files generalizing r with
  | nil => rfl
  | cons file rest ih =>
    have hrest := ih (r.reload file).1
    rw [applied_reload] at hrest
    rw [run_cons, applied_reload, loaded_cons, forwarded_eq]
    cases hload : (Settings.load file).toOption with
    | none =>
      rw [hload] at hrest
      exact hrest
    | some new =>
      rw [hload] at hrest
      show (Option.filter _ (some new) :: _).reduceOption = changes r.applied (new :: loaded rest)
      rw [changes_cons]
      by_cases hsame : new = r.applied
      · rw [if_pos hsame, Option.filter_some_neg (by simp [hsame]), List.reduceOption_cons_of_none]
        exact hrest
      · rw [if_neg hsame, Option.filter_some_pos (by simp [hsame]), List.reduceOption_cons_of_some]
        exact congrArg (new :: ·) hrest

/-- After a run the reloader has what loaded last. -/
theorem applied_run (r : Reloader) (files : List FileContent) :
    (r.run files).2.applied = (loaded files).getLast?.getD r.applied := by
  induction files generalizing r with
  | nil => rfl
  | cons file rest ih =>
    rw [run_cons, loaded_cons, ih, applied_reload]
    cases (Settings.load file).toOption with
    | none => rfl
    | some new =>
      rw [Option.toList_some, List.singleton_append, List.getLast?_cons]
      rfl

theorem valid_of_mem_loaded {files : List FileContent} {settings : Settings}
    (hmem : settings ∈ loaded files) : settings.Valid := by
  obtain ⟨file, _, hload⟩ := List.mem_filterMap.mp hmem
  cases hresult : Settings.load file with
  | error e =>
    rw [hresult] at hload
    cases hload
  | ok found =>
    rw [hresult] at hload
    obtain rfl : found = settings := Option.some.inj hload
    exact Settings.valid_of_load hresult

/-- **The reloader forwards what really changed.** Whatever it begins with
and whatever the file holds at each change: what it forwards are the valid
configurations that load, less each that is equal to the one before. It
has the one that loaded last. A file that does not load changes nothing,
and being told of a change once more forwards nothing. No section is named
as changed just for equal configurations, one that is named differs, and
with the named ones replaced the old configuration is the new one. -/
theorem forwards_changes (r : Reloader) (files : List FileContent) :
    let after := (r.run files).2
    (r.run files).1.reduceOption = changes r.applied (loaded files) ∧
      (∀ settings ∈ loaded files, settings.Valid) ∧
      after.applied = (loaded files).getLast?.getD r.applied ∧
      (∀ file e, Settings.load file = .error e → after.reload file = (after, .error e)) ∧
      (∀ file, (after.reload file).1.forwarded file = none ∧
        ((after.reload file).1.reload file).1 = (after.reload file).1) ∧
      ∀ old new : Settings, (old.changedSections new = [] ↔ old = new) ∧
        (∀ changed, changed ∈ old.changedSections new ↔ old.withSection new changed ≠ old) ∧
        old.withSections new (old.changedSections new) = new := by
  intro after
  refine ⟨forwarded_run r files, fun _ => valid_of_mem_loaded, applied_run r files,
    fun file e hload => ?_, fun file => ?_, fun old new =>
      ⟨Settings.changedSections_eq_nil, old.mem_changedSections new, old.replace_changed new⟩⟩
  · rw [reload, hload]
  · rw [forwarded_eq, applied_reload, applied_reload]
    cases (Settings.load file).toOption with
    | none => exact ⟨rfl, rfl⟩
    | some new => exact ⟨Option.filter_some_neg (by simp), rfl⟩

/-- A port that is changed, told of twice, broken, and changed back. -/
example :
    let content (text : String) : FileContent := .bytes text.toUTF8.toList
    (Reloader.run ⟨{}⟩ [content "[server]\nport = 1\n", content "[server]\nport = 1\n",
      content "[server", content ""]).1 =
        [some { server := { port := 1 } }, none, none, some {}] := by
  decide +kernel

end Reloader

end MuxControl
