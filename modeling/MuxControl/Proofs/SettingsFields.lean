/-
MuxControl.Proofs.SettingsFields — what reading a table does to the fields
of a record.

A record is laid out in fields that are named apart and set independently
of each other (`RecordLayout`). A table in which no key stands twice is
read into it whenever each of its members that belongs to a field can be
read for that field; then the field has the value that was read, and a
field without a member keeps its default (`RecordLayout.readRecord_table`).

The configuration is such a record twice over: it is laid out in its
sections (`Settings.layout`), and each section in its fields
(`Section.layout`).
-/
import MuxControl.Config.Reload

namespace MuxControl

/-! ## Records laid out in fields -/

namespace Datum

/-- How a record is laid out: its fields, what each of them holds, under
which key, and how it is read, looked at and set. -/
structure RecordLayout (α : Type) where
  Index : Type
  Value : Index → Type
  key : Index → String
  read : (i : Index) → Datum → Except ShapeError (Value i)
  get : (i : Index) → α → Value i
  set : (i : Index) → α → Value i → α
  indices : List Index
  mem_indices : ∀ i, i ∈ indices
  key_inj : ∀ {i j}, key i = key j → i = j
  get_set : ∀ i record value, get i (set i record value) = value
  get_set_of_ne : ∀ {i j}, j ≠ i → ∀ record value, get j (set i record value) = get j record

variable {α : Type} {members : List (String × Datum)}

section Members

variable {expected key : String} {fields : List (RecordField α)} {field : RecordField α}
  {record record' : α} {datum : Datum}

theorem readRecord_cons_of_field (hfind : fields.find? (·.name == key) = some field)
    (hread : field.read datum record = .ok record') :
    readRecord expected fields record (.table ((key, datum) :: members)) =
      readRecord expected fields record' (.table members) := by
  simp only [readRecord, List.foldlM_cons, hfind, hread]
  rfl

theorem readRecord_cons_of_none (hfind : fields.find? (·.name == key) = none) :
    readRecord expected fields record (.table ((key, datum) :: members)) =
      readRecord expected fields record (.table members) := by
  simp only [readRecord, List.foldlM_cons, hfind]
  rfl

end Members

namespace RecordLayout

variable (layout : RecordLayout α)

/-- A field, as it is read. -/
def field (i : layout.Index) : RecordField α :=
  ⟨layout.key i, fun datum record => do return layout.set i record (← layout.read i datum)⟩

/-- The fields, in their order. -/
def fields : List (RecordField α) := layout.indices.map layout.field

/-- A field is found by its key. -/
theorem find?_fields (i : layout.Index) :
    layout.fields.find? (·.name == layout.key i) = some (layout.field i) := by
  have hsome : (layout.indices.find? fun j => layout.key j == layout.key i).isSome = true :=
    List.find?_isSome.mpr ⟨i, layout.mem_indices i, by simp⟩
  obtain ⟨j, hj⟩ := Option.isSome_iff_exists.mp hsome
  have heq : j = i := layout.key_inj (by simpa using List.find?_some hj)
  rw [fields, List.find?_map]
  exact congrArg (Option.map layout.field) (heq ▸ hj)

/-- Where there is no field, none is found. -/
theorem find?_fields_of_ne {key : String} (hkey : ∀ i, layout.key i ≠ key) :
    layout.fields.find? (·.name == key) = none := by
  rw [fields, List.find?_map, Option.map_eq_none_iff, List.find?_eq_none]
  intro i _ heq
  exact hkey i (by simpa [field] using heq)

/-- What is found under the keys of the fields can be read for them. -/
def CanRead (found? : String → Option Datum) : Prop :=
  ∀ i, ∀ datum ∈ found? (layout.key i), ∃ value, layout.read i datum = .ok value

/-- A record laid over another one: a field has the value that is read from
what is found under its key, or what it had if nothing is found. -/
def Overlays (found? : String → Option Datum) (before after : α) : Prop :=
  ∀ i, (found? (layout.key i) = none → layout.get i after = layout.get i before) ∧
    ∀ datum value, found? (layout.key i) = some datum → layout.read i datum = .ok value →
      layout.get i after = value

variable {layout} {key : String} {i : layout.Index} {datum : Datum} {before after : α}

theorem get?_cons_of_ne (hne : layout.key i ≠ key) :
    Keyed.get? (layout.key i) ((key, datum) :: members) = Keyed.get? (layout.key i) members :=
  if_neg hne

/-- The member of a field, laid over before the members behind it. -/
theorem Overlays.cons_field {value : layout.Value i}
    (hnone : Keyed.get? (layout.key i) members = none) (hvalue : layout.read i datum = .ok value)
    (h : layout.Overlays (Keyed.get? · members) (layout.set i before value) after) :
    layout.Overlays (Keyed.get? · ((layout.key i, datum) :: members)) before after := by
  intro j
  by_cases heq : j = i
  · subst heq
    have hset : layout.get j after = value :=
      ((h j).1 hnone).trans (layout.get_set j before value)
    refine ⟨fun hno => by simp [Keyed.get?] at hno, fun found other hfound hother => ?_⟩
    obtain rfl : datum = found := by simpa [Keyed.get?] using hfound
    cases hvalue.symm.trans hother
    exact hset
  · have hne : layout.key j ≠ layout.key i := fun hkey => heq (layout.key_inj hkey)
    dsimp only
    rw [get?_cons_of_ne hne, ← layout.get_set_of_ne heq before value]
    exact h j

/-- A member that belongs to no field changes nothing. -/
theorem Overlays.cons_other (hne : ∀ i, layout.key i ≠ key)
    (h : layout.Overlays (Keyed.get? · members) before after) :
    layout.Overlays (Keyed.get? · ((key, datum) :: members)) before after := by
  intro i
  dsimp only
  rw [get?_cons_of_ne (hne i)]
  exact h i

/-- What stands behind a member can be read if the whole can. -/
theorem CanRead.tail (h : layout.CanRead (Keyed.get? · ((key, datum) :: members)))
    (hnone : Keyed.get? key members = none) : layout.CanRead (Keyed.get? · members) := by
  intro i found hfound
  have hne : layout.key i ≠ key := by
    rintro rfl
    cases hnone.symm.trans hfound
  exact h i found ((get?_cons_of_ne hne).trans hfound)

variable (layout)

/-- **What a table does to the fields of a record.** It can be read when
every member that belongs to a field can; then the field has the value of
its member, or its default if it has no member. -/
theorem readRecord_table (hkeys : (Keyed.keys members).Nodup)
    (hread : layout.CanRead (Keyed.get? · members)) (expected : String) (defaults : α) :
    ∃ record, readRecord expected layout.fields defaults (.table members) = .ok record ∧
      layout.Overlays (Keyed.get? · members) defaults record := by
  induction members generalizing defaults with
  | nil => exact ⟨defaults, rfl, fun i => ⟨fun _ => rfl, fun datum value h => by cases h⟩⟩
  | cons entry rest ih =>
    obtain ⟨key, datum⟩ := entry
    obtain ⟨hnew, hrest⟩ := List.nodup_cons.mp hkeys
    have hnone : Keyed.get? key rest = none := Keyed.get?_eq_none_iff.mpr hnew
    by_cases hfield : ∃ i, layout.key i = key
    · obtain ⟨i, rfl⟩ := hfield
      obtain ⟨value, hvalue⟩ := hread i datum (if_pos rfl)
      have hstep : (layout.field i).read datum defaults = .ok (layout.set i defaults value) := by
        simp only [field, hvalue]
        rfl
      obtain ⟨record, hrecord, hover⟩ := ih hrest (hread.tail hnone) (layout.set i defaults value)
      exact ⟨record, (readRecord_cons_of_field (layout.find?_fields i) hstep).trans hrecord,
        hover.cons_field hnone hvalue⟩
    · have hne : ∀ i, layout.key i ≠ key := fun i heq => hfield ⟨i, heq⟩
      obtain ⟨record, hrecord, hover⟩ := ih hrest (hread.tail hnone) defaults
      exact ⟨record, (readRecord_cons_of_none (layout.find?_fields_of_ne hne)).trans hrecord,
        hover.cons_other hne⟩

end RecordLayout

end Datum

/-! ## The fields of a section -/

/-- What a field holds. -/
inductive FieldKind where
  | natural (range : Datum.IntKind)
  | integer (range : Datum.IntKind)
  | text
  | flag

namespace FieldKind

/-- The values of a kind. -/
abbrev Value : FieldKind → Type
  | .natural _ => Nat
  | .integer _ => Int
  | .text => String
  | .flag => Bool

instance : (kind : FieldKind) → DecidableEq kind.Value
  | .natural _ => inferInstanceAs (DecidableEq Nat)
  | .integer _ => inferInstanceAs (DecidableEq Int)
  | .text => inferInstanceAs (DecidableEq String)
  | .flag => inferInstanceAs (DecidableEq Bool)

/-- Read a value of a kind. -/
def read : (kind : FieldKind) → Datum → Except ShapeError kind.Value
  | .natural range => Datum.readNat range
  | .integer range => Datum.readInt range
  | .text => Datum.readString
  | .flag => Datum.readBool

/-- The value of a kind that a node of a TOML text is, if it is one. -/
def value? : (kind : FieldKind) → Toml.Node → Option kind.Value
  | .natural range, .scalar (.integer i) =>
    if range.least ≤ i ∧ i ≤ range.greatest then some i.toNat else none
  | .integer range, .scalar (.integer i) =>
    if range.least ≤ i ∧ i ≤ range.greatest then some i else none
  | .text, .scalar (.string s) => some s
  | .flag, .scalar (.boolean b) => some b
  | _, _ => none

theorem read_of_value? {kind : FieldKind} {node : Toml.Node} {value : kind.Value}
    (h : kind.value? node = some value) : kind.read (.ofToml node) = .ok value := by
  cases node with
  | scalar x =>
    cases kind with
    | natural range =>
      cases x with
      | integer i =>
        obtain ⟨hrange, hvalue⟩ := Option.ite_none_right_eq_some.mp h
        cases hvalue
        simp [read, Datum.ofToml, Datum.ofScalar, Datum.readNat, Datum.readInt, hrange, Except.map]
      | _ => cases h
    | integer range =>
      cases x with
      | integer i =>
        obtain ⟨hrange, hvalue⟩ := Option.ite_none_right_eq_some.mp h
        cases hvalue
        simp [read, Datum.ofToml, Datum.ofScalar, Datum.readInt, hrange]
      | _ => cases h
    | text =>
      cases x with
      | string s =>
        cases h
        rfl
      | _ => cases h
    | flag =>
      cases x with
      | boolean b =>
        cases h
        rfl
      | _ => cases h
  | _ => cases kind <;> cases h

end FieldKind

/-- The record of a section. -/
abbrev Section.Record : Section → Type
  | .server => ServerSettings
  | .inputs => Thresholds
  | .observability => ObservabilitySettings

/-- The fields of a section. -/
inductive Field : Section → Type where
  | port : Field .server
  | serviceName : Field .server
  | serviceVersion : Field .server
  | readTimeout : Field .server
  | documentTimeout : Field .server
  | lineLimit : Field .server
  | counterReset : Field .inputs
  | noDataTimeout : Field .inputs
  | unstable : Field .inputs
  | silenceCount : Field .inputs
  | silenceLevel : Field .inputs
  | logLevel : Field .observability
  | metricsEnabled : Field .observability
  | metricsAddress : Field .observability
deriving DecidableEq

namespace Field

/-- The fields of a section, in their order. -/
def all : (n : Section) → List (Field n)
  | .server => [.port, .serviceName, .serviceVersion, .readTimeout, .documentTimeout, .lineLimit]
  | .inputs => [.counterReset, .noDataTimeout, .unstable, .silenceCount, .silenceLevel]
  | .observability => [.logLevel, .metricsEnabled, .metricsAddress]

variable {n : Section}

/-- The key of a field. -/
def key : Field n → String
  | .port => "port"
  | .serviceName => "service_name"
  | .serviceVersion => "service_version"
  | .readTimeout => "read_timeout_secs"
  | .documentTimeout => "getptree_timeout_secs"
  | .lineLimit => "max_line_bytes"
  | .counterReset => "counter_reset_secs"
  | .noDataTimeout => "nodata_timeout_secs"
  | .unstable => "unstable_threshold"
  | .silenceCount => "silence_count"
  | .silenceLevel => "silence_level_db"
  | .logLevel => "log_level"
  | .metricsEnabled => "metrics_enabled"
  | .metricsAddress => "metrics_address"

/-- What a field holds. -/
def kind : Field n → FieldKind
  | .port => .natural Datum.unsigned16
  | .serviceName => .text
  | .serviceVersion => .text
  | .readTimeout => .natural Datum.unsigned64
  | .documentTimeout => .natural Datum.unsigned64
  | .lineLimit => .natural Datum.size
  | .counterReset => .natural Datum.unsigned64
  | .noDataTimeout => .natural Datum.unsigned64
  | .unstable => .natural Datum.unsigned32
  | .silenceCount => .natural Datum.unsigned32
  | .silenceLevel => .integer Datum.signed32
  | .logLevel => .text
  | .metricsEnabled => .flag
  | .metricsAddress => .text

/-- What a field holds in a record. -/
def get : {n : Section} → (field : Field n) → n.Record → field.kind.Value
  | _, .port, s => s.port
  | _, .serviceName, s => s.serviceName
  | _, .serviceVersion, s => s.serviceVersion
  | _, .readTimeout, s => s.readTimeout
  | _, .documentTimeout, s => s.documentTimeout
  | _, .lineLimit, s => s.lineLimit
  | _, .counterReset, t => t.counterReset
  | _, .noDataTimeout, t => t.noDataTimeout
  | _, .unstable, t => t.unstable
  | _, .silenceCount, t => t.silenceCount
  | _, .silenceLevel, t => t.silenceLevel
  | _, .logLevel, s => s.logLevel
  | _, .metricsEnabled, s => s.metricsEnabled
  | _, .metricsAddress, s => s.metricsAddress

/-- A record with another value in a field. -/
def set : {n : Section} → (field : Field n) → n.Record → field.kind.Value → n.Record
  | _, .port, s, value => { s with port := value }
  | _, .serviceName, s, value => { s with serviceName := value }
  | _, .serviceVersion, s, value => { s with serviceVersion := value }
  | _, .readTimeout, s, value => { s with readTimeout := value }
  | _, .documentTimeout, s, value => { s with documentTimeout := value }
  | _, .lineLimit, s, value => { s with lineLimit := value }
  | _, .counterReset, t, value => { t with counterReset := value }
  | _, .noDataTimeout, t, value => { t with noDataTimeout := value }
  | _, .unstable, t, value => { t with unstable := value }
  | _, .silenceCount, t, value => { t with silenceCount := value }
  | _, .silenceLevel, t, value => { t with silenceLevel := value }
  | _, .logLevel, s, value => { s with logLevel := value }
  | _, .metricsEnabled, s, value => { s with metricsEnabled := value }
  | _, .metricsAddress, s, value => { s with metricsAddress := value }

end Field

namespace Section

/-- How the record of a section is laid out. -/
def layout (n : Section) : Datum.RecordLayout n.Record where
  Index := Field n
  Value field := field.kind.Value
  key := Field.key
  read field := field.kind.read
  get := Field.get
  set := Field.set
  indices := Field.all n
  mem_indices field := by cases field <;> decide
  key_inj {i j} h := by cases i <;> cases j <;> first | rfl | simp [Field.key] at h
  get_set field record value := by cases field <;> rfl
  get_set_of_ne {i j} hne record value := by
    cases i <;> cases j <;> first | rfl | exact absurd rfl hne

/-- The record of a section is known by its fields. -/
theorem ext_fields (n : Section) {record record' : n.Record}
    (h : ∀ field : Field n, field.get record = field.get record') : record = record' := by
  cases n with
  | server =>
    exact ServerSettings.mk.injEq .. ▸ ⟨h .port, h .serviceName, h .serviceVersion,
      h .readTimeout, h .documentTimeout, h .lineLimit⟩
  | inputs =>
    exact Thresholds.mk.injEq .. ▸ ⟨h .counterReset, h .noDataTimeout, h .unstable,
      h .silenceCount, h .silenceLevel⟩
  | observability =>
    exact ObservabilitySettings.mk.injEq .. ▸ ⟨h .logLevel, h .metricsEnabled,
      h .metricsAddress⟩

/-- Read the record of a section over its defaults. -/
def read : (n : Section) → Datum → Except ShapeError n.Record
  | .server => ServerSettings.read
  | .inputs => Thresholds.read
  | .observability => ObservabilitySettings.read

/-- The sections, in their order. -/
def all : List Section := [.server, .inputs, .observability]

end Section

namespace Settings

/-- A section of a configuration. -/
def part : (n : Section) → Settings → n.Record
  | .server, s => s.server
  | .inputs, s => s.inputs
  | .observability, s => s.observability

/-- A configuration with another section. -/
def setPart : (n : Section) → Settings → n.Record → Settings
  | .server, s, part => { s with server := part }
  | .inputs, s, part => { s with inputs := part }
  | .observability, s, part => { s with observability := part }

/-- How a configuration is laid out. -/
def layout : Datum.RecordLayout Settings where
  Index := Section
  Value := Section.Record
  key := Section.name
  read := Section.read
  get := part
  set := setPart
  indices := Section.all
  mem_indices n := by cases n <;> decide
  key_inj {i j} h := by cases i <;> cases j <;> first | rfl | simp [Section.name] at h
  get_set n s part := by cases n <;> rfl
  get_set_of_ne {i j} hne s part := by
    cases i <;> cases j <;> first | rfl | exact absurd rfl hne

/-- A configuration is read as it is laid out, and so are its sections. -/
theorem read_eq : read = Datum.readRecord "struct MgmtConfig" layout.fields {} := rfl

theorem section_read_eq (n : Section) :
    ∃ expected, n.read = Datum.readRecord expected n.layout.fields (part n {}) := by
  cases n <;> exact ⟨_, rfl⟩

/-- A configuration is known by its fields. -/
theorem ext_fields {s s' : Settings}
    (h : ∀ (n : Section) (field : Field n), field.get (part n s) = field.get (part n s')) :
    s = s' := by
  obtain ⟨server, inputs, observability⟩ := s
  obtain ⟨server', inputs', observability'⟩ := s'
  have hserver : server = server' := Section.ext_fields .server (h .server)
  have hinputs : inputs = inputs' := Section.ext_fields .inputs (h .inputs)
  have hobservability : observability = observability' :=
    Section.ext_fields .observability (h .observability)
  rw [hserver, hinputs, hobservability]

end Settings

end MuxControl
