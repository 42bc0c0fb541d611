/-
MuxControl.Proofs.PartialSettings — a configuration that is written in
part is laid over the defaults.

A text is partial (`IsPartial`) if what it has under the name of a section
is a table, and what it has there under the key of a field is a value of
the field; it may have anything else anywhere. The two levels of such a
text are tables of the same kind, read in the same way: `readRecord_node`
is applied to a section, and then to the sections of the whole text. So
the configuration is determined by the values that the fields are given
(`assigned?`), and neither their order nor the other keys matter.

`partial_overlays_defaults` adds the checks: the configuration is returned
if it is valid, and else all of its violations are reported, in their
order.
-/
import MuxControl.Proofs.SettingsFields
import MuxControl.Proofs.TableKeys

namespace MuxControl

/-! ## Tables of a text as records -/

namespace Datum

theorem ofTomlMembers_eq_map (members : List (String × Toml.Node)) :
    ofTomlMembers members = members.map fun (key, node) => (key, ofToml node) := by
  induction members with
  | nil => rfl
  | cons entry rest ih =>
    obtain ⟨key, node⟩ := entry
    rw [ofTomlMembers, ih]
    rfl

theorem get?_ofTomlMembers (key : String) (members : List (String × Toml.Node)) :
    Keyed.get? key (ofTomlMembers members) = (Keyed.get? key members).map ofToml := by
  induction members with
  | nil => rfl
  | cons entry rest ih =>
    obtain ⟨k, node⟩ := entry
    simp only [ofTomlMembers, Keyed.get?]
    split
    · rfl
    · exact ih

end Datum

namespace Toml.Node

variable {node child : Node} {members : List (String × Node)} {key : String}

/-- The members of a node, if it is a table, inline or not. -/
def members? : Node → Option (List (String × Node))
  | .table _ members => some members
  | .inline members => some members
  | _ => none

/-- The member of a table under a key. -/
def member? (key : String) (node : Node) : Option Node := node.members?.bind (Keyed.get? key)

/-- What a table has under a key, before its shape is known. -/
def datum? (node : Node) (key : String) : Option Datum := (node.member? key).map .ofToml

theorem ofToml_of_members? (hmembers : node.members? = some members) :
    Datum.ofToml node = .table (Datum.ofTomlMembers members) := by
  cases node <;> cases hmembers <;> rfl

theorem Distinct.of_members? (hnode : node.Distinct) (hmembers : node.members? = some members) :
    DistinctMembers members := by
  cases node with
  | table origin entries =>
    cases hmembers
    exact distinct_table_iff.mp hnode
  | inline entries =>
    cases hmembers
    exact distinct_inline_iff.mp hnode
  | _ => cases hmembers

theorem Distinct.member? (hnode : node.Distinct) (hchild : node.member? key = some child) :
    child.Distinct := by
  obtain ⟨members, hmembers, hget⟩ := Option.bind_eq_some_iff.mp hchild
  exact (hnode.of_members? hmembers).of_get? hget

end Toml.Node

open Toml (Node)

/-- A table of a text is read into a record if what it has under the keys of
the fields can be read. -/
theorem Datum.RecordLayout.readRecord_node {α : Type} (layout : RecordLayout α) {node : Node}
    (hnode : node.Distinct) (htable : node.members?.isSome = true)
    (hread : layout.CanRead node.datum?) (expected : String) (defaults : α) :
    ∃ record, readRecord expected layout.fields defaults (.ofToml node) = .ok record ∧
      layout.Overlays node.datum? defaults record := by
  obtain ⟨members, hmembers⟩ := Option.isSome_iff_exists.mp htable
  have hdatum : node.datum? = (Keyed.get? · (ofTomlMembers members)) := by
    funext key
    rw [get?_ofTomlMembers, Node.datum?, Node.member?, hmembers]
    rfl
  have hkeys : (Keyed.keys (ofTomlMembers members)).Nodup := by
    rw [ofTomlMembers_eq_map, Keyed.keys_map]
    exact (hnode.of_members? hmembers).keys
  rw [hdatum] at hread ⊢
  rw [Node.ofToml_of_members? hmembers]
  exact layout.readRecord_table hkeys hread expected defaults

/-! ## Partial texts -/

/-- What a field holds in a configuration. -/
def Field.value {n : Section} (field : Field n) (s : Settings) : field.kind.Value :=
  field.get (s.part n)

/-- What a text has under the key of a field, in the table of its section. -/
def Field.node? {n : Section} (field : Field n) (root : Node) : Option Node :=
  (root.member? n.name).bind (·.member? field.key)

/-- The value that a text gives to a field, if it gives it one. -/
def Field.assigned? {n : Section} (field : Field n) (root : Node) : Option field.kind.Value :=
  (field.node? root).bind field.kind.value?

/-- Under the name of a section stands a table, if anything, and in it,
under the key of a field, a value of the field. -/
structure Toml.Node.IsPartial (root : Node) : Prop where
  tables : ∀ n : Section, ∀ table ∈ root.member? n.name, table.members?.isSome = true
  values : ∀ (n : Section) (field : Field n), ∀ node ∈ field.node? root,
    (field.kind.value? node).isSome = true

instance (root : Node) : Decidable root.IsPartial :=
  decidable_of_iff
    (∀ n ∈ Section.all, (∀ table ∈ root.member? n.name, table.members?.isSome = true) ∧
      ∀ field ∈ Field.all n, ∀ node ∈ field.node? root, (field.kind.value? node).isSome = true)
    ⟨fun h => ⟨fun n => (h n (Settings.layout.mem_indices n)).1,
        fun n field => (h n (Settings.layout.mem_indices n)).2 field (n.layout.mem_indices field)⟩,
      fun h n _ => ⟨h.tables n, fun field _ => h.values n field⟩⟩

namespace Section

variable {n : Section} {node : Node}

/-- The table of a section, over the defaults of the section. -/
theorem read_node (hnode : node.Distinct) (htable : node.members?.isSome = true)
    (hvalues : ∀ field : Field n, ∀ child ∈ node.member? field.key,
      (field.kind.value? child).isSome = true) :
    ∃ record, n.read (.ofToml node) = .ok record ∧
      ∀ field : Field n, field.get record =
        ((node.member? field.key).bind field.kind.value?).getD (field.value {}) := by
  have hreads : ∀ field : Field n, ∀ child ∈ node.member? field.key, ∃ value,
      field.kind.value? child = some value ∧ field.kind.read (.ofToml child) = .ok value := by
    intro field child hchild
    obtain ⟨value, hvalue⟩ := Option.isSome_iff_exists.mp (hvalues field child hchild)
    exact ⟨value, hvalue, FieldKind.read_of_value? hvalue⟩
  have hread : n.layout.CanRead node.datum? := by
    intro field datum hdatum
    obtain ⟨child, hchild, rfl⟩ := Option.map_eq_some_iff.mp hdatum
    exact (hreads field child hchild).imp fun _ h => h.2
  obtain ⟨expected, hexpected⟩ := Settings.section_read_eq n
  obtain ⟨record, hrecord, hfields⟩ :=
    n.layout.readRecord_node hnode htable hread expected (Settings.part n {})
  refine ⟨record, hexpected ▸ hrecord, fun field => ?_⟩
  cases hchild : node.member? field.key with
  | none => exact (hfields field).1 (Option.map_eq_none_iff.mpr hchild)
  | some child =>
    obtain ⟨value, hvalue, hdecoded⟩ := hreads field child hchild
    rw [Option.bind_some, hvalue]
    exact (hfields field).2 _ value (Option.map_eq_some_iff.mpr ⟨child, hchild, rfl⟩) hdecoded

end Section

namespace Settings

/-- A partial text, over the defaults. -/
theorem read_node {root : Node} (hroot : root.Tabular) (hpartial : root.IsPartial) :
    ∃ s, read (.ofToml root) = .ok s ∧
      ∀ (n : Section) (field : Field n),
        field.value s = (field.assigned? root).getD (field.value {}) := by
  have htable : root.members?.isSome = true := by
    obtain ⟨origin, members, rfl, _⟩ := hroot.members
    rfl
  -- The record of a section that the text has a table for.
  have hpart : ∀ n : Section, ∀ node ∈ root.member? n.name, ∃ record,
      n.read (.ofToml node) = .ok record ∧ ∀ field : Field n, field.get record =
        ((node.member? field.key).bind field.kind.value?).getD (field.value {}) := by
    intro n node hnode
    refine Section.read_node (hroot.distinct.member? hnode) (hpartial.tables n node hnode) ?_
    intro field child hchild
    refine hpartial.values n field child ?_
    rw [Field.node?, Option.mem_def.mp hnode]
    exact hchild
  have hread : layout.CanRead root.datum? := by
    intro n datum hdatum
    obtain ⟨node, hnode, rfl⟩ := Option.map_eq_some_iff.mp hdatum
    exact (hpart n node hnode).imp fun _ h => h.1
  obtain ⟨s, hs, hparts⟩ :=
    layout.readRecord_node hroot.distinct htable hread "struct MgmtConfig" {}
  refine ⟨s, read_eq ▸ hs, fun n field => ?_⟩
  rw [Field.assigned?, Field.node?]
  cases hnode : root.member? n.name with
  | none => exact congrArg field.get ((hparts n).1 (Option.map_eq_none_iff.mpr hnode))
  | some node =>
    obtain ⟨record, hrecord, hfields⟩ := hpart n node hnode
    have hsame : s.part n = record :=
      (hparts n).2 _ record (Option.map_eq_some_iff.mpr ⟨node, hnode, rfl⟩) hrecord
    rw [Field.value, hsame]
    exact hfields field

/-! ## Violations -/

/-- What is wrong with a configuration, violation by violation. -/
def Violates (s : Settings) : Violation → Prop
  | .lineLimitTooSmall limit => s.server.lineLimit < 2 ∧ limit = s.server.lineLimit
  | .emptyServiceName => Text.isBlankText s.server.serviceName = true
  | .zeroNoDataTimeout => s.inputs.noDataTimeout = 0
  | .zeroUnstableThreshold => s.inputs.unstable = 0
  | .silenceLevelOutOfRange level =>
    (s.inputs.silenceLevel < -90 ∨ 0 < s.inputs.silenceLevel) ∧ level = s.inputs.silenceLevel
  | .unknownLogLevel level =>
    s.observability.logLevel.map Char.toLower ∉ logLevels ∧ level = s.observability.logLevel
  | .invalidMetricsAddress address =>
    (s.observability.metricsEnabled = true ∧
      Endpoint.isValid s.observability.metricsAddress = false) ∧
    address = s.observability.metricsAddress

/-- The kinds of violations, in the order of the checks. -/
def checks : List String :=
  ["LineLimitTooSmall", "EmptyServiceName", "ZeroNoDataTimeout", "ZeroUnstableThreshold",
    "SilenceLevelOutOfRange", "UnknownLogLevel", "InvalidMetricsAddress"]

theorem mem_require {holds : Bool} {violation other : Violation} :
    other ∈ require holds violation ↔ other = violation ∧ holds = false := by
  cases holds <;> simp [require]

/-- Exactly what is wrong is found. -/
theorem mem_violations_iff (s : Settings) (violation : Violation) :
    violation ∈ s.violations ↔ s.Violates violation := by
  cases violation with
  | silenceLevelOutOfRange level =>
    have hrange : (-90 ≤ s.inputs.silenceLevel → 0 < s.inputs.silenceLevel) ↔
        s.inputs.silenceLevel < -90 ∨ 0 < s.inputs.silenceLevel := by omega
    simp [violations, mem_require, Violates, hrange, and_comm]
  | _ => simp [violations, mem_require, Violates, and_comm]

theorem names_require (holds : Bool) (violation : Violation) :
    ((require holds violation).map Violation.name).Sublist [violation.name] := by
  cases holds <;> simp [require]

/-- What is found stands in the order of the checks. -/
theorem names_violations (s : Settings) :
    (s.violations.map Violation.name).Sublist checks := by
  simp only [violations, List.map_append]
  exact ((((((names_require _ _).append (names_require _ _)).append (names_require _ _)).append
    (names_require _ _)).append (names_require _ _)).append (names_require _ _)).append
    (names_require _ _)

theorem nodup_violations (s : Settings) : s.violations.Nodup := by
  have hchecks : checks.Nodup := by decide
  have hnames : (s.violations.map Violation.name).Nodup := hchecks.sublist (names_violations s)
  exact List.Pairwise.of_map Violation.name (fun _ _ hne heq => hne (congrArg _ heq)) hnames

/-! ## Overlays -/

/-- What a partial text is parsed into: the values it gives to the fields,
over the defaults, once they are checked. -/
theorem parse_of_partial {text : String} {root : Node} (htext : Toml.parse? text = some root)
    (hpartial : root.IsPartial) :
    ∃ s, parse text = s.checked ∧ ∀ (n : Section) (field : Field n),
      field.value s = (field.assigned? root).getD (field.value {}) := by
  obtain ⟨s, hs, hfields⟩ := read_node (Toml.tabular_of_parse? htext) hpartial
  refine ⟨s, ?_, hfields⟩
  rw [parse, ofText, htext]
  dsimp only
  rw [hs]
  rfl

/-- **A configuration that is written in part is laid over the defaults.**
From a partial text comes the configuration whose fields have the values
that the text gives them, and the defaults where it gives none. It is
returned if it is valid. If not, the answer is the list of what is wrong
with it, all of it, each once, in the order of the checks. Another partial
text that gives the same values to the same fields is answered alike,
whatever else it has and in whatever order. What is returned for a text is
valid. -/
theorem partial_overlays_defaults {text : String} {root : Node}
    (htext : Toml.parse? text = some root) (hpartial : root.IsPartial) :
    ∃ s : Settings,
      (∀ (n : Section) (field : Field n),
        field.value s = (field.assigned? root).getD (field.value {})) ∧
      parse text = (if s.Valid then .ok s else .error (.invalid s.violations)) ∧
      (∀ violation, violation ∈ s.violations ↔ s.Violates violation) ∧
      s.violations.Nodup ∧ (s.violations.map Violation.name).Sublist checks ∧
      (∀ text' root', Toml.parse? text' = some root' → root'.IsPartial →
        (∀ (n : Section) (field : Field n), field.assigned? root' = field.assigned? root) →
        parse text' = parse text) ∧
      ∀ text' s', parse text' = .ok s' → s'.Valid := by
  obtain ⟨s, hs, hfields⟩ := parse_of_partial htext hpartial
  refine ⟨s, hfields, hs.trans s.checked_eq, mem_violations_iff s, nodup_violations s,
    names_violations s, ?_, fun text' s' => valid_of_parse⟩
  intro text' root' htext' hpartial' hsame
  obtain ⟨s', hs', hfields'⟩ := parse_of_partial htext' hpartial'
  have heq : s' = s := by
    refine ext_fields fun n field => ?_
    rw [← Field.value, ← Field.value, hfields', hfields, hsame]
  rw [hs', hs, heq]

/-- Fields of all sections, with tables, keys and values that belong to
none of them; two of the checks fail. -/
theorem partial_overlays_defaults_two_violations :
    let text := "since = 1979-05-27\ninputs.unstable_threshold = 0\n[observability]\n" ++
      "metrics_address = \"nowhere\"\nextra = [1, \x7b a = 2 \x7d]\nmetrics_enabled = true\n" ++
      "[server.sub]\nport = 1\n[server]\nport = 0x3039\n"
    let written : Settings :=
      { server := { port := 12345 }
        inputs := { unstable := 0 }
        observability := { metricsEnabled := true, metricsAddress := "nowhere" } }
    ∃ root, Toml.parse? text = some root ∧ root.IsPartial ∧
      (∀ (n : Section) (field : Field n),
        field.value written = (field.assigned? root).getD (field.value {})) ∧
      parse text =
        .error (.invalid [.zeroUnstableThreshold, .invalidMetricsAddress "nowhere"]) := by
  intro text written
  have hread : ∃ root ∈ Toml.parse? text, root.IsPartial ∧
      ∀ n ∈ Section.all, ∀ field ∈ Field.all n,
        field.value written = (field.assigned? root).getD (field.value {}) := by decide +kernel
  obtain ⟨root, hroot, hpartial, hfields⟩ := hread
  have hwritten : ∀ (n : Section) (field : Field n),
      field.value written = (field.assigned? root).getD (field.value {}) := fun n field =>
    hfields n (layout.mem_indices n) field (n.layout.mem_indices field)
  obtain ⟨s, hvalues, hanswer, _⟩ := partial_overlays_defaults hroot hpartial
  obtain rfl : s = written := ext_fields fun n field =>
    (hvalues n field).trans (hwritten n field).symm
  have hinvalid : ¬ written.Valid := by decide +kernel
  have hviolations : written.violations =
      [.zeroUnstableThreshold, .invalidMetricsAddress "nowhere"] := by decide +kernel
  rw [if_neg hinvalid, hviolations] at hanswer
  exact ⟨root, hroot, hpartial, hwritten, hanswer⟩

end Settings

end MuxControl
