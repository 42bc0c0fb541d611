/-
MuxControl.Proofs.TableKeys — no table of a TOML text has a key twice.

A key is assigned once, a table is opened once, and a table that is opened
after it was passed through is taken out of its parent before it is put
back. All that a text does to the tree of its tables are changes at some
path (`Node.changeAt`), so it is enough that each of the changes keeps the
keys apart (`Keeps`), wherever it is made (`Keeps.changeAt`).

`tabular_of_parse?` is the result: a text denotes a table, and nowhere in it
does a key stand twice.
-/
import MuxControl.Toml.Reader

namespace MuxControl.Toml

/-! ## Trees without a repeated key -/

/-- No table of the tree has a key twice. -/
inductive Node.Distinct : Node → Prop where
  | scalar (value : Scalar) : Distinct (.scalar value)
  | array {items : List Node} : (∀ item ∈ items, Distinct item) → Distinct (.array items)
  | inline {members : List (String × Node)} : (Keyed.keys members).Nodup →
      (∀ entry ∈ members, Distinct entry.2) → Distinct (.inline members)
  | table {members : List (String × Node)} (origin : Origin) : (Keyed.keys members).Nodup →
      (∀ entry ∈ members, Distinct entry.2) → Distinct (.table origin members)
  | tables {items : List Node} : (∀ item ∈ items, Distinct item) → Distinct (.tables items)

/-- Members with no key twice, neither among them nor in what they hold. -/
structure DistinctMembers (members : List (String × Node)) : Prop where
  keys : (Keyed.keys members).Nodup
  nodes : ∀ entry ∈ members, entry.2.Distinct

namespace Node

/-- A table that a header or a dotted key made. -/
def isTable : Node → Bool
  | .table _ _ => true
  | _ => false

theorem isTable_iff {node : Node} :
    node.isTable = true ↔ ∃ origin members, node = .table origin members := by
  cases node <;> simp [isTable]

theorem distinct_table_iff {origin : Origin} {members : List (String × Node)} :
    (Node.table origin members).Distinct ↔ DistinctMembers members := by
  constructor
  · intro h
    cases h with
    | table _ hkeys hnodes => exact ⟨hkeys, hnodes⟩
  · rintro ⟨hkeys, hnodes⟩
    exact .table origin hkeys hnodes

theorem distinct_inline_iff {members : List (String × Node)} :
    (Node.inline members).Distinct ↔ DistinctMembers members := by
  constructor
  · intro h
    cases h with
    | inline hkeys hnodes => exact ⟨hkeys, hnodes⟩
  · rintro ⟨hkeys, hnodes⟩
    exact .inline hkeys hnodes

theorem distinct_tables_iff {items : List Node} :
    (Node.tables items).Distinct ↔ ∀ item ∈ items, item.Distinct := by
  constructor
  · intro h
    cases h with
    | tables hitems => exact hitems
  · exact .tables

theorem distinct_emptyTable (origin : Origin) : (emptyTable origin).Distinct :=
  distinct_table_iff.mpr ⟨by simp [Keyed.keys], by simp⟩

end Node

/-! ## Members of a table -/

theorem keys_place (key : String) (node : Node) (members : List (String × Node)) :
    Keyed.keys (place key node members) =
      if key ∈ Keyed.keys members then Keyed.keys members else Keyed.keys members ++ [key] := by
  induction members with
  | nil => simp [place, Keyed.keys]
  | cons entry rest ih =>
    obtain ⟨k, old⟩ := entry
    by_cases heq : k = key
    · simp [place, heq, Keyed.keys]
    · have hne : key ≠ k := fun h => heq h.symm
      rw [place, if_neg heq]
      show k :: Keyed.keys (place key node rest) =
        if key ∈ k :: Keyed.keys rest then k :: Keyed.keys rest else k :: Keyed.keys rest ++ [key]
      simp only [ih, List.mem_cons, hne, false_or]
      split <;> rfl

theorem mem_of_mem_place {key : String} {node : Node} {members : List (String × Node)}
    {entry : String × Node} (h : entry ∈ place key node members) :
    entry = (key, node) ∨ entry ∈ members := by
  induction members with
  | nil => exact .inl (List.mem_singleton.mp h)
  | cons first rest ih =>
    obtain ⟨k, old⟩ := first
    simp only [place] at h
    split at h
    · exact (List.mem_cons.mp h).imp_right (List.mem_cons_of_mem _)
    · rcases List.mem_cons.mp h with rfl | hrest
      · exact .inr List.mem_cons_self
      · exact (ih hrest).imp_right (List.mem_cons_of_mem _)

namespace DistinctMembers

variable {members : List (String × Node)} {key : String} {node : Node}

theorem nil : DistinctMembers [] := ⟨by simp [Keyed.keys], by simp⟩

theorem of_get? (h : DistinctMembers members) (hget : Keyed.get? key members = some node) :
    node.Distinct :=
  h.nodes _ (Keyed.mem_of_get? hget)

/-- A list of tables to which one is added, new if the key is not bound. -/
theorem distinct_listed (h : DistinctMembers members) (key : String) :
    ((Keyed.get? key members).getD (.tables [])).Distinct := by
  cases hget : Keyed.get? key members with
  | none => exact Node.distinct_tables_iff.mpr (by simp)
  | some node => exact h.of_get? hget

theorem place (h : DistinctMembers members) (hnode : node.Distinct) (key : String) :
    DistinctMembers (place key node members) where
  keys := by
    rw [keys_place]
    split
    · exact h.keys
    · next hnew => simpa [List.nodup_append] using ⟨h.keys, fun k hk => ne_of_mem_of_not_mem hk hnew⟩
  nodes entry hentry := by
    rcases mem_of_mem_place hentry with rfl | hmem
    · exact hnode
    · exact h.nodes entry hmem

/-- A new member at the end. -/
theorem add (h : DistinctMembers members) (hnode : node.Distinct)
    (hnew : Keyed.get? key members = none) : DistinctMembers (members ++ [(key, node)]) where
  keys := by
    have hkey : key ∉ Keyed.keys members := Keyed.get?_eq_none_iff.mp hnew
    have hkeys : Keyed.keys (members ++ [(key, node)]) = Keyed.keys members ++ [key] := by
      simp [Keyed.keys]
    rw [hkeys, List.nodup_append]
    exact ⟨h.keys, by simp, by simpa using fun k hk => ne_of_mem_of_not_mem hk hkey⟩
  nodes entry hentry := by
    rcases List.mem_append.mp hentry with hmem | hlast
    · exact h.nodes entry hmem
    · obtain rfl := List.mem_singleton.mp hlast
      exact hnode

theorem remove (h : DistinctMembers members) (key : String) :
    DistinctMembers (Keyed.remove key members) where
  keys := h.keys.sublist (List.Sublist.map Prod.fst List.filter_sublist)
  nodes entry hentry := h.nodes entry (List.mem_filter.mp hentry).1

end DistinctMembers

/-! ## Changes of a tree -/

/-- A table that has no key twice, and in which no other has. -/
structure Node.Tabular (node : Node) : Prop where
  table : node.isTable = true
  distinct : node.Distinct

theorem Node.Tabular.members {node : Node} (h : node.Tabular) :
    ∃ origin members, node = .table origin members ∧ DistinctMembers members := by
  obtain ⟨origin, members, rfl⟩ := Node.isTable_iff.mp h.table
  exact ⟨origin, members, rfl, Node.distinct_table_iff.mp h.distinct⟩

theorem Node.tabular_emptyTable (origin : Origin) : (emptyTable origin).Tabular :=
  ⟨rfl, distinct_emptyTable origin⟩

/-- A change that keeps the keys of a tree apart, and of a table makes a
table. -/
structure Keeps (change : Node → Option Node) : Prop where
  table : ∀ {node changed}, change node = some changed →
    node.isTable = true → changed.isTable = true
  distinct : ∀ {node changed}, change node = some changed → node.Distinct → changed.Distinct

namespace Keeps

variable {change : Node → Option Node}

/-- A change of tables alone is known by what it does to the members. -/
theorem of_members
    (hmembers : ∀ {node changed}, change node = some changed → ∃ origin members members',
      node = .table origin members ∧ changed = .table origin members' ∧
        (DistinctMembers members → DistinctMembers members')) : Keeps change where
  table h _ := by
    obtain ⟨origin, members, members', rfl, rfl, _⟩ := hmembers h
    rfl
  distinct h := by
    obtain ⟨origin, members, members', rfl, rfl, hkeep⟩ := hmembers h
    rw [Node.distinct_table_iff, Node.distinct_table_iff]
    exact hkeep

/-- A change keeps the keys apart at every path. -/
theorem changeAt (hchange : Keeps change) (dotted : Bool) (path : List String) :
    Keeps (Node.changeAt dotted change path) := by
  induction path with
  | nil => simpa [Node.changeAt] using hchange
  | cons key path ih =>
    refine of_members ?_
    intro node changed h
    cases node with
    | table origin members =>
      simp only [Node.changeAt, Option.bind_eq_bind] at h
      split at h
      · obtain ⟨child, hchild, h⟩ := Option.bind_eq_some_iff.mp h
        cases h
        exact ⟨origin, members, _, rfl, rfl, fun hmembers =>
          hmembers.place (ih.distinct hchild (Node.distinct_emptyTable _)) key⟩
      · next inner entries hget =>
        split at h
        · cases h
        obtain ⟨child, hchild, h⟩ := Option.bind_eq_some_iff.mp h
        cases h
        exact ⟨origin, members, _, rfl, rfl, fun hmembers =>
          hmembers.place (ih.distinct hchild (hmembers.of_get? hget)) key⟩
      · next items hget =>
        simp only [Option.bind_some, Option.bind_eq_some_iff, Option.some.injEq] at h
        obtain ⟨last, hlast, child, hchild, rfl⟩ := h
        refine ⟨origin, members, _, rfl, rfl, fun hmembers => hmembers.place ?_ key⟩
        have hitems := Node.distinct_tables_iff.mp (hmembers.of_get? hget)
        have hdistinct : child.Distinct :=
          ih.distinct hchild (hitems last (List.mem_of_getLast? hlast))
        refine Node.distinct_tables_iff.mpr fun item hitem => ?_
        rcases List.mem_append.mp hitem with hbefore | hat
        · exact hitems item (List.dropLast_subset items hbefore)
        · exact List.mem_singleton.mp hat ▸ hdistinct
      · cases h
    | _ => simp [Node.changeAt] at h

theorem tabular_changeAt (hchange : Keeps change) {dotted : Bool} {path : List String}
    {node changed : Node} (hnode : node.Tabular)
    (h : node.changeAt dotted change path = some changed) : changed.Tabular :=
  ⟨(hchange.changeAt dotted path).table h hnode.table,
    (hchange.changeAt dotted path).distinct h hnode.distinct⟩

end Keeps

theorem keeps_some : Keeps some where
  table h := by
    cases h
    exact id
  distinct h := by
    cases h
    exact id

theorem keeps_assign {value : Node} (hvalue : value.Distinct) (wasDotted : Bool) (key : String) :
    Keeps (Node.assign wasDotted key value) := by
  refine .of_members ?_
  intro node changed h
  cases node with
  | table origin members =>
    simp only [Node.assign] at h
    split at h
    · cases h
    split at h
    · cases h
    · next hnew =>
      cases h
      exact ⟨origin, members, _, rfl, rfl, fun hmembers =>
        hmembers.add hvalue (by simpa using hnew)⟩
  | _ => simp [Node.assign] at h

theorem Node.Tabular.assignAt {node changed value : Node} {path : List String}
    (hnode : node.Tabular) (hvalue : value.Distinct)
    (h : node.assignAt path value = some changed) : changed.Tabular := by
  simp only [Node.assignAt, Option.bind_eq_bind, Option.bind_eq_some_iff] at h
  obtain ⟨key, _, h⟩ := h
  exact (keeps_assign hvalue _ key).tabular_changeAt hnode h

/-! ## Texts being read -/

/-- What holds while a text is read. -/
structure Draft.Sound (d : Draft) : Prop where
  root : d.root.Tabular
  current : d.current.Tabular

namespace Draft

variable {d d' : Draft} {node : Node} {path : List String}

theorem sound_start : start.Sound :=
  ⟨Node.tabular_emptyTable _, Node.tabular_emptyTable _⟩

theorem Sound.assign (hd : d.Sound) (hnode : node.Distinct) (h : d.assign path node = some d') :
    d'.Sound := by
  simp only [Draft.assign, Option.bind_eq_bind, Option.bind_eq_some_iff, Option.pure_def,
    Option.some.injEq] at h
  obtain ⟨current, hcurrent, rfl⟩ := h
  exact ⟨hd.root, hd.current.assignAt hnode hcurrent⟩

theorem Sound.finish (hd : d.Sound) (h : d.finish = some node) : node.Tabular := by
  unfold Draft.finish at h
  split at h
  · cases h
    exact hd.current
  · next key _ =>
    refine Keeps.tabular_changeAt ?_ hd.root h
    refine .of_members ?_
    intro node changed h
    cases node with
    | table origin members =>
      dsimp only at h
      split at h
      · split at h
        · next items hitems =>
          cases h
          refine ⟨origin, members, _, rfl, rfl, fun hmembers => hmembers.place ?_ key⟩
          have hlisted := Node.distinct_tables_iff.mp (hitems ▸ hmembers.distinct_listed key)
          refine Node.distinct_tables_iff.mpr fun item hitem => ?_
          rcases List.mem_append.mp hitem with hbefore | hlast
          · exact hlisted item hbefore
          · exact List.mem_singleton.mp hlast ▸ hd.current.distinct
        · cases h
      split at h
      · cases h
      · next hnew =>
        cases h
        exact ⟨origin, members, _, rfl, rfl, fun hmembers =>
          hmembers.add hd.current.distinct (by simpa using hnew)⟩
    | _ => cases h

theorem keeps_remove (key : String) : Keeps (openTable.remove key) := by
  refine .of_members ?_
  intro node changed h
  cases node with
  | table origin members =>
    cases h
    exact ⟨origin, members, _, rfl, rfl, fun hmembers => hmembers.remove key⟩
  | _ => cases h

theorem keeps_start (key : String) : Keeps (openListed.start key) := by
  refine .of_members ?_
  intro node changed h
  cases node with
  | table origin members =>
    simp only [openListed.start] at h
    split at h
    · next hnew =>
      cases h
      exact ⟨origin, members, _, rfl, rfl, fun hmembers =>
        hmembers.add (Node.distinct_tables_iff.mpr (by simp)) hnew⟩
    · cases h
      exact ⟨origin, members, _, rfl, rfl, id⟩
    · cases h
  | _ => cases h

/-- The table that a path leads to is as the tree is. -/
theorem distinct_lookUp {members : List (String × Node)} (hnode : node.Distinct)
    (h : openTable.lookUp node path = some members) : DistinctMembers members := by
  induction path generalizing node with
  | nil =>
    cases node with
    | table origin members =>
      cases h
      exact Node.distinct_table_iff.mp hnode
    | _ => cases h
  | cons key path ih =>
    cases node with
    | table origin entries =>
      have hentries := Node.distinct_table_iff.mp hnode
      simp only [openTable.lookUp] at h
      split at h
      · next items hget =>
        have hitems := Node.distinct_tables_iff.mp (hentries.of_get? hget)
        obtain ⟨last, hlast, h⟩ := Option.bind_eq_some_iff.mp h
        exact ih (hitems last (List.mem_of_getLast? hlast)) h
      · next hget => exact ih (hentries.of_get? hget) h
      · cases h
    | _ => cases h

theorem Sound.openTable (hd : d.Sound) (h : d.openTable path = some d') : d'.Sound := by
  simp only [Draft.openTable, Option.bind_eq_bind, Option.bind_eq_some_iff, Option.pure_def] at h
  obtain ⟨root, hroot, key, _, way, hway, known, hknown, h⟩ := h
  have hway' : way.Tabular := keeps_some.tabular_changeAt (hd.finish hroot) hway
  split at h
  · cases h
    exact ⟨hway', Node.tabular_emptyTable _⟩
  · next origin members hget =>
    split at h
    · simp only [Option.bind_eq_some_iff, Option.some.injEq] at h
      obtain ⟨opened, hopened, rfl⟩ := h
      have hmembers := (distinct_lookUp hway'.distinct hknown).of_get? hget
      exact ⟨(keeps_remove key).tabular_changeAt hway' hopened, rfl,
        Node.distinct_table_iff.mpr (Node.distinct_table_iff.mp hmembers)⟩
    · cases h
  · cases h

theorem Sound.openListed (hd : d.Sound) (h : d.openListed path = some d') : d'.Sound := by
  simp only [Draft.openListed, Option.bind_eq_bind, Option.bind_eq_some_iff, Option.pure_def,
    Option.some.injEq] at h
  obtain ⟨root, hroot, key, _, opened, hopened, rfl⟩ := h
  exact ⟨(keeps_start key).tabular_changeAt (hd.finish hroot) hopened, Node.tabular_emptyTable _⟩

end Draft

/-! ## Values -/

/-- The assignments of an inline table, one after the other. -/
theorem Node.Tabular.assignAll {assignments : List (List String × Node)} {table changed : Node}
    (htable : table.Tabular) (hvalues : ∀ assignment ∈ assignments, assignment.2.Distinct)
    (h : assignments.foldlM (fun (t : Node) (path, value) => t.assignAt path value) table =
      some changed) : changed.Tabular := by
  induction assignments generalizing table with
  | nil =>
    cases h
    exact htable
  | cons assignment rest ih =>
    simp only [List.foldlM_cons, Option.bind_eq_bind, Option.bind_eq_some_iff] at h
    obtain ⟨next, hnext, h⟩ := h
    have hvalue := hvalues assignment List.mem_cons_self
    exact ih (htable.assignAt hvalue hnext)
      (fun other hother => hvalues other (List.mem_cons_of_mem _ hother)) h

theorem distinct_inlineOf {assignments : List (List String × Node)} {node : Node}
    (hvalues : ∀ assignment ∈ assignments, assignment.2.Distinct)
    (h : inlineOf assignments = some node) : node.Distinct := by
  simp only [inlineOf, Option.bind_eq_bind, Option.bind_eq_some_iff] at h
  obtain ⟨table, htable, h⟩ := h
  have htabular := (Node.tabular_emptyTable _).assignAll hvalues htable
  split at h
  · cases h
    exact Node.distinct_inline_iff.mpr (Node.distinct_table_iff.mp htabular.distinct)
  · cases h

/-- What a reader of values reads keeps its keys apart. -/
def ReadsDistinct (value : ValueReader) : Prop :=
  ∀ {s node rest}, value s = some (node, rest) → node.Distinct

section Readers

variable {limit rounds : Nat} {value : ValueReader} {s rest : List Char} {node : Node}

theorem distinct_items? (hvalue : ReadsDistinct value) {read : List Node}
    (hread : ∀ item ∈ read, item.Distinct)
    (h : items? limit value rounds read s = some (node, rest)) : node.Distinct := by
  induction rounds generalizing read s with
  | zero => cases h
  | succ rounds ih =>
    simp only [items?] at h
    split at h
    · cases h
      exact .array fun item hitem => hread item (List.mem_reverse.mp hitem)
    simp only [Option.bind_eq_bind, Option.bind_eq_some_iff] at h
    obtain ⟨⟨item, behind⟩, hitem, h⟩ := h
    have hmore : ∀ other ∈ item :: read, other.Distinct := by
      intro other hother
      rcases List.mem_cons.mp hother with rfl | hbefore
      · exact hvalue hitem
      · exact hread other hbefore
    split at h
    · exact ih hmore h
    · cases h
      exact .array fun other hother => hmore other (List.mem_reverse.mp hother)
    · cases h

theorem distinct_assignment? (hvalue : ReadsDistinct value) {path : List String}
    (h : assignment? limit value s = some ((path, node), rest)) : node.Distinct := by
  simp only [assignment?, Option.bind_eq_bind, Option.bind_eq_some_iff, Option.pure_def,
    Option.some.injEq, Prod.mk.injEq] at h
  obtain ⟨_, _, _, _, ⟨read, behind⟩, hread, ⟨_, rfl⟩, _⟩ := h
  exact hvalue hread

theorem distinct_assignments? (hvalue : ReadsDistinct value)
    {read : List (List String × Node)} (hread : ∀ assignment ∈ read, assignment.2.Distinct)
    (h : assignments? limit value rounds read s = some (node, rest)) : node.Distinct := by
  induction rounds generalizing read s with
  | zero => cases h
  | succ rounds ih =>
    simp only [assignments?, Option.bind_eq_bind, Option.bind_eq_some_iff] at h
    obtain ⟨⟨assignment, behind⟩, hassignment, h⟩ := h
    have hmore : ∀ other ∈ assignment :: read, other.2.Distinct := by
      intro other hother
      rcases List.mem_cons.mp hother with rfl | hbefore
      · exact distinct_assignment? hvalue hassignment
      · exact hread other hbefore
    split at h
    · exact ih hmore h
    · simp only [Option.bind_eq_some_iff, Option.pure_def, Option.some.injEq, Prod.mk.injEq] at h
      obtain ⟨table, htable, rfl, _⟩ := h
      exact distinct_inlineOf (fun other hother => hmore other (List.mem_reverse.mp hother)) htable
    · cases h

theorem readsDistinct_value? (limit depth : Nat) : ReadsDistinct (value? limit depth) := by
  induction depth with
  | zero =>
    intro s node rest h
    unfold value? at h
    split at h
    · cases h
    · cases h
    · obtain ⟨⟨x, behind⟩, _, h⟩ := Option.map_eq_some_iff.mp h
      cases h
      exact .scalar x
  | succ depth ih =>
    intro s node rest h
    unfold value? at h
    split at h
    · exact distinct_items? ih (by simp) h
    · dsimp only at h
      split at h
      · cases h
        exact Node.distinct_inline_iff.mpr .nil
      · exact distinct_assignments? ih (by simp) h
    · obtain ⟨⟨x, behind⟩, _, h⟩ := Option.map_eq_some_iff.mp h
      cases h
      exact .scalar x

end Readers

/-! ## Texts -/

namespace Draft.Sound

variable {limit : Nat} {d d' : Draft} {s rest : List Char}

theorem header? (hd : d.Sound) (h : header? limit d s = some (d', rest)) : d'.Sound := by
  unfold Toml.header? at h
  split at h
  · simp only [Option.bind_eq_bind, Option.bind_eq_some_iff, Option.pure_def, Option.some.injEq,
      Prod.mk.injEq] at h
    obtain ⟨⟨path, _⟩, _, _, _, _, _, opened, hopened, rfl, _⟩ := h
    exact hd.openListed hopened
  · simp only [Option.bind_eq_bind, Option.bind_eq_some_iff, Option.pure_def, Option.some.injEq,
      Prod.mk.injEq] at h
    obtain ⟨⟨path, _⟩, _, _, _, opened, hopened, rfl, _⟩ := h
    exact hd.openTable hopened

theorem statement? (hd : d.Sound) (h : statement? limit d s = some (d', rest)) : d'.Sound := by
  unfold Toml.statement? at h
  split at h
  · exact hd.header? h
  · cases h
    exact hd
  · cases h
    exact hd
  · cases h
    exact hd
  · simp only [Option.bind_eq_bind, Option.bind_eq_some_iff, Option.pure_def, Option.some.injEq,
      Prod.mk.injEq] at h
    obtain ⟨⟨⟨path, node⟩, _⟩, hread, assigned, hassigned, rfl, _⟩ := h
    exact hd.assign (distinct_assignment? (readsDistinct_value? _ _) hread) hassigned

theorem statements? {rounds : Nat} (hd : d.Sound) (h : statements? limit rounds d s = some d') :
    d'.Sound := by
  induction rounds generalizing d s with
  | zero =>
    simp only [Toml.statements?] at h
    split at h
    · cases h
      exact hd
    · cases h
  | succ rounds ih =>
    simp only [Toml.statements?] at h
    split at h
    · cases h
      exact hd
    · simp only [Option.bind_eq_bind, Option.bind_eq_some_iff] at h
      obtain ⟨⟨next, _⟩, hnext, _, _, h⟩ := h
      exact ih (hd.statement? hnext) h

end Draft.Sound

/-- **No key stands twice.** A text denotes a table, and no table in it has
a key twice. -/
theorem tabular_of_parse? {text : String} {node : Node} (h : parse? text = some node) :
    node.Tabular := by
  simp only [parse?, Option.bind_eq_bind, Option.bind_eq_some_iff] at h
  obtain ⟨d, hd, h⟩ := h
  exact (Draft.sound_start.statements? hd).finish h

end MuxControl.Toml
