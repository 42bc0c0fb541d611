/-
MuxControl.Toml.Table — what may be added to a table, and where.

A dotted key leads through tables that it may make on its way, but not
into one that a header opened. A header leads through any table, and
through the last table of a list of tables. A table is opened once; a
key is assigned once. Members stand in the order in which they came.
-/
import MuxControl.Keyed
import MuxControl.Toml.Basic

namespace MuxControl.Toml

/-- Put a member in the place of the one of its key, or at the end. -/
def place (key : String) (node : Node) : List (String × Node) → List (String × Node)
  | [] => [(key, node)]
  | (k, old) :: rest =>
    if k = key then (key, node) :: rest else (k, old) :: place key node rest

namespace Node

/-- A table without members. -/
def emptyTable (origin : Origin) : Node := .table origin []

/-- Change the table that a path leads to. Tables missing on the way are
made; a path of a dotted key stops at a table that it may not enter,
and any path at what is no table. -/
def changeAt (dotted : Bool) (change : Node → Option Node) : List String → Node → Option Node
  | [], node => change node
  | key :: path, .table origin members => do
    let child ←
      match Keyed.get? key members with
      | none => changeAt dotted change path (emptyTable (.passing dotted))
      | some (.table inner entries) =>
        if dotted && !inner.implicit then none
        else changeAt dotted change path (.table inner entries)
      | some (.tables items) => do
        let last ← items.getLast?
        let last ← changeAt dotted change path last
        some (.tables (items.dropLast ++ [last]))
      | some _ => none
    some (.table origin (place key child members))
  | _ :: _, _ => none

/-- Assign a key of a table. The table has to be one that a dotted key
made if, and only if, the key was dotted. -/
def assign (wasDotted : Bool) (key : String) (value : Node) : Node → Option Node
  | .table origin members =>
    if origin.dotted != wasDotted then none
    else if (Keyed.get? key members).isSome then none
    else some (.table origin (members ++ [(key, value)]))
  | _ => none

/-- Assign the last key of a path, which leads through dotted keys. -/
def assignAt (node : Node) (path : List String) (value : Node) : Option Node := do
  let key ← path.getLast?
  let way := path.dropLast
  node.changeAt true (assign (!way.isEmpty) key value) way

end Node

/-- A text being read: all tables that are finished, and the one that
the last header opened, with its path. Before the first header that is
the whole text, whose path is empty. -/
structure Draft where
  root : Node
  path : List String
  listed : Bool
  current : Node

namespace Draft

/-- Nothing read yet. -/
def start : Draft := ⟨.emptyTable .header, [], false, .emptyTable .header⟩

/-- Assign a key in the current table. -/
def assign (d : Draft) (path : List String) (value : Node) : Option Draft := do
  let current ← d.current.assignAt path value
  return { d with current := current }

/-- Put the current table into the tree. -/
def finish (d : Draft) : Option Node :=
  match d.path.getLast? with
  | none => some d.current
  | some key =>
    let settle : Node → Option Node
      | .table origin members =>
        if d.listed then
          match (Keyed.get? key members).getD (.tables []) with
          | .tables items =>
            some (.table origin (place key (.tables (items ++ [d.current])) members))
          | _ => none
        else if (Keyed.get? key members).isSome then none
        else some (.table origin (members ++ [(key, d.current)]))
      | _ => none
    d.root.changeAt false settle d.path.dropLast

/-- Open a table by its header. A table that was only passed through so
far keeps its members and moves to the end of its parent. -/
def openTable (d : Draft) (path : List String) : Option Draft := do
  let root ← d.finish
  let key ← path.getLast?
  let way := path.dropLast
  let root ← root.changeAt false some way
  let known ← lookUp root way
  match Keyed.get? key known with
  | none => return ⟨root, path, false, .emptyTable .header⟩
  | some (.table origin members) =>
    if origin.implicit && !origin.dotted then
      let root ← root.changeAt false (remove key) way
      return ⟨root, path, false, .table .header members⟩
    else none
  | some _ => none
where
  /-- The members of the table that a path leads to. -/
  lookUp : Node → List String → Option (List (String × Node))
    | .table _ members, [] => some members
    | .table _ members, key :: path =>
      match Keyed.get? key members with
      | some (.tables items) => items.getLast?.bind (lookUp · path)
      | some node => lookUp node path
      | none => none
    | _, _ => none
  /-- A table without one of its members. -/
  remove (key : String) : Node → Option Node
    | .table origin members => some (.table origin (Keyed.remove key members))
    | _ => none

/-- Open a new table of a list of tables by its header. -/
def openListed (d : Draft) (path : List String) : Option Draft := do
  let root ← d.finish
  let key ← path.getLast?
  let root ← root.changeAt false (start key) path.dropLast
  return ⟨root, path, true, .emptyTable .header⟩
where
  /-- A table with a list of tables under a key. -/
  start (key : String) : Node → Option Node
    | .table origin members =>
      match Keyed.get? key members with
      | none => some (.table origin (members ++ [(key, .tables [])]))
      | some (.tables _) => some (.table origin members)
      | some _ => none
    | _ => none

end Draft

/-- An inline table from its assignments, in their order. -/
def inlineOf (assignments : List (List String × Node)) : Option Node := do
  let table ← assignments.foldlM (fun (t : Node) (path, value) => t.assignAt path value)
    (Node.emptyTable .header)
  match table with
  | .table _ members => some (.inline members)
  | _ => none

end MuxControl.Toml
