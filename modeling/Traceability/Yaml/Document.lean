import Traceability.Yaml.Node

/-!
# Values of YAML

The value that a document stands for. Entries under a merge key are those of other mappings, behind
which the own ones stand. Of several faults the one nearest to the root counts, and of those equally
near the first.
-/
namespace Traceability.Yaml

/-- A node whose scalars have values and whose mappings are merged; a mapping that cannot be merged,
or a node that its tag does not fit, is malformed. -/
inductive Draft where
  | scalar (value : Reading Value)
  | list (items : List Draft)
  | table (entries : List (Draft × Draft))
  | tableFault

namespace Draft

def entries? : Draft → Option (List (Draft × Draft))
  | .table entries => some entries
  | _ => none

/-- The entries that a value under a merge key stands for: those of a table, or those of the tables
of a list, the last table first. -/
def merged? : Draft → Option (List (Draft × Draft))
  | .table entries => some entries
  | .list items => (items.mapM entries?).map fun tables => tables.reverse.flatten
  | _ => none

inductive Entry where
  | merge (value : Draft)
  | own (key value : Draft)

def ofEntries (entries : List Entry) : Draft :=
  let merged := entries.mapM fun
    | .merge v => merged? v
    | .own _ _ => some []
  let own := entries.flatMap fun
    | .merge _ => []
    | .own k v => [(k, v)]
  match merged with
  | some parts => .table (parts.flatten ++ own)
  | none => .tableFault

def ofScalar (kind : Option ScalarKind) (t : Text) : Draft :=
  .scalar ((kind.map fun k => Scalar.value k t).getD malformed)

mutual

def ofNode : Node → Draft
  | .scalar kind t => ofScalar kind t
  | .sequence .foreign _ => .scalar malformed
  | .sequence .plain items => .list (ofItems items)
  | .mapping .foreign _ => .scalar malformed
  | .mapping .plain entries => ofEntries (ofPairs entries)

def ofItems : List Node → List Draft
  | [] => []
  | n :: rest => ofNode n :: ofItems rest

/-- The drafts of some entries; a key that stands for a default is a text. -/
def ofPairs : List (Node × Node) → List Entry
  | [] => []
  | (.scalar (some .merge) _, v) :: rest => .merge (ofNode v) :: ofPairs rest
  | (.scalar (some .default) t, v) :: rest =>
    .own (.scalar (.ok (.text t))) (ofNode v) :: ofPairs rest
  | (k, v) :: rest => .own (ofNode k) (ofNode v) :: ofPairs rest

end

def zipLevels {α : Type} : List (List α) → List (List α) → List (List α)
  | [], levels => levels
  | levels, [] => levels
  | a :: rest, b :: others => (a ++ b) :: zipLevels rest others

def keyFaults : Draft → List YamlFault
  | .scalar (.ok _) => []
  | .scalar (.error fault) => [fault]
  | _ => [.malformed]

mutual

/-- The faults in a draft, by their distance from its root. -/
def faults : Draft → List (List YamlFault)
  | .scalar (.ok _) => []
  | .scalar (.error fault) => [[fault]]
  | .tableFault => [[], [.malformed]]
  | .list items => [] :: itemFaults items
  | .table entries => [] :: entryFaults entries

def itemFaults : List Draft → List (List YamlFault)
  | [] => []
  | d :: rest => zipLevels (faults d) (itemFaults rest)

def entryFaults : List (Draft × Draft) → List (List YamlFault)
  | [] => []
  | (k, v) :: rest => zipLevels [keyFaults k] (zipLevels (faults v) (entryFaults rest))

end

def keyText? : Draft → Option Text
  | .scalar (.ok (.text t)) => some t
  | _ => none

/-- Some entries with one more in front, unless its name comes again. -/
def addEntry (name : Option Text) (v : Value) (entries : List (Text × Value)) :
    List (Text × Value) :=
  match name with
  | none => entries
  | some name => if (entries.lookup name).isSome then entries else (name, v) :: entries

mutual

def value : Draft → Value
  | .scalar (.ok v) => v
  | .scalar (.error _) => .null
  | .tableFault => .null
  | .list items => .list (values items)
  | .table entries => .table (valueEntries entries)

def values : List Draft → List Value
  | [] => []
  | d :: rest => value d :: values rest

/-- The values of some entries; only those under a text are kept, and of two under one text the
last. -/
def valueEntries : List (Draft × Draft) → List (Text × Value)
  | [] => []
  | (k, v) :: rest => addEntry (keyText? k) (value v) (valueEntries rest)

end

def judge (d : Draft) : Reading Value :=
  match (faults d).flatten with
  | [] => .ok (value d)
  | fault :: _ => .error fault

end Draft

def read (t : Text) : Reading Value := do
  match ← Node.ofText? t with
  | none => pure .null
  | some node => (Draft.ofNode node).judge

end Traceability.Yaml
