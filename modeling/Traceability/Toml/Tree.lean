import Traceability.Value

/-!
# Trees of TOML

A document fills a tree of tables. A key leads through tables, and through the last table of a list
of tables. Marks on keys keep a table from being opened twice and a value from being changed.
-/
namespace Traceability.Toml

abbrev Key := List Text

abbrev Entries := List (Text × Value)

namespace Entries

def set (entries : Entries) (name : Text) (v : Value) : Entries :=
  entries.map fun (n, w) => if n = name then (n, v) else (n, w)

/-- Changes the entries of the table that a key leads to. Missing tables on the way are made; a value
that is no table ends it. `throughLists` tells whether the way may lead into the last table of a
list. -/
def change (throughLists : Bool) (f : Entries → Option Entries) : Key → Entries → Option Entries
  | [], entries => f entries
  | name :: key, entries =>
    match Value.field? entries name with
    | none => (change throughLists f key []).map fun inner => entries ++ [(name, .table inner)]
    | some (.table inner) =>
      (change throughLists f key inner).map fun inner => set entries name (.table inner)
    | some (.list items) =>
      match throughLists, items.getLast? with
      | true, some (.table inner) =>
        (change throughLists f key inner).map fun inner =>
          set entries name (.list (items.dropLast ++ [.table inner]))
      | _, _ => none
    | some _ => none

def put (name : Text) (v : Value) (entries : Entries) : Option Entries :=
  if (Value.field? entries name).isSome then none else some (entries ++ [(name, v)])

def appendTable (name : Text) (entries : Entries) : Option Entries :=
  match Value.field? entries name with
  | none => some (entries ++ [(name, .list [.table []])])
  | some (.list items) => some (set entries name (.list (items ++ [.table []])))
  | some _ => none

end Entries

/-- Marks on keys: tables that are opened, tables that a dotted key has passed through in the present
section, and values that may not be changed. -/
structure Marks where
  opened : List Key := []
  passed : List Key := []
  frozen : List Key := []
deriving DecidableEq, Repr

namespace Marks

def isFrozen (m : Marks) (key : Key) : Bool := m.frozen.any fun k => k.isPrefixOf key

def isOpened (m : Marks) (key : Key) : Bool := key ∈ m.opened

/-- The marks behind the end of a section: a table that was passed through counts as opened. -/
def endSection (m : Marks) : Marks := { m with opened := m.opened ++ m.passed, passed := [] }

def clear (m : Marks) (key : Key) : Marks :=
  { m with
    opened := m.opened.filter fun k => !key.isPrefixOf k
    frozen := m.frozen.filter fun k => !key.isPrefixOf k }

end Marks

structure Tree where
  entries : Entries := []
  marks : Marks := {}
  here : Key := []

namespace Tree

def openTable (tree : Tree) (key : Key) : Option Tree := do
  let marks := tree.marks.endSection
  if marks.isOpened key || marks.isFrozen key then none
  else
    let entries ← tree.entries.change true some key
    pure ⟨entries, { marks with opened := key :: marks.opened }, key⟩

def openItem (tree : Tree) (key : Key) : Option Tree := do
  let marks := tree.marks.endSection
  let name ← key.getLast?
  if marks.isFrozen key then none
  else
    let entries ← tree.entries.change true (Entries.appendTable name) key.dropLast
    let marks := marks.clear key
    pure ⟨entries, { marks with opened := key :: marks.opened }, key⟩

def passedBy (here key : Key) : List Key :=
  ((List.range key.length).drop 1).map fun n => here ++ key.take n

def isCollection : Value → Bool
  | .list _ | .table _ => true
  | _ => false

def assign (tree : Tree) (key : Key) (v : Value) : Option Tree := do
  let passed := passedBy tree.here key
  let home := tree.here ++ key.dropLast
  let name ← key.getLast?
  if passed.any tree.marks.isOpened || tree.marks.isFrozen home then none
  else
    let entries ← tree.entries.change true (Entries.put name v) home
    let frozen := if isCollection v then [tree.here ++ key] else []
    pure
      { tree with
        entries
        marks :=
          { tree.marks with
            passed := tree.marks.passed ++ passed
            frozen := frozen ++ tree.marks.frozen } }

end Tree

structure InlineTable where
  entries : Entries := []
  frozen : List Key := []

def InlineTable.assign (table : InlineTable) (key : Key) (v : Value) : Option InlineTable := do
  let name ← key.getLast?
  if table.frozen.any fun k => k.isPrefixOf key then none
  else
    let entries ← table.entries.change false (Entries.put name v) key.dropLast
    pure ⟨entries, if Tree.isCollection v then key :: table.frozen else table.frozen⟩

end Traceability.Toml
