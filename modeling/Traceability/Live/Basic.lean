import Traceability.Config.Basic
import Traceability.Marker.Basic
import Traceability.OrderedMap
import Traceability.Path
import Traceability.Spec.Document

/-!
# The live index

What the files of a project define and mark, kept up to date one file at a time. A file that comes
anew replaces what it said before. An identifier has the last of its definitions, in the order in
which files came; when that goes, the last one left takes its place.
-/
namespace Traceability

inductive IndexState where
  | empty
  | building
  | ready
  | failed
deriving DecidableEq, Repr, Inhabited

def IndexState.word : IndexState → Text
  | .empty => "empty"
  | .building => "building"
  | .ready => "ready"
  | .failed => "failed"

structure Contribution where
  path : Text
  definitions : List Spec.Definition := []
  markers : List Marker := []
deriving DecidableEq, Repr, Inhabited

structure IndexEntries where
  definitions : OrderedMap Text Spec.Definition := .empty
  definitionsByFile : OrderedMap Text (List Spec.Definition) := .empty
  markersByFile : OrderedMap Text (List Marker) := .empty
  places : OrderedMap (MarkerKind × Text) (List Location) := .empty
deriving Inhabited

namespace IndexEntries

/-- The last definition of an identifier that is left, in the order in which files came. -/
def survivor? (e : IndexEntries) (id : Text) : Option Spec.Definition :=
  (e.definitionsByFile.values.flatten.filter (·.id = id)).getLast?

/-- The entries without a definition of a file whose own definitions are gone already. -/
def dropDefinition (path : Text) (e : IndexEntries) (d : Spec.Definition) : IndexEntries :=
  match e.definitions.get? d.id with
  | none => e
  | some current =>
    if current.location.path ≠ path then e
    else match e.survivor? d.id with
      | none => { e with definitions := e.definitions.erase d.id }
      | some survivor => { e with definitions := e.definitions.insert d.id survivor }

def dropMarker (path : Text) (e : IndexEntries) (m : Marker) : IndexEntries :=
  let key := (m.kind, m.id)
  match ((e.places.get? key).getD []).filter (·.path ≠ path) with
  | [] => { e with places := e.places.erase key }
  | left => { e with places := e.places.insert key left }

def drop (path : Text) (e : IndexEntries) : IndexEntries :=
  let definitions := (e.definitionsByFile.get? path).getD []
  let markers := (e.markersByFile.get? path).getD []
  let e := { e with definitionsByFile := e.definitionsByFile.erase path }
  let e := definitions.foldl (dropDefinition path) e
  let e := { e with markersByFile := e.markersByFile.erase path }
  markers.foldl (dropMarker path) e

def addMarker (e : IndexEntries) (m : Marker) : IndexEntries :=
  let key := (m.kind, m.id)
  { e with places := e.places.insert key ((e.places.get? key).getD [] ++ [m.location]) }

def addDefinitions (path : Text) (definitions : List Spec.Definition) (e : IndexEntries) :
    IndexEntries :=
  if definitions = [] then e
  else
    { e with
      definitionsByFile := e.definitionsByFile.insert path definitions
      definitions := e.definitions.insertAll (definitions.map fun d => (d.id, d)) }

def addMarkers (path : Text) (markers : List Marker) (e : IndexEntries) : IndexEntries :=
  if markers = [] then e
  else markers.foldl addMarker { e with markersByFile := e.markersByFile.insert path markers }

/-- The entries with what a file says; it says nothing yet. -/
def insert (c : Contribution) (e : IndexEntries) : IndexEntries :=
  (e.addDefinitions c.path c.definitions).addMarkers c.path c.markers

def update (c : Contribution) (e : IndexEntries) : IndexEntries := (e.drop c.path).insert c

def ofContributions (cs : List Contribution) : IndexEntries :=
  cs.foldl (fun e c => e.insert c) {}

end IndexEntries

structure LiveIndex where
  state : IndexState := .empty
  config : Config := {}
  root : Path := ⟨.root, []⟩
  entries : IndexEntries := {}
deriving Inhabited

namespace LiveIndex

def isReady (i : LiveIndex) : Bool := i.state = .ready

/-- The entries that can be seen: none unless the index is ready. -/
def visible (i : LiveIndex) : IndexEntries := if i.isReady then i.entries else {}

def commit (c : Contribution) (i : LiveIndex) : LiveIndex :=
  { i with entries := i.entries.update c }

def remove (path : Text) (i : LiveIndex) : LiveIndex := { i with entries := i.entries.drop path }

def startBuild (config : Config) (root : Path) (i : LiveIndex) : LiveIndex :=
  { i with state := .building, config, root }

def finishBuild (cs : List Contribution) (i : LiveIndex) : LiveIndex :=
  { i with state := .ready, entries := .ofContributions cs }

def failBuild (i : LiveIndex) : LiveIndex := { i with state := .failed, entries := {} }

/-! ## Questions -/

def relative (i : LiveIndex) (path : Text) : Text :=
  ((Path.ofText path).relativeOrSelf i.root).toText

def idCount (i : LiveIndex) : Nat := i.visible.definitions.size

def definition? (i : LiveIndex) (id : Text) : Option Spec.Definition :=
  i.visible.definitions.get? id

def definitionsOf (i : LiveIndex) (kinds : List IdKind) : List Spec.Definition :=
  i.visible.definitions.values.filter fun d => d.kind ∈ kinds

def markersIn (i : LiveIndex) (path : Text) : List Marker :=
  (i.visible.markersByFile.get? path).getD []

def markerFiles (i : LiveIndex) : List (Text × List Marker) := i.visible.markersByFile.entries

/-- Whether a marker is at a place of its file, line and column counted from zero. -/
def isAt (line character : Int) (m : Marker) : Bool :=
  (m.line : Int) = line + 1 && (m.start : Int) ≤ character && character < (m.stop : Int)

def markerAt? (i : LiveIndex) (path : Text) (line character : Int) : Option Marker :=
  (i.markersIn path).find? (isAt line character)

def placesOf (i : LiveIndex) (kind : MarkerKind) (id : Text) : List Location :=
  (i.visible.places.get? (kind, id)).getD []

end LiveIndex

end Traceability
