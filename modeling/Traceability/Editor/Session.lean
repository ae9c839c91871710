import Traceability.Config.File
import Traceability.Editor.Feature
import Traceability.Live.Source

/-!
# Editing sessions

An editor opens, changes and closes documents and tells of changes on disk; the index follows, and the
editor is told what it did not ask for: whether the index can be used, and the errors of a document.
-/
namespace Traceability.Editor

inductive Notice where
  | status (isReady : Bool) (idCount : Nat)
  | diagnostics (uri : Text) (found : List Diagnostic)
  | log (message : Text)
deriving DecidableEq, Repr

inductive FileChange where
  | created
  | changed
  | deleted
deriving DecidableEq, Repr

structure Session where
  index : LiveIndex
  documents : OrderedMap Text Text := .empty
  workspace : Option Path := none

/-- What comes of an event: the session, what the editor is told, and what is wrong with a URI that
has no path. -/
structure Reaction where
  session : Session
  notices : List Notice := []
  fault : Option Uri.HostFault := none

namespace Session

def text (s : Session) (uri : Text) : Text := (s.documents.get? uri).getD []

def setText (uri t : Text) (s : Session) : Session :=
  { s with documents := s.documents.insert uri t }

def status (s : Session) : Notice := .status s.index.isReady s.index.idCount

def root (d : Disk) (s : Session) : Path := s.workspace.getD ⟨.root, d.current⟩

def build (d : Disk) (s : Session) : LiveIndex × Option Failure :=
  match Config.load d (some (s.root d)) none {} with
  | .error f => (s.index, some f)
  | .ok config => s.index.rebuild d config (s.root d)

def initialized (d : Disk) (s : Session) : Reaction :=
  let (index, failure?) := s.build d
  let s := { s with index }
  let logs := failure?.toList.map fun f =>
    Notice.log ("spectrace: index build failed: " ++ f.message)
  { session := s, notices := logs ++ [s.status] }

def reindex (uri : Text) (s : Session) : Reaction :=
  match Uri.toPath uri with
  | .error fault => { session := s, fault := some fault }
  | .ok path =>
    let s := { s with index := s.index.updateWith path (s.text uri) }
    { session := s, notices := [.diagnostics uri (Editor.diagnostics s.index path)] }

def closed (uri : Text) (s : Session) : Reaction :=
  { session := s, notices := [.diagnostics uri []] }

def follow (d : Disk) (path : Path) (change : FileChange) (i : LiveIndex) : LiveIndex :=
  match change with
  | .deleted => i.remove path.toText
  | .created | .changed => i.updateFrom d path

/-- Takes over changes on disk up to the first one of what has no path. -/
def watched (d : Disk) : List (Text × FileChange) → Session → Reaction
  | [], s => { session := s, notices := [s.status] }
  | (uri, change) :: changes, s =>
    match Uri.toPath uri with
    | .error fault => { session := s, fault := some fault }
    | .ok path => watched d changes { s with index := follow d path change s.index }

def line (s : Session) (uri : Text) (number : Nat) : Text :=
  ((Text.linesWithBreaks (s.text uri))[number]?).getD []

def completions (s : Session) (uri : Text) (number : Nat) (character : Int) : List Completion :=
  Editor.completions s.index (s.line uri number) character

end Session

end Traceability.Editor
