import Traceability.Config.Basic
import Traceability.Failure
import Traceability.Marker.Scan
import Traceability.Spec.Catalogue
import Traceability.Trace.Index

/-!
# Projects

The specs and the code that the settings of a project select on a disk. A file that cannot be read
says nothing.
-/
namespace Traceability

structure Project where
  disk : Disk
  root : Path
  config : Config

namespace Project

def collect (p : Project) (globs ignored : List Text) : Except Failure (List Path) :=
  (Glob.collect p.disk p.root globs ignored).mapError .glob

def specPaths (p : Project) : Except Failure (List Path) :=
  p.collect p.config.specGlobs p.config.specIgnore

def codePaths (p : Project) : Except Failure (List Path) := do
  let found ← p.collect p.config.codeGlobs p.config.codeIgnore
  pure (found.filter fun path => !Glob.ignores p.config.ignoreMarkers p.root path)

def document? (p : Project) (path : Path) : Option Spec.Document :=
  (p.disk.text? path).map fun t =>
    Spec.Document.read p.config.crossRefKeywords path.toText t

def scanFile (p : Project) (path : Path) : MarkerScan :=
  ((p.disk.text? path).map fun t => Marker.scan p.config.markers path.toText t).getD {}

def catalogue (p : Project) : Except Failure Spec.Catalogue := do
  pure (.ofDocuments ((← p.specPaths).filterMap p.document?))

def scan (p : Project) : Except Failure MarkerScan := do
  pure (.merge ((← p.codePaths).map p.scanFile))

def index (p : Project) : Except Failure TraceIndex := do
  let specs ← p.catalogue
  let scan ← p.scan
  pure (TraceIndex.build specs scan.markers)

def rulesDirectory (p : Project) : Path := p.root.join (.ofText p.config.schemaDir)

end Project

end Traceability
