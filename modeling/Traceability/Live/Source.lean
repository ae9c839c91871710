import Traceability.Live.Basic
import Traceability.Project.Basic

/-!
# Files in the live index

What a file says depends on what the settings take it for: a spec, code that is looked at, or code that
is ignored. An index is built from all files of a project, and kept up to date with single ones.
-/
namespace Traceability.LiveIndex

def isSpec (i : LiveIndex) (path : Path) : Bool :=
  Glob.covers i.config.specGlobs (path.relativeOrSelf i.root) &&
    !Glob.ignores i.config.specIgnore i.root path

def isIgnoredCode (i : LiveIndex) (path : Path) : Bool :=
  Glob.ignores i.config.codeIgnore i.root path || Glob.ignores i.config.ignoreMarkers i.root path

/-- What a file with a text says; without a text it says nothing. -/
def contribution (i : LiveIndex) (path : Path) (text? : Option Text) : Contribution :=
  let key := path.toText
  match text? with
  | none => { path := key }
  | some t =>
    if i.isSpec path then
      { path := key
        definitions := (Spec.Document.read i.config.crossRefKeywords key t).definitions }
    else if i.isIgnoredCode path then { path := key }
    else { path := key, markers := (Marker.scan i.config.markers key t).markers }

def updateFrom (d : Disk) (path : Path) (i : LiveIndex) : LiveIndex :=
  i.commit (i.contribution path (d.text? path))

def updateWith (path : Path) (t : Text) (i : LiveIndex) : LiveIndex :=
  i.commit (i.contribution path (some t))

/-- The files of a project: its specs, and its code as far as it is no spec. -/
def filesOf (p : Project) : Except Failure (List Path) := do
  let specs ← p.specPaths
  let code ← p.codePaths
  pure (specs ++ code.filter fun path => path ∉ specs)

/-- Builds an index of all files of a project. The root is looked for when the build has begun: where
it is not found the build stops there, with the root that the index had before. -/
def rebuild (d : Disk) (config : Config) (root : Path) (i : LiveIndex) :
    LiveIndex × Option Failure :=
  match d.resolve root with
  | .error fault => (i.startBuild config i.root, some (.root fault))
  | .ok root =>
    let i := i.startBuild config root
    match filesOf ⟨d, root, config⟩ with
    | .error f => (i.failBuild, some f)
    | .ok paths => (i.finishBuild (paths.map fun path => i.contribution path (d.text? path)), none)

end Traceability.LiveIndex
