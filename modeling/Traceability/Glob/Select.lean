import Traceability.Disk
import Traceability.Glob.Mask
import Traceability.Glob.Name
import Traceability.Sorted

/-!
# Collecting files

A glob leads from a directory to paths, name by name: two stars lead to the directory and all
directories below it, a pattern to the entries whose names it fits, and any other name to the entry
of that name. The files that globs lead to, less the ignored ones, are listed once each, in order.
-/
namespace Traceability.Glob

inductive GlobFault where
  | empty
  | noNames
  | partialStars
deriving DecidableEq, Repr

def GlobFault.message : GlobFault → Text
  | .empty => "Unacceptable pattern: ''"
  | .noNames => "tuple index out of range"
  | .partialStars => "Invalid pattern: '**' can only be an entire path component"

inductive GlobStep where
  | directories
  | pattern (p : NamePattern)
  | name (n : Text)
  | stop
deriving DecidableEq, Repr

def stepOf (name : Text) : Except GlobFault GlobStep :=
  if name = ['*', '*'] then .ok .directories
  else if name.includes "**" then .error .partialStars
  else if NamePattern.isPattern name then .ok (.pattern (.ofText name))
  else .ok (.name name)

/-- The steps of a glob below its anchor; a final slash asks for directories. -/
def stepsOf (glob : Text) : Except GlobFault (List GlobStep) :=
  let p := Path.ofText glob
  if glob = [] then .error .empty
  else if p.parts = [] then .error .noNames
  else do
    let steps ← p.parts.mapM stepOf
    pure (if !p.isAbsolute && glob.endsWith "/" then steps ++ [.stop] else steps)

def child (base : Path) (name : Text) : Path := ⟨base.anchor, base.parts ++ [name]⟩

def descendant (base : Path) (names : List Text) : Path := ⟨base.anchor, base.parts ++ names⟩

def entriesBelow (d : Disk) (base : Path) : List (List Text × DiskEntry) :=
  match d.locate? base with
  | some names => d.below names
  | none => []

def directoriesFrom (d : Disk) (base : Path) : List Path :=
  base :: ((entriesBelow d base).filter fun e => e.2 = .directory).map fun e =>
    descendant base e.1

/-- The paths that steps lead to from a directory. All but the last step lead to directories only. -/
def select (d : Disk) : List GlobStep → Path → List Path
  | [], base => [base]
  | .stop :: _, base => [base]
  | .directories :: rest, base => (directoriesFrom d base).flatMap (select d rest)
  | .name n :: rest, base =>
    let p := child base n
    if if rest = [] then d.exists? p else d.isDirectory p then select d rest p else []
  | .pattern q :: rest, base =>
    (entriesBelow d base).flatMap fun (names, entry) =>
      match names with
      | [n] =>
        if q.fits n && (rest = [] || entry = .directory) then select d rest (child base n) else []
      | _ => []

/-- The paths that a glob leads to from a root; an absolute glob starts at its own anchor. -/
def paths (d : Disk) (root : Path) (glob : Text) : Except GlobFault (List Path) := do
  let steps ← stepsOf glob
  let p := Path.ofText glob
  let base := if p.isAbsolute then ⟨p.anchor, []⟩ else root
  pure (if d.isDirectory base then select d steps base else [])

def distinct (found : List Path) : List Path :=
  (OrderedMap.ofList (found.map fun p => (p, ()))).keys

/-- The files that globs lead to from a root, less the ignored ones, in the order of their texts. -/
def collect (d : Disk) (root : Path) (globs ignored : List Text) :
    Except GlobFault (List Path) := do
  let found ← (globs.flatMap expand).mapM (paths d root)
  let kept := found.flatten.filter fun p => d.isFile p && !ignores ignored root p
  pure (sortBy (fun p q => Text.le p.toText q.toText) (distinct kept))

end Traceability.Glob
