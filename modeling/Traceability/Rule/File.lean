import Traceability.Failure
import Traceability.Rule.Notation

/-!
# Files of rules

The rule files of a directory, in the order of their names. The first one that cannot be used ends the
reading, and no rule is used then.
-/
namespace Traceability.RuleFile

variable [CharacterNames] [RuleNotation]

def load (d : Disk) (file : Path) : Except Failure RuleFile :=
  match d.read file with
  | .error .missing => .error (.rules file (.unreadable true))
  | .error .isDirectory => .error (.rules file (.unreadable false))
  | .error (.encoding error) => .error (.encoding error)
  | .ok t =>
    match RuleNotation.read t with
    | .error .malformed => .error (.rules file .malformed)
    | .error (.other message) => .error (.value message)
    | .ok v => (RuleFile.ofValue file v).mapError (Failure.ofRuleFault file)

def fileGlob : Text := "*.schema.yaml"

def filesIn (d : Disk) (directory : Path) : List Path :=
  match Glob.paths d directory fileGlob with
  | .ok found => sortBy (fun p q => Text.le p.toText q.toText) found
  | .error _ => []

def loadAll (d : Disk) (directory : Path) : Except Failure (List RuleFile) :=
  (filesIn d directory).mapM (load d)

end Traceability.RuleFile
