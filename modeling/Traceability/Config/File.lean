import Traceability.Config.Basic
import Traceability.Disk
import Traceability.Failure
import Traceability.Toml.Document

/-!
# The configuration file

The settings of a project are in one section of a file. A file that is missing, cannot be opened or is
malformed counts as empty; one whose bytes are no text is a failure.
-/
namespace Traceability.Config

def fileName : Text := "spectrace.toml"

def sectionName : Text := "check"

def sectionIn (t : Text) : Value := Value.field ((Toml.read t).getD []) sectionName

def sectionOf (d : Disk) (file : Path) : Except Failure Value :=
  match d.read file with
  | .ok t => .ok (sectionIn t)
  | .error (.encoding error) => .error (.encoding error)
  | .error _ => .ok .null

/-- The path of the configuration file: the given one, or that in the root of the project, which is
the current directory if none is given. -/
def fileOf (d : Disk) (root file : Option Path) : Path :=
  file.getD ((root.getD ⟨.root, d.current⟩).join (.ofText fileName))

def load (d : Disk) (root file : Option Path) (o : ConfigOverrides) : Except Failure Config :=
  (sectionOf d (fileOf d root file)).map fun v => ofSection v o

end Traceability.Config
