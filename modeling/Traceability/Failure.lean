import Traceability.Disk
import Traceability.Glob.Select
import Traceability.Pattern.Use
import Traceability.Rule.Reader
import Traceability.Text.Quoted

/-!
# Failures

Why a command ends without an answer: a root that cannot be found, a glob or a pattern that cannot be
used, a file whose bytes are no text, or a rule file that cannot be used.
-/
namespace Traceability

inductive RuleProblem where
  | unreadable (isMissing : Bool)
  | malformed
  | flaw (place : Text) (what : RuleFlaw)
deriving DecidableEq, Repr

inductive Failure where
  | glob (fault : Glob.GlobFault)
  | pattern (pattern : UnusablePattern)
  | encoding (error : Text.Utf8Error)
  | value (message : Text)
  | root (fault : ResolveFault)
  | rules (file : Path) (problem : RuleProblem)
deriving DecidableEq, Repr

namespace RuleProblem

def message : RuleProblem → Text
  | .unreadable _ => "unreadable rule file"
  | .malformed => "invalid YAML"
  | .flaw place what => place ++ ": " ++ what.message

def detail (file : Path) : RuleProblem → Option Text
  | .unreadable isMissing =>
    let reason : Text :=
      if isMissing then "[Errno 2] No such file or directory: " else "[Errno 21] Is a directory: "
    some (reason ++ Text.quoted file.toText)
  | .malformed => none
  | .flaw _ (.invalidPattern pattern error) => some (error.message pattern)
  | .flaw _ _ => none

end RuleProblem

namespace Failure

def brief : Failure → Text
  | .glob fault => fault.message
  | .pattern p => p.message
  | .encoding error => error.message
  | .value message => message
  | .root fault => fault.message
  | .rules file problem => file.toText ++ ": " ++ problem.message

def message (f : Failure) : Text :=
  match f with
  | .rules file problem =>
    match problem.detail file with
    | some detail => f.brief ++ " (" ++ detail ++ ")"
    | none => f.brief
  | _ => f.brief

def ofRuleFault (file : Path) : RuleFault → Failure
  | .flaw place what => .rules file (.flaw place what)
  | .pattern t error => .pattern ⟨t, error⟩

end Failure

end Traceability
