import Traceability.Pattern.Match
import Traceability.Pattern.Reader

/-!
# Using patterns

A pattern is read where it is used; if it cannot be read, its text and the reason are kept.
-/
namespace Traceability

structure UnusablePattern where
  pattern : Text
  error : PatternError
deriving DecidableEq, Repr

def UnusablePattern.message (u : UnusablePattern) : Text := u.error.message u.pattern

def PatternNode.use [CharacterNames] (flags : PatternFlags) (t : Text) :
    Except UnusablePattern PatternNode :=
  match PatternNode.read flags t with
  | .ok node => .ok node
  | .error e => .error ⟨t, e⟩

end Traceability
