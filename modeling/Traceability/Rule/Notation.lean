import Traceability.Value

/-!
# The notation of rule files

Rule files are written in a notation for values. Its reader is left open: it gives a value, or gives up
because a text is malformed or for a reason of its own.
-/
namespace Traceability

inductive RuleTextFault where
  | malformed
  | other (message : Text)
deriving DecidableEq, Repr

/-- A reader of the notation in which rule files are written. -/
class RuleNotation where
  read : Text → Except RuleTextFault Value

end Traceability
