import Traceability.Text.Basic

/-!
# Names of characters

A pattern may give a character by its name. Which names there are is left open: a pattern is read, and
used, with the names at hand.
-/
namespace Traceability

/-- The names of characters that a pattern may use. -/
class CharacterNames where
  named? : Text → Option Char

end Traceability
