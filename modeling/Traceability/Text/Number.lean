import Traceability.Text.Blank
import Traceability.Text.Digit

/-!
# Whole numbers

A number may be written in the digits of any script, with a sign, with single underscores between
digits, and with blanks around it.
-/
namespace Traceability.Text

/-- The value of digits behind a number read so far; a single underscore may stand between digits. -/
def digitsFrom : Nat → Text → Option Nat
  | n, [] => some n
  | n, '_' :: c :: t => (digitValue? c).bind fun d => digitsFrom (10 * n + d) t
  | n, c :: t => (digitValue? c).bind fun d => digitsFrom (10 * n + d) t

def digits? : Text → Option Nat
  | [] => none
  | c :: t => (digitValue? c).bind fun d => digitsFrom d t

def int? (t : Text) : Option Int :=
  match trim t with
  | '-' :: ds => (digits? ds).map fun n => -(n : Int)
  | '+' :: ds => (digits? ds).map Int.ofNat
  | ds => (digits? ds).map Int.ofNat

example : int? " -1_000 " = some (-1000) ∧ int? "1__0" = none ∧ int? "٣" = some 3 := by
  decide +kernel

end Traceability.Text
