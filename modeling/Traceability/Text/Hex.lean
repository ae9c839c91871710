import Traceability.Text.Basic

/-!
# Numbers in a base

Digits up to the base of sixteen, in ASCII and in either case.
-/
namespace Traceability.Text

def isHex (c : Char) : Bool :=
  c.isDigit || ('a' ≤ c && c ≤ 'f') || ('A' ≤ c && c ≤ 'F')

def hexValue (c : Char) : Nat :=
  if c.isDigit then c.toNat - '0'.toNat else c.toLower.toNat - 'a'.toNat + 10

def numberIn (base : Nat) (digits : Text) : Nat :=
  digits.foldl (fun n c => base * n + hexValue c) 0

def scalar? (n : Nat) : Option Char := if n.isValidChar then some (Char.ofNat n) else none

def hexChar? (digits : Text) : Option Char :=
  if digits.all isHex then scalar? (numberIn 16 digits) else none

def hexDigits : (digits n : Nat) → Text
  | 0, _ => []
  | digits + 1, n => hexDigits digits (n / 16) ++ [Nat.digitChar (n % 16)]

example : hexDigits 4 0xe9 = "00e9" := by decide +kernel
example : numberIn 16 "fF" = 255 ∧ hexChar? "d800" = none ∧ hexChar? "00e9" = some 'é' := by
  decide +kernel

end Traceability.Text
