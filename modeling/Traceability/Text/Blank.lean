import Traceability.Text.Basic

/-!
# Blank characters

White space in the wide sense: the Unicode property, and the four separators U+001C to U+001F.
-/
namespace Traceability.Text

def isBlank (c : Char) : Bool :=
  let n := c.toNat
  (9 ≤ n && n ≤ 13) || (28 ≤ n && n ≤ 32) || n == 0x85 || n == 0xA0 || n == 0x1680 ||
    (0x2000 ≤ n && n ≤ 0x200A) || n == 0x2028 || n == 0x2029 || n == 0x202F || n == 0x205F ||
    n == 0x3000

def trimStart (t : Text) : Text := t.dropWhile isBlank

def trimEnd (t : Text) : Text := dropEndWhile isBlank t

def trim (t : Text) : Text := trimEnd (trimStart t)

def allBlank (t : Text) : Bool := t.all isBlank

def indent (t : Text) : Nat := (t.takeWhile isBlank).length

example : isBlank '\u200b' = false ∧ isBlank '\ufeff' = false ∧ isBlank '\u001c' = true := by decide

end Traceability.Text
