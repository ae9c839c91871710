import Traceability.Text.Blank

/-!
# Fences and heading marks

A fence is a line that starts, behind blanks, with three backticks; lines between two fences are
fenced. A heading starts with one to six number signs.
-/
namespace Traceability.Outline

def fenceMark : Text := "```"

def isFence (line : Text) : Bool := (Text.trimStart line).startsWith fenceMark

def signs (line : Text) : Nat := (line.takeWhile (· = '#')).length

def headingMark? (line : Text) : Option (Nat × Text) :=
  let level := signs line
  let rest := line.drop level
  if 1 ≤ level && level ≤ 6 && rest.head?.any Text.isBlank then some (level, rest) else none

end Traceability.Outline
