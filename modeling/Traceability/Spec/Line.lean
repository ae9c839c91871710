import Traceability.Identifier

/-!
# Defining lines

A line of a spec document may define a requirement (`### CFG-1: Title`), an acceptance criterion
(`- [ ] CFG-1_AC-1 Text`), a property (`- CFG_P-1 Text`) or a component (`### CFG-Loader`).
-/
namespace Traceability.Spec

structure Declaration where
  kind : IdKind
  id : Text
  text : Text
deriving DecidableEq, Repr

namespace Declaration

def afterBlanks? : Text → Option Text
  | [] => none
  | c :: t => if Text.isBlank c then some (Text.trimStart t) else none

def label (t : Text) : Text := Text.trim ((Text.trimStart t).takeWhile (· ≠ '\n'))

def headingBody? (line : Text) : Option Text := (Text.dropStem? "###" line).bind afterBlanks?

def itemBody? (line : Text) : Option Text := (Text.dropStem? "-" line).bind afterBlanks?

def afterCheckbox? (t : Text) : Option Text :=
  (Text.dropStem? "[ ]" t).or (Text.dropStem? "[x]" t) |>.bind afterBlanks?

def requirement? (line : Text) : Option Declaration := do
  let (id, rest) ← Identifier.requirement (← headingBody? line)
  let rest ← Text.dropStem? ":" (Text.trimStart rest)
  pure ⟨.requirement, id, label rest⟩

def criterion? (line : Text) : Option Declaration := do
  let body ← itemBody? line
  let (id, rest) ← Identifier.criterion ((afterCheckbox? body).getD body)
  let rest ← afterBlanks? rest
  pure ⟨.criterion, id, label rest⟩

def property? (line : Text) : Option Declaration := do
  let (id, rest) ← Identifier.property (← itemBody? line)
  let rest ← afterBlanks? rest
  pure ⟨.property, id, label rest⟩

def component? (line : Text) : Option Declaration := do
  let (id, rest) ← Identifier.component (← headingBody? line)
  if Text.allBlank rest then pure ⟨.component, id, id⟩ else none

def ofLine? (line : Text) : Option Declaration :=
  requirement? line <|> criterion? line <|> property? line <|> component? line

example : ofLine? "- [x] CFG-1_AC-2  Reads it " = some ⟨.criterion, "CFG-1_AC-2", "Reads it"⟩ := by
  decide +kernel
example : ofLine? "### CFG-Loader " = some ⟨.component, "CFG-Loader", "CFG-Loader"⟩ := by
  decide +kernel
example : ofLine? "### CFG-1 Title" = none := by decide +kernel

end Declaration

end Traceability.Spec
