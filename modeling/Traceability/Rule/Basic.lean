import Traceability.Pattern.Use

/-!
# Rules for documents

A rule file says which documents it is for, which sections they have, what these hold, what may not
occur, and how long they may be.
-/
namespace Traceability

structure RuleCondition where
  heading : Option Text
  notHeading : Option Text
deriving DecidableEq, Repr, Inhabited

inductive Demand where
  | pattern (pattern : Text) (label description : Option Text) (required prohibited : Bool)
  | list (pattern : Text) (least : Nat) (label : Option Text)
  | table (columns : List Text) (leastRows : Nat) (heading : Option Text)
  | codeBlock (label : Option Text)
  | mention (text : Text) (required : Bool)
deriving DecidableEq, Repr, Inhabited

structure ContentRule where
  demand : Demand
  condition : Option RuleCondition
deriving DecidableEq, Repr, Inhabited

structure SectionRule where
  heading : Text
  level : Nat
  required : Bool
  repeatable : Bool
  description : Option Text
  content : List ContentRule
  children : List SectionRule
deriving Repr, Inhabited

structure RuleFile where
  source : Text
  targetFiles : Text
  sections : List SectionRule
  prohibited : List Text
  description : Option Text
  lineLimit : Option Nat
  example? : Option Text
deriving Repr, Inhabited

namespace HeadingPattern

def isSpecial (c : Char) : Bool := c ∈ (".+*?^$\x7b\x7d()|[]\\" : Text)

def isLiteral (pattern : Text) : Bool := !pattern.any isSpecial

def dropFinalBreak (t : Text) : Text := (Text.dropTail? ['\n'] t).getD t

def isNamed (literal heading : Text) : Bool :=
  Text.equalIgnoringCase literal heading || Text.equalIgnoringCase literal (dropFinalBreak heading)

/-- The test that a pattern for headings stands for: a literal ignores case, any other pattern has to
match the whole heading. -/
def test [CharacterNames] (pattern : Text) : Except UnusablePattern (Text → Bool) :=
  if isLiteral pattern then .ok (isNamed pattern)
  else (PatternNode.use {} ("^(?:" ++ pattern ++ ")$")).map fun node => node.startsText

end HeadingPattern

def RuleCondition.holds [CharacterNames] (c : RuleCondition) (heading : Text) :
    Except UnusablePattern Bool := do
  let occurs (pattern : Text) : Except UnusablePattern Bool :=
    (PatternNode.use {} pattern).map fun node => node.occursIn heading
  let fits ← match c.heading with
    | some pattern => occurs pattern
    | none => pure true
  if fits then
    match c.notHeading with
    | some pattern => return !(← occurs pattern)
    | none => return true
  else return false

end Traceability
