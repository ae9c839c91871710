import Traceability.Path
import Traceability.Spec.Line
import Traceability.Text.Case
import Traceability.Text.Line

/-!
# Spec documents

A document defines identifiers and refers to others. A reference belongs to the element above it:
one that says what is implemented to the nearest component, one that says what is validated to the
nearest property, each defined at or before its line. A reference with nothing above it has no owner.
-/
namespace Traceability.Spec

structure Definition where
  id : Text
  kind : IdKind
  text : Text
  location : Location
deriving DecidableEq, Repr, Inhabited

inductive CrossRefKind where
  | implements
  | validates
deriving DecidableEq, Repr, Inhabited

def CrossRefKind.word : CrossRefKind → Text
  | .implements => "implements"
  | .validates => "validates"

def CrossRefKind.ofKeyword (keyword : Text) : CrossRefKind :=
  if (Text.lowerAscii keyword).includes "implements" then .implements else .validates

structure CrossReference where
  kind : CrossRefKind
  targets : List Text
  line : Nat
  owner : Option Text
deriving DecidableEq, Repr, Inhabited

structure Document where
  path : Text
  code : Text
  definitions : List Definition
  crossRefs : List CrossReference
  text : Text
deriving DecidableEq, Repr, Inhabited

namespace Document

def nameStems : List Text := ["REQ-", "DESIGN-", "FEAT-", "EXAMPLES-", "API-"]

def codeBehind? (name stem : Text) : Option Text := do
  let (code, rest) ← Identifier.code (← Text.dropStem? stem name)
  if rest.startsWith "-" then pure code else none

def codeOfPath (path : Text) : Text :=
  (nameStems.findSome? (codeBehind? (Path.ofText path).name)).getD []

def ids (d : Document) (kind : IdKind) : List Text :=
  (d.definitions.filter (·.kind = kind)).map (·.id)

structure Owners where
  component : Option Text := none
  property : Option Text := none

def Owners.after (owners : Owners) : Option Declaration → Owners
  | some ⟨.component, id, _⟩ => { owners with component := some id }
  | some ⟨.property, id, _⟩ => { owners with property := some id }
  | _ => owners

def Owners.of (owners : Owners) : CrossRefKind → Option Text
  | .implements => owners.component
  | .validates => owners.property

def keywordIn? (keywords : List Text) (line : Text) : Option (Text × Text) :=
  keywords.findSome? fun keyword => (Text.cut? keyword line).map fun (_, rest) => (keyword, rest)

def reference? (keywords : List Text) (owners : Owners) (number : Nat) (line : Text) :
    Option CrossReference :=
  match keywordIn? keywords line with
  | none => none
  | some (keyword, rest) =>
    let kind := CrossRefKind.ofKeyword keyword
    match Identifier.embedded rest with
    | [] => none
    | targets => some ⟨kind, targets, number, owners.of kind⟩

def referencesBelow (keywords : List Text) : Owners → List (Text × Nat) → List CrossReference
  | _, [] => []
  | owners, (line, number) :: rest =>
    let owners := owners.after (Declaration.ofLine? line)
    (reference? keywords owners number line).toList ++ referencesBelow keywords owners rest

def definition? (path : Text) : Text × Nat → Option Definition
  | (line, number) => (Declaration.ofLine? line).map fun d =>
    ⟨d.id, d.kind, d.text, ⟨path, number⟩⟩

/-- Reads a document; `keywords` announce references. -/
def read (keywords : List Text) (path text : Text) : Document :=
  let lines := (Text.lines text).zipIdx 1
  { path
    code := codeOfPath path
    definitions := lines.filterMap (definition? path)
    crossRefs := referencesBelow keywords {} lines
    text }

end Document

end Traceability.Spec
