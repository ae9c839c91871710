import Traceability.Trace.Index

/-!
# Trace chains

Everything connected to an identifier. From a requirement its criteria are one step away, their
components, code and tests two, and the code of the components three; from a criterion, a property or
a component one step fewer, and against the direction its requirement or its criteria. A chain may be
limited to a number of steps, to one direction, to identifiers with a common start, and to specs.
-/
namespace Traceability

inductive Direction where
  | both
  | forward
  | reverse
deriving DecidableEq, Repr, Inhabited

def Direction.ofWord? (word : Text) : Option Direction :=
  if word = "both" then some .both
  else if word = "forward" then some .forward
  else if word = "reverse" then some .reverse
  else none

inductive NodeKind where
  | requirement
  | criterion
  | component
  | property
  | implementation
  | test
deriving DecidableEq, Repr, Inhabited

def NodeKind.word : NodeKind → Text
  | .requirement => "requirement"
  | .criterion => "ac"
  | .component => "component"
  | .property => "property"
  | .implementation => "implementation"
  | .test => "test"

structure TraceOptions where
  direction : Direction := .both
  depth : Option Int := none
  scope : Option Text := none
  noCode : Bool := false
  noTests : Bool := false
deriving DecidableEq, Repr, Inhabited

namespace TraceOptions

def allows (o : TraceOptions) (steps : Nat) : Bool := o.depth.all fun depth => (steps : Int) ≤ depth

def forward (o : TraceOptions) : Bool := o.direction ≠ .reverse

def reverse (o : TraceOptions) : Bool := o.direction ≠ .forward

def inScope (o : TraceOptions) (id : Text) : Bool := o.scope.all fun stem => id.startsWith stem

end TraceOptions

structure TraceNode where
  id : Text
  kind : NodeKind
  location : Location
deriving DecidableEq, Repr, Inhabited

structure TraceChain where
  query : Text
  requirement : Option TraceNode := none
  criteria : List TraceNode := []
  components : List TraceNode := []
  implementations : List TraceNode := []
  tests : List TraceNode := []
  properties : List TraceNode := []
deriving DecidableEq, Repr, Inhabited

namespace TraceChain

def nodes (c : TraceChain) : List TraceNode :=
  c.requirement.toList ++ c.criteria ++ c.components ++ c.properties ++ c.implementations ++ c.tests

/-- The nodes of two chains for one identifier; the first requirement stays. -/
def append (a b : TraceChain) : TraceChain :=
  { query := a.query
    requirement := a.requirement.or b.requirement
    criteria := a.criteria ++ b.criteria
    components := a.components ++ b.components
    implementations := a.implementations ++ b.implementations
    tests := a.tests ++ b.tests
    properties := a.properties ++ b.properties }

def concat (query : Text) (chains : List TraceChain) : TraceChain :=
  chains.foldl append { query }

def specNode? (i : TraceIndex) (kind : NodeKind) (id : Text) : Option TraceNode :=
  (i.locations.get? id).map fun location => ⟨id, kind, location⟩

def nodesAt (kind : NodeKind) (id : Text) (places : List Location) : List TraceNode :=
  places.map fun location => ⟨id, kind, location⟩

def componentCode (i : TraceIndex) (component : Text) : List TraceNode :=
  nodesAt .component component (i.componentCodeOf.get component)

/-- What lies beyond a criterion that is itself `steps - 1` steps away. -/
def beyondCriterion (i : TraceIndex) (o : TraceOptions) (query criterion : Text) (steps : Nat) :
    TraceChain :=
  if o.allows steps then
    let components := i.componentsOf.get criterion
    { query
      components := components.filterMap (specNode? i .component)
      implementations := nodesAt .implementation criterion (i.codeOf.get criterion) ++
        if o.allows (steps + 1) then components.flatMap (componentCode i) else []
      tests := nodesAt .test criterion (i.testsOf.get criterion) }
  else { query }

def fromRequirement (i : TraceIndex) (o : TraceOptions) (id : Text) : TraceChain :=
  let self : TraceChain := { query := id, requirement := specNode? i .requirement id }
  if o.forward && o.allows 1 then
    .concat id (self :: (i.criteriaOf.get id).map fun criterion =>
      append { query := id, criteria := (specNode? i .criterion criterion).toList }
        (beyondCriterion i o id criterion 2))
  else self

def requirementOf? (i : TraceIndex) (criterion : Text) : Option TraceNode :=
  (i.requirementOf.get? criterion).bind (specNode? i .requirement)

def fromCriterion (i : TraceIndex) (o : TraceOptions) (id : Text) : TraceChain :=
  let self : TraceChain :=
    { query := id
      criteria := (specNode? i .criterion id).toList
      requirement := if o.reverse && o.allows 1 then requirementOf? i id else none }
  if o.forward then self.append (beyondCriterion i o id id 1) else self

def linkedCriteria (i : TraceIndex) (o : TraceOptions) (query : Text) (criteria : List Text) :
    TraceChain :=
  if o.allows 1 then
    { query
      criteria := criteria.filterMap (specNode? i .criterion)
      requirement := if o.allows 2 then criteria.findSome? (requirementOf? i) else none }
  else { query }

def fromProperty (i : TraceIndex) (o : TraceOptions) (id : Text) : TraceChain :=
  let self : TraceChain :=
    { query := id
      properties := (specNode? i .property id).toList
      tests := if o.forward && o.allows 1 then nodesAt .test id (i.propertyTestsOf.get id)
        else [] }
  if o.reverse then self.append (linkedCriteria i o id (i.validatedBy.get id)) else self

def fromComponent (i : TraceIndex) (o : TraceOptions) (id : Text) : TraceChain :=
  let self : TraceChain :=
    { query := id
      components := (specNode? i .component id).toList
      implementations := if o.forward && o.allows 1 then componentCode i id else [] }
  if o.reverse then self.append (linkedCriteria i o id (i.implementedBy.get id)) else self

def sameNode (a b : TraceNode) : Bool := a.id = b.id && a.location = b.location

def distinct : List TraceNode → List TraceNode
  | [] => []
  | n :: rest => n :: (distinct rest).filter fun m => !sameNode n m

def inScope (o : TraceOptions) (nodes : List TraceNode) : List TraceNode :=
  distinct (nodes.filter fun n => o.inScope n.id)

def restrict (o : TraceOptions) (c : TraceChain) : TraceChain :=
  { query := c.query
    requirement := c.requirement.filter fun n => o.inScope n.id
    criteria := inScope o c.criteria
    components := inScope o c.components
    implementations := if o.noCode then [] else inScope o c.implementations
    tests := if o.noTests then [] else inScope o c.tests
    properties := if o.noTests then [] else inScope o c.properties }

def resolve (i : TraceIndex) (o : TraceOptions) (id : Text) : TraceChain :=
  restrict o <|
    match Identifier.kind id with
    | .requirement => fromRequirement i o id
    | .criterion => fromCriterion i o id
    | .property => fromProperty i o id
    | .component => fromComponent i o id

end TraceChain

structure TraceResult where
  chains : List TraceChain := []
  notFound : List Text := []
deriving DecidableEq, Repr, Inhabited

def TraceResult.resolve (i : TraceIndex) (o : TraceOptions) (ids : List Text) : TraceResult :=
  { chains := (ids.filter i.defines).map (TraceChain.resolve i o)
    notFound := ids.filter fun id => !i.defines id }

end Traceability
