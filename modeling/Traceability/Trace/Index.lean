import Traceability.Marker.Basic
import Traceability.Spec.Catalogue

/-!
# The trace index

Which criteria a requirement has, which components implement a criterion and which criteria a
component implements, what a property validates, and where code and tests are. Every list keeps the
order of arrival and holds nothing twice.
-/
namespace Traceability

open Spec

structure TraceIndex where
  criteriaOf : OrderedMultimap Text Text
  componentsOf : OrderedMultimap Text Text
  codeOf : OrderedMultimap Text Location
  testsOf : OrderedMultimap Text Location
  propertyTestsOf : OrderedMultimap Text Location
  componentCodeOf : OrderedMultimap Text Location
  requirementOf : OrderedMap Text Text
  implementedBy : OrderedMultimap Text Text
  validatedBy : OrderedMultimap Text Text
  locations : OrderedMap Text Location
deriving Inhabited

namespace TraceIndex

def requirementFor? (c : Catalogue) (criterion : Text) : Option Text :=
  (Identifier.parentRequirement? criterion).filter (c.definesAs .requirement)

def requirementLinks (c : Catalogue) : List (Text × Text) :=
  (c.idsOf .criterion).filterMap fun criterion =>
    (requirementFor? c criterion).map fun requirement => (requirement, criterion)

def referenceLinks (c : Catalogue) (kind : CrossRefKind) : List (Text × Text) :=
  c.documents.flatMap fun d => d.crossRefs.flatMap fun r =>
    match r.owner with
    | some owner => if r.kind = kind then r.targets.map fun target => (owner, target) else []
    | none => []

def markerLinks (p : Marker → Bool) (markers : List Marker) : List (Text × Location) :=
  (markers.filter p).map fun m => (m.id, m.location)

def namesProperty (id : Text) : Bool := id.includes Identifier.propertyMark

def build (c : Catalogue) (markers : List Marker) : TraceIndex :=
  let requirements := requirementLinks c
  let implements := referenceLinks c .implements
  { criteriaOf := .ofList requirements
    requirementOf := .ofList (requirements.map Prod.swap)
    componentsOf := .ofList (implements.map Prod.swap)
    implementedBy := .ofList implements
    validatedBy := .ofList (referenceLinks c .validates)
    codeOf := .ofList (markerLinks (fun m => m.kind = .implementation) markers)
    testsOf := .ofList (markerLinks (fun m => m.kind = .test && !namesProperty m.id) markers)
    propertyTestsOf :=
      .ofList (markerLinks (fun m => m.kind = .test && namesProperty m.id) markers)
    componentCodeOf := .ofList (markerLinks (fun m => m.kind = .component) markers)
    locations := .ofList (c.definitions.entries.map fun (id, d) => (id, d.location)) }

def ids (i : TraceIndex) : List Text := i.locations.keys

def defines (i : TraceIndex) (id : Text) : Bool := i.locations.hasKey id

end TraceIndex

end Traceability
