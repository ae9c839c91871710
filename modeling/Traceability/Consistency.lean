import Traceability.Config.Basic
import Traceability.Marker.Basic
import Traceability.Pattern.Use
import Traceability.Spec.Catalogue

/-!
# Consistency

Code is checked against the specs: every marker names something defined, in the configured form, and
every acceptance criterion has a test. Specs are checked against each other: every reference has its
target, and every feature is referred to.
-/
namespace Traceability.Consistency

open Spec

def orphanedMarker (what : Text) (m : Marker) : Finding :=
  .about .error .orphanedMarker (what ++ " '" ++ m.id ++ "' not found in any spec file")
    m.path m.line m.id

def invalidFormat (m : Marker) : Finding :=
  .about .error .invalidIdFormat
    ("Marker '" ++ m.id ++ "' does not match the configured id format") m.path m.line m.id

def uncovered (d : Definition) : Finding :=
  .about .warning .uncoveredCriterion
    ("Acceptance criterion '" ++ d.id ++ "' has no test marker") d.location.path
    d.location.line d.id

/-- What is wrong with a marker. The form of an identifier counts for code and tests only. -/
def checkMarker (c : Catalogue) (form : Except UnusablePattern PatternNode) (m : Marker) :
    Except UnusablePattern (List Finding) :=
  match m.kind with
  | .component =>
    .ok (if c.definesAs .component m.id then [] else [orphanedMarker "Component marker" m])
  | _ => do
    let form ← form
    pure ((if form.matchesAll m.id then [] else [invalidFormat m]) ++
      (if c.defines m.id then [] else [orphanedMarker "Marker" m]))

def tested (markers : List Marker) : List Text :=
  (markers.filter (·.kind = .test)).map (·.id)

def uncoveredCriteria (c : Catalogue) (markers : List Marker) : List Finding :=
  (c.definitions.values.filter fun d =>
    d.kind = .criterion && !(tested markers).elem d.id).map uncovered

/-- What is wrong with the markers of some code. The configured form is read only if a marker needs
it. -/
def checkCode [CharacterNames] (idPattern : Text) (c : Catalogue) (markers : List Marker) :
    Except UnusablePattern (List Finding) := do
  let findings ← markers.mapM (checkMarker c (PatternNode.use {} idPattern))
  pure (findings.flatten ++ uncoveredCriteria c markers)

def brokenReference (path : Text) (r : CrossReference) (target : Text) : Finding :=
  .about .error .brokenCrossRef
    ("Cross-reference '" ++ target ++ "' (" ++ r.kind.word ++ ") not found in any spec file")
    path r.line target

def brokenReferences (c : Catalogue) (d : Document) : List Finding :=
  d.crossRefs.flatMap fun r =>
    (r.targets.filter fun target => !c.defines target).map (brokenReference d.path r)

def orphanedSpec (d : Document) : Finding :=
  { severity := .warning
    code := .orphanedSpec
    message := "Spec file feature code '" ++ d.code ++
      "' is not referenced by any marker or cross-reference"
    path := d.path }

def referencedCodes (d : Document) : List Text :=
  d.crossRefs.flatMap fun r => r.targets.filterMap Identifier.referencedCode?

/-- The documents, among those of a list between others, whose feature neither a marker nor another
document refers to. -/
def orphanedSpecs (markerCodes : List Text) : (before after : List Document) → List Finding
  | _, [] => []
  | before, d :: after =>
    let others := before ++ after
    let referenced :=
      d.code = [] || markerCodes.elem d.code ||
        others.any fun other => (referencedCodes other).elem d.code
    (if referenced then [] else [orphanedSpec d]) ++ orphanedSpecs markerCodes (before ++ [d]) after

def checkSpecs (c : Catalogue) (markers : List Marker) : List Finding :=
  c.documents.flatMap (brokenReferences c) ++
    orphanedSpecs (markers.filterMap fun m => Identifier.referencedCode? m.id) [] c.documents

end Traceability.Consistency
