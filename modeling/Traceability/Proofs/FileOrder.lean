import Traceability.Command.Readers
import Traceability.Proofs.Consistency
import Traceability.Proofs.Trace.Links

/-!
# The order of files

Where every identifier is defined once, no definition displaces another one. Then documents and scans
that are merged in another order give the same findings and the same index, but for the order of lists.
-/
namespace Traceability

open Spec

variable {documents documents' : List Document} {scans scans' : List MarkerScan}
  {markers markers' : List Marker}

/-- Whether no identifier is defined twice in some documents. -/
def DefinedOnce (documents : List Document) : Prop :=
  ((documents.flatMap (·.definitions)).map (·.id)).Nodup

theorem DefinedOnce.of_perm (once : DefinedOnce documents) (perm : documents'.Perm documents) :
    DefinedOnce documents' :=
  ((perm.flatMap_right _).map _).nodup_iff.mpr once

theorem markers_merge_perm (perm : scans'.Perm scans) :
    (MarkerScan.merge scans').markers.Perm (MarkerScan.merge scans).markers :=
  perm.flatMap_right _

/-! ## Catalogues -/

namespace Spec.Catalogue

/-- Whether two catalogues hold the same documents and definitions, but for their order, and tell the
same of every identifier. -/
structure Alike (c' c : Catalogue) : Prop where
  documents : c'.documents.Perm c.documents
  definitions : c'.definitions.entries.Perm c.definitions.entries
  found : ∀ id, c'.definitions.get? id = c.definitions.get? id

/-- Definitions that displace no others are kept in the order of the documents. -/
theorem entries_ofDocuments (once : DefinedOnce documents) :
    (ofDocuments documents).definitions.entries =
      (documents.flatMap (·.definitions)).map fun d => (d.id, d) := by
  refine OrderedMap.entries_ofList_of_nodup ?_
  rw [List.map_map]
  exact once

theorem alike_ofDocuments (once : DefinedOnce documents) (perm : documents'.Perm documents) :
    (ofDocuments documents').Alike (ofDocuments documents) := by
  have definitions : (ofDocuments documents').definitions.entries.Perm
      (ofDocuments documents).definitions.entries := by
    rw [entries_ofDocuments once, entries_ofDocuments (once.of_perm perm)]
    exact (perm.flatMap_right _).map _
  exact ⟨perm, definitions, OrderedMap.get?_eq_of_perm nodup_keys_ofDocuments definitions⟩

variable {c c' : Catalogue}

theorem Alike.values (alike : c'.Alike c) : c'.definitions.values.Perm c.definitions.values :=
  alike.definitions.map _

theorem Alike.defines (alike : c'.Alike c) : c'.defines = c.defines := by
  funext id
  rw [Catalogue.defines, Catalogue.defines, OrderedMap.hasKey, OrderedMap.hasKey, alike.found]

theorem Alike.definesAs (alike : c'.Alike c) : c'.definesAs = c.definesAs := by
  funext kind id
  rw [Catalogue.definesAs, Catalogue.definesAs, alike.found]

theorem Alike.idsOf (alike : c'.Alike c) (kind : IdKind) : (c'.idsOf kind).Perm (c.idsOf kind) :=
  (alike.values.filter _).map _

end Spec.Catalogue

/-! ## Findings -/

/-- Whether two results are the same failure, or lists that differ in their order only. -/
def SameUpToOrder {ε α : Type} : Except ε (List α) → Except ε (List α) → Prop
  | .ok l', .ok l => l'.Perm l
  | .error e', .error e => e' = e
  | _, _ => False

namespace Consistency

variable {c c' : Catalogue}

theorem checkMarker_congr (alike : c'.Alike c) : checkMarker c' = checkMarker c := by
  funext form m
  unfold checkMarker
  rw [alike.defines, alike.definesAs]

theorem uncoveredCriteria_perm (alike : c'.Alike c) (perm : markers'.Perm markers) :
    (uncoveredCriteria c' markers').Perm (uncoveredCriteria c markers) := by
  have same : (tested markers').Perm (tested markers) := (perm.filter _).map _
  have named (id : Text) : (tested markers').elem id = (tested markers).elem id := same.contains_eq
  simp only [uncoveredCriteria, named]
  exact (alike.values.filter _).map _

theorem checkCode_perm [CharacterNames] (alike : c'.Alike c) (perm : markers'.Perm markers)
    (idPattern : Text) :
    SameUpToOrder (checkCode idPattern c' markers') (checkCode idPattern c markers) := by
  cases checked : checkCode idPattern c markers with
  | ok findings =>
    obtain ⟨perMarker, done, rfl⟩ := checkCode_eq_ok checked
    obtain ⟨perMarker', done', reordered⟩ := mapM_perm perm done
    rw [checkCode, checkMarker_congr alike, done']
    exact reordered.flatten.append (uncoveredCriteria_perm alike perm)
  | error e =>
    obtain ⟨unusable, m, member, kind⟩ := checkCode_eq_error checked
    rw [checkCode_eq_error_iff.mpr ⟨unusable, m, perm.mem_iff.mpr member, kind⟩]
    exact rfl

/-- What is wrong with a document beside others: nothing refers to its feature. -/
def orphaned (codes : List Text) (others : List Document) (d : Document) : List Finding :=
  if d.code = [] || codes.elem d.code || others.any fun other => (referencedCodes other).elem d.code
  then [] else [orphanedSpec d]

theorem orphaned_perm {codes codes' : List Text} {others others' : List Document}
    (perm : codes'.Perm codes) (perm' : others'.Perm others) (d : Document) :
    orphaned codes' others' d = orphaned codes others d := by
  have same : codes'.elem d.code = codes.elem d.code := perm.contains_eq
  rw [orphaned, orphaned, same, perm'.any_eq]

/-- Each document is held against all others, wherever it stands. -/
theorem orphanedSpecs_eq (codes : List Text) (before after : List Document) :
    orphanedSpecs codes before after =
      after.flatMap fun d => orphaned codes ((before ++ after).erase d) d := by
  induction after generalizing before with
  | nil => rfl
  | cons d rest ih =>
    have others : ((before ++ d :: rest).erase d).Perm (before ++ rest) := by
      have front : (before ++ d :: rest).Perm (d :: (before ++ rest)) := List.perm_middle
      have erased := front.erase d
      rwa [List.erase_cons_head] at erased
    have here : orphanedSpecs codes before (d :: rest) =
        orphaned codes (before ++ rest) d ++ orphanedSpecs codes (before ++ [d]) rest := rfl
    rw [here, ih, List.flatMap_cons, orphaned_perm (.refl _) others, List.append_assoc]
    rfl

theorem orphanedSpecs_perm {codes codes' : List Text} (perm : codes'.Perm codes)
    (perm' : documents'.Perm documents) :
    (orphanedSpecs codes' [] documents').Perm (orphanedSpecs codes [] documents) := by
  rw [orphanedSpecs_eq, orphanedSpecs_eq]
  refine perm'.flatMap fun d _ => ?_
  rw [List.nil_append, List.nil_append, orphaned_perm perm (perm'.erase d)]

theorem brokenReferences_congr (alike : c'.Alike c) : brokenReferences c' = brokenReferences c := by
  funext d
  unfold brokenReferences
  rw [alike.defines]

theorem checkSpecs_perm (alike : c'.Alike c) (perm : markers'.Perm markers) :
    (checkSpecs c' markers').Perm (checkSpecs c markers) := by
  rw [checkSpecs, checkSpecs, brokenReferences_congr alike]
  exact (alike.documents.flatMap_right _).append
    (orphanedSpecs_perm (perm.filterMap _) alike.documents)

end Consistency

/-! ## The index -/

namespace TraceIndex

variable {c c' : Catalogue}

/-- Whether two indexes answer alike, but for the order of lists. -/
structure Alike (i' i : TraceIndex) : Prop where
  requirementOf : ∀ a, i'.requirementOf.get? a = i.requirementOf.get? a
  locations : ∀ id, i'.locations.get? id = i.locations.get? id
  ids : i'.ids.Perm i.ids
  criteriaOf : i'.criteriaOf.Alike i.criteriaOf
  componentsOf : i'.componentsOf.Alike i.componentsOf
  implementedBy : i'.implementedBy.Alike i.implementedBy
  validatedBy : i'.validatedBy.Alike i.validatedBy
  codeOf : i'.codeOf.Alike i.codeOf
  testsOf : i'.testsOf.Alike i.testsOf
  propertyTestsOf : i'.propertyTestsOf.Alike i.propertyTestsOf
  componentCodeOf : i'.componentCodeOf.Alike i.componentCodeOf

theorem requirementFor?_congr (alike : c'.Alike c) : requirementFor? c' = requirementFor? c := by
  funext a
  rw [requirementFor?, requirementFor?, alike.definesAs]

theorem requirementLinks_perm (alike : c'.Alike c) :
    (requirementLinks c').Perm (requirementLinks c) := by
  rw [requirementLinks, requirementLinks, requirementFor?_congr alike]
  exact (alike.idsOf .criterion).filterMap _

theorem referenceLinks_perm (alike : c'.Alike c) (kind : CrossRefKind) :
    (referenceLinks c' kind).Perm (referenceLinks c kind) :=
  alike.documents.flatMap_right _

theorem markerLinks_perm (perm : markers'.Perm markers) (p : Marker → Bool) :
    (markerLinks p markers').Perm (markerLinks p markers) :=
  (perm.filter _).map _

theorem get?_requirementOf_congr (alike : c'.Alike c) (a : Text) :
    (build c' markers').requirementOf.get? a = (build c markers).requirementOf.get? a := by
  refine Option.ext fun r => ?_
  rw [get?_requirementOf, get?_requirementOf, requirementFor?_congr alike,
    (alike.idsOf .criterion).mem_iff]

/-- The places of the definitions, whose identifiers a catalogue holds once. -/
theorem locations_build (distinct : c.definitions.keys.Nodup) : (build c markers).locations.entries =
    c.definitions.entries.map fun (id, d) => (id, d.location) := by
  refine OrderedMap.entries_ofList_of_nodup ?_
  rw [List.map_map]
  exact distinct

theorem alike_build (alike : c'.Alike c) (distinct : c.definitions.keys.Nodup)
    (perm : markers'.Perm markers) : (build c' markers').Alike (build c markers) := by
  have distinct' : c'.definitions.keys.Nodup := (alike.definitions.map _).nodup_iff.mpr distinct
  have located : (build c' markers').locations.entries.Perm (build c markers).locations.entries := by
    rw [locations_build distinct, locations_build distinct']
    exact alike.definitions.map _
  exact
    { requirementOf := get?_requirementOf_congr alike
      locations := OrderedMap.get?_eq_of_perm (OrderedMap.nodup_keys_ofList _) located
      ids := located.map _
      criteriaOf := OrderedMultimap.alike_ofList (requirementLinks_perm alike)
      componentsOf := OrderedMultimap.alike_ofList ((referenceLinks_perm alike .implements).map _)
      implementedBy := OrderedMultimap.alike_ofList (referenceLinks_perm alike .implements)
      validatedBy := OrderedMultimap.alike_ofList (referenceLinks_perm alike .validates)
      codeOf := OrderedMultimap.alike_ofList (markerLinks_perm perm _)
      testsOf := OrderedMultimap.alike_ofList (markerLinks_perm perm _)
      propertyTestsOf := OrderedMultimap.alike_ofList (markerLinks_perm perm _)
      componentCodeOf := OrderedMultimap.alike_ofList (markerLinks_perm perm _) }

end TraceIndex

/-! ## Files in another order -/

/-- Where every identifier is defined once, files in another order have the same findings and the same
index, but for the order of lists. -/
theorem order_of_files [CharacterNames] (once : DefinedOnce documents)
    (reordered : documents'.Perm documents) (rescanned : scans'.Perm scans) :
    let c := Catalogue.ofDocuments documents
    let c' := Catalogue.ofDocuments documents'
    let markers := (MarkerScan.merge scans).markers
    let markers' := (MarkerScan.merge scans').markers
    (∀ idPattern, SameUpToOrder (Consistency.checkCode idPattern c' markers')
        (Consistency.checkCode idPattern c markers)) ∧
      (Consistency.checkSpecs c' markers').Perm (Consistency.checkSpecs c markers) ∧
        (TraceIndex.build c' markers').Alike (.build c markers) := by
  have alike := Catalogue.alike_ofDocuments once reordered
  have perm := markers_merge_perm rescanned
  exact ⟨Consistency.checkCode_perm alike perm, Consistency.checkSpecs_perm alike perm,
    TraceIndex.alike_build alike Catalogue.nodup_keys_ofDocuments perm⟩

/-- Two documents that refer to what nothing defines, each of a feature that nothing refers to. -/
def scatteredSpecs : List Document :=
  [.read ["IMPLEMENTS:"] "REQ-X-1.md" "### X-1: Reading\n- X-1_AC-1 Reads",
    .read ["IMPLEMENTS:"] "REQ-Y-1.md" "### Y-Loader\nIMPLEMENTS: Z-1_AC-1"]

def scatteredScans : List MarkerScan :=
  [Marker.scan Marker.defaultTokens "a.py" "# @spec-component: W-Reader",
    Marker.scan Marker.defaultTokens "b.py" "# @spec-component: W-Writer"]

theorem order_of_files_reversed : DefinedOnce scatteredSpecs ∧
    (Consistency.checkSpecs (.ofDocuments scatteredSpecs.reverse)
        (MarkerScan.merge scatteredScans.reverse).markers).Perm
      (Consistency.checkSpecs (.ofDocuments scatteredSpecs) (MarkerScan.merge scatteredScans).markers) ∧
    Consistency.checkSpecs (.ofDocuments scatteredSpecs.reverse)
        (MarkerScan.merge scatteredScans.reverse).markers ≠
      Consistency.checkSpecs (.ofDocuments scatteredSpecs) (MarkerScan.merge scatteredScans).markers := by
  have once : DefinedOnce scatteredSpecs := by
    unfold DefinedOnce
    decide +kernel
  obtain ⟨_, specs, _⟩ := order_of_files once (List.reverse_perm scatteredSpecs)
    (List.reverse_perm scatteredScans)
  exact ⟨once, specs, by decide +kernel⟩

end Traceability
