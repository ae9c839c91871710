import Traceability.Command.Readers
import Traceability.Editor.Feature
import Traceability.Proofs.Consistency
import Traceability.Proofs.Live.Cursor

/-!
# Orphans in the editor and in the checks

A check asks a catalogue what an identifier is, an editor asks the live index. Where the two tell the
same of every identifier, both take the same markers for orphans, but for a component marker of what is
no component, which only the check reports.
-/
namespace Traceability

open Spec

namespace Consistency

variable {idPattern : Text} {c : Catalogue} {markers : List Marker} {findings own : List Finding}
  {form : Except UnusablePattern PatternNode} {m m' : Marker}

/-! ## Orphans of a check -/

/-- Whether a marker names nothing that it can be of. -/
def isOrphan (c : Catalogue) (m : Marker) : Bool :=
  if m.kind = .component then !c.definesAs .component m.id else !c.defines m.id

def orphanReport (m : Marker) : Finding :=
  orphanedMarker (if m.kind = .component then "Component marker" else "Marker") m

theorem filter_checkMarker (checked : checkMarker c form m = .ok own) :
    own.filter (·.code = .orphanedMarker) = if isOrphan c m then [orphanReport m] else [] := by
  unfold checkMarker at checked
  split at checked
  · next kind =>
    cases checked
    rw [isOrphan, orphanReport, if_pos kind, if_pos kind]
    cases c.definesAs .component m.id with
    | true => rfl
    | false => rfl
  · next kind =>
    rw [isOrphan, orphanReport, if_neg kind, if_neg kind]
    cases form with
    | error e => cases checked
    | ok form =>
      cases checked
      rw [List.filter_append]
      have formats : (if form.matchesAll m.id then [] else [invalidFormat m]).filter
          (·.code = .orphanedMarker) = [] := by
        split
        · rfl
        · rfl
      rw [formats, List.nil_append]
      cases c.defines m.id with
      | true => rfl
      | false => rfl

/-- The reports about orphans are those of the orphans among the markers, in their order. -/
theorem filter_orphaned [CharacterNames] (checked : checkCode idPattern c markers = .ok findings) :
    findings.filter (·.code = .orphanedMarker) = (markers.filter (isOrphan c)).map orphanReport := by
  obtain ⟨perMarker, done, rfl⟩ := checkCode_eq_ok checked
  have others : (uncoveredCriteria c markers).filter (·.code = .orphanedMarker) = [] := by
    rw [List.filter_eq_nil_iff]
    intro f member
    obtain ⟨d, _, rfl⟩ := List.mem_map.mp member
    exact Bool.false_ne_true
  rw [List.filter_append, others, List.append_nil]
  have all := mapM_eq_ok_iff.mp done
  clear checked done others
  induction all with
  | nil => rfl
  | @cons m own _ _ first _ ih =>
    rw [List.flatten_cons, List.filter_append, ih, filter_checkMarker first, List.filter_cons]
    split
    · rfl
    · rfl

/-- A report about an orphan tells its identifier, and whether it is of a component. -/
theorem isOrphan_of_orphanReport_eq (same : orphanReport m = orphanReport m') :
    isOrphan c m = isOrphan c m' := by
  have id : m.id = m'.id := Option.some.inj (congrArg Finding.id same)
  -- The messages about components and about other markers differ in their first letters.
  have message := congrArg (fun f : Finding => f.message.head?) same
  rw [isOrphan, isOrphan, id]
  by_cases kind : m.kind = .component
  · by_cases kind' : m'.kind = .component
    · rw [if_pos kind, if_pos kind']
    · rw [orphanReport, orphanReport, if_pos kind, if_neg kind'] at message
      cases message
  · by_cases kind' : m'.kind = .component
    · rw [orphanReport, orphanReport, if_neg kind, if_pos kind'] at message
      cases message
    · rw [if_neg kind, if_neg kind']

theorem orphanReport_mem_iff [CharacterNames]
    (checked : checkCode idPattern c markers = .ok findings)
    (member : m ∈ markers) : orphanReport m ∈ findings ↔ isOrphan c m = true := by
  have among : orphanReport m ∈ findings ↔
      orphanReport m ∈ findings.filter (·.code = .orphanedMarker) := by
    rw [List.mem_filter]
    exact (and_iff_left rfl).symm
  rw [among, filter_orphaned checked, List.mem_map]
  constructor
  · rintro ⟨m', inside, same⟩
    rw [← isOrphan_of_orphanReport_eq same]
    exact (List.mem_filter.mp inside).2
  · exact fun orphan => ⟨m, List.mem_filter.mpr ⟨member, orphan⟩, rfl⟩

end Consistency

namespace Editor

open Consistency (checkCode isOrphan orphanReport orphanReport_mem_iff)
open LiveIndex (Reachable)

variable {i : LiveIndex} {c : Catalogue} {idPattern : Text} {findings : List Finding} {path : Path}
  {m : Marker}

/-! ## Orphans in an editor -/

/-- What an editor shows of a marker that names nothing. -/
def orphanDiagnostic (m : Marker) : Diagnostic :=
  ⟨.ofMarker m, "Orphaned marker: '" ++ m.id ++ "' is not defined in any spec file"⟩

/-- Whether a marker is of a component, and what it names is defined as something else. -/
def misnamed (c : Catalogue) (m : Marker) : Bool :=
  m.kind = .component && c.defines m.id && !c.definesAs .component m.id

theorem isNone_definition?_iff (told : ∀ id, c.definitions.get? id = i.definition? id) :
    (i.definition? m.id).isNone = true ↔ isOrphan c m = true ∧ misnamed c m = false := by
  rw [← told, isOrphan, misnamed, Catalogue.defines, OrderedMap.hasKey, Catalogue.definesAs]
  by_cases kind : m.kind = .component
  · rw [if_pos kind]
    cases c.definitions.get? m.id with
    | none => simp
    | some d => simp [kind]
  · rw [if_neg kind]
    cases c.definitions.get? m.id with
    | none => simp [kind]
    | some d => simp

theorem diagnostics_eq [CharacterNames] (told : ∀ id, c.definitions.get? id = i.definition? id)
    (checked : checkCode idPattern c (i.markersIn path.toText) = .ok findings) :
    diagnostics i path =
      ((i.markersIn path.toText).filter fun m =>
        decide (orphanReport m ∈ findings) && !misnamed c m).map orphanDiagnostic := by
  rw [diagnostics]
  refine congrArg (List.map orphanDiagnostic) (List.filter_congr fun m member => ?_)
  rw [Bool.eq_iff_iff, isNone_definition?_iff told, ← orphanReport_mem_iff checked member,
    Bool.and_eq_true, decide_eq_true_iff, Bool.not_eq_true']

/-- No two markers of a file have the same range. -/
theorem nodup_spans (reachable : Reachable i) (path : Text) :
    ((i.markersIn path).map Span.ofMarker).Nodup := by
  rcases reachable.markersIn_eq path with none | ⟨tokens, t, scanned⟩
  · rw [none]
    exact .nil
  · rw [scanned]
    refine List.pairwise_map.mpr ((Marker.pairwise_scan tokens path t).imp_of_mem ?_)
    intro m m' member member' precedes same
    have positive := Marker.one_le_line_of_mem_scan member
    have positive' := Marker.one_le_line_of_mem_scan member'
    have filled := (Marker.spans_of_mem_scan member).start_lt_stop
    injection same with line start stop
    rcases precedes with below | ⟨_, behind⟩
    · omega
    · omega

theorem exists_diagnostic_iff [CharacterNames] (reachable : Reachable i)
    (told : ∀ id, c.definitions.get? id = i.definition? id)
    (checked : checkCode idPattern c (i.markersIn path.toText) = .ok findings)
    (member : m ∈ i.markersIn path.toText) (kind : m.kind ≠ .component) :
    (∃ g ∈ diagnostics i path, g.span = .ofMarker m) ↔ orphanReport m ∈ findings := by
  have named : misnamed c m = false := by simp [misnamed, kind]
  rw [diagnostics_eq told checked]
  constructor
  · rintro ⟨g, shown, span⟩
    obtain ⟨m', inside, rfl⟩ := List.mem_map.mp shown
    obtain ⟨member', reported⟩ := List.mem_filter.mp inside
    obtain rfl : m' = m := List.inj_on_of_nodup_map (nodup_spans reachable _) member' member span
    exact of_decide_eq_true (Bool.and_eq_true_iff.mp reported).1
  · intro reported
    refine ⟨orphanDiagnostic m, List.mem_map_of_mem (List.mem_filter.mpr ⟨member, ?_⟩), rfl⟩
    simp [reported, named]

/-- An index tells of an identifier what the catalogue of its files tells, whatever displaced and
restored the definition. -/
theorem get?_ofDocuments_eq {config : Config} {root : Path} {commits : List Commit}
    (sound : ∀ c ∈ commits, c.Sound)
    (ready : (commits.foldl Commit.apply { config, root }).state = .ready) {documents : List Document}
    (same : documents.flatMap (·.definitions) =
      (commits.foldl Commit.filesAfter []).flatMap (·.definitions)) (id : Text) :
    (Catalogue.ofDocuments documents).definitions.get? id =
      (commits.foldl Commit.apply { config, root }).definition? id := by
  have blank : IndexEntries.Represents [] ({ config, root } : LiveIndex).entries := .nil
  obtain ⟨represents, _⟩ := Commit.run_represents blank nofun sound
  rw [LiveIndex.definition?_of_represents ready represents, Catalogue.get?_ofDocuments, same]

/-- An editor shows a range for every marker that a check of the markers of a file reports as an
orphan, in their order, but not for a component marker of what is no component. For this an index tells
what the catalogue of its files tells. -/
theorem diagnostics_agree [CharacterNames] :
    (∀ i, Reachable i → ∀ c : Catalogue, (∀ id, c.definitions.get? id = i.definition? id) →
      ∀ (path : Path) idPattern,
        let markers := i.markersIn path.toText
        (markers.map Span.ofMarker).Nodup ∧
          (∀ e, checkCode idPattern c markers = .error e ↔
            PatternNode.use {} idPattern = .error e ∧ ∃ m ∈ markers, m.kind ≠ .component) ∧
          ∀ findings, checkCode idPattern c markers = .ok findings →
            findings.filter (·.code = .orphanedMarker) =
                (markers.filter (isOrphan c)).map orphanReport ∧
              diagnostics i path =
                (markers.filter fun m =>
                  decide (orphanReport m ∈ findings) && !misnamed c m).map orphanDiagnostic ∧
              ∀ m ∈ markers, m.kind ≠ .component →
                ((∃ g ∈ diagnostics i path, g.span = .ofMarker m) ↔ orphanReport m ∈ findings)) ∧
      ∀ config root (commits : List Commit), (∀ c ∈ commits, c.Sound) →
        let i := commits.foldl Commit.apply { config, root }
        let files := commits.foldl Commit.filesAfter []
        i.state = .ready → ∀ documents : List Document,
          documents.flatMap (·.definitions) = files.flatMap (·.definitions) →
            ∀ id, (Catalogue.ofDocuments documents).definitions.get? id = i.definition? id := by
  refine ⟨fun i reachable c told path idPattern => ?_, ?_⟩
  · refine ⟨nodup_spans reachable _, fun e => Consistency.checkCode_eq_error_iff, ?_⟩
    intro findings checked
    exact ⟨Consistency.filter_orphaned checked, diagnostics_eq told checked,
      fun m member kind => exists_diagnostic_iff reachable told checked member kind⟩
  · intro config root commits sound i files ready documents same
    exact get?_ofDocuments_eq sound ready same

/-- Two specs define a requirement, the second one a component as well; code names them, and then the
second spec goes. -/
def orphaningCommits : List Commit :=
  let i : LiveIndex := { config := { specGlobs := ["*.md"] }, root := ⟨.root, ["p"]⟩ }
  let first := i.contribution (.ofText "/p/a.md") (some "### X-1: First")
  let second := i.contribution (.ofText "/p/b.md") (some "### X-1: Second\n### X-Loader")
  let code := i.contribution (.ofText "/p/c.py")
    (some "# @spec-impl: X-1, Y-9\n# @spec-component: X-1, X-Loader")
  [.start i.config i.root, .finish [first, second, code], .remove second.path]

/-- The check reports the requirement that is marked as a component, and the editor does not. -/
theorem diagnostics_agree_orphaning :
    let i := orphaningCommits.foldl Commit.apply {}
    let c := Catalogue.ofDocuments [Document.read [] "/p/a.md" "### X-1: First"]
    let markers := i.markersIn "/p/c.py"
    Reachable i ∧ i.state = .ready ∧ (∀ c ∈ orphaningCommits, c.Sound) ∧
      (∀ id, c.definitions.get? id = i.definition? id) ∧
      ∃ findings, checkCode "X-.*" c markers = .ok findings ∧
        (findings.filter (·.code = .orphanedMarker)).map (·.id) =
          [some "Y-9".toList, some "X-1".toList, some "X-Loader".toList] ∧
        (diagnostics i (.ofText "/p/c.py")).map (·.span) = [⟨0, 19, 22⟩, ⟨1, 24, 32⟩] ∧
        ∀ m ∈ markers, m.kind ≠ .component →
          ((∃ g ∈ diagnostics i (.ofText "/p/c.py"), g.span = .ofMarker m) ↔
            orphanReport m ∈ findings) := by
  intro i c markers
  have reachable : Reachable i := by
    refine (Reachable.new {} ⟨.root, []⟩).commits ?_
    simp only [orphaningCommits, Commit.Made, List.forall_mem_cons]
    exact ⟨trivial, ⟨⟨_, _, _, rfl⟩, ⟨_, _, _, rfl⟩, ⟨_, _, _, rfl⟩, List.forall_mem_nil _⟩, trivial,
      List.forall_mem_nil _⟩
  have ready : i.state = .ready := by decide +kernel
  have sound : ∀ c ∈ orphaningCommits, c.Sound := by decide +kernel
  obtain ⟨agree, merged⟩ := diagnostics_agree
  have told := merged {} ⟨.root, []⟩ orphaningCommits sound ready
    [Document.read [] "/p/a.md" "### X-1: First"] (by decide +kernel)
  obtain ⟨_, _, checks⟩ := agree i reachable c told (.ofText "/p/c.py") "X-.*"
  obtain ⟨findings, checked⟩ : ∃ findings, checkCode "X-.*" c markers = .ok findings :=
    exists_of_isOk (by decide +kernel)
  obtain ⟨orphans, _, shown⟩ := checks findings checked
  refine ⟨reachable, ready, sound, told, findings, checked, ?_, by decide +kernel, shown⟩
  rw [orphans]
  decide +kernel

end Editor

end Traceability
