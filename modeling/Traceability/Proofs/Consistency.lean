import Traceability.Consistency
import Traceability.Proofs.Results
import Traceability.Proofs.Spec.Catalogue

/-!
# What the checks report

A check of code fails only for a configured form that cannot be used, and only when a marker needs the
form. Otherwise it reports marker by marker, and then the criteria that no test names. A check without
reports of a kind shows that there is nothing of that kind.
-/
namespace Traceability.Consistency

open Spec

variable {idPattern : Text} {c : Catalogue} {markers : List Marker} {findings : List Finding}

section Marker

variable {form : Except UnusablePattern PatternNode} {m : Marker}

/-- What a check may report about a marker. -/
def reportsOf (m : Marker) : List Finding :=
  if m.kind = .component then [orphanedMarker "Component marker" m]
  else [invalidFormat m, orphanedMarker "Marker" m]

theorem mem_reportsOf (checked : checkMarker c form m = .ok findings) :
    ∀ f ∈ findings, f ∈ reportsOf m := by
  unfold checkMarker at checked
  split at checked
  · next kind =>
    rw [reportsOf, if_pos kind]
    cases checked
    intro f member
    split at member
    · cases member
    · exact member
  · next kind =>
    rw [reportsOf, if_neg kind]
    cases form with
    | error e => cases checked
    | ok form =>
      cases checked
      intro f member
      rcases List.mem_append.mp member with format | orphan
      · split at format
        · cases format
        · exact List.mem_cons.mpr (.inl (List.mem_singleton.mp format))
      · split at orphan
        · cases orphan
        · exact List.mem_cons_of_mem _ orphan

theorem code_of_mem_reportsOf {f : Finding} (member : f ∈ reportsOf m) :
    f.code = .orphanedMarker ∨ f.code = .invalidIdFormat := by
  unfold reportsOf at member
  split at member
  · rw [List.mem_singleton.mp member]
    exact .inl rfl
  · rcases List.mem_pair.mp member with rfl | rfl
    · exact .inr rfl
    · exact .inl rfl

/-- A marker that is not reported as an orphan names something defined, as a component if it says so. -/
theorem defines_of_checkMarker (checked : checkMarker c form m = .ok findings)
    (found : ∀ f ∈ findings, f.code ≠ .orphanedMarker) :
    if m.kind = .component then c.definesAs .component m.id = true else c.defines m.id = true := by
  unfold checkMarker at checked
  split at checked
  · next kind =>
    rw [if_pos kind]
    cases checked
    by_contra undefined
    rw [if_neg undefined] at found
    exact found _ List.mem_cons_self rfl
  · next kind =>
    rw [if_neg kind]
    cases form with
    | error e => cases checked
    | ok form =>
      cases checked
      by_contra undefined
      rw [if_neg undefined] at found
      exact found _ (List.mem_append_right _ List.mem_cons_self) rfl

theorem defines_id_of_checkMarker (checked : checkMarker c form m = .ok findings)
    (found : ∀ f ∈ findings, f.code ≠ .orphanedMarker) : c.defines m.id = true := by
  have defined := defines_of_checkMarker checked found
  split at defined
  · exact Catalogue.defines_of_definesAs defined
  · exact defined

theorem checkMarker_eq_error {e : UnusablePattern} (failed : checkMarker c form m = .error e) :
    form = .error e ∧ m.kind ≠ .component := by
  unfold checkMarker at failed
  split at failed
  · cases failed
  · next kind =>
    cases form with
    | error e' =>
      cases failed
      exact ⟨rfl, kind⟩
    | ok form => cases failed

end Marker

/-! ## All markers -/

section Code

variable [CharacterNames]

theorem checkCode_eq_ok (checked : checkCode idPattern c markers = .ok findings) :
    ∃ perMarker, markers.mapM (checkMarker c (PatternNode.use {} idPattern)) = .ok perMarker ∧
      findings = perMarker.flatten ++ uncoveredCriteria c markers := by
  obtain ⟨perMarker, done, checked⟩ := bind_eq_ok_iff.mp checked
  cases checked
  exact ⟨perMarker, done, rfl⟩

/-- A check fails for a form that cannot be used, and that a marker needs. -/
theorem checkCode_eq_error {e : UnusablePattern} (failed : checkCode idPattern c markers = .error e) :
    PatternNode.use {} idPattern = .error e ∧ ∃ m ∈ markers, m.kind ≠ .component := by
  rcases bind_eq_error_iff.mp failed with marker | ⟨perMarker, _, never⟩
  · obtain ⟨m, member, here⟩ := exists_of_mapM_eq_error marker
    obtain ⟨unusable, kind⟩ := checkMarker_eq_error here
    exact ⟨unusable, m, member, kind⟩
  · cases never

/-- What a marker's own check reports is reported. -/
theorem exists_checkMarker (checked : checkCode idPattern c markers = .ok findings) {m : Marker}
    (member : m ∈ markers) : ∃ own, checkMarker c (PatternNode.use {} idPattern) m = .ok own ∧
      ∀ f ∈ own, f ∈ findings := by
  obtain ⟨perMarker, done, rfl⟩ := checkCode_eq_ok checked
  obtain ⟨own, here⟩ := mapM_isOk_iff.mp ⟨perMarker, done⟩ m member
  have among : own ∈ perMarker := (mem_of_mapM done).mpr ⟨m, member, here⟩
  exact ⟨own, here, fun f inside =>
    List.mem_append_left _ (List.mem_flatten.mpr ⟨own, among, inside⟩)⟩

/-- A marker that needs a form that cannot be used makes a check fail. -/
theorem checkCode_eq_error_iff {idPattern : Text} {e : UnusablePattern} :
    checkCode idPattern c markers = .error e ↔
      PatternNode.use {} idPattern = .error e ∧ ∃ m ∈ markers, m.kind ≠ .component := by
  refine ⟨checkCode_eq_error, fun ⟨unusable, m, member, kind⟩ => ?_⟩
  cases checked : checkCode idPattern c markers with
  | ok findings =>
    obtain ⟨own, here, _⟩ := exists_checkMarker checked member
    rw [unusable, checkMarker] at here
    split at here
    · next component => exact absurd component kind
    · cases here
  | error e' =>
    have unusable' := (checkCode_eq_error checked).1
    rw [unusable] at unusable'
    cases unusable'
    rfl

/-- Where no marker is reported as an orphan, every marker names something defined. -/
theorem defines_of_checkCode (checked : checkCode idPattern c markers = .ok findings)
    (found : ∀ f ∈ findings, f.code ≠ .orphanedMarker) {m : Marker} (member : m ∈ markers) :
    if m.kind = .component then c.definesAs .component m.id = true else c.defines m.id = true := by
  obtain ⟨own, here, among⟩ := exists_checkMarker checked member
  exact defines_of_checkMarker here fun f inside => found f (among f inside)

theorem defines_id_of_checkCode (checked : checkCode idPattern c markers = .ok findings)
    (found : ∀ f ∈ findings, f.code ≠ .orphanedMarker) {m : Marker} (member : m ∈ markers) :
    c.defines m.id = true := by
  obtain ⟨own, here, among⟩ := exists_checkMarker checked member
  exact defines_id_of_checkMarker here fun f inside => found f (among f inside)

/-- The reports about uncovered criteria are those of the criteria that no test names. -/
theorem filter_uncovered (checked : checkCode idPattern c markers = .ok findings) :
    findings.filter (·.code = .uncoveredCriterion) = uncoveredCriteria c markers := by
  obtain ⟨perMarker, done, rfl⟩ := checkCode_eq_ok checked
  have others : perMarker.flatten.filter (·.code = .uncoveredCriterion) = [] := by
    rw [List.filter_eq_nil_iff]
    intro f member
    obtain ⟨own, among, inside⟩ := List.mem_flatten.mp member
    obtain ⟨m, _, here⟩ := (mem_of_mapM done).mp among
    rcases code_of_mem_reportsOf (mem_reportsOf here f inside) with code | code
    · simp [code]
    · simp [code]
  have all : (uncoveredCriteria c markers).filter (·.code = .uncoveredCriterion) =
      uncoveredCriteria c markers := by
    rw [List.filter_eq_self]
    intro f member
    obtain ⟨d, _, rfl⟩ := List.mem_map.mp member
    rfl
  rw [List.filter_append, others, all, List.nil_append]

end Code

/-- Where no reference is reported as broken, every target is defined. -/
theorem defines_of_checkSpecs (found : ∀ f ∈ checkSpecs c markers, f.code ≠ .brokenCrossRef)
    {d : Document} (document : d ∈ c.documents) {r : CrossReference} (member : r ∈ d.crossRefs)
    {target : Text} (aimed : target ∈ r.targets) : c.defines target = true := by
  by_contra undefined
  refine found (brokenReference d.path r target) ?_ rfl
  refine List.mem_append_left _ (List.mem_flatMap.mpr ⟨d, document, ?_⟩)
  refine List.mem_flatMap.mpr ⟨r, member, List.mem_map.mpr ⟨target, ?_, rfl⟩⟩
  exact List.mem_filter.mpr ⟨aimed, by simpa using undefined⟩

end Traceability.Consistency
