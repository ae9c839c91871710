import Traceability.Proofs.Live.History
import Traceability.Proofs.Marker.Span

/-!
# The marker at a place

What an index holds of a file of code are the markers of one scan, whatever calls led there and in
whatever order their pieces came. So at most one of them covers a place of the file.
-/
namespace Traceability

/-- What can become of a new index by commits in any order. -/
inductive LiveIndex.Reachable : LiveIndex → Prop
  | new (config : Config) (root : Path) : Reachable { config, root }
  | commit {i : LiveIndex} {c : Commit} (before : Reachable i) (made : c.Made) : Reachable (c.apply i)

namespace LiveIndex

variable {i : LiveIndex}

theorem Reachable.commits (before : Reachable i) {commits : List Commit}
    (made : ∀ c ∈ commits, c.Made) : Reachable (commits.foldl Commit.apply i) := by
  induction commits generalizing i with
  | nil => exact before
  | cons c rest ih =>
    obtain ⟨first, later⟩ := List.forall_mem_cons.mp made
    exact ih (before.commit first) later

theorem Reachable.call (before : Reachable i) (call : IndexCall) : Reachable (call.apply i) := by
  cases call with
  | rebuild d config root =>
    obtain ⟨commits, made, _, same⟩ := exists_commits_rebuild d config root i
    have reached := before.commits made
    rwa [same] at reached
  | updateFrom d path => exact before.commit (c := .update _) ⟨i, path, _, rfl⟩
  | updateWith path t => exact before.commit (c := .update _) ⟨i, path, _, rfl⟩
  | remove path => exact before.commit (c := .remove path.toText) trivial

/-- Calls that follow each other reach what their commits reach. -/
theorem Reachable.calls (before : Reachable i) (calls : List IndexCall) :
    Reachable (calls.foldl IndexCall.apply i) := by
  induction calls generalizing i with
  | nil => exact before
  | cons c rest ih => exact ih (before.call c)

/-- What holds where there are no files, and still holds when one is dropped or comes anew, holds of
every index. -/
theorem Reachable.invariant {P : IndexEntries → Prop} (nothing : P {})
    (drop : ∀ e path, P e → P (e.drop path))
    (insert : ∀ e (c : Contribution), c.Made → P e → P (e.insert c)) (reachable : Reachable i) :
    P i.entries := by
  have insertAll : ∀ (cs : List Contribution) (e : IndexEntries), (∀ c ∈ cs, c.Made) → P e →
      P (cs.foldl (fun e c => e.insert c) e) := by
    intro cs
    induction cs with
    | nil => exact fun e _ known => known
    | cons c rest ih =>
      intro e made known
      obtain ⟨first, later⟩ := List.forall_mem_cons.mp made
      exact ih (e.insert c) later (insert e c first known)
  induction reachable with
  | new config root => exact nothing
  | @commit i c _ made ih =>
    cases c with
    | start config root => exact ih
    | abandon config => exact ih
    | finish cs => exact insertAll cs {} made nothing
    | fail => exact nothing
    | update c => exact insert _ c made (drop _ c.path ih)
    | remove path => exact drop _ path ih

end LiveIndex

namespace IndexEntries

variable {e : IndexEntries}

/-! ## The markers of files -/

theorem markersByFile_foldl_dropDefinition (path : Text) (dropped : List Spec.Definition)
    (e : IndexEntries) :
    (dropped.foldl (dropDefinition path) e).markersByFile = e.markersByFile := by
  induction dropped generalizing e with
  | nil => rfl
  | cons d rest ih =>
    rw [List.foldl_cons, ih, dropDefinition_eq]

theorem markersByFile_drop (path : Text) (e : IndexEntries) :
    (e.drop path).markersByFile = e.markersByFile.erase path := by
  unfold drop
  dsimp only
  obtain ⟨_, result, _⟩ := foldl_dropMarker path ((e.markersByFile.get? path).getD []) _
  rw [result]
  dsimp only
  rw [markersByFile_foldl_dropDefinition]

theorem markersByFile_insert (c : Contribution) (e : IndexEntries) :
    (e.insert c).markersByFile =
      if c.markers = [] then e.markersByFile else e.markersByFile.insert c.path c.markers := by
  have kept : (e.addDefinitions c.path c.definitions).markersByFile = e.markersByFile := by
    unfold addDefinitions
    split <;> rfl
  unfold insert addMarkers
  split
  · exact kept
  · obtain ⟨_, result, _⟩ := foldl_addMarker c.markers
      { e.addDefinitions c.path c.definitions with
        markersByFile := (e.addDefinitions c.path c.definitions).markersByFile.insert c.path c.markers }
    rw [result, kept]

/-- Whether the markers of every file are those of one scan of it. -/
def Scanned (e : IndexEntries) : Prop :=
  ∀ path markers, e.markersByFile.get? path = some markers →
    ∃ tokens t, markers = (Marker.scan tokens path t).markers

theorem Scanned.nothing : Scanned {} := by
  intro path markers found
  cases found

theorem Scanned.drop (scanned : e.Scanned) (path : Text) : (e.drop path).Scanned := by
  intro other markers found
  rw [markersByFile_drop, OrderedMap.get?_erase] at found
  split at found
  · cases found
  · exact scanned other markers found

theorem exists_scan {c : Contribution} (made : c.Made) (marks : c.markers ≠ []) :
    ∃ tokens t, c.markers = (Marker.scan tokens c.path t).markers := by
  obtain ⟨i, path, text?, rfl⟩ := made
  obtain ⟨t, scanned⟩ := (i.contribution_markers path text?).resolve_left marks
  rw [LiveIndex.contribution_path]
  exact ⟨i.config.markers, t, scanned⟩

theorem Scanned.insert (scanned : e.Scanned) {c : Contribution} (made : c.Made) :
    (e.insert c).Scanned := by
  intro path markers found
  rw [markersByFile_insert] at found
  split at found
  · exact scanned path markers found
  · next marks =>
    rw [OrderedMap.get?_insert] at found
    split at found
    · next same =>
      cases found
      rw [same]
      exact exists_scan made marks
    · exact scanned path markers found

end IndexEntries

namespace LiveIndex

open IndexEntries Marker

variable {i : LiveIndex}

theorem Reachable.scanned (reachable : Reachable i) : i.entries.Scanned :=
  reachable.invariant Scanned.nothing (fun _ path scanned => scanned.drop path)
    fun _ _ made scanned => scanned.insert made

/-- The markers of a file in an index are those of one scan of it. -/
theorem Reachable.markersIn_eq (reachable : Reachable i) (path : Text) :
    i.markersIn path = [] ∨ ∃ tokens t, i.markersIn path = (scan tokens path t).markers := by
  rw [markersIn, visible]
  split
  · cases found : i.entries.markersByFile.get? path with
    | none => exact .inl rfl
    | some markers => exact .inr (reachable.scanned path markers found)
  · exact .inl rfl

theorem Reachable.pairwise_markersIn (reachable : Reachable i) (path : Text) :
    (i.markersIn path).Pairwise Precedes := by
  rcases reachable.markersIn_eq path with none | ⟨tokens, t, scanned⟩
  · rw [none]
    exact .nil
  · rw [scanned]
    exact pairwise_scan tokens path t

theorem isAt_iff {line character : Int} {m : Marker} : isAt line character m = true ↔
    (m.line : Int) = line + 1 ∧ (m.start : Int) ≤ character ∧ character < (m.stop : Int) := by
  simp only [isAt, Bool.and_eq_true, decide_eq_true_eq, and_assoc]

theorem not_isAt_of_precedes {line character : Int} {m m' : Marker} (precedes : m.Precedes m')
    (here : isAt line character m = true) : isAt line character m' = false := by
  rw [Bool.eq_false_iff]
  intro there
  rw [isAt_iff] at here there
  rcases precedes with below | ⟨_, behind⟩ <;> omega

/-- In a list in which no two items have a property, the first one that has it is the only one. -/
theorem filter_eq_toList_find? {α : Type} {p : α → Bool} {l : List α}
    (apart : l.Pairwise fun a b => p a = true → p b = false) : l.filter p = (l.find? p).toList := by
  induction apart with
  | nil => rfl
  | @cons a l first _ ih =>
    cases here : p a with
    | true =>
      have others : l.filter p = [] := by
        rw [List.filter_eq_nil_iff]
        intro b member
        rw [first b member here]
        exact Bool.false_ne_true
      rw [List.filter_cons_of_pos here, List.find?_cons_of_pos here, others]
      rfl
    | false =>
      have absent : ¬ p a = true := by simp [here]
      rw [List.filter_cons_of_neg absent, List.find?_cons_of_neg absent, ih]

theorem Reachable.filter_isAt (reachable : Reachable i) (path : Text) (line character : Int) :
    (i.markersIn path).filter (isAt line character) = (i.markerAt? path line character).toList :=
  filter_eq_toList_find? <| (reachable.pairwise_markersIn path).imp fun precedes here =>
    not_isAt_of_precedes precedes here

/-- The markers of a text stand in order and apart, each with the columns of its identifier; so of the
markers that an index knows in a file at most one is at a place, and that is the answer. -/
theorem markerAt?_unique :
    (∀ tokens path t, let markers := (scan tokens path t).markers
      (markers.Pairwise fun m m' =>
        m.line < m'.line ∨ m.line = m'.line ∧ m.start < m'.start) ∧
      (markers.Pairwise fun m m' => m.line = m'.line → m.stop ≤ m'.start) ∧
      ∀ m ∈ markers, m.Spans (Text.lines t)) ∧
    ∀ i, Reachable i → ∀ path line character,
      (∀ m, i.markerAt? path line character = some m ↔ m ∈ i.markersIn path ∧
        (m.line : Int) = line + 1 ∧ (m.start : Int) ≤ character ∧ character < (m.stop : Int)) ∧
      (i.markersIn path).filter (isAt line character) =
        (i.markerAt? path line character).toList := by
  refine ⟨fun tokens path t => ?_, fun i reachable path line character => ?_⟩
  · intro markers
    refine ⟨?_, ?_, fun m => spans_of_mem_scan⟩
    · refine (pairwise_scan tokens path t).imp_of_mem fun {m m'} member _ precedes => ?_
      have filled := (spans_of_mem_scan member).start_lt_stop
      exact precedes.imp_right fun ⟨same, behind⟩ => ⟨same, Nat.lt_of_lt_of_le filled behind⟩
    · refine (pairwise_scan tokens path t).imp fun {m m'} precedes same => ?_
      exact precedes.elim (fun below => absurd same (Nat.ne_of_lt below)) And.right
  · have alone := reachable.filter_isAt path line character
    refine ⟨fun m => ?_, alone⟩
    rw [← isAt_iff, ← List.mem_filter, alone, Option.mem_toList]

/-- A build, and then the text of a file with an identifier twice on a line, behind other blanks than
spaces. -/
def listingCalls : List IndexCall :=
  [.rebuild forgettingDisk forgettingConfig ⟨.root, ["p"]⟩,
    .updateWith (.ofText "/p/x.py") "\n# @spec-impl: X-1 (first),\u00a0\tY-2,X-1"]

/-- The second of three markers of a line is the one at its first column, and behind its last column
there is none. -/
theorem markerAt?_unique_listed :
    let i := listingCalls.foldl IndexCall.apply {}
    let second : Marker := ⟨.implementation, "Y-2", "/p/x.py", 2, 28, 31⟩
    i.Reachable ∧ i.state = .ready ∧ (i.markersIn "/p/x.py").map (·.id) = ["X-1", "Y-2", "X-1"] ∧
      i.markerAt? "/p/x.py" 1 28 = some second ∧
      (i.markersIn "/p/x.py").filter (isAt 1 28) = [second] ∧
      (i.markersIn "/p/x.py").filter (isAt 1 31) = [] := by
  intro i second
  have reachable : i.Reachable := (Reachable.new {} ⟨.root, []⟩).calls listingCalls
  obtain ⟨_, places⟩ := markerAt?_unique
  obtain ⟨answers, first⟩ := places i reachable "/p/x.py" 1 28
  obtain ⟨_, behind⟩ := places i reachable "/p/x.py" 1 31
  have here : i.markerAt? "/p/x.py" 1 28 = some second :=
    (answers second).mpr ⟨by decide +kernel, by decide⟩
  rw [here] at first
  exact ⟨reachable, by decide +kernel, by decide +kernel, here, first,
    behind.trans (by decide +kernel)⟩

end LiveIndex

end Traceability
