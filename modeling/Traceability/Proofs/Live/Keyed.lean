import Traceability.Proofs.Live.Cursor

/-!
# Definitions under their identifiers, files under their paths

In whatever order commits come, a live index holds every definition in force under its own identifier,
each identifier once, and the markers of every file once. Where it was told of files by their paths, all
that it knows lies in files with paths.
-/
namespace Traceability

open Spec

namespace IndexEntries

/-- Whether definitions stand under their own identifiers, and no identifier and no file stands twice. -/
structure Keyed (e : IndexEntries) : Prop where
  defined : e.definitions.keys.Nodup
  own : ∀ id d, e.definitions.get? id = some d → d.id = id
  marked : e.markersByFile.keys.Nodup

variable {e : IndexEntries}

theorem id_of_survivor? {id : Text} {d : Definition} (left : e.survivor? id = some d) :
    d.id = id := by
  have member := List.mem_of_getLast? left
  exact of_decide_eq_true (List.mem_filter.mp member).2

namespace Keyed

theorem nothing : Keyed {} :=
  ⟨List.nodup_nil, nofun, List.nodup_nil⟩

theorem dropDefinition (keyed : e.Keyed) (path : Text) (d : Definition) :
    (dropDefinition path e d).Keyed := by
  refine ⟨nodup_keys_dropDefinition path keyed.defined d, fun id d' found => ?_, ?_⟩
  · rw [get?_dropDefinition] at found
    split at found
    · exact id_of_survivor? found
    · exact keyed.own id d' found
  · rw [dropDefinition_eq]
    exact keyed.marked

theorem drop (keyed : e.Keyed) (path : Text) : (e.drop path).Keyed := by
  have dropAll : ∀ (dropped : List Definition) (e : IndexEntries), e.Keyed →
      (dropped.foldl (IndexEntries.dropDefinition path) e).Keyed := by
    intro dropped
    induction dropped with
    | nil => exact fun e keyed => keyed
    | cons d rest ih => exact fun e keyed => ih _ (keyed.dropDefinition path d)
  unfold IndexEntries.drop
  dsimp only
  have kept := dropAll ((e.definitionsByFile.get? path).getD [])
    { e with definitionsByFile := e.definitionsByFile.erase path }
    ⟨keyed.defined, keyed.own, keyed.marked⟩
  obtain ⟨_, result, _⟩ := foldl_dropMarker path ((e.markersByFile.get? path).getD []) _
  rw [result]
  exact ⟨kept.defined, kept.own, OrderedMap.nodup_keys_erase kept.marked path⟩

theorem insert (keyed : e.Keyed) (c : Contribution) : (e.insert c).Keyed := by
  have defined : (e.addDefinitions c.path c.definitions).Keyed := by
    refine ⟨?_, fun id d found => ?_, ?_⟩
    · unfold addDefinitions
      split
      · exact keyed.defined
      · exact OrderedMap.nodup_keys_insertAll keyed.defined _
    · rw [get?_addDefinitions, Option.or_eq_some_iff] at found
      rcases found with new | ⟨_, old⟩
      · exact (mem_of_lastDefinition? new).2
      · exact keyed.own id d old
    · unfold addDefinitions
      split <;> exact keyed.marked
  unfold IndexEntries.insert addMarkers
  split
  · exact defined
  · obtain ⟨_, result, _⟩ := foldl_addMarker c.markers
      { e.addDefinitions c.path c.definitions with
        markersByFile :=
          (e.addDefinitions c.path c.definitions).markersByFile.insert c.path c.markers }
    rw [result]
    exact ⟨defined.defined, defined.own, OrderedMap.nodup_keys_insert defined.marked c.path c.markers⟩

theorem entries_eq (keyed : e.Keyed) :
    e.definitions.entries = e.definitions.values.map fun d => (d.id, d) := by
  rw [OrderedMap.values, List.map_map]
  refine (List.map_id _).symm.trans (List.map_congr_left fun entry member => ?_)
  have own := keyed.own _ _ ((OrderedMap.mem_entries_iff keyed.defined).mp member)
  exact Prod.ext own.symm rfl

theorem map_id_values (keyed : e.Keyed) : e.definitions.values.map (·.id) = e.definitions.keys := by
  rw [OrderedMap.keys, keyed.entries_eq, List.map_map]
  rfl

theorem mem_values_iff (keyed : e.Keyed) {d : Definition} :
    d ∈ e.definitions.values ↔ e.definitions.get? d.id = some d := by
  rw [OrderedMap.mem_values_iff keyed.defined]
  refine ⟨fun ⟨id, found⟩ => ?_, fun found => ⟨_, found⟩⟩
  rwa [keyed.own id d found]

end Keyed

end IndexEntries

namespace LiveIndex

open IndexEntries (Keyed)

variable {i : LiveIndex}

theorem Reachable.keyed (reachable : Reachable i) : i.visible.Keyed := by
  rw [visible]
  split
  · exact reachable.invariant .nothing (fun _ path keyed => keyed.drop path)
      fun _ c _ keyed => keyed.insert c
  · exact .nothing

/-- Of some kinds an index lists what it answers with. -/
theorem mem_definitionsOf_iff (keyed : i.visible.Keyed) {kinds : List IdKind} {d : Definition} :
    d ∈ i.definitionsOf kinds ↔ i.definition? d.id = some d ∧ d.kind ∈ kinds := by
  rw [definitionsOf, List.mem_filter, keyed.mem_values_iff, decide_eq_true_iff]
  rfl

theorem nodup_definitionsOf (keyed : i.visible.Keyed) (kinds : List IdKind) :
    ((i.definitionsOf kinds).map (·.id)).Nodup := by
  have once : (i.visible.definitions.values.map (·.id)).Nodup := by
    rw [keyed.map_id_values]
    exact keyed.defined
  exact once.sublist (List.filter_sublist.map _)

/-! ## Files with paths -/

/-- Whether all that an index shows, markers and definitions, lies in files with the texts of paths. -/
structure Located (i : LiveIndex) : Prop where
  marked : ∀ file ∈ i.markerFiles, ∃ p : Path, p.Proper ∧ p.toText = file.1
  defining : ∀ id d, i.definition? id = some d → ∃ p : Path, p.Proper ∧ p.toText = d.location.path

end LiveIndex

/-- Whether a contribution is of a file with the text of a path. -/
def Contribution.HasPath (c : Contribution) : Prop := ∃ p : Path, p.Proper ∧ p.toText = c.path

/-- Whether a call is of a disk that there can be, or of a path. -/
def IndexCall.Proper : IndexCall → Prop
  | rebuild d _ _ => d.Sound
  | updateFrom _ path => path.Proper
  | updateWith path _ => path.Proper
  | remove path => path.Proper

instance : (c : IndexCall) → Decidable c.Proper
  | .rebuild d _ _ => inferInstanceAs (Decidable d.Sound)
  | .updateFrom _ path => inferInstanceAs (Decidable path.Proper)
  | .updateWith path _ => inferInstanceAs (Decidable path.Proper)
  | .remove path => inferInstanceAs (Decidable path.Proper)

namespace LiveIndex

open IndexEntries

variable {i : LiveIndex} {files : List Contribution}

theorem hasPath_contribution (i : LiveIndex) {path : Path} (proper : path.Proper)
    (text? : Option Text) : (i.contribution path text?).HasPath :=
  ⟨path, proper, (i.contribution_path path text?).symm⟩

/-- Whether an index holds what files with paths say. -/
def HoldsPaths (i : LiveIndex) : Prop :=
  ∃ files, Represents files i.entries ∧ ∀ c ∈ files, c.HasPath

theorem HoldsPaths.update (holds : i.HoldsPaths) {path : Path} (proper : path.Proper)
    (text? : Option Text) : (i.commit (i.contribution path text?)).HoldsPaths := by
  obtain ⟨files, represents, paths⟩ := holds
  refine ⟨_, represents.update (i.contribution_local path text?), fun c member => ?_⟩
  rcases List.mem_append.mp member with old | new
  · exact paths c (List.mem_of_mem_filter old)
  · rw [List.mem_singleton.mp new]
    exact i.hasPath_contribution proper text?

theorem HoldsPaths.rebuild (holds : i.HoldsPaths) {d : Disk} (sound : d.Sound) (config : Config)
    (root : Path) : (i.rebuild d config root).1.HoldsPaths := by
  have ended := i.rebuilt_rebuild d config root
  generalize i.rebuild d config root = result at ended ⊢
  cases ended with
  | lost => exact holds
  | failed => exact ⟨[], .nil, nofun⟩
  | finished resolved listed =>
    have proper := proper_of_mem_filesOf sound (Disk.direct_of_resolve sound resolved) listed
    refine ⟨_, represents_contributions _ d (nodup_filesOf listed) proper, fun c member => ?_⟩
    obtain ⟨path, among, rfl⟩ := List.mem_map.mp member
    exact hasPath_contribution _ (proper path among) _

theorem HoldsPaths.call (holds : i.HoldsPaths) {call : IndexCall} (proper : call.Proper) :
    (call.apply i).HoldsPaths := by
  cases call with
  | rebuild d config root => exact holds.rebuild proper config root
  | updateFrom d path => exact holds.update proper _
  | updateWith path t => exact holds.update proper _
  | remove path =>
    obtain ⟨files, represents, paths⟩ := holds
    exact ⟨_, represents.drop path.toText, fun c member => paths c (List.mem_of_mem_filter member)⟩

theorem HoldsPaths.calls (holds : i.HoldsPaths) {calls : List IndexCall}
    (proper : ∀ c ∈ calls, c.Proper) : (calls.foldl IndexCall.apply i).HoldsPaths := by
  induction calls generalizing i with
  | nil => exact holds
  | cons c rest ih =>
    obtain ⟨first, later⟩ := List.forall_mem_cons.mp proper
    exact ih (holds.call first) later

theorem HoldsPaths.located (holds : i.HoldsPaths) : i.Located := by
  obtain ⟨files, represents, paths⟩ := holds
  by_cases ready : i.state = .ready
  · refine ⟨fun file member => ?_, fun id d defined => ?_⟩
    · rw [markerFiles, visible_of_ready ready, represents.markersByFile] at member
      obtain ⟨c, known, rfl⟩ := List.mem_map.mp member
      exact paths c (List.mem_of_mem_filter known)
    · rw [definition?_of_represents ready represents] at defined
      obtain ⟨c, known, stated⟩ := List.mem_flatMap.mp (mem_of_lastDefinition? defined).1
      rw [(represents.located c known).1 d stated]
      exact paths c known
  -- What is not ready shows nothing, whatever it holds.
  · have silent := silent_of_ne_ready ready
    refine ⟨fun file member => ?_, fun id d defined => ?_⟩
    · rw [silent.files] at member
      cases member
    · rw [silent.definition id] at defined
      cases defined

/-- Behind calls for paths all that an index shows lies in files with paths. -/
theorem located_of_calls (config : Config) (root : Path) {calls : List IndexCall}
    (proper : ∀ c ∈ calls, c.Proper) :
    (calls.foldl IndexCall.apply { config, root }).Located := by
  have blank : HoldsPaths { config, root } := ⟨[], .nil, nofun⟩
  exact (blank.calls proper).located

end LiveIndex

end Traceability
