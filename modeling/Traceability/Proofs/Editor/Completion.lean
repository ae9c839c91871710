import Traceability.Editor.Feature
import Traceability.Proofs.Identifier
import Traceability.Proofs.Live.Keyed

/-!
# Completions in order

The text by which a completion is sorted tells its identifier, so no two completions of a list compare
alike. Their order then is that of their identifiers and not that of the definitions in the index, which
depends on all that happened to it.
-/
namespace Traceability

namespace Editor

open Spec (Definition)
open LiveIndex (Reachable)

variable {i j : LiveIndex} {d : Definition} {kinds : List IdKind} {line : Text} {character : Int}

/-! ## Sort texts -/

/-- The text by which the completion of an identifier is sorted. -/
def sortText (id : Text) : Text := Identifier.featureCode id ++ "-" ++ id

/-- No code of a feature holds the hyphen behind it, so the identifier is all behind the first one. -/
theorem sortText_injective {id id' : Text} (same : sortText id = sortText id') : id = id' := by
  have split (id : Text) : sortText id = Identifier.featureCode id ++ '-' :: id :=
    List.append_assoc _ _ _
  rw [split, split] at same
  exact Text.eq_behind_first (Identifier.not_mem_featureCode id) (Identifier.not_mem_featureCode id')
    same

/-- Whether a completion is sorted before another one. -/
def Completion.Before (x y : Completion) : Prop :=
  Text.le x.sortKey y.sortKey = true ∧ x.sortKey ≠ y.sortKey

theorem Completion.Before.asymm {x y : Completion} (before : x.Before y) : ¬ y.Before x :=
  fun behind => before.2 (Text.le_antisymm before.1 behind.1)

/-! ## What is offered -/

theorem fittingKinds_cases (c : Config) (before : Text) :
    fittingKinds c before = [] ∨ fittingKinds c before = [.component] ∨
      fittingKinds c before = [.criterion, .property] := by
  unfold fittingKinds
  split
  · split
    · exact .inr (.inl rfl)
    · split
      · exact .inr (.inr rfl)
      · exact .inl rfl
  · exact .inl rfl

/-- The completions of an index for some kinds, in order. -/
def offered (i : LiveIndex) (kinds : List IdKind) : List Completion :=
  sortBy (fun a b => Text.le a.sortKey b.sortKey) ((i.definitionsOf kinds).map (completion i))

theorem offered_perm (i : LiveIndex) (kinds : List IdKind) :
    (offered i kinds).Perm ((i.definitionsOf kinds).map (completion i)) :=
  sortBy_perm _ _

theorem labels_offered_perm (i : LiveIndex) (kinds : List IdKind) :
    ((offered i kinds).map (·.label)).Perm ((i.definitionsOf kinds).map (·.id)) := by
  have labels := (offered_perm i kinds).map (·.label)
  rwa [List.map_map] at labels

theorem mem_offered_iff (keyed : i.visible.Keyed) {x : Completion} :
    x ∈ offered i kinds ↔ ∃ id d, i.definition? id = some d ∧ d.kind ∈ kinds ∧
      x = completion i d := by
  rw [(offered_perm i kinds).mem_iff, List.mem_map]
  constructor
  · rintro ⟨d, member, rfl⟩
    obtain ⟨defined, kind⟩ := (LiveIndex.mem_definitionsOf_iff keyed).mp member
    exact ⟨d.id, d, defined, kind, rfl⟩
  · rintro ⟨id, d, defined, kind, rfl⟩
    have own : d.id = id := keyed.own id d defined
    exact ⟨d, (LiveIndex.mem_definitionsOf_iff keyed).mpr ⟨own ▸ defined, kind⟩, rfl⟩

theorem nodup_labels_offered (keyed : i.visible.Keyed) (kinds : List IdKind) :
    ((offered i kinds).map (·.label)).Nodup :=
  (labels_offered_perm i kinds).nodup_iff.mpr (LiveIndex.nodup_definitionsOf keyed kinds)

theorem sortKey_of_mem_offered {x : Completion} (member : x ∈ offered i kinds) :
    x.sortKey = sortText x.label := by
  obtain ⟨d, _, rfl⟩ := List.mem_map.mp ((offered_perm i kinds).mem_iff.mp member)
  rfl

theorem pairwise_before_offered (keyed : i.visible.Keyed) (kinds : List IdKind) :
    (offered i kinds).Pairwise Completion.Before := by
  have distinct : (offered i kinds).Pairwise fun x y => x.label ≠ y.label :=
    List.pairwise_map.mp (nodup_labels_offered keyed kinds)
  have sorted : (offered i kinds).Pairwise fun x y => Text.le x.sortKey y.sortKey = true :=
    pairwise_sortBy (fun (x y : Completion) => Text.le_total x.sortKey y.sortKey)
      (fun _ _ _ => Text.le_trans) _
  -- Sorting alone lets neighbours have the same sort text; then they would have the same label.
  refine (sorted.and distinct).imp_of_mem fun {x y} memberX memberY both => ⟨both.1, ?_⟩
  rw [sortKey_of_mem_offered memberX, sortKey_of_mem_offered memberY]
  exact mt sortText_injective both.2

/-! ## Two indexes -/

/-- Whether two indexes have the same root and settings, and tell the same but for the order of places. -/
structure Alike (i j : LiveIndex) : Prop where
  root : i.root = j.root
  config : i.config = j.config
  definition : ∀ id, i.definition? id = j.definition? id
  places : ∀ kind id, (i.placesOf kind id).Perm (j.placesOf kind id)

theorem Alike.usage (alike : Alike i j) (id : Text) (label : Nat → Text → Text) :
    usage i id label = usage j id label := by
  have counts (kind : MarkerKind) : (i.placesOf kind id).length = (j.placesOf kind id).length :=
    (alike.places kind id).length_eq
  rw [Editor.usage, Editor.usage, implCount, implCount, testCount, testCount, counts, counts]

theorem Alike.completion (alike : Alike i j) (d : Definition) : completion i d = completion j d := by
  rw [Editor.completion, Editor.completion, alike.usage, placeText, placeText, LiveIndex.relative,
    LiveIndex.relative, alike.root]

theorem Alike.definitionsOf (alike : Alike i j) (keyed : i.visible.Keyed) (keyed' : j.visible.Keyed)
    (kinds : List IdKind) : (i.definitionsOf kinds).Perm (j.definitionsOf kinds) := by
  have once := (LiveIndex.nodup_definitionsOf keyed kinds).of_map
  have once' := (LiveIndex.nodup_definitionsOf keyed' kinds).of_map
  refine (List.perm_ext_iff_of_nodup once once').mpr fun d => ?_
  rw [LiveIndex.mem_definitionsOf_iff keyed, LiveIndex.mem_definitionsOf_iff keyed',
    alike.definition]

theorem Alike.offered (alike : Alike i j) (keyed : i.visible.Keyed) (keyed' : j.visible.Keyed)
    (kinds : List IdKind) : offered i kinds = offered j kinds := by
  have perm : (Editor.offered i kinds).Perm (Editor.offered j kinds) := by
    refine (offered_perm i kinds).trans (.trans ?_ (offered_perm j kinds).symm)
    rw [List.map_congr_left fun d _ => alike.completion d]
    exact (alike.definitionsOf keyed keyed' kinds).map _
  exact perm.eq_of_pairwise (fun x y _ _ before behind => absurd behind before.asymm)
    (pairwise_before_offered keyed kinds) (pairwise_before_offered keyed' kinds)

/-- There is one completion for each identifier that is defined as something that fits, and the
completions ascend by sort texts that tell their identifiers. So indexes that tell the same offer the
same, whatever happened to them. -/
theorem completions_alike :
    (∀ i, Reachable i → ∀ line character,
      let kinds := fittingKinds i.config (sliceBetween 0 character line)
      let items := completions i line character
      (kinds = [] ∨ kinds = [.component] ∨ kinds = [.criterion, .property]) ∧
        (items.map (·.label)).Nodup ∧
        (∀ x, x ∈ items ↔ ∃ id d, i.definition? id = some d ∧ d.kind ∈ kinds ∧
          x = completion i d) ∧
        (∀ id d, i.definition? id = some d → (completion i d).label = id ∧
          (completion i d).sortKey = sortText id) ∧
        items.Pairwise Completion.Before) ∧
      (∀ id id', sortText id = sortText id' → id = id') ∧
      ∀ i j, Reachable i → Reachable j → Alike i j → ∀ line character,
        completions i line character = completions j line character := by
  refine ⟨fun i reachable line character => ?_, fun id id' => sortText_injective, ?_⟩
  · have keyed := reachable.keyed
    refine ⟨fittingKinds_cases _ _, nodup_labels_offered keyed _, fun x => mem_offered_iff keyed, ?_,
      pairwise_before_offered keyed _⟩
    intro id d defined
    have own : d.id = id := keyed.own id d defined
    exact ⟨own, congrArg sortText own⟩
  · intro i j reachable reachable' alike line character
    rw [completions, completions, alike.config]
    exact alike.offered reachable.keyed reachable'.keyed _

/-- A build, two specs of criteria, and code that names one; `again` is what is said again. -/
def offeringCalls (again : List IndexCall) : List IndexCall :=
  [.rebuild (.blank []) { specGlobs := ["*.md"] } ⟨.root, []⟩,
    .updateWith (.ofText "/b.md") "- X-1_AC-1 Reads\n- X_P-1 Stable",
    .updateWith (.ofText "/a.md") "- A-1_AC-1 Ends",
    .updateWith (.ofText "/x.py") "# @spec-impl: X-1_AC-1"] ++ again

def offeringIndex (again : List IndexCall) : LiveIndex :=
  (offeringCalls again).foldl IndexCall.apply {}

/-- When the first spec goes and comes back, its definitions stand behind that of the second one. -/
theorem completions_alike_again :
    let i := offeringIndex []
    let j := offeringIndex [.remove (.ofText "/b.md"),
      .updateWith (.ofText "/b.md") "- X-1_AC-1 Reads\n- X_P-1 Stable"]
    let line : Text := "# @spec-test: "
    Reachable i ∧ Reachable j ∧ Alike i j ∧
      i.visible.definitions.keys = ["X-1_AC-1", "X_P-1", "A-1_AC-1"].map String.toList ∧
      j.visible.definitions.keys = ["A-1_AC-1", "X-1_AC-1", "X_P-1"].map String.toList ∧
      (completions i line 14).map (·.label) =
        ["A-1_AC-1", "X-1_AC-1", "X_P-1"].map String.toList ∧
      (completions i line 14).Pairwise Completion.Before ∧
      completions i line 14 = completions j line 14 := by
  intro i j line
  have reached (again : List IndexCall) : Reachable (offeringIndex again) :=
    (Reachable.new {} ⟨.root, []⟩).calls (offeringCalls again)
  obtain ⟨root, config, defined, placed, keys, keys', labels⟩ :
      i.root = j.root ∧ i.config = j.config ∧
        i.visible.definitions.entries.Perm j.visible.definitions.entries ∧
        i.visible.places.entries = j.visible.places.entries ∧
        i.visible.definitions.keys = ["X-1_AC-1", "X_P-1", "A-1_AC-1"].map String.toList ∧
        j.visible.definitions.keys = ["A-1_AC-1", "X-1_AC-1", "X_P-1"].map String.toList ∧
        (completions i line 14).map (·.label) =
          ["A-1_AC-1", "X-1_AC-1", "X_P-1"].map String.toList := by
    decide +kernel
  have alike : Alike i j := by
    refine ⟨root, config, fun id => ?_, fun kind id => ?_⟩
    · exact OrderedMap.get?_eq_of_perm (reached _).keyed.defined defined id
    · rw [LiveIndex.placesOf, OrderedMap.get?, placed]
      exact .refl _
  obtain ⟨canonical, _, same⟩ := completions_alike
  obtain ⟨_, _, _, _, ascending⟩ := canonical i (reached _) line 14
  exact ⟨reached _, reached _, alike, keys, keys', labels, ascending,
    same i j (reached _) (reached _) alike line 14⟩

end Editor

end Traceability
