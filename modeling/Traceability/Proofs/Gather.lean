import Mathlib.Data.List.Perm.Basic
import Traceability.Gather

/-!
# Results in the order of the items

Work that is finished fills the slot of its item, so the order of finishing decides nothing about
the results. It decides which failure is told: that of the first work to fail.
-/
namespace Traceability.Gather

variable {α β ε : Type} {stage : Text} {work : α → Except ε β} {items : List α} {order : List Nat}

/-- How the work on the item at an index ends. -/
def ending? (work : α → Except ε β) (items : List α) (index : Nat) : Option (Except ε β) :=
  items[index]?.map work

/-- The slots once the work at some indices is finished. -/
def slotsAfter (work : α → Except ε β) (items : List α) (done : List Nat) : List (Option β) :=
  items.mapIdx fun i a => if i ∈ done then (work a).toOption else none

theorem slotsAfter_nil : slotsAfter work items [] = List.replicate items.length none := by
  simp [slotsAfter, List.eq_replicate_iff, List.mem_mapIdx]

theorem exists_ending? (work : α → Except ε β) {i : Nat} (inside : i < items.length) :
    ∃ r, ending? work items i = some r := by
  simp [ending?, inside]

/-- Finished work fills its slot and no other. -/
theorem finish_of_ok {i : Nat} {b : β} (ended : ending? work items i = some (.ok b))
    (done : List Nat) : finish stage work items (slotsAfter work items done) i =
      .ok (slotsAfter work items (done ++ [i])) := by
  obtain ⟨a, here, worked⟩ := Option.map_eq_some_iff.mp ended
  have filled : (slotsAfter work items done).set i (some b) =
      slotsAfter work items (done ++ [i]) := by
    refine List.ext_getElem? fun j => ?_
    rw [List.getElem?_set]
    by_cases same : i = j
    · subst same
      obtain ⟨inside, rfl⟩ := List.getElem?_eq_some_iff.mp here
      simp [slotsAfter, inside, worked, Except.toOption]
    · simp [slotsAfter, same, Ne.symm same]
  simp only [finish, here, worked, filled]

theorem finish_of_error {i : Nat} {e : ε} (ended : ending? work items i = some (.error e))
    (slots : List (Option β)) : finish stage work items slots i = .error ⟨stage, e⟩ := by
  obtain ⟨a, here, failed⟩ := Option.map_eq_some_iff.mp ended
  simp only [finish, here, failed]

/-- Either all work has results, and their slots are filled, or some work is the first to fail. -/
theorem foldlM_finish (stage : Text) (work : α → Except ε β)
    (inside : ∀ i ∈ order, i < items.length) (done : List Nat) :
    ((∀ i ∈ order, ∃ b, ending? work items i = some (.ok b)) ∧
      order.foldlM (finish stage work items) (slotsAfter work items done) =
        .ok (slotsAfter work items (done ++ order))) ∨
    ∃ before i after e, order = before ++ i :: after ∧
      (∀ j ∈ before, ∃ b, ending? work items j = some (.ok b)) ∧
      ending? work items i = some (.error e) ∧
      order.foldlM (finish stage work items) (slotsAfter work items done) = .error ⟨stage, e⟩ := by
  induction order generalizing done with
  | nil => exact .inl ⟨List.forall_mem_nil _, by simp [pure, Except.pure]⟩
  | cons i rest ih =>
    rw [List.foldlM_cons]
    obtain ⟨r, ended⟩ := exists_ending? work (inside i List.mem_cons_self)
    cases r with
    | error e =>
      refine .inr ⟨[], i, rest, e, rfl, List.forall_mem_nil _, ended, ?_⟩
      rw [finish_of_error ended]
      rfl
    | ok b =>
      rw [finish_of_ok ended]
      have later := ih (fun j member => inside j (List.mem_cons_of_mem i member)) (done ++ [i])
      rw [List.append_assoc] at later
      rcases later with ⟨worked, run⟩ | ⟨before, j, after, e, rfl, worked, failed, run⟩
      · exact .inl ⟨List.forall_mem_cons.mpr ⟨⟨b, ended⟩, worked⟩, run⟩
      · exact .inr ⟨i :: before, j, after, e, rfl,
          List.forall_mem_cons.mpr ⟨⟨b, ended⟩, worked⟩, failed, run⟩

/-- When the work at every index is finished, the filled slots are the results of the items. -/
theorem map_slotsAfter (all : ∀ i, i < items.length → i ∈ order)
    (worked : ∀ a ∈ items, ∃ b, work a = .ok b) :
    ((slotsAfter work items order).filterMap id).map .ok = items.map work := by
  have slots : slotsAfter work items order = items.map fun a => (work a).toOption := by
    refine List.ext_getElem (by simp [slotsAfter]) fun i inside _ => ?_
    have bound : i < items.length := by simpa [slotsAfter] using inside
    simp [slotsAfter, all i bound]
  rw [slots, List.filterMap_map, List.map_filterMap, ← List.filterMap_eq_map]
  refine List.filterMap_congr fun a member => ?_
  obtain ⟨b, ok⟩ := worked a member
  simp [ok, Except.toOption]

/-- In whatever order the work is finished: work that never fails has its results in the order of
the items, one for each item; if some work fails, the failure is that of the first work to fail. -/
theorem inOrder_outcome (finished : order.Perm (List.range items.length)) (stage : Text)
    (work : α → Except ε β) :
    ((∀ a ∈ items, ∃ b, work a = .ok b) →
      ∃ results, inOrder order stage work items = .ok results ∧ results.map .ok = items.map work) ∧
    ((∃ a ∈ items, ∃ e, work a = .error e) →
      ∃ before i after e, order = before ++ i :: after ∧
        (∀ j ∈ before, ∃ b, ending? work items j = some (.ok b)) ∧
        ending? work items i = some (.error e) ∧
        inOrder order stage work items = .error ⟨stage, e⟩) := by
  have inside (i : Nat) : i ∈ order ↔ i < items.length := by
    rw [finished.mem_iff, List.mem_range]
  have outcome := foldlM_finish stage work (fun i => (inside i).mp) []
  rw [slotsAfter_nil, List.nil_append] at outcome
  constructor
  · intro worked
    rcases outcome with ⟨-, run⟩ | ⟨_, i, _, e, -, -, failed, -⟩
    · refine ⟨_, ?_, map_slotsAfter (fun i => (inside i).mpr) worked⟩
      rw [inOrder, run]
      rfl
    · obtain ⟨a, here, failed⟩ := Option.map_eq_some_iff.mp failed
      obtain ⟨b, ok⟩ := worked a (List.mem_of_getElem? here)
      cases ok.symm.trans failed
  · rintro ⟨a, member, e, failed⟩
    rcases outcome with ⟨worked, -⟩ | ⟨before, i, after, e, split, worked, failed, run⟩
    · obtain ⟨i, bound, rfl⟩ := List.getElem_of_mem member
      obtain ⟨b, ended⟩ := worked i ((inside i).mpr bound)
      simp [ending?, bound, failed] at ended
    · refine ⟨before, i, after, e, split, worked, failed, ?_⟩
      rw [inOrder, run]
      rfl

def doubledSmall (n : Nat) : Except Nat Nat := if n < 3 then .ok (2 * n) else .error n

/-- Equal items have results of their own; of two failures the first one to be finished is told. -/
theorem inOrder_outcome_reversed : [2, 1, 0].Perm (List.range 3) ∧
    (∃ results, inOrder [2, 1, 0] "double" doubledSmall [1, 2, 1] = .ok results ∧
      results.map .ok = [1, 2, 1].map doubledSmall) ∧
    (∃ before i after e, [2, 1, 0] = before ++ i :: after ∧
      (∀ j ∈ before, ∃ b, ending? doubledSmall [3, 1, 4] j = some (.ok b)) ∧
      ending? doubledSmall [3, 1, 4] i = some (.error e) ∧
      inOrder [2, 1, 0] "double" doubledSmall [3, 1, 4] = .error ⟨"double", e⟩) ∧
    inOrder [2, 1, 0] "double" doubledSmall [3, 1, 4] = .error ⟨"double", 4⟩ := by
  have finished : [2, 1, 0].Perm (List.range 3) := by decide
  have worked : ∀ a ∈ [1, 2, 1], ∃ b, doubledSmall a = .ok b := by simp [doubledSmall]
  have failed : ∃ a ∈ [3, 1, 4], ∃ e, doubledSmall a = .error e := ⟨3, by decide, 3, rfl⟩
  exact ⟨finished, (inOrder_outcome finished "double" doubledSmall).1 worked,
    (inOrder_outcome finished "double" doubledSmall).2 failed, rfl⟩

end Traceability.Gather
