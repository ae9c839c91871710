import Mathlib.Data.List.Forall2
import Mathlib.Data.List.Perm.Basic

/-!
# Lists of results

Work on every item of a list has a result when the work on each item has one, and then the results
are those of the items.
-/
namespace Traceability

variable {ε α β : Type}

theorem exists_of_isOk {x : Except ε α} (ok : x.isOk = true) : ∃ a, x = .ok a := by
  cases x with
  | error e => cases ok
  | ok a => exact ⟨a, rfl⟩

theorem exists_of_any {x : Except ε α} {p : α → Bool} (found : x.toOption.any p = true) :
    ∃ a, x = .ok a ∧ p a = true := by
  cases x with
  | error e => cases found
  | ok a => exact ⟨a, rfl, found⟩

theorem bind_eq_ok_iff {x : Except ε α} {g : α → Except ε β} {b : β} :
    x >>= g = .ok b ↔ ∃ a, x = .ok a ∧ g a = .ok b := by
  cases x with
  | error e => simp [bind, Except.bind]
  | ok a => simp [bind, Except.bind]

theorem bind_eq_error_iff {x : Except ε α} {g : α → Except ε β} {e : ε} :
    x >>= g = .error e ↔ x = .error e ∨ ∃ a, x = .ok a ∧ g a = .error e := by
  cases x with
  | error e' => simp [bind, Except.bind]
  | ok a => simp [bind, Except.bind]

variable {f : α → Except ε β}

theorem mapM_eq_ok_iff {l : List α} {r : List β} :
    l.mapM f = .ok r ↔ List.Forall₂ (fun a b => f a = .ok b) l r := by
  induction l generalizing r with
  | nil =>
    constructor
    · intro done
      cases done
      exact .nil
    · intro none
      cases none
      rfl
  | cons a rest ih =>
    rw [List.mapM_cons]
    constructor
    · intro done
      obtain ⟨b, first, done⟩ := bind_eq_ok_iff.mp done
      obtain ⟨bs, later, done⟩ := bind_eq_ok_iff.mp done
      cases done
      exact .cons first (ih.mp later)
    · intro all
      cases all with
      | cons first later =>
        rw [first, ih.mpr later]
        rfl

/-- The results are those of the items. -/
theorem mem_of_mapM {l : List α} {r : List β} (done : l.mapM f = .ok r) {b : β} :
    b ∈ r ↔ ∃ a ∈ l, f a = .ok b := by
  have all := mapM_eq_ok_iff.mp done
  clear done
  induction all with
  | nil => simp
  | cons first _ ih => simp [ih, first, eq_comm]

/-- Work that fails fails on an item behind others that have results. -/
theorem first_of_mapM_eq_error {l : List α} {e : ε} (failed : l.mapM f = .error e) :
    ∃ before a after, l = before ++ a :: after ∧ (∀ x ∈ before, ∃ b, f x = .ok b) ∧
      f a = .error e := by
  induction l with
  | nil => cases failed
  | cons a rest ih =>
    rw [List.mapM_cons] at failed
    rcases bind_eq_error_iff.mp failed with here | ⟨b, first, failed⟩
    · exact ⟨[], a, rest, rfl, List.forall_mem_nil _, here⟩
    · rcases bind_eq_error_iff.mp failed with later | ⟨bs, _, never⟩
      · obtain ⟨before, x, after, rfl, done, here⟩ := ih later
        exact ⟨a :: before, x, after, rfl, List.forall_mem_cons.mpr ⟨⟨b, first⟩, done⟩, here⟩
      · cases never

theorem exists_of_mapM_eq_error {l : List α} {e : ε} (failed : l.mapM f = .error e) :
    ∃ a ∈ l, f a = .error e := by
  obtain ⟨before, a, after, rfl, _, here⟩ := first_of_mapM_eq_error failed
  exact ⟨a, List.mem_append_right before List.mem_cons_self, here⟩

theorem mapM_isOk_iff {l : List α} : (∃ r, l.mapM f = .ok r) ↔ ∀ a ∈ l, ∃ b, f a = .ok b := by
  simp only [mapM_eq_ok_iff]
  constructor
  · intro done
    obtain ⟨r, all⟩ := done
    induction all with
    | nil => simp
    | cons first _ ih => simpa using ⟨⟨_, first⟩, ih⟩
  · intro each
    induction l with
    | nil => exact ⟨[], .nil⟩
    | cons a rest ih =>
      obtain ⟨b, first⟩ := each a List.mem_cons_self
      obtain ⟨r, later⟩ := ih fun x member => each x (List.mem_cons_of_mem _ member)
      exact ⟨b :: r, .cons first later⟩

/-- Work on the items in another order has the results in another order. -/
theorem mapM_perm {l l' : List α} (perm : l'.Perm l) {r : List β} (done : l.mapM f = .ok r) :
    ∃ r', l'.mapM f = .ok r' ∧ r'.Perm r := by
  obtain ⟨r', all, reordered⟩ := List.perm_comp_forall₂ perm (mapM_eq_ok_iff.mp done)
  exact ⟨r', mapM_eq_ok_iff.mpr all, reordered⟩

end Traceability
