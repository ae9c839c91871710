import Mathlib.Data.List.Nodup
import Mathlib.Data.List.Perm.Subperm
import Traceability.OrderedMap

/-!
# Laws of ordered maps

What the entries, the keys and the answers of an ordered map have to do with each other, and what
many writes in a row leave: of the values written to a key the last one, of the values added to a key
of a multimap each once, in the order in which they arrived first.
-/
namespace Traceability

/-- Whether values are those of a sequence, each once, in the order in which the sequence shows them
first. -/
structure FirstSeen {α : Type} [DecidableEq α] (seen values : List α) : Prop where
  once : values.Nodup
  same : ∀ a, a ∈ values ↔ a ∈ seen
  ordered : values.Pairwise fun a b => seen.idxOf a < seen.idxOf b

namespace OrderedMultimap

variable {α : Type} [DecidableEq α]

theorem mem_appendNew {values : List α} {a b : α} :
    b ∈ appendNew values a ↔ b ∈ values ∨ b = a := by
  unfold appendNew
  split
  · next present =>
    constructor
    · exact Or.inl
    · intro among
      rcases among with member | rfl
      · exact member
      · exact present
  · simp

end OrderedMultimap

namespace FirstSeen

open OrderedMultimap (appendNew mem_appendNew)

variable {α : Type} [DecidableEq α] {seen values : List α}

theorem nil : FirstSeen ([] : List α) [] :=
  ⟨List.nodup_nil, fun _ => Iff.rfl, .nil⟩

/-- One more item of the sequence is appended, or it was seen before. -/
theorem snoc (first : FirstSeen seen values) (a : α) :
    FirstSeen (seen ++ [a]) (appendNew values a) := by
  have later : values.Pairwise fun b c => (seen ++ [a]).idxOf b < (seen ++ [a]).idxOf c := by
    refine first.ordered.imp_of_mem fun member member' before => ?_
    rwa [List.idxOf_append_of_mem ((first.same _).mp member),
      List.idxOf_append_of_mem ((first.same _).mp member')]
  have among (b : α) : b ∈ appendNew values a ↔ b ∈ seen ++ [a] := by
    rw [mem_appendNew, first.same, List.mem_append, List.mem_singleton]
  unfold appendNew at among ⊢
  split at among
  · next known =>
    rw [if_pos known]
    exact ⟨first.once, among, later⟩
  · next new =>
    rw [if_neg new]
    refine ⟨first.once.append (List.nodup_singleton a) (by simpa using new), among, ?_⟩
    refine List.pairwise_append.mpr ⟨later, List.pairwise_singleton _ a, fun b member c last => ?_⟩
    obtain rfl := List.mem_singleton.mp last
    have unseen : c ∉ seen := mt (first.same c).mpr new
    have inside := (first.same b).mp member
    rw [List.idxOf_append_of_mem inside, List.idxOf_append_of_notMem unseen]
    exact Nat.lt_add_right _ (List.idxOf_lt_length_of_mem inside)

/-- A sequence that arrives item by item leaves each item where it was seen first. -/
theorem foldl (first : FirstSeen seen values) (more : List α) :
    FirstSeen (seen ++ more) (more.foldl appendNew values) := by
  induction more generalizing seen values with
  | nil => rwa [List.append_nil]
  | cons a more ih =>
    rw [List.append_cons]
    exact ih (first.snoc a)

/-- What is seen first among what was seen first was seen first. -/
theorem trans {values' : List α} (first : FirstSeen seen values) (again : FirstSeen values values') :
    FirstSeen seen values' := by
  refine ⟨again.once, fun a => (again.same a).trans (first.same a), ?_⟩
  refine again.ordered.imp_of_mem fun {a b} member member' before => ?_
  have inside := List.idxOf_lt_length_of_mem ((again.same a).mp member)
  have inside' := List.idxOf_lt_length_of_mem ((again.same b).mp member')
  have behind := List.pairwise_iff_getElem.mp first.ordered _ _ inside inside' before
  rwa [List.getElem_idxOf, List.getElem_idxOf] at behind

theorem idxOf_filter_lt {p : α → Bool} {a b : α} (kept : p a = true)
    (before : seen.idxOf a < seen.idxOf b) :
    (seen.filter p).idxOf a < (seen.filter p).idxOf b := by
  induction seen with
  | nil => exact absurd before (Nat.lt_irrefl _)
  | cons x rest ih =>
    have behind : x ≠ b := by
      rintro rfl
      rw [List.idxOf_cons_self] at before
      exact absurd before (Nat.not_lt_zero _)
    by_cases here : x = a
    · subst here
      rw [List.filter_cons_of_pos kept, List.idxOf_cons_self, List.idxOf_cons_ne _ behind]
      exact Nat.succ_pos _
    · rw [List.idxOf_cons_ne _ here, List.idxOf_cons_ne _ behind] at before
      have later := ih (Nat.lt_of_succ_lt_succ before)
      rw [List.filter_cons]
      split
      · rw [List.idxOf_cons_ne _ here, List.idxOf_cons_ne _ behind]
        exact Nat.succ_lt_succ later
      · exact later

/-- Leaving items out changes the order of no others. -/
theorem filter (first : FirstSeen seen values) (p : α → Bool) :
    FirstSeen (seen.filter p) (values.filter p) := by
  refine ⟨first.once.filter p, fun a => ?_, ?_⟩
  · rw [List.mem_filter, List.mem_filter, first.same]
  · refine (first.ordered.sublist List.filter_sublist).imp_of_mem fun member _ before => ?_
    exact idxOf_filter_lt (List.mem_filter.mp member).2 before

theorem of_nodup (once : seen.Nodup) : FirstSeen seen seen := by
  refine ⟨once, fun _ => Iff.rfl, List.pairwise_iff_getElem.mpr fun m n inside inside' before => ?_⟩
  rwa [once.idxOf_getElem, once.idxOf_getElem]

/-- A sequence tells what is seen first in it. -/
theorem unique {values' : List α} (first : FirstSeen seen values) (first' : FirstSeen seen values') :
    values = values' := by
  have same : values.Perm values' := (List.perm_ext_iff_of_nodup first.once first'.once).mpr
    fun a => (first.same a).trans (first'.same a).symm
  exact same.eq_of_pairwise (fun a b _ _ before behind => absurd before (Nat.lt_asymm behind))
    first.ordered first'.ordered

/-- What is seen first is as much as what is seen where nothing is seen again. -/
theorem length_eq_iff (first : FirstSeen seen values) :
    values.length = seen.length ↔ seen.Nodup := by
  constructor
  · intro same
    have among : values.Subperm seen := first.once.subperm fun a => (first.same a).mp
    exact (among.perm_of_length_le (Nat.le_of_eq same.symm)).nodup_iff.mp first.once
  · intro once
    rw [first.unique (.of_nodup once)]

end FirstSeen

namespace OrderedMap

variable {κ α : Type} [DecidableEq κ]

theorem get?_mk_cons (k k' : κ) (a : α) (rest : List (κ × α)) :
    (⟨(k, a) :: rest⟩ : OrderedMap κ α).get? k' =
      if k' = k then some a else (⟨rest⟩ : OrderedMap κ α).get? k' := by
  by_cases same : k' = k
  · simp [get?, same]
  · have other : (k' == k) = false := by simpa using same
    simp [get?, List.lookup_cons, same, other]

theorem mem_keys_iff {m : OrderedMap κ α} {k : κ} : k ∈ m.keys ↔ ∃ a, m.get? k = some a := by
  obtain ⟨entries⟩ := m
  induction entries with
  | nil => simp [keys, get?]
  | cons e rest ih =>
    obtain ⟨x, y⟩ := e
    rw [get?_mk_cons]
    by_cases same : k = x
    · simp [keys, same]
    · simpa [keys, same] using ih

theorem get?_eq_none_iff {m : OrderedMap κ α} {k : κ} : m.get? k = none ↔ k ∉ m.keys := by
  rw [mem_keys_iff, Option.eq_none_iff_forall_ne_some]
  exact not_exists.symm

theorem mem_entries_of_get? {m : OrderedMap κ α} {k : κ} {a : α} (found : m.get? k = some a) :
    (k, a) ∈ m.entries := by
  obtain ⟨entries⟩ := m
  induction entries with
  | nil => simp [get?] at found
  | cons e rest ih =>
    obtain ⟨x, y⟩ := e
    rw [get?_mk_cons] at found
    split at found
    · next same =>
      cases Option.some.inj found
      simp [same]
    · exact List.mem_cons_of_mem _ (ih found)

/-- In a map that holds every key once, the entries are the answers. -/
theorem mem_entries_iff {m : OrderedMap κ α} (distinct : m.keys.Nodup) {k : κ} {a : α} :
    (k, a) ∈ m.entries ↔ m.get? k = some a := by
  refine ⟨fun member => ?_, mem_entries_of_get?⟩
  obtain ⟨entries⟩ := m
  induction entries with
  | nil => simp at member
  | cons e rest ih =>
    obtain ⟨x, y⟩ := e
    obtain ⟨absent, distinct⟩ := List.nodup_cons.mp distinct
    rw [get?_mk_cons]
    rcases List.mem_cons.mp member with here | later
    · cases here
      simp
    · have other : k ≠ x := by
        intro same
        subst same
        exact absent (List.mem_map.mpr ⟨_, later, rfl⟩)
      rw [if_neg other]
      exact ih distinct later

theorem mem_values_iff {m : OrderedMap κ α} (distinct : m.keys.Nodup) {a : α} :
    a ∈ m.values ↔ ∃ k, m.get? k = some a := by
  simp only [values, List.mem_map, Prod.exists, mem_entries_iff distinct]
  simp

/-- Where no key stands twice, what is said of a key is said of its value. -/
theorem flatMap_entries_eq {β : Type} {m : OrderedMap κ α} (distinct : m.keys.Nodup) (k : κ)
    (say : α → List β) :
    (m.entries.flatMap fun e => if k = e.1 then say e.2 else []) =
      ((m.get? k).map say).getD [] := by
  obtain ⟨entries⟩ := m
  induction entries with
  | nil => rfl
  | cons e rest ih =>
    obtain ⟨x, a⟩ := e
    obtain ⟨alone, distinct⟩ := List.nodup_cons.mp distinct
    have later := ih distinct
    rw [List.flatMap_cons, later, get?_mk_cons]
    by_cases same : k = x
    · subst same
      have absent : (⟨rest⟩ : OrderedMap κ α).get? k = none := get?_eq_none_iff.mpr alone
      simp [absent]
    · simp [same]

/-! ## Single writes -/

theorem get?_erase (m : OrderedMap κ α) (k k' : κ) :
    (m.erase k).get? k' = if k' = k then none else m.get? k' := by
  obtain ⟨entries⟩ := m
  induction entries with
  | nil => simp [erase, get?]
  | cons e rest ih =>
    obtain ⟨x, y⟩ := e
    simp only [erase, List.filter_cons] at ih ⊢
    by_cases gone : x = k
    · subst gone
      simp only [ne_eq, not_true_eq_false, decide_false, Bool.false_eq_true, if_false]
      rw [ih, get?_mk_cons]
      split <;> rfl
    · simp only [ne_eq, gone, not_false_eq_true, decide_true, if_true]
      rw [get?_mk_cons, get?_mk_cons, ih]
      by_cases here : k' = x
      · simp [here, gone]
      · simp [here]

theorem nodup_keys_insert {m : OrderedMap κ α} (distinct : m.keys.Nodup) (k : κ) (a : α) :
    (m.insert k a).keys.Nodup := by
  rw [keys_insert]
  split
  · exact distinct
  · next absent =>
    refine distinct.append (List.nodup_singleton k) ?_
    simpa using absent

theorem nodup_keys_erase {m : OrderedMap κ α} (distinct : m.keys.Nodup) (k : κ) :
    (m.erase k).keys.Nodup :=
  distinct.sublist (List.filter_sublist.map _)

/-- A key that was absent arrives behind all others. -/
theorem entries_insert_of_absent {m : OrderedMap κ α} {k : κ} (absent : k ∉ m.keys) (a : α) :
    (m.insert k a).entries = m.entries ++ [(k, a)] := by
  obtain ⟨entries⟩ := m
  change insertEntry k a entries = entries ++ [(k, a)]
  induction entries with
  | nil => rfl
  | cons e rest ih =>
    obtain ⟨other, absent⟩ := not_or.mp (mt List.mem_cons.mpr absent)
    rw [insertEntry, if_neg (Ne.symm other), ih absent, List.cons_append]

/-! ## Many writes -/

theorem insertAll_cons (m : OrderedMap κ α) (e : κ × α) (rest : List (κ × α)) :
    m.insertAll (e :: rest) = (m.insert e.1 e.2).insertAll rest := rfl

theorem nodup_keys_insertAll {m : OrderedMap κ α} (distinct : m.keys.Nodup)
    (written : List (κ × α)) : (m.insertAll written).keys.Nodup := by
  induction written generalizing m with
  | nil => exact distinct
  | cons e rest ih => exact ih (nodup_keys_insert distinct e.1 e.2)

theorem keys_insertAll (m : OrderedMap κ α) (written : List (κ × α)) :
    (m.insertAll written).keys =
      (written.map (·.1)).foldl OrderedMultimap.appendNew m.keys := by
  induction written generalizing m with
  | nil => rfl
  | cons e rest ih => rw [insertAll_cons, ih, keys_insert, List.map_cons, List.foldl_cons,
      OrderedMultimap.appendNew]

/-- The keys stand in the order of their first arrival. -/
theorem firstSeen_keys_ofList (written : List (κ × α)) :
    FirstSeen (written.map (·.1)) (ofList written).keys := by
  rw [ofList, keys_insertAll]
  exact FirstSeen.nil.foldl _

theorem nodup_keys_ofList (written : List (κ × α)) : (ofList written).keys.Nodup :=
  (firstSeen_keys_ofList written).once

theorem mem_keys_ofList {written : List (κ × α)} {k : κ} :
    k ∈ (ofList written).keys ↔ ∃ a, (k, a) ∈ written := by
  rw [(firstSeen_keys_ofList written).same, List.mem_map]
  simp only [Prod.exists, exists_and_right, exists_eq_right]

/-- Of the values written to a key the last one counts. -/
theorem get?_insertAll (m : OrderedMap κ α) (written : List (κ × α)) (k : κ) :
    (m.insertAll written).get? k =
      ((written.filter fun e => e.1 = k).getLast?.map (·.2)).or (m.get? k) := by
  induction written generalizing m with
  | nil => simp [insertAll]
  | cons e rest ih =>
    obtain ⟨x, y⟩ := e
    rw [insertAll_cons, ih, get?_insert, List.filter_cons]
    by_cases here : x = k
    · subst here
      simp only [if_true, decide_true, List.getLast?_cons]
      cases (rest.filter fun e => e.1 = x).getLast? <;> rfl
    · have other : ¬ k = x := fun same => here same.symm
      simp [here, other]

theorem get?_ofList (written : List (κ × α)) (k : κ) :
    (ofList written).get? k = (written.filter fun e => e.1 = k).getLast?.map (·.2) := by
  rw [ofList, get?_insertAll, get?_empty, Option.or_none]

theorem mem_of_get?_ofList {written : List (κ × α)} {k : κ} {a : α}
    (found : (ofList written).get? k = some a) : (k, a) ∈ written := by
  rw [get?_ofList, Option.map_eq_some_iff] at found
  obtain ⟨⟨x, y⟩, last, rfl⟩ := found
  have member := List.mem_of_getLast? last
  simp only [List.mem_filter, decide_eq_true_eq] at member
  exact member.2 ▸ member.1

/-- Where no two values are written to one key, the answers are what was written. -/
theorem get?_ofList_iff_mem {written : List (κ × α)}
    (sole : ∀ k a b, (k, a) ∈ written → (k, b) ∈ written → a = b) {k : κ} {a : α} :
    (ofList written).get? k = some a ↔ (k, a) ∈ written := by
  refine ⟨mem_of_get?_ofList, fun member => ?_⟩
  obtain ⟨b, found⟩ := mem_keys_iff.mp (mem_keys_ofList.mpr ⟨a, member⟩)
  rw [found, sole k b a (mem_of_get?_ofList found) member]

/-! ## Writes in another order -/

/-- Keys that are all new arrive in the order in which they are written. -/
theorem entries_insertAll_of_nodup {m : OrderedMap κ α} {written : List (κ × α)}
    (distinct : (m.keys ++ written.map (·.1)).Nodup) :
    (m.insertAll written).entries = m.entries ++ written := by
  induction written generalizing m with
  | nil => exact (List.append_nil _).symm
  | cons e rest ih =>
    have absent : e.1 ∉ m.keys := fun present =>
      List.disjoint_of_nodup_append distinct present List.mem_cons_self
    have arrived : (m.insert e.1 e.2).keys = m.keys ++ [e.1] := by
      rw [keys_insert, if_neg absent]
    rw [List.map_cons, List.append_cons, ← arrived] at distinct
    rw [insertAll_cons, ih distinct, entries_insert_of_absent absent, ← List.append_cons]

theorem entries_ofList_of_nodup {written : List (κ × α)}
    (distinct : (written.map (·.1)).Nodup) : (ofList written).entries = written := by
  have fresh : ((empty : OrderedMap κ α).keys ++ written.map (·.1)).Nodup := distinct
  exact (entries_insertAll_of_nodup fresh).trans (List.nil_append written)

/-- In maps that hold every key once, the order of the entries does not matter for the answers. -/
theorem get?_eq_of_perm {m m' : OrderedMap κ α} (distinct : m.keys.Nodup)
    (perm : m'.entries.Perm m.entries) (k : κ) : m'.get? k = m.get? k := by
  have distinct' : m'.keys.Nodup := (perm.map Prod.fst).nodup_iff.mpr distinct
  refine Option.ext fun a => ?_
  rw [← mem_entries_iff distinct', ← mem_entries_iff distinct]
  exact perm.mem_iff

end OrderedMap

namespace OrderedMultimap

variable {κ α : Type} [DecidableEq κ] [DecidableEq α]

theorem get_addAll (m : OrderedMultimap κ α) (pairs : List (κ × α)) (k : κ) :
    (m.addAll pairs).get k =
      ((pairs.filter (·.1 = k)).map (·.2)).foldl appendNew (m.get k) := by
  induction pairs generalizing m with
  | nil => rfl
  | cons p rest ih =>
    obtain ⟨x, y⟩ := p
    change ((m.add x y).addAll rest).get k = _
    rw [ih, get_add, List.filter_cons]
    by_cases here : x = k
    · subst here
      simp only [if_true, decide_true, List.map_cons, List.foldl_cons]
    · simp only [here, Ne.symm here, if_false, decide_false, Bool.false_eq_true]

/-- The values of a key stand in the order in which they were added to it first. -/
theorem firstSeen_get_ofList (pairs : List (κ × α)) (k : κ) :
    FirstSeen ((pairs.filter (·.1 = k)).map (·.2)) ((ofList pairs).get k) := by
  rw [ofList, get_addAll]
  exact FirstSeen.nil.foldl _

/-- The values of a key are those that were added to it. -/
theorem mem_get_ofList {pairs : List (κ × α)} {k : κ} {a : α} :
    a ∈ (ofList pairs).get k ↔ (k, a) ∈ pairs := by
  rw [(firstSeen_get_ofList pairs k).same, List.mem_map]
  constructor
  · rintro ⟨⟨x, y⟩, member, rfl⟩
    obtain ⟨inside, here⟩ := List.mem_filter.mp member
    obtain rfl := of_decide_eq_true here
    exact inside
  · intro inside
    exact ⟨(k, a), List.mem_filter.mpr ⟨inside, decide_eq_true rfl⟩, rfl⟩

theorem keys_addAll (m : OrderedMultimap κ α) (pairs : List (κ × α)) :
    (m.addAll pairs).keys = (pairs.map (·.1)).foldl appendNew m.keys := by
  induction pairs generalizing m with
  | nil => rfl
  | cons p rest ih =>
    change ((m.add p.1 p.2).addAll rest).keys = _
    rw [ih, List.map_cons, List.foldl_cons]
    exact congrArg (fun keys => (rest.map (·.1)).foldl appendNew keys)
      (OrderedMap.keys_insert m.groups p.1 _)

theorem firstSeen_keys_ofList (pairs : List (κ × α)) :
    FirstSeen (pairs.map (·.1)) (ofList pairs).keys := by
  rw [ofList, keys_addAll]
  exact FirstSeen.nil.foldl _

/-- The keys are those that something was added to. -/
theorem mem_keys_ofList {pairs : List (κ × α)} {k : κ} :
    k ∈ (ofList pairs).keys ↔ ∃ a, (k, a) ∈ pairs := by
  rw [(firstSeen_keys_ofList pairs).same, List.mem_map]
  simp only [Prod.exists, exists_and_right, exists_eq_right]

/-- Whether two maps hold the same, but for the order in which it arrived. -/
structure Alike (m' m : OrderedMultimap κ α) : Prop where
  keys : m'.keys.Perm m.keys
  values : ∀ k, (m'.get k).Perm (m.get k)

/-- What is added in another order is held in another order. -/
theorem alike_ofList {pairs pairs' : List (κ × α)} (perm : pairs'.Perm pairs) :
    (ofList pairs').Alike (ofList pairs) where
  keys := by
    refine (List.perm_ext_iff_of_nodup (firstSeen_keys_ofList pairs').once
      (firstSeen_keys_ofList pairs).once).mpr fun k => ?_
    rw [mem_keys_ofList, mem_keys_ofList]
    exact exists_congr fun _ => perm.mem_iff
  values k := by
    refine (List.perm_ext_iff_of_nodup (firstSeen_get_ofList pairs' k).once
      (firstSeen_get_ofList pairs k).once).mpr fun a => ?_
    rw [mem_get_ofList, mem_get_ofList]
    exact perm.mem_iff

end OrderedMultimap

end Traceability
