import Traceability.Text.Basic

/-!
# Maps that remember their order

An ordered map keeps its keys in the order of their first arrival. Writing to a key that is present
changes the value and moves nothing; a key that was erased arrives anew at the end. An ordered
multimap keeps, for every key, its values in the order of their first arrival, each once.
-/
namespace Traceability

structure OrderedMap (κ : Type) (α : Type) where
  entries : List (κ × α) := []

namespace OrderedMap

variable {κ α : Type} [DecidableEq κ]

def empty : OrderedMap κ α := ⟨[]⟩

instance : EmptyCollection (OrderedMap κ α) := ⟨empty⟩
instance : Inhabited (OrderedMap κ α) := ⟨empty⟩

def get? (m : OrderedMap κ α) (k : κ) : Option α := m.entries.lookup k

def keys (m : OrderedMap κ α) : List κ := m.entries.map (·.1)

def values (m : OrderedMap κ α) : List α := m.entries.map (·.2)

def size (m : OrderedMap κ α) : Nat := m.entries.length

def hasKey (m : OrderedMap κ α) (k : κ) : Bool := (m.get? k).isSome

def insertEntry (k : κ) (a : α) : List (κ × α) → List (κ × α)
  | [] => [(k, a)]
  | e :: rest => if e.1 = k then (k, a) :: rest else e :: insertEntry k a rest

def insert (m : OrderedMap κ α) (k : κ) (a : α) : OrderedMap κ α := ⟨insertEntry k a m.entries⟩

def erase (m : OrderedMap κ α) (k : κ) : OrderedMap κ α := ⟨m.entries.filter fun e => e.1 ≠ k⟩

def insertAll (m : OrderedMap κ α) (entries : List (κ × α)) : OrderedMap κ α :=
  entries.foldl (fun m e => m.insert e.1 e.2) m

/-- The entries of a list, the last value of each key at the place of the first. -/
def ofList (entries : List (κ × α)) : OrderedMap κ α := empty.insertAll entries

@[simp] theorem get?_empty (k : κ) : (empty : OrderedMap κ α).get? k = none := rfl

theorem lookup_insertEntry (k k' : κ) (a : α) (entries : List (κ × α)) :
    (insertEntry k a entries).lookup k' = if k' = k then some a else entries.lookup k' := by
  induction entries with
  | nil =>
    by_cases h : k' = k
    · simp [insertEntry, h]
    · have hk : (k' == k) = false := by simpa using h
      simp [insertEntry, List.lookup_cons, h, hk]
  | cons e rest ih =>
    obtain ⟨x, y⟩ := e
    by_cases hx : x = k
    · subst hx
      by_cases h : k' = x
      · simp [insertEntry, h]
      · have hk : (k' == x) = false := by simpa using h
        simp [insertEntry, List.lookup_cons, h, hk]
    · by_cases h : k' = x
      · subst h
        simp [insertEntry, hx]
      · have hk : (k' == x) = false := by simpa using h
        simp [insertEntry, hx, List.lookup_cons, ih, hk]

/-- A written key answers the value written; other keys answer as before. -/
theorem get?_insert (m : OrderedMap κ α) (k k' : κ) (a : α) :
    (m.insert k a).get? k' = if k' = k then some a else m.get? k' :=
  lookup_insertEntry k k' a m.entries

theorem keys_insertEntry (k : κ) (a : α) (entries : List (κ × α)) :
    (insertEntry k a entries).map (·.1) =
      if k ∈ entries.map (·.1) then entries.map (·.1) else entries.map (·.1) ++ [k] := by
  induction entries with
  | nil => simp [insertEntry]
  | cons e rest ih =>
    unfold insertEntry
    by_cases h : e.1 = k
    · simp [h]
    · have h' : ¬ k = e.1 := fun e' => h e'.symm
      simp only [h, ↓reduceIte, List.map_cons, ih, List.mem_cons, h', false_or]
      split <;> simp

/-- Writing moves no key, and appends a key that was absent. -/
theorem keys_insert (m : OrderedMap κ α) (k : κ) (a : α) :
    (m.insert k a).keys = if k ∈ m.keys then m.keys else m.keys ++ [k] :=
  keys_insertEntry k a m.entries

end OrderedMap

/-- Keys in order of arrival, each with its distinct values in order of arrival. -/
structure OrderedMultimap (κ : Type) (α : Type) where
  groups : OrderedMap κ (List α) := .empty

namespace OrderedMultimap

variable {κ α : Type} [DecidableEq κ] [DecidableEq α]

def empty : OrderedMultimap κ α := ⟨.empty⟩

instance : EmptyCollection (OrderedMultimap κ α) := ⟨empty⟩
instance : Inhabited (OrderedMultimap κ α) := ⟨empty⟩

def get (m : OrderedMultimap κ α) (k : κ) : List α := (m.groups.get? k).getD []

def keys (m : OrderedMultimap κ α) : List κ := m.groups.keys

/-- A list with a value appended, unless it holds the value. -/
def appendNew (values : List α) (a : α) : List α := if a ∈ values then values else values ++ [a]

def add (m : OrderedMultimap κ α) (k : κ) (a : α) : OrderedMultimap κ α :=
  ⟨m.groups.insert k (appendNew (m.get k) a)⟩

def addAll (m : OrderedMultimap κ α) (pairs : List (κ × α)) : OrderedMultimap κ α :=
  pairs.foldl (fun m p => m.add p.1 p.2) m

def ofList (pairs : List (κ × α)) : OrderedMultimap κ α := empty.addAll pairs

/-- Adding a value reaches its own key only, and adds nothing twice. -/
theorem get_add (m : OrderedMultimap κ α) (k k' : κ) (a : α) :
    (m.add k a).get k' = if k' = k then appendNew (m.get k) a else m.get k' := by
  simp only [get, add, OrderedMap.get?_insert]
  split <;> simp

end OrderedMultimap

end Traceability
