import Traceability.Proofs.Line
import Traceability.Proofs.Token

/-!
# A word replaced by another one

Reading blanks and marks of punctuation does not depend on which of two words stands in a text,
where both words start with a capital letter and hold no blank.
-/
namespace Traceability.Editor

open Text (Unbroken Replaces)
open Marker (continuesWord)
open Identifier (Spelled)

variable {old new t t' u u' w : Text}

/-! ## Answers that are related -/

section Answers

variable {α α' β β' : Type} {r : α → α' → Prop} {q : β → β' → Prop} {x y : Option α}
  {x' y' : Option α'}

theorem rel_bind {f : α → Option β} {f' : α' → Option β'} (first : Option.Rel r x x')
    (second : ∀ a a', r a a' → Option.Rel q (f a) (f' a')) :
    Option.Rel q (x.bind f) (x'.bind f') := by
  cases first with
  | none => exact .none
  | some related => exact second _ _ related

theorem rel_map {f : α → β} {f' : α' → β'} (inner : Option.Rel r x x')
    (related : ∀ a a', r a a' → q (f a) (f' a')) : Option.Rel q (x.map f) (x'.map f') := by
  cases inner with
  | none => exact .none
  | some here => exact .some (related _ _ here)

theorem rel_or (first : Option.Rel r x x') (second : Option.Rel r y y') :
    Option.Rel r (x.or y) (x'.or y') := by
  cases first with
  | none => exact second
  | some related => exact .some related

theorem rel_getD {a : α} {a' : α'} (inner : Option.Rel r x x') (related : r a a') :
    r (x.getD a) (x'.getD a') := by
  cases inner with
  | none => exact related
  | some here => exact here

theorem rel_findSome? {ι : Type} {f : ι → Option α} {f' : ι → Option α'} {items : List ι}
    (each : ∀ i ∈ items, Option.Rel r (f i) (f' i)) :
    Option.Rel r (items.findSome? f) (items.findSome? f') := by
  induction items with
  | nil => exact .none
  | cons i items ih =>
    obtain ⟨here, later⟩ := List.forall_mem_cons.mp each
    rw [List.findSome?_cons, List.findSome?_cons]
    generalize f i = x, f' i = x' at here
    cases here with
    | none => exact ih later
    | some related => exact .some related

end Answers

/-! ## Texts with a word replaced -/

/-- Whether a text comes out of another one by putting a word in the place of some occurrences of
another word. -/
inductive Replaced (old new : Text) : Text → Text → Prop
  | nil : Replaced old new [] []
  | keep {t t' : Text} (c : Char) (rest : Replaced old new t t') :
    Replaced old new (c :: t) (c :: t')
  | swap {t t' : Text} (rest : Replaced old new t t') : Replaced old new (old ++ t) (new ++ t')

namespace Replaced

theorem refl (t : Text) : Replaced old new t t := by
  induction t with
  | nil => exact .nil
  | cons c t ih => exact .keep c ih

theorem append (front : Replaced old new t t') (back : Replaced old new u u') :
    Replaced old new (t ++ u) (t' ++ u') := by
  induction front with
  | nil => exact back
  | keep c _ ih => exact .keep c ih
  | swap _ ih => simpa only [List.append_assoc] using .swap ih

/-- The first characters are the same, or those of the two words. -/
theorem head_eq (replaced : Replaced old new t t') (filled : old ≠ []) (filled' : new ≠ []) :
    t.head? = t'.head? ∨ t.head? = old.head? ∧ t'.head? = new.head? := by
  obtain ⟨c, old, rfl⟩ := List.exists_cons_of_ne_nil filled
  obtain ⟨d, new, rfl⟩ := List.exists_cons_of_ne_nil filled'
  cases replaced with
  | nil => exact .inl rfl
  | keep _ _ => exact .inl rfl
  | swap _ => exact .inr ⟨rfl, rfl⟩

theorem reverse (replaced : Replaced old new t t') :
    Replaced old.reverse new.reverse t.reverse t'.reverse := by
  induction replaced with
  | nil => exact .nil
  | keep c _ ih =>
    rw [List.reverse_cons, List.reverse_cons]
    exact ih.append (refl [c])
  | swap _ ih =>
    rw [List.reverse_append, List.reverse_append]
    simpa using ih.append (.swap .nil)

theorem dropWhile {p : Char → Bool} (filled : old ≠ []) (filled' : new ≠ [])
    (none : ∀ c ∈ old, p c = false) (none' : ∀ c ∈ new, p c = false)
    (replaced : Replaced old new t t') : Replaced old new (t.dropWhile p) (t'.dropWhile p) := by
  -- A word is not dropped.
  have stays {word : Text} (filled : word ≠ []) (none : ∀ c ∈ word, p c = false) (u : Text) :
      (word ++ u).dropWhile p = word ++ u := by
    obtain ⟨c, word, rfl⟩ := List.exists_cons_of_ne_nil filled
    simp [none c List.mem_cons_self]
  induction replaced with
  | nil => exact .nil
  | keep c rest ih =>
    cases dropped : p c with
    | true => simpa [dropped] using ih
    | false => simpa [dropped] using keep c rest
  | swap rest _ =>
    rw [stays filled none, stays filled' none']
    exact .swap rest

theorem takeWhile {p : Char → Bool} (all : ∀ c ∈ old, p c = true) (all' : ∀ c ∈ new, p c = true)
    (replaced : Replaced old new t t') : Replaced old new (t.takeWhile p) (t'.takeWhile p) := by
  induction replaced with
  | nil => exact .nil
  | keep c _ ih =>
    cases taken : p c with
    | true => simpa [taken] using keep c ih
    | false => simpa [taken] using nil
  | swap _ ih =>
    rw [List.takeWhile_append_of_pos all, List.takeWhile_append_of_pos all']
    exact .swap ih

theorem not_mem (replaced : Replaced old new t t') {c : Char} (free : c ∉ new) (absent : c ∉ t) :
    c ∉ t' := by
  induction replaced with
  | nil => exact absent
  | keep d _ ih =>
    obtain ⟨other, absent⟩ := not_or.mp (mt List.mem_cons.mpr absent)
    exact mt List.mem_cons.mp (not_or.mpr ⟨other, ih absent⟩)
  | swap _ ih =>
    obtain ⟨_, absent⟩ := not_or.mp (mt List.mem_append.mpr absent)
    exact mt List.mem_append.mp (not_or.mpr ⟨free, ih absent⟩)

theorem replaces (replaced : Replaced old new t t') (filled : old ≠ []) (filled' : new ≠ [])
    (whole : Unbroken new) (unbroken : Unbroken t) : Replaces t' t := by
  induction replaced with
  | nil => exact ⟨unbroken, Iff.rfl⟩
  | keep c _ ih =>
    obtain ⟨inner, unbroken⟩ := List.forall_mem_cons.mp unbroken
    exact ⟨List.forall_mem_cons.mpr ⟨inner, (ih unbroken).1⟩, by simp⟩
  | swap _ ih =>
    obtain ⟨_, unbroken⟩ := List.forall_mem_append.mp unbroken
    exact ⟨List.forall_mem_append.mpr ⟨whole, (ih unbroken).1⟩, by simp [filled, filled']⟩

end Replaced

/-! ## Reading around the words -/

section Spelled

variable (spelled : Spelled old) (spelled' : Spelled new)

include spelled spelled'

theorem dropStem?_replaced (small : w.any Identifier.isCapital = false)
    (replaced : Replaced old new t t') :
    Option.Rel (Replaced old new) (Text.dropStem? w t) (Text.dropStem? w t') := by
  induction w generalizing t t' with
  | nil =>
    rw [Text.dropStem?_nil, Text.dropStem?_nil]
    exact .some replaced
  | cons c w ih =>
    obtain ⟨lower, small⟩ := Bool.or_eq_false_iff.mp small
    cases replaced with
    | nil => exact .none
    | keep d rest =>
      rw [Text.dropStem?, Text.dropStem?]
      split
      · exact ih small rest
      · exact .none
    | swap rest =>
      rw [spelled.dropStem?_append lower, spelled'.dropStem?_append lower]
      exact .none

theorem continuesWord_replaced (replaced : Replaced old new t t') :
    continuesWord t = continuesWord t' := by
  have starts {id : Text} (spelled : Spelled id) :
      id.head?.any (fun c => Text.isWord c || c = '-') = true := by
    obtain ⟨c, more, rfl, capital⟩ := spelled.capital
    exact Identifier.touches_of_isCapital capital
  rw [continuesWord, continuesWord]
  rcases replaced.head_eq spelled.ne_nil spelled'.ne_nil with same | ⟨first, first'⟩
  · rw [same]
  · rw [first, first', starts spelled, starts spelled']

theorem Replaced.trimStart (replaced : Replaced old new t t') :
    Replaced old new (Text.trimStart t) (Text.trimStart t') :=
  replaced.dropWhile spelled.ne_nil spelled'.ne_nil spelled.not_isBlank spelled'.not_isBlank

theorem Replaced.trim (replaced : Replaced old new t t') :
    Replaced old new (Text.trim t) (Text.trim t') := by
  have backward := (replaced.trimStart spelled spelled').reverse.dropWhile
    (mt List.reverse_eq_nil_iff.mp spelled.ne_nil) (mt List.reverse_eq_nil_iff.mp spelled'.ne_nil)
    (fun c member => spelled.not_isBlank c (List.mem_reverse.mp member))
    fun c member => spelled'.not_isBlank c (List.mem_reverse.mp member)
  simpa only [List.reverse_reverse, Text.trim, Text.trimEnd, Text.dropEndWhile] using
    backward.reverse

theorem allBlank_replaced (replaced : Replaced old new t t') :
    Text.allBlank t' = Text.allBlank t := by
  have filled {id : Text} (spelled : Spelled id) : id.all Text.isBlank = false := by
    obtain ⟨c, more, rfl, _⟩ := spelled.capital
    simp [spelled.not_isBlank c List.mem_cons_self]
  rw [Text.allBlank, Text.allBlank]
  induction replaced with
  | nil => rfl
  | keep c _ ih => simp [ih]
  | swap _ _ => simp only [List.all_append, filled spelled, filled spelled', Bool.false_and]

end Spelled

end Traceability.Editor
