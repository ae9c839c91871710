import Traceability.Proofs.Editor.Redeclared
import Traceability.Proofs.Reference

/-!
# References in renamed lines

A keyword stands in a renamed line where it stood before, and what is referred to behind it is the
same, or the word that takes its place: no keyword and no reference is read within a word.
-/
namespace Traceability.Editor

open Text (touches)
open Marker (continuesWord)
open Identifier (Shaped IsCode embedded reference isCapital isCodeChar)
open Spec (CrossReference)
open Spec.Document (Owners keywordIn? reference? referencesBelow)

variable {kind : IdKind} {old new t t' u w : Text} {c : Char} {joined : Bool} {n : Nat}

/-! ## Keywords -/

/-- Whether a text is capital letters and a colon. -/
def Announces (keyword : Text) : Prop :=
  ∃ stem, keyword = stem ++ [':'] ∧ stem ≠ [] ∧ stem.all isCapital = true

theorem announces_of_mem_defaultKeywords (member : w ∈ defaultKeywords) : Announces w := by
  have listed : defaultKeywords = ["IMPLEMENTS:".toList, "VALIDATES:".toList] := rfl
  rw [listed, List.mem_pair] at member
  rcases member with rfl | rfl
  · exact ⟨"IMPLEMENTS".toList, by decide, by decide, by decide⟩
  · exact ⟨"VALIDATES".toList, by decide, by decide, by decide⟩

theorem dropStem?_append (v w t : Text) :
    Text.dropStem? (v ++ w) t = (Text.dropStem? v t).bind (Text.dropStem? w) := by
  induction v generalizing t with
  | nil => simp
  | cons c v ih =>
    cases t with
    | nil => rfl
    | cons d t =>
      rw [List.cons_append, Text.dropStem?, Text.dropStem?]
      split
      · exact ih t
      · rfl

/-- Where no word starts within a prefix, a word is found behind it. -/
theorem cut?_append {front : Text}
    (free : ∀ s, s <:+ front → Text.dropStem? w (s ++ t) = none) :
    Text.cut? w (front ++ t) = (Text.cut? w t).map fun x => (front ++ x.1, x.2) := by
  induction front with
  | nil => simp
  | cons c front ih =>
    have here := free (c :: front) List.suffix_rfl
    have later := ih fun s suffix => free s (suffix.trans (List.suffix_cons c front))
    rw [List.cons_append] at here ⊢
    rw [Text.cut?, here, later, Option.map_map]
    rfl

/-- A keyword that starts within a word ends with the colon behind it. -/
theorem dropStem?_within (announces : Announces w) (colon : ':' ∉ old)
    (apart : continuesWord t = false) (other : t.head? = some ':' → ¬ w <:+ old ++ [':'])
    {s : Text} (suffix : s <:+ old) : Text.dropStem? w (s ++ t) = none := by
  obtain ⟨stem, rfl, _, capital⟩ := announces
  rw [Option.eq_none_iff_forall_ne_some]
  intro rest found
  have whole := Text.dropStem?_eq_some_iff.mp found
  rcases List.append_eq_append_iff.mp whole with ⟨part, split, rfl⟩ | ⟨part, rfl, _⟩
  · rcases List.eq_nil_or_concat part with rfl | ⟨inner, last, rfl⟩
    · refine colon (suffix.subset ?_)
      rw [← List.append_nil s, ← split]
      simp
    · rw [List.concat_eq_append, ← List.append_assoc] at split
      obtain ⟨rfl, ends⟩ := List.append_inj' split rfl
      cases ends
      cases inner with
      | nil =>
        obtain ⟨before, rfl⟩ := suffix
        exact other rfl ⟨before, by simp⟩
      | cons c inner =>
        have touching :=
          Identifier.touches_of_isCapital (List.all_eq_true.mp capital c (by simp))
        cases touching.symm.trans apart
  · exact colon (suffix.subset (by simp))

theorem dropStem?_announces (announces : Announces w)
    (renamed : Renamed kind old new (touches c) n t t') :
    Option.Rel (Renamed kind old new false n) (Text.dropStem? w (c :: t))
      (Text.dropStem? w (c :: t')) := by
  obtain ⟨stem, rfl, filled, capital⟩ := announces
  obtain ⟨d, stem, rfl⟩ := List.exists_cons_of_ne_nil filled
  obtain ⟨first, capital⟩ := Bool.and_eq_true_iff.mp capital
  rw [List.cons_append, Text.dropStem?, Text.dropStem?]
  split
  · next same =>
    subst same
    rw [Identifier.touches_of_isCapital first] at renamed
    have inner : stem.all touches = true := List.all_eq_true.mpr fun c member =>
      Identifier.touches_of_isCapital (List.all_eq_true.mp capital c member)
    rw [dropStem?_append, dropStem?_append]
    refine rel_bind (dropStem?_joined inner renamed) fun u u' behind => ?_
    -- The colon does not touch what it announces.
    rcases behind.joined_cases with ⟨_, rfl, rfl⟩ | ⟨c, v, v', rfl, rfl, rest⟩
    · exact .none
    · simp only [Text.dropStem?]
      split
      · next same =>
        subst same
        exact .some rest
      · exact .none
  · exact .none

section Shaped

variable (shaped : Shaped kind old) (shaped' : Shaped kind new)

include shaped shaped'

theorem cut?_renamed (keyword : w ∈ defaultKeywords)
    (renamed : Renamed kind old new joined n t t') :
    Option.Rel (fun x x' => ∃ m, Renamed kind old new false m x.2 x'.2) (Text.cut? w t)
      (Text.cut? w t') := by
  have announces := announces_of_mem_defaultKeywords keyword
  induction renamed with
  | nil =>
    obtain ⟨stem, rfl, _, _⟩ := announces
    simp only [Text.cut?, List.append_eq_nil_iff, List.cons_ne_self, and_false, if_false]
    exact .none
  | @keep _ n c t t' _ rest ih =>
    have here := dropStem?_announces announces rest
    rw [Text.cut?, Text.cut?]
    generalize Text.dropStem? w (c :: t) = x, Text.dropStem? w (c :: t') = x' at here
    cases here with
    | none => exact rel_map ih fun _ _ later => later
    | some behind => exact .some ⟨n, behind⟩
  | @swap n t t' apart fits rest ih =>
    have colon {id : Text} (shaped : Shaped kind id) : ':' ∉ id :=
      (Identifier.spelled_of_shaped shaped).not_mem (by decide)
    have same : t'.head? = t.head? := by
      rcases rest.joined_cases with ⟨_, rfl, rfl⟩ | ⟨c, u, u', rfl, rfl, _⟩ <;> rfl
    rw [cut?_append fun s suffix => dropStem?_within announces (colon shaped) apart
        (fun first => (fits.unannounced first w keyword).1) suffix,
      cut?_append fun s suffix => dropStem?_within announces (colon shaped')
        (rest.continuesWord_eq.trans apart)
        (fun first => (fits.unannounced (same ▸ first) w keyword).2) suffix]
    exact rel_map ih fun _ _ later => later

theorem keywordIn?_renamed (renamed : Renamed kind old new joined n t t') :
    Option.Rel (fun x x' => x'.1 = x.1 ∧ ∃ m, Renamed kind old new false m x.2 x'.2)
      (keywordIn? defaultKeywords t) (keywordIn? defaultKeywords t') :=
  rel_findSome? fun _ member => rel_map (cut?_renamed shaped shaped' member renamed)
    fun _ _ later => ⟨rfl, later⟩

end Shaped

/-! ## What is referred to -/

/-- How the references of a text and of the renamed one belong together, where the word stands alone
so many times. -/
inductive Paired (kind : IdKind) (old new : Text) : Nat → List Text → List Text → Prop
  | nil : Paired kind old new 0 [] []
  | same {n : Nat} {id : Text} {ids ids' : List Text} (other : kind = .component → id ≠ old)
      (rest : Paired kind old new n ids ids') : Paired kind old new n (id :: ids) (id :: ids')
  | swap {n : Nat} {ids ids' : List Text} (own : kind ≠ .component)
      (rest : Paired kind old new n ids ids') :
    Paired kind old new (n + 1) (old :: ids) (new :: ids')
  | skip {n : Nat} {ids ids' : List Text} (own : kind = .component)
      (rest : Paired kind old new n ids ids') : Paired kind old new (n + 1) ids ids'

variable {ids ids' : List Text}

/-- A word that is not the name of a component is referred to wherever it stands alone. -/
theorem Paired.le_count (paired : Paired kind old new n ids ids') (own : kind ≠ .component) :
    n ≤ ids.count old := by
  induction paired with
  | nil => exact Nat.le_refl 0
  | same _ _ ih => exact ih.trans List.count_le_count_cons
  | swap _ _ ih =>
    rw [List.count_cons_self]
    exact Nat.succ_le_succ ih
  | skip never _ _ => exact absurd never own

theorem Paired.not_mem (paired : Paired kind old new n ids ids') (own : kind = .component) :
    old ∉ ids := by
  induction paired with
  | nil => exact List.not_mem_nil
  | same other _ ih => exact mt List.mem_cons.mp (not_or.mpr ⟨(other own).symm, ih⟩)
  | swap never _ _ => exact absurd own never
  | skip _ _ ih => exact ih

/-- Where the word is referred to only where it stands alone, the references are renamed. -/
theorem Paired.eq_map (paired : Paired kind old new n ids ids') (whole : ids.count old ≤ n) :
    ids' = ids.map (renameId old new) := by
  induction paired with
  | nil => rfl
  | @same n id ids ids' other rest ih =>
    have different : id ≠ old := by
      by_cases own : kind = .component
      · exact other own
      · rintro rfl
        have few := rest.le_count own
        rw [List.count_cons_self] at whole
        omega
    rw [List.count_cons_of_ne different] at whole
    rw [List.map_cons, ← ih whole, renameId, if_neg different]
  | swap _ _ ih =>
    rw [List.count_cons_self] at whole
    rw [List.map_cons, ← ih (Nat.le_of_succ_le_succ whole), renameId, if_pos rfl]
  | skip own rest ih =>
    refine ih ?_
    rw [List.count_eq_zero_of_not_mem (rest.not_mem own)]
    exact Nat.zero_le _

section Shaped

variable (shaped : Shaped kind old) (shaped' : Shaped kind new)

include shaped shaped'

theorem paired_swap (apart : continuesWord t = false) (fits : Fits kind old new t)
    (rest : Renamed kind old new true n t t')
    (paired : Paired kind old new n (embedded t) (embedded t')) :
    Paired kind old new (n + 1) (embedded (old ++ t)) (embedded (new ++ t')) := by
  have apart' : continuesWord t' = false := rest.continuesWord_eq.trans apart
  by_cases own : kind = .component
  · subst own
    rw [Identifier.embedded_component shaped apart, Identifier.embedded_component shaped' apart']
    exact .skip rfl paired
  · have closed' := fits_renamed shaped shaped' fits rest
    rw [Identifier.embedded_of_some (Identifier.reference_alone shaped apart fits.closed own),
      Identifier.embedded_of_some (Identifier.reference_alone shaped' apart' closed' own)]
    exact .swap own paired

theorem paired_embedded (renamed : Renamed kind old new joined n t t') :
    Paired kind old new n (embedded t) (embedded t') := by
  -- What is read may take many characters, so the induction is on the length.
  induction size : t.length using Nat.strongRecOn generalizing joined n t t' with
  | ind size ih =>
    subst size
    cases renamed with
    | nil => exact .nil
    | @keep _ _ c u u' _ rest =>
      have read := sameRead_reference_cons shaped shaped' rest
      generalize found : reference (c :: u) = x, found' : reference (c :: u') = x' at read
      cases read with
      | none =>
        rw [Identifier.embedded_of_none found, Identifier.embedded_of_none found']
        exact ih u.length (by simp) rest rfl
      | @some x x' same =>
        obtain ⟨id, left⟩ := x
        obtain ⟨_, left'⟩ := x'
        obtain ⟨rfl, renamed⟩ := same
        rw [Identifier.embedded_of_some found, Identifier.embedded_of_some found']
        obtain ⟨k, other, proper⟩ := Identifier.shaped_reference found
        have shorter : left.length < (c :: u).length := by
          have filled := (Identifier.spelled_of_shaped proper).ne_nil
          rw [Identifier.splits_reference found, List.length_append]
          exact Nat.lt_add_of_pos_left (List.length_pos_iff.mpr filled)
        refine .same ?_ (ih left.length shorter renamed rfl)
        rintro rfl rfl
        exact other ((Identifier.kind_of_shaped proper).symm.trans
          (Identifier.kind_of_shaped shaped))
    | @swap n u u' apart fits rest =>
      have shorter : u.length < (old ++ u).length := by
        rw [List.length_append]
        exact Nat.lt_add_of_pos_left
          (List.length_pos_iff.mpr (Identifier.spelled_of_shaped shaped).ne_nil)
      exact paired_swap shaped shaped' apart fits rest (ih u.length shorter rest rfl)

end Shaped

end Traceability.Editor
