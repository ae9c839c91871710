import Mathlib.Data.List.Basic
import Traceability.Glob.Mask

/-!
# The language of a mask

What a mask stands for is said by its text alone, read from left to right. A mask covers a path without
line feeds just when a stretch of the path, between slashes or the ends, is in the language of one of
the patterns that the mask expands to.
-/
namespace Traceability.Glob

/-- What the text of a mask stands for, once its alternatives are chosen. -/
inductive Stands : Text → Text → Prop
  | nil : Stands [] []
  | directories {e w x : Text} : (x = [] ∨ ∃ y, x = y ++ ['/']) → Stands e w →
      Stands ('*' :: '*' :: '/' :: e) (x ++ w)
  | anything {e w : Text} (x : Text) : e.head? ≠ some '/' → Stands e w →
      Stands ('*' :: '*' :: e) (x ++ w)
  | segment {e w x : Text} : e.head? ≠ some '*' → '/' ∉ x → Stands e w → Stands ('*' :: e) (x ++ w)
  | one {e w : Text} {c : Char} : c ≠ '/' → Stands e w → Stands ('?' :: e) (c :: w)
  | exactly {e w : Text} {c : Char} : c ≠ '*' → c ≠ '?' → Stands e w → Stands (c :: e) (c :: w)

variable {t u w e p : Text} {mask : Mask}

/-! ## Slashes -/

theorem mem_behindSlashes_iff :
    u ∈ nameStarts.behindSlashes t ↔ ∃ y, t = y ++ '/' :: u := by
  induction t with
  | nil => simp [nameStarts.behindSlashes]
  | cons c t ih =>
    have first : (∃ y, c :: t = y ++ '/' :: u) ↔ ('/' = c ∧ u = t) ∨ ∃ y, t = y ++ '/' :: u := by
      simp [List.cons_eq_append_iff, exists_or]
    rw [nameStarts.behindSlashes, first, ← ih]
    by_cases slash : c = '/'
    · simp [slash]
    · simp [slash, Ne.symm slash]

/-- Without line feeds, directories may end behind every slash. -/
theorem restsBehindSlash_eq (unbroken : '\n' ∉ t) :
    restsBehindSlash t = nameStarts.behindSlashes t := by
  induction t with
  | nil => rfl
  | cons c t ih =>
    obtain ⟨other, unbroken⟩ := not_or.mp (mt List.mem_cons.mpr unbroken)
    rw [restsBehindSlash, nameStarts.behindSlashes, if_neg (Ne.symm other), ih unbroken]

theorem mem_nameStarts_iff :
    u ∈ nameStarts t ↔ ∃ x, (x = [] ∨ x.getLast? = some '/') ∧ t = x ++ u := by
  rw [nameStarts, List.mem_cons, mem_behindSlashes_iff]
  constructor
  · rintro (rfl | ⟨y, rfl⟩)
    · exact ⟨[], .inl rfl, rfl⟩
    · exact ⟨y ++ ['/'], .inr List.getLast?_concat, by simp⟩
  · rintro ⟨x, rfl | last, rfl⟩
    · exact .inl rfl
    · obtain ⟨y, rfl⟩ := List.getLast?_eq_some_iff.mp last
      exact .inr ⟨y, by simp⟩

theorem atNameEnd_iff (unbroken : '\n' ∉ u) :
    atNameEnd u = true ↔ u = [] ∨ u.head? = some '/' := by
  unfold atNameEnd
  split
  · simp
  · simp at unbroken
  · simp

/-! ## Pieces -/

/-- What a piece of a mask stands for. -/
def MaskPiece.Spans : MaskPiece → Text → Prop
  | .directories, x => x = [] ∨ ∃ y, x = y ++ ['/']
  | .anything, _ => True
  | .segment, x => '/' ∉ x
  | .one, x => ∃ c, c ≠ '/' ∧ x = [c]
  | .exactly c, x => x = [c]

theorem mem_restsBehind_iff {fits : Char → Bool} :
    u ∈ restsBehind fits t ↔ ∃ x, (∀ c ∈ x, fits c = true) ∧ t = x ++ u := by
  induction t with
  | nil =>
    rw [restsBehind, List.mem_singleton]
    constructor
    · rintro rfl
      exact ⟨[], List.forall_mem_nil _, rfl⟩
    · rintro ⟨x, _, shape⟩
      exact (List.append_eq_nil_iff.mp shape.symm).2
  | cons c t ih =>
    rw [restsBehind, List.mem_cons]
    constructor
    · rintro (rfl | later)
      · exact ⟨[], List.forall_mem_nil _, rfl⟩
      · split at later
        · next holds =>
          obtain ⟨x, all, rfl⟩ := ih.mp later
          exact ⟨c :: x, List.forall_mem_cons.mpr ⟨holds, all⟩, rfl⟩
        · cases later
    · rintro ⟨_ | ⟨d, x⟩, all, shape⟩
      · exact .inl shape.symm
      · cases shape
        obtain ⟨holds, all⟩ := List.forall_mem_cons.mp all
        rw [if_pos holds]
        exact .inr (ih.mpr ⟨x, all, rfl⟩)

theorem MaskPiece.mem_rests_iff (unbroken : '\n' ∉ t) (piece : MaskPiece) :
    u ∈ piece.rests t ↔ ∃ x, piece.Spans x ∧ t = x ++ u := by
  cases piece with
  | directories =>
    simp only [rests, restsBehindSlash_eq unbroken, List.mem_cons, mem_behindSlashes_iff, Spans]
    constructor
    · rintro (rfl | ⟨y, rfl⟩)
      · exact ⟨[], .inl rfl, rfl⟩
      · exact ⟨y ++ ['/'], .inr ⟨y, rfl⟩, by simp⟩
    · rintro ⟨_, rfl | ⟨y, rfl⟩, rfl⟩
      · exact .inl rfl
      · exact .inr ⟨y, by simp⟩
  | anything =>
    simp only [rests, mem_restsBehind_iff, Spans, true_and]
    refine exists_congr fun x => and_iff_right_of_imp ?_
    rintro rfl c member
    rw [decide_eq_true_eq]
    rintro rfl
    exact unbroken (List.mem_append_left u member)
  | segment =>
    simp only [rests, mem_restsBehind_iff, Spans, decide_eq_true_eq]
    refine exists_congr fun x => and_congr_left fun _ => ?_
    exact ⟨fun all member => all _ member rfl, fun free c member same => free (same ▸ member)⟩
  | one =>
    cases t with
    | nil => simp [rests, Spans]
    | cons c t =>
      rw [rests]
      constructor
      · intro member
        split at member
        · cases member
        · next other =>
          rw [List.mem_singleton.mp member]
          exact ⟨[c], ⟨c, other, rfl⟩, rfl⟩
      · rintro ⟨_, ⟨d, other, rfl⟩, shape⟩
        cases shape
        rw [if_neg other]
        exact List.mem_singleton_self u
  | exactly d =>
    cases t with
    | nil => simp [rests, Spans]
    | cons c t =>
      rw [rests]
      constructor
      · intro member
        split at member
        · next same =>
          rw [List.mem_singleton.mp member, same]
          exact ⟨[d], rfl, rfl⟩
        · cases member
      · rintro ⟨_, rfl, shape⟩
        cases shape
        rw [if_pos rfl]
        exact List.mem_singleton_self u

/-! ## Masks -/

/-- What the pieces of a mask stand for, one behind the other. -/
def Mask.Spans : Mask → Text → Prop
  | [], w => w = []
  | piece :: mask, w => ∃ x v, piece.Spans x ∧ Mask.Spans mask v ∧ w = x ++ v

theorem Mask.reads_iff (unbroken : '\n' ∉ t) :
    mask.reads t = true ↔ ∃ w u, mask.Spans w ∧ atNameEnd u = true ∧ t = w ++ u := by
  induction mask generalizing t with
  | nil => simp [reads, Spans]
  | cons piece mask ih =>
    rw [reads, List.any_eq_true]
    constructor
    · rintro ⟨r, member, read⟩
      obtain ⟨x, spans, rfl⟩ := (piece.mem_rests_iff unbroken).mp member
      have behind : '\n' ∉ r := fun inside => unbroken (List.mem_append_right x inside)
      obtain ⟨w, u, further, ends, rfl⟩ := (ih behind).mp read
      exact ⟨x ++ w, u, ⟨x, w, spans, further, rfl⟩, ends, (List.append_assoc x w u).symm⟩
    · rintro ⟨_, u, ⟨x, w, spans, further, rfl⟩, ends, rfl⟩
      rw [List.append_assoc] at unbroken ⊢
      have behind : '\n' ∉ w ++ u := fun inside => unbroken (List.mem_append_right x inside)
      exact ⟨w ++ u, (piece.mem_rests_iff unbroken).mpr ⟨x, spans, rfl⟩,
        (ih behind).mpr ⟨w, u, further, ends, rfl⟩⟩

/-- The pieces of a mask stand for what its text stands for. -/
theorem stands_iff : Stands e w ↔ (Mask.ofText e).Spans w := by
  -- What stands at the front of the mask decides the piece, and leaves one of the rules.
  fun_induction Mask.ofText e generalizing w with
  | case1 =>
    constructor
    · rintro ⟨⟩
      rfl
    · rintro rfl
      exact .nil
  | case2 e ih =>
    constructor
    · intro stands
      cases stands with
      | directories between stands => exact ⟨_, _, between, ih.mp stands, rfl⟩
      | anything _ more _ => exact absurd rfl more
      | segment more _ _ => exact absurd rfl more
      | exactly star _ _ => exact absurd rfl star
    · rintro ⟨x, v, between, spans, rfl⟩
      exact .directories between (ih.mpr spans)
  | case3 e apart ih =>
    have next : e.head? ≠ some '/' := fun first =>
      let ⟨t, same⟩ := List.head?_eq_some_iff.mp first
      apart t same
    constructor
    · intro stands
      cases stands with
      | directories => exact absurd rfl next
      | anything x _ stands => exact ⟨x, _, trivial, ih.mp stands, rfl⟩
      | segment more _ _ => exact absurd rfl more
      | exactly star _ _ => exact absurd rfl star
    · rintro ⟨x, v, _, spans, rfl⟩
      exact .anything x next (ih.mpr spans)
  | case4 e _ apart ih =>
    have next : e.head? ≠ some '*' := fun first =>
      let ⟨t, same⟩ := List.head?_eq_some_iff.mp first
      apart t same
    constructor
    · intro stands
      cases stands with
      | directories => exact absurd rfl next
      | anything => exact absurd rfl next
      | segment _ free stands => exact ⟨_, _, free, ih.mp stands, rfl⟩
      | exactly star _ _ => exact absurd rfl star
    · rintro ⟨x, v, free, spans, rfl⟩
      exact .segment next free (ih.mpr spans)
  | case5 e ih => 
    constructor
    · intro stands
      cases stands with
      | one other stands => exact ⟨_, _, ⟨_, other, rfl⟩, ih.mp stands, rfl⟩
      | exactly _ mark _ => exact absurd rfl mark
    · rintro ⟨_, v, ⟨c, other, rfl⟩, spans, rfl⟩
      exact .one other (ih.mpr spans)
  | case6 c e _ _ star mark ih =>
    constructor
    · intro stands
      cases stands with
      | directories => exact absurd rfl star
      | anything => exact absurd rfl star
      | segment => exact absurd rfl star
      | one => exact absurd rfl mark
      | exactly _ _ stands => exact ⟨_, _, rfl, ih.mp stands, rfl⟩
    · rintro ⟨_, v, rfl, spans, rfl⟩
      exact .exactly star mark (ih.mpr spans)

/-! ## Stretches of a path -/

/-- A text cut in three is a text with two positions in it. -/
theorem exists_cut_iff (P : Text → Prop) :
    (∃ x m y, (x = [] ∨ x.getLast? = some '/') ∧ (y = [] ∨ y.head? = some '/') ∧ P m ∧
        w = x ++ (m ++ y)) ↔
      ∃ i j, i ≤ j ∧ j ≤ w.length ∧ (i = 0 ∨ w[i - 1]? = some '/') ∧
        (j = w.length ∨ w[j]? = some '/') ∧ P ((w.take j).drop i) := by
  constructor
  · rintro ⟨x, m, y, before, behind, holds, rfl⟩
    refine ⟨x.length, x.length + m.length, Nat.le_add_right _ _, by simp, ?_, ?_, ?_⟩
    · rcases before with rfl | last
      · exact .inl rfl
      · obtain ⟨v, rfl⟩ := List.getLast?_eq_some_iff.mp last
        exact .inr (by simp)
    · rcases behind with rfl | first
      · exact .inl (by simp)
      · obtain ⟨v, rfl⟩ := List.head?_eq_some_iff.mp first
        exact .inr (by simp)
    · simpa [List.take_append] using holds
  · rintro ⟨i, j, ordered, inside, before, behind, holds⟩
    refine ⟨w.take i, (w.take j).drop i, w.drop j, ?_, ?_, holds, ?_⟩
    · rcases before with rfl | slash
      · exact .inl rfl
      · refine or_iff_not_imp_left.mpr fun filled => ?_
        have positive : i ≠ 0 := by
          rintro rfl
          exact filled rfl
        rw [List.getLast?_take, if_neg positive, slash, Option.some_or]
    · rcases behind with rfl | slash
      · exact .inl List.drop_length
      · exact .inr (List.head?_drop.trans slash)
    · have first : (w.take j).take i = w.take i := by rw [List.take_take, Nat.min_eq_left ordered]
      rw [← List.append_assoc, ← first, List.take_append_drop, List.take_append_drop]

theorem coversText_iff (unbroken : '\n' ∉ w) :
    coversText p w = true ↔
      ∃ x m y, (x = [] ∨ x.getLast? = some '/') ∧ (y = [] ∨ y.head? = some '/') ∧
        (∃ e ∈ expand p, Stands e m) ∧ w = x ++ (m ++ y) := by
  simp only [coversText, List.any_eq_true]
  constructor
  · rintro ⟨e, chosen, t, start, read⟩
    obtain ⟨x, before, rfl⟩ := mem_nameStarts_iff.mp start
    have rest : '\n' ∉ t := fun inside => unbroken (List.mem_append_right x inside)
    obtain ⟨m, y, spans, ends, rfl⟩ := (Mask.reads_iff rest).mp read
    have last : '\n' ∉ y := fun inside => rest (List.mem_append_right m inside)
    exact ⟨x, m, y, before, (atNameEnd_iff last).mp ends, ⟨e, chosen, stands_iff.mpr spans⟩, rfl⟩
  · rintro ⟨x, m, y, before, behind, ⟨e, chosen, stands⟩, rfl⟩
    have rest : '\n' ∉ m ++ y := fun inside => unbroken (List.mem_append_right x inside)
    have last : '\n' ∉ y := fun inside => rest (List.mem_append_right m inside)
    exact ⟨e, chosen, m ++ y, mem_nameStarts_iff.mpr ⟨x, before, rfl⟩,
      (Mask.reads_iff rest).mpr ⟨m, y, stands_iff.mp stands, (atNameEnd_iff last).mpr behind, rfl⟩⟩

/-- A mask covers a path just when two positions at the bounds of its names enclose a text that one
of the expansions of the mask stands for. -/
theorem covers_iff_stands (normal : (Path.ofText w).toText = w) (unbroken : '\n' ∉ w) :
    covers [p] (.ofText w) = true ↔
      ∃ i j, i ≤ j ∧ j ≤ w.length ∧ (i = 0 ∨ w[i - 1]? = some '/') ∧
        (j = w.length ∨ w[j]? = some '/') ∧ ∃ e ∈ expand p, Stands e ((w.take j).drop i) := by
  have one : covers [p] (.ofText w) = coversText p w := by simp [covers, normal]
  rw [one]
  exact (coversText_iff unbroken).trans (exists_cut_iff fun m => ∃ e ∈ expand p, Stands e m)

theorem covers_iff_stands_docs :
    (Path.ofText "x/docs/a/b/c.md").toText = "x/docs/a/b/c.md" ∧
      '\n' ∉ ("x/docs/a/b/c.md" : Text) ∧
      covers ["docs/**/\x7bb,c\x7d/*.md"] (.ofText "x/docs/a/b/c.md") = true ∧
      ∃ i j, i ≤ j ∧ j ≤ ("x/docs/a/b/c.md" : Text).length ∧
        (i = 0 ∨ ("x/docs/a/b/c.md" : Text)[i - 1]? = some '/') ∧
        (j = ("x/docs/a/b/c.md" : Text).length ∨ ("x/docs/a/b/c.md" : Text)[j]? = some '/') ∧
        ∃ e ∈ expand "docs/**/\x7bb,c\x7d/*.md",
          Stands e ((("x/docs/a/b/c.md" : Text).take j).drop i) := by
  have normal : (Path.ofText "x/docs/a/b/c.md").toText = "x/docs/a/b/c.md" := by decide +kernel
  have unbroken : '\n' ∉ ("x/docs/a/b/c.md" : Text) := by decide +kernel
  have covered : covers ["docs/**/\x7bb,c\x7d/*.md"] (.ofText "x/docs/a/b/c.md") = true := by
    decide +kernel
  exact ⟨normal, unbroken, covered, (covers_iff_stands normal unbroken).mp covered⟩

end Traceability.Glob
