import Mathlib.Data.List.Nodup
import Traceability.Identifier

/-!
# The grammar of identifiers

An identifier has one underscore at most, in front of the letters that tell a criterion or a property,
and its first hyphen stands in front of a letter in a component and of a digit in a requirement. So its
kind can be told from its shape, and a criterion never looks like a property.
-/
namespace Traceability

namespace Text

variable {mark : Char}

theorem includes_of_not_mem {t : Text} (free : mark ∉ t) (w : Text) :
    includes t (mark :: w) = false := by
  induction t with
  | nil => rfl
  | cons c t ih =>
    obtain ⟨other, free⟩ := not_or.mp (mt List.mem_cons.mpr free)
    have later := ih free
    rw [includes, Option.isSome_eq_false_iff, Option.isNone_iff_eq_none] at later ⊢
    rw [cut?, dropStem?, if_neg other, later]
    rfl

/-- A word that starts with a mark can only occur where the mark stands. -/
theorem includes_of_single {before after : Text} (front : mark ∉ before) (back : mark ∉ after)
    (w : Text) : includes (before ++ mark :: after) (mark :: w) = startsWith after w := by
  induction before with
  | nil =>
    have later := includes_of_not_mem back w
    rw [includes, Option.isSome_eq_false_iff, Option.isNone_iff_eq_none] at later
    rw [List.nil_append, includes, cut?, dropStem?, if_pos rfl, startsWith]
    cases dropStem? w after with
    | none => rw [later]; rfl
    | some rest => rfl
  | cons c before ih =>
    obtain ⟨other, front⟩ := not_or.mp (mt List.mem_cons.mpr front)
    rw [List.cons_append, includes, cut?, dropStem?, if_neg other]
    simpa [includes] using ih front

theorem eq_behind_first {mark : Char} {s t u v : Text} (front : mark ∉ u) (front' : mark ∉ v)
    (same : u ++ mark :: s = v ++ mark :: t) : s = t := by
  induction u generalizing v with
  | nil =>
    cases v with
    | nil => exact (List.cons.inj same).2
    | cons c v => exact absurd List.mem_cons_self ((List.cons.inj same).1 ▸ front')
  | cons c u ih =>
    cases v with
    | nil => exact absurd List.mem_cons_self ((List.cons.inj same).1 ▸ front)
    | cons d v =>
      exact ih (mt (List.mem_cons_of_mem c) front) (mt (List.mem_cons_of_mem d) front')
        (List.cons.inj same).2

end Text

namespace Lexeme

/-- Whether all that a reader reads has a property. -/
def Reads (a : Lexeme) (p : Text → Prop) : Prop := ∀ ⦃t read rest⦄, a t = some (read, rest) → p read

variable {a b : Lexeme} {p q : Text → Prop} {x : Char}

theorem reads_word (w : Text) : (word w).Reads (· = w) := by
  intro t read rest found
  simp only [word, Option.map_eq_some_iff, Prod.mk.injEq] at found
  obtain ⟨_, _, rfl, _⟩ := found
  rfl

theorem Reads.andThen (first : a.Reads p) (second : b.Reads q) :
    (a.andThen b).Reads fun t => ∃ u v, t = u ++ v ∧ p u ∧ q v := by
  intro t read rest found
  simp only [Lexeme.andThen] at found
  split at found
  · cases found
  · next u middle here =>
    split at found
    · cases found
    · next v _ there =>
      cases found
      exact ⟨u, v, rfl, first here, second there⟩

/-- What is read without a character, it being in none of the parts. -/
theorem free_char {holds : Char → Bool} (other : holds x = false) : (char holds).Reads (x ∉ ·) := by
  intro t read rest found
  cases t with
  | nil => cases found
  | cons c t =>
    simp only [char] at found
    split at found
    · next held =>
      cases found
      rw [List.mem_singleton]
      intro same
      subst same
      rw [other] at held
      cases held
    · cases found

theorem free_chars {holds : Char → Bool} (other : holds x = false) : (chars holds).Reads (x ∉ ·) := by
  intro t read rest found
  cases found
  intro member
  have held := List.all_eq_true.mp List.all_takeWhile x member
  rw [other] at held
  cases held

theorem Reads.free_andThen (first : a.Reads (x ∉ ·)) (second : b.Reads (x ∉ ·)) :
    (a.andThen b).Reads (x ∉ ·) := by
  intro t read rest found
  obtain ⟨u, v, rfl, front, back⟩ := first.andThen second found
  rw [List.mem_append, not_or]
  exact ⟨front, back⟩

theorem Reads.free_optional (inner : a.Reads (x ∉ ·)) : a.optional.Reads (x ∉ ·) := by
  intro t read rest found
  simp only [Lexeme.optional, Option.some.injEq] at found
  cases here : a t with
  | none =>
    rw [here] at found
    cases found
    simp
  | some pair =>
    rw [here] at found
    cases found
    exact inner here

theorem free_word {w : Text} (other : x ∉ w) : (word w).Reads (x ∉ ·) := by
  intro t read rest found
  rw [reads_word w found]
  exact other

theorem andThen_eq_some {a b : Lexeme} {t read rest : Text} :
    a.andThen b t = some (read, rest) ↔ ∃ u v middle,
      a t = some (u, middle) ∧ b middle = some (v, rest) ∧ read = u ++ v := by
  rw [andThen]
  constructor
  · intro found
    split at found
    · cases found
    · next u middle here =>
      split at found
      · cases found
      · next v _ there =>
        cases found
        exact ⟨u, v, middle, here, there, rfl⟩
  · intro found
    obtain ⟨u, v, middle, here, there, rfl⟩ := found
    simp only [here, there]

theorem reads_char (holds : Char → Bool) :
    (char holds).Reads fun read => ∃ c, read = [c] ∧ holds c = true := by
  intro t read rest found
  cases t with
  | nil => cases found
  | cons c t =>
    simp only [char] at found
    split at found
    · next held =>
      cases found
      exact ⟨c, rfl, held⟩
    · cases found

theorem reads_run (holds : Char → Bool) :
    (run holds).Reads fun read => ∃ c more, read = c :: more ∧ holds c = true := by
  intro t read rest found
  obtain ⟨_, more, _, here, _, rfl⟩ := andThen_eq_some.mp found
  obtain ⟨c, rfl, held⟩ := reads_char _ here
  exact ⟨c, more, rfl, held⟩

/-- Whether a reader reads the same when less follows what it reads. -/
def Local (a : Lexeme) : Prop :=
  ∀ ⦃read near far⦄, a (read ++ (near ++ far)) = some (read, near ++ far) →
    a (read ++ near) = some (read, near)

variable {a b : Lexeme}

theorem local_char (holds : Char → Bool) : (char holds).Local := by
  intro read near far found
  cases read with
  | nil =>
    obtain ⟨_, never, _⟩ := reads_char holds found
    cases never
  | cons c read =>
    simp only [List.cons_append, char] at found ⊢
    split at found
    · next held =>
      simp only [Option.some.injEq, Prod.mk.injEq, List.cons.injEq, true_and] at found
      rw [if_pos held, ← found.1, List.nil_append]
    · cases found

theorem local_chars (holds : Char → Bool) : (chars holds).Local := by
  intro read near far found
  simp only [chars, Option.some.injEq, Prod.mk.injEq] at found ⊢
  induction read with
  | nil =>
    cases near with
    | nil => exact ⟨rfl, rfl⟩
    | cons c near =>
      have stop : holds c = false := by
        by_contra held
        simp [Bool.of_not_eq_false held] at found
      simp [stop]
  | cons c read ih =>
    have held : holds c = true := by
      by_contra stop
      simp [stop] at found
    simp only [List.cons_append, List.takeWhile_cons, List.dropWhile_cons, held, if_true,
      List.cons.injEq, true_and] at found ⊢
    exact ih found

theorem local_word (w : Text) : (word w).Local := by
  intro read near far found
  simp only [word, Option.map_eq_some_iff, Prod.mk.injEq, Text.dropStem?_eq_some_iff] at found ⊢
  obtain ⟨rest, _, rfl, _⟩ := found
  exact ⟨near, rfl, rfl, rfl⟩

theorem Local.andThen (splits : a.Splits) (first : a.Local) (second : b.Local) :
    (a.andThen b).Local := by
  intro read near far found
  obtain ⟨u, v, middle, here, there, rfl⟩ := andThen_eq_some.mp found
  have between : middle = v ++ (near ++ far) := by
    have whole := splits here
    rw [List.append_assoc] at whole
    exact (List.append_cancel_left whole).symm
  subst between
  have before : a (u ++ (v ++ near)) = some (u, v ++ near) := by
    refine @first u (v ++ near) far ?_
    simpa only [List.append_assoc] using here
  refine andThen_eq_some.mpr ⟨u, v, v ++ near, ?_, second there, rfl⟩
  rw [List.append_assoc]
  exact before

end Lexeme

namespace Identifier

open Lexeme

theorem free_code : code.Reads ('_' ∉ ·) :=
  (free_char (by decide)).free_andThen (free_chars (by decide))

/-- The code of a feature ends before the hyphen behind it. -/
theorem not_mem_featureCode (id : Text) : '-' ∉ featureCode id := by
  have free : code.Reads ('-' ∉ ·) :=
    (free_char (by decide)).free_andThen (free_chars (by decide))
  unfold featureCode
  cases found : code id with
  | none => exact List.not_mem_nil
  | some read => exact free found

theorem free_number : number.Reads ('_' ∉ ·) :=
  (free_char (by decide)).free_andThen (free_chars (by decide))

theorem free_requirement : requirement.Reads ('_' ∉ ·) :=
  ((free_code.free_andThen (free_word (by decide))).free_andThen free_number).free_andThen
    ((free_word (by decide)).free_andThen free_number).free_optional

theorem criterionMark_eq : criterionMark = ['_', 'A', 'C', '-'] := by decide

theorem propertyMark_eq : propertyMark = ['_', 'P', '-'] := by decide

/-- A criterion is a requirement, the mark and a number; nothing else in it is an underscore. -/
theorem reads_criterion : criterion.Reads fun id => ∃ before after,
    id = before ++ '_' :: 'A' :: 'C' :: '-' :: after ∧ '_' ∉ before ∧
      '_' ∉ 'A' :: 'C' :: '-' :: after := by
  intro t read rest found
  obtain ⟨before, last, rfl, front, mark, after, rfl, marked, back⟩ :=
    (free_requirement.andThen ((reads_word criterionMark).andThen free_number)) found
  rw [marked, criterionMark_eq]
  exact ⟨before, after, rfl, front, by simpa using back⟩

theorem kind_of_criterion {t id rest : Text} (found : criterion t = some (id, rest)) :
    kind id = .criterion := by
  obtain ⟨before, after, rfl, front, back⟩ := reads_criterion found
  -- The mark of a criterion is looked for first, and it is there.
  have marked := Text.includes_of_single front back ['A', 'C', '-']
  rw [kind, criterionMark_eq, marked]
  rfl

/-- A criterion does not have the shape of a property. -/
theorem not_includes_propertyMark {t id rest : Text} (found : criterion t = some (id, rest)) :
    id.includes propertyMark = false := by
  obtain ⟨before, after, rfl, front, back⟩ := reads_criterion found
  rw [propertyMark_eq, Text.includes_of_single front back ['P', '-']]
  rfl

/-! ## What is read again -/

theorem local_number : number.Local :=
  (local_char _).andThen (splits_char _) (local_chars _)

theorem local_code : code.Local := (local_char _).andThen (splits_char _) (local_chars _)

theorem splits_mainRequirement : mainRequirement.Splits :=
  (splits_code.andThen (splits_word _)).andThen splits_number

theorem local_mainRequirement : mainRequirement.Local := by
  have front : (code.andThen (word "-")).Local := local_code.andThen splits_code (local_word _)
  exact front.andThen (splits_code.andThen (splits_word _)) local_number

theorem not_isDigit_of_isLetter {c : Char} (letter : isLetter c = true) :
    Text.isDigit c = false := by
  simp only [isLetter, isCapital, Bool.or_eq_true, Bool.and_eq_true, decide_eq_true_eq,
    Char.le_def, UInt32.le_iff_toNat_le] at letter
  change (65 ≤ c.toNat ∧ c.toNat ≤ 90) ∨ (97 ≤ c.toNat ∧ c.toNat ≤ 122) at letter
  have above : ¬ c ≤ '9' := by
    rw [Char.le_def, UInt32.le_iff_toNat_le]
    change ¬ c.toNat ≤ 57
    omega
  rw [Text.isDigit, if_pos (by omega), decide_eq_false above, Bool.and_false]

/-! ## Kinds by shape -/

theorem hyphenless_code : code.Reads ('-' ∉ ·) :=
  (free_char (by decide)).free_andThen (free_chars (by decide))

theorem kind_of_free {id : Text} (free : '_' ∉ id) :
    kind id = if (mainRequirement id).isSome then .requirement else .component := by
  rw [kind, criterionMark_eq, propertyMark_eq, Text.includes_of_not_mem free,
    Text.includes_of_not_mem free]
  rfl

theorem kind_of_requirement {t id rest : Text} (found : requirement t = some (id, rest)) :
    kind id = .requirement := by
  obtain ⟨main, point, middle, here, there, rfl⟩ := andThen_eq_some.mp found
  have whole : t = main ++ (point ++ rest) := by
    rw [← splits_subnumber.optional there]
    exact splits_mainRequirement here
  -- The main number is read again when nothing follows its subnumber.
  have again : mainRequirement (main ++ point) = some (main, point) := by
    rw [whole, splits_subnumber.optional there] at here
    exact local_mainRequirement here
  rw [kind_of_free (free_requirement found), again]
  rfl

/-- The first hyphen of a main number stands in front of a digit. -/
theorem reads_mainRequirement : mainRequirement.Reads fun id => ∃ before digit after,
    id = before ++ '-' :: digit :: after ∧ '-' ∉ before ∧ Text.isDigit digit = true := by
  intro t id rest found
  obtain ⟨_, _, _, outer, number, rfl⟩ := andThen_eq_some.mp found
  obtain ⟨feature, _, _, here, mark, rfl⟩ := andThen_eq_some.mp outer
  obtain ⟨digit, after, rfl, held⟩ := reads_run _ number
  rw [reads_word _ mark]
  exact ⟨feature, digit, after, by simp, hyphenless_code here, held⟩

/-- The first hyphen of a component stands in front of a letter. -/
theorem reads_component : component.Reads fun id => ∃ before letter after,
    id = before ++ '-' :: letter :: after ∧ '-' ∉ before ∧ isLetter letter = true := by
  intro t id rest found
  obtain ⟨_, after, _, outer, _, rfl⟩ := andThen_eq_some.mp found
  obtain ⟨_, _, _, inner, first, rfl⟩ := andThen_eq_some.mp outer
  obtain ⟨feature, _, _, here, mark, rfl⟩ := andThen_eq_some.mp inner
  obtain ⟨letter, rfl, held⟩ := reads_char _ first
  rw [reads_word _ mark]
  exact ⟨feature, letter, after, by simp, hyphenless_code here, held⟩

theorem kind_of_component {t id rest : Text} (found : component t = some (id, rest)) :
    kind id = .component := by
  have free : '_' ∉ id := ((free_code.free_andThen (free_word (by decide))).free_andThen
    (free_char (by decide))).free_andThen (free_chars (by decide)) found
  obtain ⟨before, letter, after, rfl, clean, held⟩ := reads_component found
  rw [kind_of_free free, if_neg]
  rw [Bool.not_eq_true, Option.isSome_eq_false_iff, Option.isNone_iff_eq_none,
    Option.eq_none_iff_forall_ne_some]
  rintro ⟨main, point⟩ number
  obtain ⟨before', digit, after', rfl, clean', digital⟩ := reads_mainRequirement number
  have whole := splits_mainRequirement number
  rw [List.append_assoc, List.cons_append, List.cons_append] at whole
  have same := Text.eq_behind_first clean clean' whole
  rw [← (List.cons.inj same).1, not_isDigit_of_isLetter held] at digital
  cases digital

theorem kind_of_property {t id rest : Text} (found : property t = some (id, rest)) :
    kind id = .property := by
  obtain ⟨before, last, rfl, ⟨front, mark, rfl, code, rfl⟩, number⟩ :=
    ((free_code.andThen (reads_word propertyMark)).andThen free_number) found
  have shape : (front ++ propertyMark) ++ last = front ++ '_' :: ('P' :: '-' :: last) := by
    simp [propertyMark_eq]
  have back : '_' ∉ 'P' :: '-' :: last := by simpa using number
  rw [shape, kind, criterionMark_eq, propertyMark_eq, Text.includes_of_single code back,
    Text.includes_of_single code back]
  rfl

end Identifier

end Traceability
