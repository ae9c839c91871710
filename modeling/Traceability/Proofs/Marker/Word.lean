import Traceability.Identifier
import Traceability.Marker.Directive
import Traceability.Proofs.Cut
import Traceability.Proofs.Path

/-!
# Directives as words

A directive is on a line where its word stands and does not go on. No word of a directive holds the
characters that a comment of a token and entries is put together with, so such a comment is without
directives where its parts are.
-/
namespace Traceability.Marker

variable {t u v w token : Text} {ts : List Text} {c : Char}

/-! ## Words in a text -/

theorem startsWithWord_eq_true_iff :
    startsWithWord w t = true ↔ ∃ rest, t = w ++ rest ∧ continuesWord rest = false := by
  rw [startsWithWord]
  constructor
  · intro starts
    split at starts
    · next rest found => exact ⟨rest, Text.dropStem?_eq_some_iff.mp found, by simpa using starts⟩
    · cases starts
  · rintro ⟨rest, rfl, apart⟩
    rw [Text.dropStem?_eq_some_iff.mpr rfl]
    simp [apart]

theorem hasWord_eq_true_iff : hasWord w t = true ↔
    ∃ before rest, t = before ++ (w ++ rest) ∧ continuesWord rest = false := by
  induction t with
  | nil =>
    rw [hasWord, startsWithWord_eq_true_iff]
    constructor
    · rintro ⟨rest, here, apart⟩
      exact ⟨[], rest, here, apart⟩
    · rintro ⟨before, rest, here, apart⟩
      obtain rfl := (List.append_eq_nil_iff.mp here.symm).1
      exact ⟨rest, here, apart⟩
  | cons c t ih =>
    rw [hasWord, Bool.or_eq_true, startsWithWord_eq_true_iff, ih]
    constructor
    · rintro (⟨rest, here, apart⟩ | ⟨before, rest, rfl, apart⟩)
      · exact ⟨[], rest, here, apart⟩
      · exact ⟨c :: before, rest, rfl, apart⟩
    · rintro ⟨before, rest, here, apart⟩
      cases before with
      | nil => exact .inl ⟨rest, here, apart⟩
      | cons d before =>
        obtain ⟨-, rfl⟩ := List.cons.inj here
        exact .inr ⟨before, rest, rfl, apart⟩

/-- A word is looked for behind a text that its first character does not stand in. -/
theorem hasWord_append (free : c ∉ u) (t : Text) :
    hasWord (c :: w) (u ++ t) = hasWord (c :: w) t := by
  induction u with
  | nil => rfl
  | cons d u ih =>
    obtain ⟨other, free⟩ := not_or.mp (mt List.mem_cons.mpr free)
    rw [List.cons_append, hasWord, ih free, startsWithWord, Text.dropStem?, if_neg other]
    rfl

/-- A word without the character between two texts stands in one of them. -/
theorem hasWord_append_cons (free : c ∉ w) (found : hasWord w (u ++ c :: v) = true) :
    hasWord w u = true ∨ hasWord w v = true := by
  obtain ⟨before, rest, shape, ends⟩ := hasWord_eq_true_iff.mp found
  rw [hasWord_eq_true_iff, hasWord_eq_true_iff]
  rw [← List.append_assoc] at shape
  obtain ⟨s, front, back⟩ | ⟨s, rfl, behind⟩ := List.append_eq_append_iff.mp shape
  · cases s with
    | nil =>
      refine .inl ⟨before, [], ?_, rfl⟩
      rw [List.append_nil] at front ⊢
      exact front.symm
    | cons d s =>
      obtain ⟨rfl, rfl⟩ := List.cons.inj back
      obtain ⟨k, -, rfl⟩ | ⟨k, rfl, inside⟩ := List.append_eq_append_iff.mp front
      · exact absurd (List.mem_append_right k List.mem_cons_self) free
      · cases k with
        | nil =>
          obtain rfl : c :: s = w := inside
          exact absurd List.mem_cons_self free
        | cons d k =>
          obtain ⟨rfl, rfl⟩ := List.cons.inj inside
          exact .inr ⟨k, rest, List.append_assoc _ _ _, ends⟩
  · refine .inl ⟨before, s, by rw [List.append_assoc], ?_⟩
    cases s with
    | nil => rfl
    | cons d s => exact (congrArg continuesWord behind) ▸ ends

/-! ## Texts without directives -/

theorem exists_word (d : Directive) : ∃ w, d.word = '@' :: w ∧
    d.word.any Identifier.isCapital = false := by
  cases d <;> exact ⟨_, rfl, by decide⟩

/-- Whether a text holds no directive. -/
def Undirected (t : Text) : Prop := ∀ d : Directive, d.isOn t = false

/-- Whether a character stands in no directive. -/
def Parts (c : Char) : Prop := ∀ d : Directive, c ∉ d.word

theorem undirected_nil : Undirected [] := fun d => by cases d <;> rfl

theorem undirected_of_not_mem (free : '@' ∉ t) : Undirected t := by
  intro d
  obtain ⟨w, shape, -⟩ := exists_word d
  rw [Directive.isOn, shape, ← List.append_nil t, hasWord_append free]
  rfl

theorem undirected_of_not_includes (plain : t.includes "@spec-ignore" = false) : Undirected t := by
  refine fun d => Bool.eq_false_iff.mpr fun found => ?_
  obtain ⟨before, rest, rfl, -⟩ := hasWord_eq_true_iff.mp found
  have stem : "@spec-ignore".toList <+: d.word := by cases d <;> exact ⟨_, rfl⟩
  have inside : "@spec-ignore".toList <:+: before ++ (d.word ++ rest) :=
    stem.isInfix.trans ⟨before, rest, List.append_assoc _ _ _⟩
  rw [Text.includes_iff_infix.mpr inside] at plain
  cases plain

theorem Undirected.append (parts : Parts c) (first : Undirected u) (second : Undirected v) :
    Undirected (u ++ c :: v) := by
  refine fun d => Bool.eq_false_iff.mpr fun found => ?_
  rcases hasWord_append_cons (parts d) found with here | here
  · exact absurd (here.symm.trans (first d)) nofun
  · exact absurd (here.symm.trans (second d)) nofun

theorem Undirected.cons (parts : Parts c) (rest : Undirected t) : Undirected (c :: t) :=
  Undirected.append parts undirected_nil rest

theorem parts_of_mem (member : c ∈ ['#', ' ', ':', ',', '(', ')']) : Parts c := by
  intro d
  have words : (['#', ' ', ':', ',', '(', ')'].all fun c => c ∉ d.word) = true := by
    cases d <;> decide +kernel
  simpa using List.all_eq_true.mp words c member

theorem undirected_join (each : ∀ t ∈ ts, Undirected t) : Undirected (Text.join ", " ts) := by
  induction ts with
  | nil => exact undirected_nil
  | cons t ts ih =>
    obtain ⟨first, rest⟩ := List.forall_mem_cons.mp each
    cases ts with
    | nil => exact first
    | cons next ts =>
      have later : Undirected (' ' :: Text.join ", " (next :: ts)) :=
        .cons (parts_of_mem (by decide)) (ih rest)
      rw [Text.join_cons_cons]
      exact .append (parts_of_mem (by decide)) first later

/-- A comment of a token and texts between commas holds no directive that they do not hold. -/
theorem undirected_announcement (plain : token.includes "@spec-ignore" = false)
    (each : ∀ t ∈ ts, Undirected t) :
    Undirected ('#' :: ' ' :: (token ++ ':' :: ' ' :: Text.join ", " ts)) := by
  have list : Undirected (' ' :: Text.join ", " ts) :=
    .cons (parts_of_mem (by decide)) (undirected_join each)
  have behind : Undirected (token ++ ':' :: ' ' :: Text.join ", " ts) :=
    .append (parts_of_mem (by decide)) (undirected_of_not_includes plain) list
  exact .cons (parts_of_mem (by decide)) (.cons (parts_of_mem (by decide)) behind)

end Traceability.Marker
