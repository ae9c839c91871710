import Mathlib
import Traceability.Config.Basic
import Traceability.Pattern.Use
import Traceability.Proofs.Pattern.Language
import Traceability.Proofs.Pattern.Spelling
import Traceability.Proofs.Shape

/-!
# The form of identifiers

Unless another form is configured, the identifiers of code and tests are numbered: what stands behind
the first hyphen is a digit. So no component is accepted there; every other identifier is.
-/
namespace Traceability

namespace PatternNode

def sequence (nodes : List PatternNode) : PatternNode := nodes.foldr cat empty

def optional (n : PatternNode) : PatternNode := .iterate 0 (some 1) .greedy n

def literal (c : Char) : PatternNode := .char c.toNat {}

def capital : PatternNode := .set false [.range 65 90] {}

def codeChars : PatternNode := .iterate 0 none .greedy (.set false [.range 65 90, .range 48 57] {})

def digits : PatternNode := .iterate 1 none .greedy (.set false [.cls .digit false] {})

/-- What the configured form is read as, where nothing is configured. -/
def idForm : PatternNode :=
  sequence [.group 1 (.alt
    (sequence [capital, codeChars, literal '-', digits, optional (sequence [literal '.', digits]),
      optional (sequence [literal '_', literal 'A', literal 'C', literal '-', digits])])
    (sequence [capital, codeChars, literal '_', literal 'P', literal '-', digits]))]

set_option maxRecDepth 3000 in
theorem use_idPattern [CharacterNames] :
    PatternNode.use {} ({} : Config).idPattern = .ok idForm := by cbv

/-! ## What stands behind the first hyphen -/

section Hyphen

open Computability

variable {l m : Language Char} {p : Char → Bool} {x : Char}

/-- Whether no word of a language has a character. -/
def Free (x : Char) (l : Language Char) : Prop := ∀ w ∈ l, x ∉ w

/-- Whether the first hyphen of every word of a language stands in front of a digit. -/
def Numbered (l : Language Char) : Prop :=
  ∀ w ∈ l, ∃ before digit after,
    w = before ++ '-' :: digit :: after ∧ '-' ∉ before ∧ Text.isDigit digit = true

theorem free_characters (other : p x = false) : Free x (characters p) := by
  rintro _ ⟨d, rfl, held⟩ member
  rw [List.mem_singleton] at member
  rw [member, held] at other
  cases other

theorem Free.repeated (free : Free x l) : Free x (l ^ 0 * l∗) := by
  intro w inside member
  rw [pow_zero, one_mul] at inside
  obtain ⟨parts, rfl, among⟩ := Language.mem_kstar.mp inside
  obtain ⟨part, listed, here⟩ := List.mem_flatten.mp member
  exact free part (among part listed) here

theorem Numbered.behind (numbered : Numbered m) (free : Free '-' l) : Numbered (l * m) := by
  rintro _ ⟨u, front, w, inside, rfl⟩
  obtain ⟨before, digit, after, rfl, clean, held⟩ := numbered w inside
  refine ⟨u ++ before, digit, after, (List.append_assoc _ _ _).symm, ?_, held⟩
  rw [List.mem_append, not_or]
  exact ⟨free u front, clean⟩

theorem Numbered.before (numbered : Numbered l) : Numbered (l * m) := by
  rintro _ ⟨w, inside, v, _, rfl⟩
  obtain ⟨before, digit, after, rfl, clean, held⟩ := numbered w inside
  exact ⟨before, digit, after ++ v, by simp, clean, held⟩

theorem Numbered.add (first : Numbered l) (second : Numbered m) : Numbered (l + m) := by
  rintro w (inside | inside)
  · exact first w inside
  · exact second w inside

theorem holds_literal {c d : Char} : holds d (literal c) = true ↔ d = c := by
  simp [literal, holds, PatternFlags.readings, Char.toNat_inj]

theorem numbered_digits (l : Language Char) :
    Numbered ((literal '-').language * (digits.language * l)) := by
  rintro _ ⟨_, ⟨d, rfl, hyphen⟩, _, ⟨_, ⟨_, first, more, _, rfl⟩, v, _, rfl⟩, rfl⟩
  rw [pow_one] at first
  obtain ⟨digit, rfl, held⟩ := first
  have digital : Text.isDigit digit = true := by
    simpa [holds, SetItem.holds, CharClass.holds] using held
  exact ⟨[], digit, more ++ v, by simp [holds_literal.mp hyphen], List.not_mem_nil, digital⟩

theorem numbered_idForm : Numbered idForm.language := by
  have capital : Free '-' capital.language := free_characters (by decide)
  have codeChars : Free '-' codeChars.language := (free_characters (by decide)).repeated
  have underscore : Free '-' (literal '_').language := free_characters (by decide)
  have letter : Free '-' (literal 'P').language := free_characters (by decide)
  refine .before (.add ?_ ?_)
  · exact ((numbered_digits _).behind codeChars).behind capital
  · exact ((((numbered_digits _).behind letter).behind underscore).behind codeChars).behind capital

end Hyphen

/-- No component is of the form of identifiers. -/
theorem not_matchesAll_component {t id rest : Text} (read : Identifier.component t = some (id, rest)) :
    idForm.matchesAll id = false := by
  by_contra matched
  obtain ⟨before, digit, after, whole, clean, digital⟩ :=
    numbered_idForm id (mem_language_of_matchesAll (Bool.of_not_eq_false matched))
  obtain ⟨before', letter, after', rfl, clean', held⟩ := Identifier.reads_component read
  have same := Text.eq_behind_first clean' clean whole
  rw [← (List.cons.inj same).1, Identifier.not_isDigit_of_isLetter held] at digital
  cases digital

/-! ## What the form spells -/

section Spells

open Identifier (IsCode IsNumber IsSubnumber Shaped isCapital isCodeChar)

variable {kind : IdKind} {n : PatternNode} {id u t m s : Text} {d : Char}

theorem holds_range (low high : Char) : (SetItem.range low.toNat high.toNat).holds {} d =
    (low ≤ d && d ≤ high) := by
  simp [SetItem.holds, PatternFlags.readings, Char.le_def, UInt32.le_iff_toNat_le]

theorem holds_capital : capital.holds d = isCapital d := by
  have letters : (SetItem.range 65 90).holds {} d = _ := holds_range 'A' 'Z'
  simp [capital, holds, isCapital, letters]

theorem holds_codeChar (inner : isCodeChar d = true) :
    (PatternNode.set false [.range 65 90, .range 48 57] {}).holds d = true := by
  have letters : (SetItem.range 65 90).holds {} d = _ := holds_range 'A' 'Z'
  have numerals : (SetItem.range 48 57).holds {} d = _ := holds_range '0' '9'
  simpa [holds, isCodeChar, isCapital, letters, numerals] using inner

theorem spells_literal (c : Char) (behind : Spells n t) : Spells (.cat (literal c) n) (c :: t) :=
  .cat (.single (holds_literal.mpr rfl)) behind

theorem spells_code (feature : IsCode u) (behind : Spells n t) :
    Spells (.cat capital (.cat codeChars n)) (u ++ t) := by
  obtain ⟨c, more, rfl, first, all⟩ := feature
  have later : Spells codeChars more :=
    spells_many (Nat.zero_le _) fun d member => holds_codeChar (all d member)
  have start : Spells capital [c] := .single (holds_capital.trans first)
  exact start.cat (later.cat behind)

theorem spells_digits (own : IsNumber m) : Spells digits m :=
  spells_many (List.length_pos_iff.mpr own.1) fun d member => by
    simpa [holds, SetItem.holds, CharClass.holds] using own.2 d member

theorem spells_optional (spelled : t ≠ [] → Spells n t) : Spells (optional n) t := by
  by_cases empty : t = []
  · subst empty
    have none : Spells (optional n) ([] : List Text).flatten :=
      .iterate (by decide) (Nat.zero_le _) (by simp) (by simp) (by simp)
    exact none
  · have once : Spells (optional n) [t].flatten :=
      .iterate (by decide) (Nat.zero_le _) (by simp) (by simpa using empty)
        (by simpa using spelled empty)
    rwa [List.flatten_cons, List.flatten_nil, List.append_nil] at once

theorem spells_number (own : IsNumber m) : Spells (sequence [digits]) m := by
  rw [← List.append_nil m]
  exact .cat (spells_digits own) .empty

theorem spells_subnumber (sub : IsSubnumber s) :
    Spells (optional (sequence [literal '.', digits])) s := by
  refine spells_optional fun filled => ?_
  rcases sub with rfl | ⟨m, own, rfl⟩
  · exact absurd rfl filled
  · exact spells_literal '.' (spells_number own)

theorem spells_idForm (shaped : Shaped kind id) (other : kind ≠ .component) : Spells idForm id := by
  rw [← List.append_nil id]
  refine .cat (.group 1 ?_) .empty
  have numbered {u m s t : Text} (feature : IsCode u) (main : IsNumber m) (sub : IsSubnumber s)
      (mark : t ≠ [] → Spells (sequence [literal '_', literal 'A', literal 'C', literal '-',
        digits]) t) :
      Spells (sequence [capital, codeChars, literal '-', digits,
        optional (sequence [literal '.', digits]), optional (sequence [literal '_', literal 'A',
          literal 'C', literal '-', digits])]) (u ++ '-' :: (m ++ (s ++ (t ++ [])))) :=
    spells_code feature (spells_literal '-' (.cat (spells_digits main)
      (.cat (spells_subnumber sub) (.cat (spells_optional mark) .empty))))
  cases shaped with
  | requirement feature main sub =>
    refine .former _ ?_
    simpa using numbered feature main sub (t := []) (absurd rfl)
  | criterion feature main sub own =>
    refine .former _ ?_
    simpa using numbered feature main sub fun _ => spells_literal '_' (spells_literal 'A'
      (spells_literal 'C' (spells_literal '-' (spells_number own))))
  | property feature own =>
    exact .latter _ (spells_code feature (spells_literal '_' (spells_literal 'P'
      (spells_literal '-' (spells_number own)))))
  | component => exact absurd rfl other

/-- Every identifier but the name of a component is of the form of identifiers. -/
theorem matchesAll_idForm (shaped : Shaped kind id) (other : kind ≠ .component) :
    idForm.matchesAll id = true :=
  matchesAll_of_spells (spells_idForm shaped other)

end Spells

end PatternNode

end Traceability
