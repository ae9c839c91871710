import Traceability.Proofs.Editor.Renamed

/-!
# Identifiers read from renamed texts

Where a text is not at an occurrence of the renamed word, every lexeme reads the same from it and
from the renamed text. At an occurrence, the lexeme of its kind reads the one word here and the
other one there.
-/
namespace Traceability.Editor

open Lexeme
open Text (touches)
open Marker (startsWithWord continuesWord startsWithWord_eq_true_iff)
open Identifier (Closed Shaped lexemeOf)

variable {kind k : IdKind} {old new t t' w : Text} {c : Char} {joined joined' joined'' : Bool}
  {n : Nat} {a b : Lexeme} {holds : Char → Bool}

/-- Whether the same is read from both texts, and the texts left are renamed. -/
def SameRead (kind : IdKind) (old new : Text) (joined : Bool) (n : Nat) :
    Option (Text × Text) → Option (Text × Text) → Prop :=
  Option.Rel fun x x' => x'.1 = x.1 ∧ Renamed kind old new joined n x.2 x'.2

/-- Whether a reader reads the same from a text and the renamed text, where `joined` tells whether
the character before is one that touches, and `joined'` whether the last one that is read does. -/
def ReadsAlike (kind : IdKind) (old new : Text) (joined joined' : Bool) (a : Lexeme) : Prop :=
  ∀ ⦃n t t'⦄, Renamed kind old new joined n t t' → SameRead kind old new joined' n (a t) (a t')

theorem SameRead.andThen (first : SameRead kind old new joined n (a t) (a t'))
    (second : ReadsAlike kind old new joined joined' b) :
    SameRead kind old new joined' n (a.andThen b t) (a.andThen b t') := by
  rw [Lexeme.andThen, Lexeme.andThen]
  generalize a t = x, a t' = x' at first
  cases first with
  | none => exact .none
  | @some x x' same =>
    obtain ⟨same, renamed⟩ := same
    have later := second renamed
    dsimp only
    generalize b x.2 = y, b x'.2 = y' at later
    cases later with
    | none => exact .none
    | some also => exact .some ⟨by rw [same, also.1], also.2⟩

theorem SameRead.optional (renamed : Renamed kind old new joined n t t')
    (inner : SameRead kind old new joined n (a t) (a t')) :
    SameRead kind old new joined n (a.optional t) (a.optional t') := by
  rw [Lexeme.optional, Lexeme.optional]
  generalize a t = x, a t' = x' at inner
  cases inner with
  | none => exact .some ⟨rfl, renamed⟩
  | some same => exact .some same

theorem ReadsAlike.andThen (first : ReadsAlike kind old new joined joined' a)
    (second : ReadsAlike kind old new joined' joined'' b) :
    ReadsAlike kind old new joined joined'' (a.andThen b) :=
  fun _ _ _ renamed => (first renamed).andThen second

theorem ReadsAlike.optional (inner : ReadsAlike kind old new joined joined a) :
    ReadsAlike kind old new joined joined a.optional :=
  fun _ _ _ renamed => .optional renamed (inner renamed)

/-! ## Characters that touch -/

section Touching

variable (inner : ∀ c, holds c = true → touches c = true)

include inner

theorem sameRead_char_cons (renamed : Renamed kind old new (touches c) n t t') :
    SameRead kind old new true n (char holds (c :: t)) (char holds (c :: t')) := by
  rw [char, char]
  split
  · next held => exact .some ⟨rfl, inner c held ▸ renamed⟩
  · exact .none

theorem readsAlike_char : ReadsAlike kind old new true true (char holds) := by
  intro n t t' renamed
  rcases renamed.joined_cases with ⟨_, rfl, rfl⟩ | ⟨c, u, u', rfl, rfl, rest⟩
  · exact .none
  · exact sameRead_char_cons inner rest

theorem readsAlike_chars : ReadsAlike kind old new true true (chars holds) := by
  intro n t t' renamed
  refine .some ?_
  induction t generalizing t' with
  | nil =>
    rcases renamed.joined_cases with ⟨rfl, _, rfl⟩ | ⟨_, _, _, never, _⟩
    · exact ⟨rfl, renamed⟩
    · cases never
  | cons c u ih =>
    rcases renamed.joined_cases with ⟨_, never, _⟩ | ⟨_, _, u', same, rfl, rest⟩
    · cases never
    · cases same
      cases held : holds c with
      | false => simpa [held] using renamed
      | true =>
        have next := ih (inner c held ▸ rest)
        simpa [held] using next

end Touching

theorem dropStem?_joined (inner : w.all touches = true)
    (renamed : Renamed kind old new true n t t') :
    Option.Rel (Renamed kind old new true n) (Text.dropStem? w t) (Text.dropStem? w t') := by
  induction w generalizing t t' with
  | nil =>
    rw [Text.dropStem?_nil, Text.dropStem?_nil]
    exact .some renamed
  | cons c w ih =>
    obtain ⟨first, inner⟩ := Bool.and_eq_true_iff.mp inner
    rcases renamed.joined_cases with ⟨_, rfl, rfl⟩ | ⟨d, u, u', rfl, rfl, rest⟩
    · exact .none
    · rw [Text.dropStem?, Text.dropStem?]
      split
      · next same =>
        subst same
        exact ih inner (first ▸ rest)
      · exact .none

theorem readsAlike_word (inner : w.all touches = true) :
    ReadsAlike kind old new true true (word w) :=
  fun _ _ _ renamed => rel_map (dropStem?_joined inner renamed) fun _ _ rest => ⟨rfl, rest⟩

/-! ## The lexemes of identifiers -/

theorem readsAlike_number : ReadsAlike kind old new true true Identifier.number :=
  (readsAlike_char fun _ => Identifier.touches_of_isDigit).andThen
    (readsAlike_chars fun _ => Identifier.touches_of_isDigit)

theorem readsAlike_criterionNumber :
    ReadsAlike kind old new true true Identifier.criterionNumber :=
  (readsAlike_word (by decide)).andThen readsAlike_number

theorem sameRead_code_cons (renamed : Renamed kind old new (touches c) n t t') :
    SameRead kind old new true n (Identifier.code (c :: t)) (Identifier.code (c :: t')) :=
  (sameRead_char_cons (fun _ => Identifier.touches_of_isCapital) renamed).andThen
    (readsAlike_chars fun _ => Identifier.touches_of_isCodeChar)

theorem sameRead_property_cons (renamed : Renamed kind old new (touches c) n t t') :
    SameRead kind old new true n (Identifier.property (c :: t)) (Identifier.property (c :: t')) :=
  ((sameRead_code_cons renamed).andThen (readsAlike_word (by decide))).andThen readsAlike_number

/-- What a lexeme reads where no word character and no hyphen follows. -/
def readAlone? (k : IdKind) (t : Text) : Option (Text × Text) :=
  (lexemeOf k t).filter fun x => !continuesWord x.2

theorem readAlone?_eq_none
    (joined : ∀ x rest, lexemeOf k t = some (x, rest) → continuesWord rest = true) :
    readAlone? k t = none := by
  rw [readAlone?]
  cases read : lexemeOf k t with
  | none => rfl
  | some x => simp [joined x.1 x.2 read]

theorem splits_lexemeOf (k : IdKind) : (lexemeOf k).Splits := by
  have feature := Identifier.splits_code
  have number := Identifier.splits_number
  cases k with
  | requirement => exact Identifier.splits_requirement
  | criterion => exact Identifier.splits_requirement.andThen Identifier.splits_criterionNumber
  | property => exact (feature.andThen (splits_word _)).andThen number
  | component =>
    exact ((feature.andThen (splits_word _)).andThen (splits_char _)).andThen (splits_chars _)

/-- An identifier, or the one that takes its place. -/
def renameId (old new id : Text) : Text := if id = old then new else id

theorem rel_filter_alone {x x' : Option (Text × Text)}
    (same : SameRead kind old new true n x x')
    (kept : ∀ id left, x = some (id, left) → continuesWord left = false → id ≠ old) :
    Option.Rel (fun x x' => x'.1 = renameId old new x.1 ∧ Replaced old new x.2 x'.2)
      (x.filter fun x => !continuesWord x.2) (x'.filter fun x => !continuesWord x.2) := by
  cases same with
  | none => exact .none
  | @some x x' same =>
    obtain ⟨id, left⟩ := x
    obtain ⟨id', left'⟩ := x'
    obtain ⟨equal, renamed⟩ := same
    dsimp only at equal
    have touching : continuesWord left' = continuesWord left := renamed.continuesWord_eq
    rw [Option.filter, Option.filter, touching]
    cases apart : continuesWord left with
    | true => exact .none
    | false =>
      have other : id ≠ old := kept id left rfl apart
      exact .some ⟨equal.trans (if_neg other).symm, renamed.replaced⟩

section Shaped

variable (shaped : Shaped kind old) (shaped' : Shaped kind new)

include shaped shaped'

/-- A digit is read from both texts even where no character touches: words do not start with one. -/
theorem readsAlike_digit : ReadsAlike kind old new false true (char Text.isDigit) := by
  intro n t t' renamed
  have starts {id : Text} (shaped : Shaped kind id) (u : Text) :
      char Text.isDigit (id ++ u) = none := by
    obtain ⟨c, more, rfl, capital⟩ := (Identifier.spelled_of_shaped shaped).capital
    have other : Text.isDigit c = false :=
      Identifier.not_isDigit_of_isLetter (by simp [Identifier.isLetter, capital])
    simp [char, other]
  cases renamed with
  | nil => exact .none
  | keep _ rest => exact sameRead_char_cons (fun _ => Identifier.touches_of_isDigit) rest
  | swap _ _ _ =>
    rw [starts shaped, starts shaped']
    exact .none

theorem readsAlike_subnumber : ReadsAlike kind old new true true Identifier.subnumber := by
  intro n t t' renamed
  rw [Identifier.subnumber]
  rcases renamed.joined_cases with ⟨_, rfl, rfl⟩ | ⟨c, u, u', rfl, rfl, rest⟩
  · exact .none
  · by_cases point : c = '.'
    · subst point
      have front : SameRead kind old new false n (word "." ('.' :: u)) (word "." ('.' :: u')) :=
        .some ⟨rfl, rest⟩
      exact front.andThen ((readsAlike_digit shaped shaped').andThen
        (readsAlike_chars fun _ => Identifier.touches_of_isDigit))
    · have none (u : Text) : word "." (c :: u) = none := Identifier.word_of_ne (Ne.symm point) [] u
      rw [andThen_of_none (none u), andThen_of_none (none u')]
      exact .none

theorem sameRead_requirement_cons (renamed : Renamed kind old new (touches c) n t t') :
    SameRead kind old new true n (Identifier.requirement (c :: t))
      (Identifier.requirement (c :: t')) :=
  (((sameRead_code_cons renamed).andThen (readsAlike_word (by decide))).andThen
    readsAlike_number).andThen (readsAlike_subnumber shaped shaped').optional

theorem sameRead_lexemeOf_cons (renamed : Renamed kind old new (touches c) n t t')
    (k : IdKind) :
    SameRead kind old new true n (lexemeOf k (c :: t)) (lexemeOf k (c :: t')) := by
  cases k with
  | requirement => exact sameRead_requirement_cons shaped shaped' renamed
  | criterion =>
    exact (sameRead_requirement_cons shaped shaped' renamed).andThen readsAlike_criterionNumber
  | property => exact sameRead_property_cons renamed
  | component =>
    have front := (sameRead_code_cons renamed).andThen (b := word "-") (readsAlike_word (by decide))
    refine (front.andThen (readsAlike_char fun c letter => ?_)).andThen
      (readsAlike_chars fun _ => Identifier.touches_of_isAsciiAlnum)
    exact Identifier.touches_of_isAsciiAlnum (Identifier.isAsciiAlnum_of_isLetter letter)

theorem sameRead_reference_cons (renamed : Renamed kind old new (touches c) n t t') :
    SameRead kind old new true n (Identifier.reference (c :: t)) (Identifier.reference (c :: t')) :=
  rel_or ((sameRead_requirement_cons shaped shaped' renamed).andThen
    readsAlike_criterionNumber.optional) (sameRead_property_cons renamed)

/-! ## Identifiers that stand alone -/

theorem fits_renamed (fits : Fits kind old new t) (renamed : Renamed kind old new true n t t') :
    Closed kind new t' := by
  intro own plain
  have same := readsAlike_subnumber shaped shaped' renamed
  rw [fits.closed' own plain] at same
  generalize Identifier.subnumber t' = x' at same
  cases same
  rfl

theorem rel_readAlone? (renamed : Renamed kind old new false n t t') (k : IdKind) :
    Option.Rel (fun x x' => x'.1 = renameId old new x.1 ∧ Replaced old new x.2 x'.2)
      (readAlone? k t) (readAlone? k t') := by
  cases renamed with
  | nil =>
    cases k <;> exact .none
  | @keep _ n c t t' other rest =>
    have same := sameRead_lexemeOf_cons shaped shaped' rest k
    refine rel_filter_alone same fun id left read apart => ?_
    -- Were it the word, it would stand alone and be an occurrence.
    rintro rfl
    have starts := startsWithWord_eq_true_iff.mpr ⟨left, splits_lexemeOf k read, apart⟩
    rw [other rfl] at starts
    cases starts
  | @swap n t t' apart fits rest =>
    have apart' : continuesWord t' = false := rest.continuesWord_eq.trans apart
    have here := Identifier.readAlone shaped apart fits.closed
    have there := Identifier.readAlone shaped' apart' (fits_renamed shaped shaped' fits rest)
    by_cases own : k = kind
    · subst own
      rw [readAlone?, readAlone?, here.own, there.own]
      simp only [Option.filter, apart, apart']
      exact .some ⟨(if_pos rfl).symm, rest.replaced⟩
    · rw [readAlone?_eq_none (here.others k own), readAlone?_eq_none (there.others k own)]
      exact .none

end Shaped

end Traceability.Editor
