import Mathlib.Data.List.TakeWhile
import Traceability.Proofs.Spec.Document
import Traceability.Proofs.Token

/-!
# Identifiers by their shape

An identifier is the code of a feature, a joint and a number or a name. Where no word character and
no hyphen follows, and no number behind a point, its own lexeme reads all of it and no more, and no
other lexeme takes it for an identifier of its kind.
-/
namespace Traceability

namespace Lexeme

variable {a b : Lexeme} {holds : Char → Bool} {t u rest : Text}

theorem andThen_of_some (here : a t = some (u, rest)) :
    a.andThen b t = (b rest).map fun (v, left) => (u ++ v, left) := by
  rw [andThen, here]
  cases there : b rest <;> simp [there]

theorem andThen_of_none (here : a t = none) : a.andThen b t = none := by
  rw [andThen, here]

theorem optional_of_none (here : a t = none) : a.optional t = some ([], t) := by
  rw [optional, here]
  rfl

theorem optional_of_some (here : a t = some (u, rest)) : a.optional t = some (u, rest) := by
  rw [optional, here]
  rfl

theorem chars_append (all : ∀ c ∈ u, holds c = true) (stop : ∀ c ∈ rest.head?, holds c = false) :
    chars holds (u ++ rest) = some (u, rest) := by
  rw [chars, List.takeWhile_append_of_pos all, List.dropWhile_append_of_pos all]
  cases rest with
  | nil => simp
  | cons c rest => simp [stop c rfl]

theorem word_append (w rest : Text) : word w (w ++ rest) = some (w, rest) := by
  rw [word, Text.dropStem?_eq_some_iff.mpr rfl]
  rfl

end Lexeme

namespace Identifier

open Lexeme
open Text (touches)
open Marker (continuesWord)

variable {u n s m id t : Text} {c : Char} {kind : IdKind}

/-! ## Shapes -/

theorem isAsciiAlnum_of_isLetter (letter : isLetter c = true) : Text.isAsciiAlnum c = true := by
  simp only [isLetter, isCapital, Bool.or_eq_true] at letter
  simp only [Text.isAsciiAlnum, Bool.or_eq_true]
  tauto

def IsCode (u : Text) : Prop :=
  ∃ c m, u = c :: m ∧ isCapital c = true ∧ ∀ d ∈ m, isCodeChar d = true

def IsNumber (n : Text) : Prop := n ≠ [] ∧ ∀ c ∈ n, Text.isDigit c = true

def IsSubnumber (s : Text) : Prop := s = [] ∨ ∃ n, IsNumber n ∧ s = '.' :: n

theorem IsCode.all (feature : IsCode u) : ∀ c ∈ u, isCodeChar c = true := by
  obtain ⟨c, m, rfl, capital, all⟩ := feature
  exact List.forall_mem_cons.mpr ⟨by simp [isCodeChar, capital], all⟩

inductive Shaped : IdKind → Text → Prop
  | requirement {u n s : Text} (feature : IsCode u) (main : IsNumber n) (sub : IsSubnumber s) :
    Shaped .requirement (u ++ '-' :: (n ++ s))
  | criterion {u n s m : Text} (feature : IsCode u) (main : IsNumber n) (sub : IsSubnumber s)
      (own : IsNumber m) :
    Shaped .criterion (u ++ '-' :: (n ++ (s ++ '_' :: 'A' :: 'C' :: '-' :: m)))
  | property {u n : Text} (feature : IsCode u) (own : IsNumber n) :
    Shaped .property (u ++ '_' :: 'P' :: '-' :: n)
  | component {u m : Text} {c : Char} (feature : IsCode u) (letter : isLetter c = true)
      (name : ∀ d ∈ m, Text.isAsciiAlnum d = true) : Shaped .component (u ++ '-' :: c :: m)

theorem IsNumber.chars (own : IsNumber n) : ∀ c ∈ n, isTokenChar c = true :=
  fun c member => by simp [isTokenChar, own.2 c member]

theorem IsSubnumber.chars (sub : IsSubnumber s) : ∀ c ∈ s, isTokenChar c = true := by
  rcases sub with rfl | ⟨n, own, rfl⟩
  · exact List.forall_mem_nil _
  · exact List.forall_mem_cons.mpr ⟨by decide, own.chars⟩

theorem spelled_of_shaped (shaped : Shaped kind id) : Spelled id := by
  have spelled {u t : Text} (feature : IsCode u) (all : ∀ c ∈ t, isTokenChar c = true) :
      Spelled (u ++ t) := by
    have front := fun c member => isTokenChar_of_isCodeChar (feature.all c member)
    obtain ⟨c, m, rfl, capital, _⟩ := feature
    exact ⟨⟨c, m ++ t, rfl, capital⟩, List.forall_mem_append.mpr ⟨front, all⟩⟩
  have hyphen : isTokenChar '-' = true := by decide
  cases shaped with
  | requirement feature main sub =>
    refine spelled feature (List.forall_mem_cons.mpr ⟨hyphen, ?_⟩)
    exact List.forall_mem_append.mpr ⟨main.chars, sub.chars⟩
  | @criterion u n s m feature main sub own =>
    have mark : ∀ c ∈ ['_', 'A', 'C', '-'] ++ m, isTokenChar c = true :=
      List.forall_mem_append.mpr ⟨List.all_eq_true.mp (by decide), own.chars⟩
    refine spelled feature (List.forall_mem_cons.mpr ⟨hyphen, ?_⟩)
    exact List.forall_mem_append.mpr ⟨main.chars, List.forall_mem_append.mpr ⟨sub.chars, mark⟩⟩
  | @property u n feature own =>
    have mark : ∀ c ∈ ['_', 'P', '-'] ++ n, isTokenChar c = true :=
      List.forall_mem_append.mpr ⟨List.all_eq_true.mp (by decide), own.chars⟩
    exact spelled feature mark
  | @component u m c feature letter name =>
    refine spelled feature (List.forall_mem_cons.mpr ⟨hyphen, List.forall_mem_cons.mpr ⟨?_, ?_⟩⟩)
    · simp [isTokenChar, isAsciiAlnum_of_isLetter letter]
    · exact fun d member => by simp [isTokenChar, name d member]

/-- Whether a word character or a hyphen ends a text. -/
def EndsTouching (t : Text) : Prop := ∃ front c, t = front ++ [c] ∧ touches c = true

theorem EndsTouching.behind (ends : EndsTouching t) (front : Text) : EndsTouching (front ++ t) := by
  obtain ⟨front', c, rfl, touching⟩ := ends
  exact ⟨front ++ front', c, by rw [List.append_assoc], touching⟩

theorem endsTouching_of_all (filled : t ≠ []) (all : ∀ c ∈ t, touches c = true) :
    EndsTouching t :=
  ⟨t.dropLast, t.getLast filled, (List.dropLast_concat_getLast filled).symm,
    all _ (List.getLast_mem filled)⟩

theorem IsNumber.endsTouching (own : IsNumber n) : EndsTouching n :=
  endsTouching_of_all own.1 fun c member => touches_of_isDigit (own.2 c member)

/-- An identifier ends with a letter or a digit. -/
theorem endsTouching_of_shaped (shaped : Shaped kind id) : EndsTouching id := by
  cases shaped with
  | @requirement u n s feature main sub =>
    rcases sub with rfl | ⟨m, own, rfl⟩
    · rw [List.append_nil]
      exact (main.endsTouching.behind ['-']).behind u
    · exact (((own.endsTouching.behind ['.']).behind n).behind ['-']).behind u
  | @criterion u n s m feature main sub own =>
    exact ((((own.endsTouching.behind ['_', 'A', 'C', '-']).behind s).behind n).behind
      ['-']).behind u
  | @property u n feature own => exact (own.endsTouching.behind ['_', 'P', '-']).behind u
  | @component u m c feature letter name =>
    have alnum : ∀ d ∈ c :: m, touches d = true := List.forall_mem_cons.mpr
      ⟨touches_of_isAsciiAlnum (isAsciiAlnum_of_isLetter letter),
        fun d member => touches_of_isAsciiAlnum (name d member)⟩
    exact ((endsTouching_of_all (by simp) alnum).behind ['-']).behind u

theorem reads_code : code.Reads IsCode := by
  intro t read rest found
  obtain ⟨_, more, _, first, later, rfl⟩ := andThen_eq_some.mp found
  obtain ⟨c, rfl, capital⟩ := reads_char _ first
  refine ⟨c, more, rfl, capital, ?_⟩
  cases later
  exact fun d member => List.mem_takeWhile_imp member

theorem reads_number : number.Reads IsNumber := by
  intro t read rest found
  rw [number, run] at found
  obtain ⟨_, more, _, first, later, rfl⟩ := andThen_eq_some.mp found
  obtain ⟨c, rfl, digit⟩ := reads_char _ first
  refine ⟨List.cons_ne_nil c more, List.forall_mem_cons.mpr ⟨digit, ?_⟩⟩
  cases later
  exact fun d member => List.mem_takeWhile_imp member

theorem reads_optional_subnumber : subnumber.optional.Reads IsSubnumber := by
  intro t read rest found
  cases here : subnumber t with
  | none =>
    rw [optional_of_none here] at found
    cases found
    exact .inl rfl
  | some x =>
    obtain ⟨v, left⟩ := x
    rw [optional_of_some here] at found
    cases found
    obtain ⟨_, n, _, point, number, rfl⟩ := andThen_eq_some.mp here
    rw [reads_word _ point]
    exact .inr ⟨n, reads_number number, rfl⟩

theorem shaped_requirement : requirement.Reads (Shaped .requirement) := by
  intro t read rest found
  obtain ⟨_, s, _, outer, sub, rfl⟩ := andThen_eq_some.mp found
  obtain ⟨_, n, _, inner, main, rfl⟩ := andThen_eq_some.mp outer
  obtain ⟨u, _, _, feature, hyphen, rfl⟩ := andThen_eq_some.mp inner
  rw [reads_word _ hyphen]
  simpa using Shaped.requirement (reads_code feature) (reads_number main)
    (reads_optional_subnumber sub)

theorem shaped_criterion : criterion.Reads (Shaped .criterion) := by
  intro t read rest found
  obtain ⟨r, _, _, outer, last, rfl⟩ := andThen_eq_some.mp found
  obtain ⟨_, m, _, mark, own, rfl⟩ := andThen_eq_some.mp last
  rw [reads_word _ mark, criterionMark_eq]
  cases shaped_requirement outer with
  | requirement feature main sub =>
    simpa using Shaped.criterion feature main sub (reads_number own)

theorem shaped_property : property.Reads (Shaped .property) := by
  intro t read rest found
  obtain ⟨_, n, _, outer, own, rfl⟩ := andThen_eq_some.mp found
  obtain ⟨u, _, _, feature, mark, rfl⟩ := andThen_eq_some.mp outer
  rw [reads_word _ mark, propertyMark_eq]
  simpa using Shaped.property (reads_code feature) (reads_number own)

theorem shaped_component : component.Reads (Shaped .component) := by
  intro t read rest found
  obtain ⟨_, m, _, outer, name, rfl⟩ := andThen_eq_some.mp found
  obtain ⟨_, _, _, inner, first, rfl⟩ := andThen_eq_some.mp outer
  obtain ⟨u, _, _, feature, hyphen, rfl⟩ := andThen_eq_some.mp inner
  obtain ⟨c, rfl, letter⟩ := reads_char _ first
  have all : ∀ d ∈ m, Text.isAsciiAlnum d = true := by
    cases name
    exact fun d member => List.mem_takeWhile_imp member
  rw [reads_word _ hyphen]
  simpa using Shaped.component (reads_code feature) letter all

theorem shaped_of_lexical (lexical : Spec.Declaration.Lexical kind id) : Shaped kind id := by
  cases kind with
  | requirement =>
    obtain ⟨_, _, read⟩ := lexical
    exact shaped_requirement read
  | criterion =>
    obtain ⟨_, _, read⟩ := lexical
    exact shaped_criterion read
  | property =>
    obtain ⟨_, _, read⟩ := lexical
    exact shaped_property read
  | component =>
    obtain ⟨_, _, read⟩ := lexical
    exact shaped_component read

/-! ## What the parts of a shape are read as -/

theorem code_append (feature : IsCode u) (stop : ∀ c ∈ t.head?, isCodeChar c = false) :
    code (u ++ t) = some (u, t) := by
  obtain ⟨c, m, rfl, capital, all⟩ := feature
  have first : char isCapital (c :: m ++ t) = some ([c], m ++ t) := by
    simp [char, capital]
  rw [code, andThen_of_some first, chars_append all stop]
  rfl

theorem number_append (own : IsNumber n) (stop : ∀ c ∈ t.head?, Text.isDigit c = false) :
    number (n ++ t) = some (n, t) := by
  obtain ⟨filled, all⟩ := own
  obtain ⟨c, m, rfl⟩ := List.exists_cons_of_ne_nil filled
  obtain ⟨digit, all⟩ := List.forall_mem_cons.mp all
  have first : char Text.isDigit (c :: m ++ t) = some ([c], m ++ t) := by
    simp [char, digit]
  rw [number, run, andThen_of_some first, chars_append all stop]
  rfl

theorem number_eq_none (stop : ∀ c ∈ t.head?, Text.isDigit c = false) : number t = none := by
  rw [number, run]
  refine andThen_of_none ?_
  cases t with
  | nil => rfl
  | cons c t => simp [char, stop c rfl]

theorem subnumber_append (sub : IsSubnumber s) (stop : ∀ c ∈ t.head?, Text.isDigit c = false)
    (closed : s = [] → subnumber t = none) : subnumber.optional (s ++ t) = some (s, t) := by
  rcases sub with rfl | ⟨n, own, rfl⟩
  · exact optional_of_none (closed rfl)
  · refine optional_of_some ?_
    have point : word "." ('.' :: n ++ t) = some (".".toList, n ++ t) := word_append ['.'] _
    rw [subnumber, andThen_of_some point, number_append own stop]
    rfl

theorem mainRequirement_append (feature : IsCode u) (main : IsNumber n)
    (stop : ∀ c ∈ t.head?, Text.isDigit c = false) :
    mainRequirement (u ++ '-' :: (n ++ t)) = some (u ++ '-' :: n, t) := by
  have front : code (u ++ '-' :: (n ++ t)) = some (u, '-' :: (n ++ t)) :=
    code_append feature (by simp; decide)
  have hyphen : word "-" ('-' :: (n ++ t)) = some ("-".toList, n ++ t) := word_append ['-'] _
  rw [mainRequirement, andThen_of_some (a := code.andThen (word "-")) (u := u ++ ['-']),
    number_append main stop]
  · simp
  · rw [andThen_of_some front, hyphen]
    rfl

theorem requirement_append (feature : IsCode u) (main : IsNumber n) (sub : IsSubnumber s)
    (stop : ∀ c ∈ t.head?, Text.isDigit c = false) (closed : s = [] → subnumber t = none) :
    requirement (u ++ '-' :: (n ++ (s ++ t))) = some (u ++ '-' :: (n ++ s), t) := by
  have front : ∀ c ∈ (s ++ t).head?, Text.isDigit c = false := by
    rcases sub with rfl | ⟨m, _, rfl⟩
    · exact stop
    · simp
      decide
  rw [requirement, andThen_of_some (mainRequirement_append feature main front),
    subnumber_append sub stop closed]
  simp

theorem criterionNumber_append (own : IsNumber m) (stop : ∀ c ∈ t.head?, Text.isDigit c = false) :
    criterionNumber ('_' :: 'A' :: 'C' :: '-' :: (m ++ t)) =
      some ('_' :: 'A' :: 'C' :: '-' :: m, t) := by
  have mark : word criterionMark ('_' :: 'A' :: 'C' :: '-' :: (m ++ t)) =
      some (criterionMark, m ++ t) := by
    rw [criterionMark_eq]
    exact word_append _ _
  rw [criterionNumber, andThen_of_some mark, number_append own stop, criterionMark_eq]
  rfl

/-! ## What is read where an identifier stands by itself -/

def lexemeOf : IdKind → Lexeme
  | .requirement => requirement
  | .criterion => criterion
  | .property => property
  | .component => component

/-- Whether a text does not go on with a number that would belong to the identifier in front of
it. -/
def Closed (kind : IdKind) (id t : Text) : Prop :=
  kind = .requirement → '.' ∉ id → subnumber t = none

instance : Decidable (Closed kind id t) := inferInstanceAs (Decidable (_ → _ → _))

theorem word_of_ne {d : Char} (other : c ≠ d) (w t : Text) : word (c :: w) (d :: t) = none := by
  rw [word, Text.dropStem?, if_neg other]
  rfl

theorem code_joint (feature : IsCode u) (joint : isJoint c = true) (t : Text) :
    code (u ++ c :: t) = some (u, c :: t) := by
  refine code_append feature ?_
  rintro _ ⟨⟩
  simp only [isJoint, Bool.or_eq_true, decide_eq_true_eq] at joint
  rcases joint with rfl | rfl <;> decide

theorem behind_code {b : Lexeme} (feature : IsCode u) (t : Text) :
    (code.andThen (word "-")).andThen b (u ++ '-' :: t) =
      (b t).map fun (v, left) => (u ++ ['-'] ++ v, left) := by
  refine andThen_of_some ?_
  have hyphen : word "-" ('-' :: t) = some (['-'], t) := word_append ['-'] t
  rw [andThen_of_some (code_joint feature (by decide) _), hyphen]
  rfl

theorem behind_code_of_ne {b : Lexeme} {w : Text} {d : Char} (feature : IsCode u)
    (joint : isJoint d = true) (other : c ≠ d) (t : Text) :
    (code.andThen (word (c :: w))).andThen b (u ++ d :: t) = none := by
  refine andThen_of_none ?_
  rw [andThen_of_some (code_joint feature joint _), word_of_ne other]
  rfl

theorem property_hyphen (feature : IsCode u) (t : Text) : property (u ++ '-' :: t) = none := by
  rw [property, propertyMark_eq]
  exact behind_code_of_ne feature (by decide) (by decide) t

theorem component_underscore (feature : IsCode u) (t : Text) :
    component (u ++ '_' :: t) = none := by
  rw [component]
  exact andThen_of_none (behind_code_of_ne feature (by decide) (by decide) t)

theorem requirement_underscore (feature : IsCode u) (t : Text) :
    requirement (u ++ '_' :: t) = none := by
  rw [requirement, mainRequirement]
  exact andThen_of_none (behind_code_of_ne feature (by decide) (by decide) t)

theorem component_number (feature : IsCode u) (main : IsNumber n) (t : Text) :
    component (u ++ '-' :: (n ++ t)) = none := by
  obtain ⟨filled, all⟩ := main
  obtain ⟨c, n, rfl⟩ := List.exists_cons_of_ne_nil filled
  have other : isLetter c = false := by
    by_contra letter
    have digit := all c List.mem_cons_self
    rw [not_isDigit_of_isLetter (by simpa using letter)] at digit
    cases digit
  rw [component]
  refine andThen_of_none ?_
  rw [behind_code feature]
  simp [char, other]

theorem requirement_letter (feature : IsCode u) (letter : isLetter c = true) (t : Text) :
    requirement (u ++ '-' :: c :: t) = none := by
  rw [requirement, mainRequirement]
  refine andThen_of_none ?_
  rw [behind_code feature, number_eq_none]
  · rfl
  · rintro _ ⟨⟩
    exact not_isDigit_of_isLetter letter

theorem criterionNumber_of_apart (apart : continuesWord t = false) : criterionNumber t = none := by
  rw [criterionNumber, criterionMark_eq]
  refine andThen_of_none ?_
  cases t with
  | nil => rfl
  | cons c t =>
    refine word_of_ne ?_ _ t
    rintro rfl
    exact absurd apart (by rw [continuesWord_cons]; decide)

/-- Whether the lexeme of an identifier reads all of it, and no other lexeme reads one that ends
where no word character and no hyphen follows. -/
structure ReadAlone (kind : IdKind) (id t : Text) : Prop where
  own : lexemeOf kind (id ++ t) = some (id, t)
  others : ∀ k ≠ kind, ∀ x rest, lexemeOf k (id ++ t) = some (x, rest) → continuesWord rest = true

theorem readAlone_requirement (feature : IsCode u) (main : IsNumber n) (sub : IsSubnumber s)
    (apart : continuesWord t = false) (closed : s = [] → subnumber t = none) :
    ReadAlone .requirement (u ++ '-' :: (n ++ s)) t := by
  have whole : requirement (u ++ '-' :: (n ++ s) ++ t) = some (u ++ '-' :: (n ++ s), t) := by
    rw [List.append_assoc, List.cons_append, List.append_assoc]
    exact requirement_append feature main sub
      (stop_of_not_continuesWord apart fun _ => touches_of_isDigit) closed
  refine ⟨whole, fun k other x rest read => ?_⟩
  cases k with
  | requirement => exact absurd rfl other
  | criterion =>
    rw [lexemeOf, criterion, andThen_of_some whole, criterionNumber_of_apart apart] at read
    cases read
  | property =>
    rw [lexemeOf, List.append_assoc, List.cons_append, property_hyphen feature] at read
    cases read
  | component =>
    rw [lexemeOf, List.append_assoc, List.cons_append, List.append_assoc,
      component_number feature main] at read
    cases read

theorem readAlone_criterion (feature : IsCode u) (main : IsNumber n) (sub : IsSubnumber s)
    (own : IsNumber m) (apart : continuesWord t = false) :
    ReadAlone .criterion (u ++ '-' :: (n ++ (s ++ '_' :: 'A' :: 'C' :: '-' :: m))) t := by
  have spelled : u ++ '-' :: (n ++ (s ++ '_' :: 'A' :: 'C' :: '-' :: m)) ++ t =
      u ++ '-' :: (n ++ (s ++ '_' :: 'A' :: 'C' :: '-' :: (m ++ t))) := by
    simp
  -- The requirement in front of the mark is read, and the mark touches it.
  have front : requirement (u ++ '-' :: (n ++ (s ++ '_' :: 'A' :: 'C' :: '-' :: (m ++ t)))) =
      some (u ++ '-' :: (n ++ s), '_' :: 'A' :: 'C' :: '-' :: (m ++ t)) :=
    requirement_append feature main sub (by rintro _ ⟨⟩; decide) fun _ => rfl
  refine ⟨?_, fun k other x rest read => ?_⟩
  · rw [spelled, lexemeOf, criterion, andThen_of_some front,
      criterionNumber_append own (stop_of_not_continuesWord apart fun _ => touches_of_isDigit)]
    simp
  · rw [spelled] at read
    cases k with
    | requirement =>
      cases front.symm.trans read
      rfl
    | criterion => exact absurd rfl other
    | property =>
      rw [lexemeOf, property_hyphen feature] at read
      cases read
    | component =>
      rw [lexemeOf, component_number feature main] at read
      cases read

theorem readAlone_property (feature : IsCode u) (own : IsNumber n)
    (apart : continuesWord t = false) :
    ReadAlone .property (u ++ '_' :: 'P' :: '-' :: n) t := by
  have spelled : u ++ '_' :: 'P' :: '-' :: n ++ t = u ++ '_' :: 'P' :: '-' :: (n ++ t) := by simp
  have mark : word propertyMark ('_' :: 'P' :: '-' :: (n ++ t)) = some (propertyMark, n ++ t) := by
    rw [propertyMark_eq]
    exact word_append _ _
  refine ⟨?_, fun k other x rest read => ?_⟩
  · have front : (code.andThen (word propertyMark)) (u ++ '_' :: 'P' :: '-' :: (n ++ t)) =
        some (u ++ propertyMark, n ++ t) := by
      rw [andThen_of_some (code_joint feature (by decide) _), mark]
      rfl
    rw [spelled, lexemeOf, property, andThen_of_some front,
      number_append own (stop_of_not_continuesWord apart fun _ => touches_of_isDigit),
      propertyMark_eq]
    simp
  · rw [spelled] at read
    cases k with
    | requirement =>
      rw [lexemeOf, requirement_underscore feature] at read
      cases read
    | criterion =>
      rw [lexemeOf, criterion, andThen_of_none (requirement_underscore feature _)] at read
      cases read
    | property => exact absurd rfl other
    | component =>
      rw [lexemeOf, component_underscore feature] at read
      cases read

theorem readAlone_component (feature : IsCode u) (letter : isLetter c = true)
    (name : ∀ d ∈ m, Text.isAsciiAlnum d = true) (apart : continuesWord t = false) :
    ReadAlone .component (u ++ '-' :: c :: m) t := by
  have spelled : u ++ '-' :: c :: m ++ t = u ++ '-' :: c :: (m ++ t) := by simp
  refine ⟨?_, fun k other x rest read => ?_⟩
  · have first : char isLetter (c :: (m ++ t)) = some ([c], m ++ t) := by simp [char, letter]
    have front : ((code.andThen (word "-")).andThen (char isLetter)) (u ++ '-' :: c :: (m ++ t)) =
        some (u ++ ['-'] ++ [c], m ++ t) := by
      rw [behind_code feature, first]
      rfl
    rw [spelled, lexemeOf, component, andThen_of_some front,
      chars_append name (stop_of_not_continuesWord apart fun _ => touches_of_isAsciiAlnum)]
    simp
  · rw [spelled] at read
    cases k with
    | requirement =>
      rw [lexemeOf, requirement_letter feature letter] at read
      cases read
    | criterion =>
      rw [lexemeOf, criterion, andThen_of_none (requirement_letter feature letter _)] at read
      cases read
    | property =>
      rw [lexemeOf, property_hyphen feature] at read
      cases read
    | component => exact absurd rfl other

theorem readAlone (shaped : Shaped kind id) (apart : continuesWord t = false)
    (closed : Closed kind id t) : ReadAlone kind id t := by
  cases shaped with
  | @requirement u n s feature main sub =>
    refine readAlone_requirement feature main sub apart ?_
    rintro rfl
    refine closed rfl ?_
    simp only [List.append_nil, List.mem_append, List.mem_cons, not_or]
    refine ⟨fun inside => ?_, by decide, fun inside => ?_⟩
    · exact absurd (feature.all _ inside) (by decide)
    · exact absurd (main.2 _ inside) (by decide)
  | criterion feature main sub own => exact readAlone_criterion feature main sub own apart
  | property feature own => exact readAlone_property feature own apart
  | component feature letter name => exact readAlone_component feature letter name apart

end Identifier

end Traceability
