import Traceability.Proofs.Editor.Reading

/-!
# Lines that declare renamed words

A line that declares an identifier still declares one of the same kind when the occurrences of a
word in it are replaced, and the identifier is the same, or the word that takes its place.
-/
namespace Traceability.Editor

open Text (touches)
open Marker (continuesWord)
open Identifier (Shaped Spelled lexemeOf)
open Spec (Declaration)
open Spec.Declaration (afterBlanks? headingBody? itemBody? afterCheckbox? label ofLine?)

variable {kind k : IdKind} {old new t t' w : Text} {joined : Bool} {n : Nat} {x x' : Text × Text}

/-- Whether a declaration is another one with a word renamed. -/
structure Redeclared (old new : Text) (d d' : Declaration) : Prop where
  kind : d'.kind = d.kind
  id : d'.id = renameId old new d.id
  text : Replaced old new d.text d'.text

/-- What is declared by an identifier and what follows it. -/
def closing? : IdKind → Text × Text → Option Declaration
  | .requirement, (id, rest) =>
    (Text.dropStem? ":" (Text.trimStart rest)).bind fun rest => some ⟨.requirement, id, label rest⟩
  | .criterion, (id, rest) =>
    (afterBlanks? rest).bind fun rest => some ⟨.criterion, id, label rest⟩
  | .property, (id, rest) => (afterBlanks? rest).bind fun rest => some ⟨.property, id, label rest⟩
  | .component, (id, rest) => if Text.allBlank rest then some ⟨.component, id, id⟩ else none

/-- What is declared by a text that starts with an identifier. -/
def declared? (k : IdKind) (body : Text) : Option Declaration := (lexemeOf k body).bind (closing? k)

theorem requirement?_eq (line : Text) :
    Declaration.requirement? line = (headingBody? line).bind (declared? .requirement) := rfl

theorem criterion?_eq (line : Text) : Declaration.criterion? line =
    (itemBody? line).bind fun body => declared? .criterion ((afterCheckbox? body).getD body) := rfl

theorem property?_eq (line : Text) :
    Declaration.property? line = (itemBody? line).bind (declared? .property) := rfl

theorem component?_eq (line : Text) :
    Declaration.component? line = (headingBody? line).bind (declared? .component) := rfl

/-- An identifier that something touches is not declared. -/
theorem closing?_eq_none (joined : continuesWord x.2 = true) (k : IdKind) :
    closing? k x = none := by
  obtain ⟨id, rest⟩ := x
  cases rest with
  | nil => cases joined
  | cons c rest =>
    rw [Identifier.continuesWord_cons] at joined
    have full : Text.isBlank c = false := by
      by_contra blank
      rw [Identifier.not_touches_of_isBlank (by simpa using blank)] at joined
      cases joined
    have colon : ':' ≠ c := by
      rintro rfl
      exact absurd joined (by decide)
    cases k with
    | requirement => simp [closing?, Text.trimStart, Text.dropStem?, full, colon]
    | criterion => simp [closing?, afterBlanks?, full]
    | property => simp [closing?, afterBlanks?, full]
    | component => simp [closing?, Text.allBlank, full]

theorem declared?_eq (k : IdKind) (body : Text) :
    declared? k body = (readAlone? k body).bind (closing? k) := by
  rw [declared?, readAlone?]
  cases read : lexemeOf k body with
  | none => rfl
  | some x =>
    cases joined : continuesWord x.2 with
    | true => simp [Option.filter, joined, closing?_eq_none joined k]
    | false => simp [Option.filter, joined]

theorem afterBlanks?_append {id : Text} (spelled : Spelled id) (t : Text) :
    afterBlanks? (id ++ t) = none := by
  obtain ⟨c, more, rfl, _⟩ := spelled.capital
  simp [afterBlanks?, spelled.not_isBlank c List.mem_cons_self]

/-! ## In front of the identifier -/

section Shaped

variable (shaped : Shaped kind old) (shaped' : Shaped kind new)

include shaped shaped'

theorem trimStart_renamed (apart : joined = false) (renamed : Renamed kind old new joined n t t') :
    Renamed kind old new false n (Text.trimStart t) (Text.trimStart t') := by
  have spelled := Identifier.spelled_of_shaped shaped
  have spelled' := Identifier.spelled_of_shaped shaped'
  induction renamed with
  | nil => exact .nil false
  | @keep _ _ c _ _ other rest ih =>
    cases blank : Text.isBlank c with
    | true =>
      have later := ih (Identifier.not_touches_of_isBlank blank)
      simpa [Text.trimStart, blank] using later
    | false =>
      subst apart
      simpa [Text.trimStart, blank] using Renamed.keep other rest
  | swap alone fits rest _ =>
    rw [spelled.trimStart_append, spelled'.trimStart_append]
    exact .swap alone fits rest

theorem afterBlanks?_renamed (renamed : Renamed kind old new joined n t t') :
    Option.Rel (Renamed kind old new false n) (afterBlanks? t) (afterBlanks? t') := by
  have spelled := Identifier.spelled_of_shaped shaped
  have spelled' := Identifier.spelled_of_shaped shaped'
  cases renamed with
  | nil => exact .none
  | @keep _ _ c t t' _ rest =>
    rw [afterBlanks?, afterBlanks?]
    split
    · next blank =>
      have apart := Identifier.not_touches_of_isBlank blank
      exact .some (trimStart_renamed shaped shaped' apart rest)
    · exact .none
  | swap _ _ _ =>
    rw [afterBlanks?_append spelled, afterBlanks?_append spelled']
    exact .none

theorem dropStem?_renamed (small : w.any Identifier.isCapital = false)
    (renamed : Renamed kind old new joined n t t') :
    Option.Rel (fun u u' => ∃ joined', Renamed kind old new joined' n u u') (Text.dropStem? w t)
      (Text.dropStem? w t') := by
  induction w generalizing joined n t t' with
  | nil =>
    rw [Text.dropStem?_nil, Text.dropStem?_nil]
    exact .some ⟨joined, renamed⟩
  | cons c w ih =>
    obtain ⟨lower, small⟩ := Bool.or_eq_false_iff.mp small
    cases renamed with
    | nil => exact .none
    | keep _ rest =>
      rw [Text.dropStem?, Text.dropStem?]
      split
      · exact ih small rest
      · exact .none
    | swap _ _ _ =>
      rw [(Identifier.spelled_of_shaped shaped).dropStem?_append lower,
        (Identifier.spelled_of_shaped shaped').dropStem?_append lower]
      exact .none

/-- Behind a stem and blanks, a line and the renamed one go on alike. -/
theorem behindStem?_renamed (small : w.any Identifier.isCapital = false)
    (renamed : Renamed kind old new joined n t t') :
    Option.Rel (Renamed kind old new false n) ((Text.dropStem? w t).bind afterBlanks?)
      ((Text.dropStem? w t').bind afterBlanks?) :=
  rel_bind (dropStem?_renamed shaped shaped' small renamed)
    fun _ _ ⟨_, rest⟩ => afterBlanks?_renamed shaped shaped' rest

theorem afterCheckbox?_renamed (renamed : Renamed kind old new joined n t t') :
    Option.Rel (Renamed kind old new false n) (afterCheckbox? t) (afterCheckbox? t') :=
  rel_bind (rel_or (dropStem?_renamed shaped shaped' (by decide) renamed)
      (dropStem?_renamed shaped shaped' (by decide) renamed))
    fun _ _ ⟨_, rest⟩ => afterBlanks?_renamed shaped shaped' rest

/-! ## Behind the identifier -/

theorem afterBlanks?_replaced (replaced : Replaced old new t t') :
    Option.Rel (Replaced old new) (afterBlanks? t) (afterBlanks? t') := by
  have spelled := Identifier.spelled_of_shaped shaped
  have spelled' := Identifier.spelled_of_shaped shaped'
  cases replaced with
  | nil => exact .none
  | keep c rest =>
    rw [afterBlanks?, afterBlanks?]
    split
    · exact .some (rest.trimStart spelled spelled')
    · exact .none
  | swap _ =>
    rw [afterBlanks?_append spelled, afterBlanks?_append spelled']
    exact .none

theorem label_replaced (replaced : Replaced old new t t') :
    Replaced old new (label t) (label t') := by
  have spelled := Identifier.spelled_of_shaped shaped
  have spelled' := Identifier.spelled_of_shaped shaped'
  have inner {id : Text} (spelled : Spelled id) : ∀ c ∈ id, decide (c ≠ '\n') = true := by
    intro c member
    refine decide_eq_true ?_
    rintro rfl
    exact spelled.not_mem (by decide) member
  exact ((replaced.trimStart spelled spelled').takeWhile (inner spelled) (inner spelled')).trim
    spelled spelled'

theorem closing?_renamed (k : IdKind) (same : x'.1 = renameId old new x.1)
    (behind : Replaced old new x.2 x'.2) :
    Option.Rel (Redeclared old new) (closing? k x) (closing? k x') := by
  have spelled := Identifier.spelled_of_shaped shaped
  have spelled' := Identifier.spelled_of_shaped shaped'
  obtain ⟨id, rest⟩ := x
  obtain ⟨id', rest'⟩ := x'
  have text (u u' : Text) (later : Replaced old new u u') : Replaced old new (label u) (label u') :=
    label_replaced shaped shaped' later
  cases k with
  | requirement =>
    have colon : Option.Rel (Replaced old new) (Text.dropStem? ":" (Text.trimStart rest))
        (Text.dropStem? ":" (Text.trimStart rest')) :=
      dropStem?_replaced spelled spelled' (by decide) (behind.trimStart spelled spelled')
    exact rel_bind colon fun u u' later => .some ⟨rfl, same, text u u' later⟩
  | criterion =>
    exact rel_bind (afterBlanks?_replaced shaped shaped' behind)
      fun u u' later => .some ⟨rfl, same, text u u' later⟩
  | property =>
    exact rel_bind (afterBlanks?_replaced shaped shaped' behind)
      fun u u' later => .some ⟨rfl, same, text u u' later⟩
  | component =>
    have named : Replaced old new id id' := by
      rw [show id' = renameId old new id from same, renameId]
      split
      · next own =>
        subst own
        simpa using Replaced.swap .nil
      · exact .refl id
    rw [closing?, closing?, allBlank_replaced spelled spelled' behind]
    split
    · exact .some ⟨rfl, same, named⟩
    · exact .none

theorem declared?_renamed (renamed : Renamed kind old new false n t t') (k : IdKind) :
    Option.Rel (Redeclared old new) (declared? k t) (declared? k t') := by
  rw [declared?_eq, declared?_eq]
  exact rel_bind (rel_readAlone? shaped shaped' renamed k)
    fun _ _ ⟨same, rest⟩ => closing?_renamed shaped shaped' k same rest

/-- A line with a word renamed declares what the line declares, renamed. -/
theorem ofLine?_renamed (renamed : Renamed kind old new false n t t') :
    Option.Rel (Redeclared old new) (ofLine? t) (ofLine? t') := by
  have heading : Option.Rel (Renamed kind old new false n) (headingBody? t) (headingBody? t') :=
    behindStem?_renamed shaped shaped' (by decide) renamed
  have item : Option.Rel (Renamed kind old new false n) (itemBody? t) (itemBody? t') :=
    behindStem?_renamed shaped shaped' (by decide) renamed
  simp only [ofLine?, Option.orElse_eq_orElse, Option.orElse_eq_or, requirement?_eq, criterion?_eq,
    property?_eq, component?_eq]
  refine rel_or (rel_bind heading fun _ _ body => declared?_renamed shaped shaped' body _) ?_
  refine rel_or (rel_bind item fun u u' body => ?_) ?_
  · have checked := afterCheckbox?_renamed shaped shaped' body
    exact declared?_renamed shaped shaped' (rel_getD checked body) _
  refine rel_or (rel_bind item fun _ _ body => declared?_renamed shaped shaped' body _) ?_
  exact rel_bind heading fun _ _ body => declared?_renamed shaped shaped' body _

end Shaped

end Traceability.Editor
