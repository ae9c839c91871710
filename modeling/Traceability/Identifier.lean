import Traceability.Text.Lexeme

/-!
# Identifiers

Four kinds of things carry an identifier: requirements (`CFG-1`, `CFG-1.2`), acceptance criteria
(`CFG-1_AC-1`), properties (`CFG_P-1`) and components (`CFG-Loader`). Each begins with the code of a
feature: a capital letter, then capital letters and digits.
-/
namespace Traceability

inductive IdKind where
  | requirement
  | criterion
  | property
  | component
deriving DecidableEq, Repr, Inhabited

def IdKind.word : IdKind → Text
  | .requirement => "requirement"
  | .criterion => "ac"
  | .property => "property"
  | .component => "component"

structure Location where
  path : Text
  line : Nat
deriving DecidableEq, Repr, Inhabited

def Location.render (l : Location) : Text := l.path ++ ":" ++ Text.ofNat l.line

namespace Identifier

def criterionMark : Text := "_AC-"

def propertyMark : Text := "_P-"

def isCapital (c : Char) : Bool := 'A' ≤ c && c ≤ 'Z'

def isCodeChar (c : Char) : Bool := isCapital c || ('0' ≤ c && c ≤ '9')

def isLetter (c : Char) : Bool := isCapital c || ('a' ≤ c && c ≤ 'z')

def code : Lexeme := (Lexeme.char isCapital).andThen (Lexeme.chars isCodeChar)

def number : Lexeme := Lexeme.run Text.isDigit

def subnumber : Lexeme := (Lexeme.word ".").andThen number

def mainRequirement : Lexeme := (code.andThen (Lexeme.word "-")).andThen number

def requirement : Lexeme := mainRequirement.andThen subnumber.optional

def criterionNumber : Lexeme := (Lexeme.word criterionMark).andThen number

def criterion : Lexeme := requirement.andThen criterionNumber

def property : Lexeme := (code.andThen (Lexeme.word propertyMark)).andThen number

def reference : Lexeme := (requirement.andThen criterionNumber.optional).orElse property

def component : Lexeme :=
  ((code.andThen (Lexeme.word "-")).andThen (Lexeme.char isLetter)).andThen
    (Lexeme.chars Text.isAsciiAlnum)

def isJoint (c : Char) : Bool := c = '-' || c = '_'

/-- Segments of letters and digits, each behind a joint; `inside` tells whether a segment has
begun. -/
def segmentsFrom : Bool → Text → Text × Text
  | _, [] => ([], [])
  | inside, c :: t =>
    if (inside && Text.isAsciiAlnum c) || (isJoint c && t.head?.any Text.isAsciiAlnum) then
      let (read, rest) := segmentsFrom true t
      (c :: read, rest)
    else ([], c :: t)

def segments : Lexeme := fun t => some (segmentsFrom false t)

def token : Lexeme :=
  ((code.andThen segments).andThen subnumber.optional).andThen criterionNumber.optional

/-- What an identifier names, told from its shape alone. -/
def kind (id : Text) : IdKind :=
  if id.includes criterionMark then .criterion
  else if id.includes propertyMark then .property
  else if (mainRequirement id).isSome then .requirement
  else .component

def parentRequirement? (id : Text) : Option Text :=
  match Text.cut? criterionMark id with
  | some (parent, _) => if parent = [] then none else some parent
  | none => none

def beforeLastPoint? (id : Text) : Option Text :=
  match id.reverse.dropWhile (· ≠ '.') with
  | [] => none
  | _ :: before => some before.reverse

def parentOfSubrequirement? (id : Text) : Option Text :=
  (beforeLastPoint? id).filter requirement.all

def featureCode (id : Text) : Text := ((code id).map Prod.fst).getD []

def referencedCode? (id : Text) : Option Text :=
  match code id with
  | some (c, rest) => if rest.head?.any isJoint then some c else none
  | none => none

def leadingToken? (t : Text) : Option Text := (token t).map Prod.fst

def embedded (t : Text) : List Text := reference.findAll t

theorem splits_number : number.Splits := Lexeme.splits_run _

theorem splits_code : code.Splits := (Lexeme.splits_char _).andThen (Lexeme.splits_chars _)

theorem splits_subnumber : subnumber.Splits := (Lexeme.splits_word _).andThen splits_number

theorem splits_requirement : requirement.Splits :=
  ((splits_code.andThen (Lexeme.splits_word _)).andThen splits_number).andThen
    splits_subnumber.optional

theorem splits_criterionNumber : criterionNumber.Splits :=
  (Lexeme.splits_word _).andThen splits_number

theorem segmentsFrom_append (inside : Bool) (t : Text) :
    (segmentsFrom inside t).1 ++ (segmentsFrom inside t).2 = t := by
  induction t generalizing inside with
  | nil => rfl
  | cons c t ih =>
    unfold segmentsFrom
    split
    · simp [ih]
    · rfl

theorem splits_segments : segments.Splits := by
  intro t read rest h
  simp only [segments, Option.some.injEq] at h
  have := segmentsFrom_append false t
  rw [h] at this
  exact this.symm

theorem splits_token : token.Splits :=
  ((splits_code.andThen splits_segments).andThen splits_subnumber.optional).andThen
    splits_criterionNumber.optional

example : kind "CFG-1_AC-1" = .criterion ∧ kind "CFG_P-1" = .property ∧
    kind "CFG-1.2" = .requirement ∧ kind "CFG-Loader" = .component := by decide +kernel
example : leadingToken? "CFG-1.2_AC-3 (partial)" = some "CFG-1.2_AC-3".toList := by decide +kernel
example : embedded "see A-1_AC-2, B_P-3" = ["A-1_AC-2".toList, "B_P-3".toList] := by
  decide +kernel

end Identifier

end Traceability
