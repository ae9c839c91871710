import Traceability.Proofs.Shape

/-!
# Identifiers referred to

A text refers to the requirements, criteria and properties that are read in it from left to right.
An identifier that stands alone is referred to, unless it is the name of a component: nothing is
read within one.
-/
namespace Traceability.Identifier

open Lexeme
open Text (touches)
open Marker (continuesWord)

variable {kind : IdKind} {id t u m v rest : Text} {c : Char}

/-! ## The references of a text -/

theorem kind_of_shaped (shaped : Shaped kind id) : Identifier.kind id = kind := by
  have alone : ReadAlone kind id [] := readAlone shaped rfl fun _ _ => rfl
  have read := alone.own
  cases kind with
  | requirement => exact kind_of_requirement read
  | criterion => exact kind_of_criterion read
  | property => exact kind_of_property read
  | component => exact kind_of_component read

/-- What is referred to is not a component. -/
theorem shaped_reference : reference.Reads fun id => ∃ k ≠ IdKind.component, Shaped k id := by
  intro t id rest found
  rw [reference, orElse] at found
  rcases Option.or_eq_some_iff.mp found with front | ⟨_, own⟩
  · obtain ⟨r, last, middle, main, number, rfl⟩ := andThen_eq_some.mp front
    cases mark : criterionNumber middle with
    | none =>
      rw [optional_of_none mark] at number
      cases number
      exact ⟨.requirement, by decide, by simpa using shaped_requirement main⟩
    | some x =>
      rw [optional_of_some mark] at number
      cases number
      have whole := andThen_eq_some.mpr ⟨_, _, _, main, mark, rfl⟩
      exact ⟨.criterion, by decide, shaped_criterion whole⟩
  · exact ⟨.property, by decide, shaped_property own⟩

theorem splits_reference : reference.Splits :=
  (splits_requirement.andThen splits_criterionNumber.optional).orElse
    ((splits_code.andThen (splits_word _)).andThen splits_number)

theorem findAll_skip {α : Type} (recognise : Text → Option (α × Nat)) (u t : Text) :
    Text.findAll.go recognise u.length (u ++ t) = Text.findAll.go recognise 0 t := by
  induction u with
  | nil => rfl
  | cons c u ih => exact ih

theorem embedded_of_some (found : reference t = some (id, rest)) :
    embedded t = id :: embedded rest := by
  obtain ⟨_, _, shaped⟩ := shaped_reference found
  obtain ⟨c, more, rfl, _⟩ := (spelled_of_shaped shaped).capital
  obtain rfl := splits_reference found
  rw [embedded, embedded, findAll, findAll, Text.findAll, Text.findAll, List.cons_append,
    Text.findAll.go]
  rw [List.cons_append] at found
  simp only [found, Option.map_some, List.length_cons, Nat.add_sub_cancel, findAll_skip]

theorem embedded_of_none (none : reference (c :: t) = none) : embedded (c :: t) = embedded t := by
  rw [embedded, embedded, findAll, findAll, Text.findAll, Text.findAll, Text.findAll.go]
  simp only [none, Option.map_none]

/-- A prefix in which no reference starts holds none. -/
theorem embedded_append (none : ∀ s, s ≠ [] → s <:+ u → reference (s ++ t) = none) :
    embedded (u ++ t) = embedded t := by
  induction u with
  | nil => rfl
  | cons c u ih =>
    have later := ih fun s filled suffix => none s filled (suffix.trans (List.suffix_cons c u))
    rw [List.cons_append, embedded_of_none, later]
    exact none (c :: u) (List.cons_ne_nil c u) List.suffix_rfl

/-! ## Identifiers that stand alone -/

theorem reference_alone (shaped : Shaped kind id) (apart : continuesWord t = false)
    (closed : Closed kind id t) (own : kind ≠ .component) :
    reference (id ++ t) = some (id, t) := by
  have alone := (readAlone shaped apart closed).own
  rw [reference, orElse]
  cases kind with
  | requirement =>
    have main : requirement (id ++ t) = some (id, t) := alone
    rw [andThen_of_some main, optional_of_none (criterionNumber_of_apart apart)]
    simp
  | criterion =>
    obtain ⟨r, w, middle, main, mark, rfl⟩ := andThen_eq_some.mp alone
    rw [andThen_of_some main, optional_of_some mark]
    rfl
  | property =>
    have main : requirement (id ++ t) = none := by
      cases shaped with
      | @property u n feature _ =>
        rw [List.append_assoc, List.cons_append]
        exact requirement_underscore feature _
    rw [andThen_of_none main]
    exact alone
  | component => exact absurd rfl own

theorem code_eq_some (found : code t = some (u, rest)) : rest = t.dropWhile isCodeChar := by
  obtain ⟨_, _, middle, first, later, rfl⟩ := andThen_eq_some.mp found
  obtain ⟨c, rfl, capital⟩ := reads_char _ first
  obtain rfl := splits_char _ first
  cases later
  simp [isCodeChar, capital]

theorem behind_code_eq_none {b : Lexeme} {w : Text}
    (never : ∀ v, t.dropWhile isCodeChar = w ++ v → b v = none) :
    (code.andThen (word w)).andThen b t = none := by
  rw [Option.eq_none_iff_forall_ne_some]
  intro x found
  obtain ⟨_, _, v, outer, behind, _⟩ := andThen_eq_some.mp found
  obtain ⟨_, _, _, feature, joint, _⟩ := andThen_eq_some.mp outer
  obtain rfl := reads_word _ joint
  rw [never v ((code_eq_some feature).symm.trans (splits_word _ joint))] at behind
  cases behind

/-- Nothing is referred to where neither a number nor the mark of a property is behind a code. -/
theorem reference_eq_none
    (unnumbered : ∀ v, t.dropWhile isCodeChar = '-' :: v → number v = none)
    (unmarked : ∀ v, t.dropWhile isCodeChar ≠ '_' :: v) : reference t = none := by
  have main : mainRequirement t = none := behind_code_eq_none unnumbered
  have own : property t = none := by
    rw [property, propertyMark_eq]
    exact behind_code_eq_none fun v marked => absurd marked (unmarked _)
  rw [reference, orElse, own, Option.or_none]
  exact andThen_of_none (andThen_of_none main)

theorem head_dropWhile_alnum (name : ∀ c ∈ m, Text.isAsciiAlnum c = true)
    (apart : continuesWord t = false) : ∀ c ∈ ((m ++ t).dropWhile isCodeChar).head?,
      c ≠ '-' ∧ c ≠ '_' := by
  induction m with
  | nil =>
    intro c first
    have stays : t.dropWhile isCodeChar = t := by
      cases t with
      | nil => rfl
      | cons d t =>
        have stop := stop_of_not_continuesWord apart (fun _ => touches_of_isCodeChar) d rfl
        simp [stop]
    rw [List.nil_append, stays] at first
    have stop : touches c = false := stop_of_not_continuesWord apart (fun _ held => held) c first
    constructor <;>
    · rintro rfl
      exact absurd stop (by decide)
  | cons d m ih =>
    obtain ⟨alnum, name⟩ := List.forall_mem_cons.mp name
    cases inner : isCodeChar d with
    | true => simpa [inner] using ih name
    | false =>
      simp only [List.cons_append, List.dropWhile_cons, inner, Bool.false_eq_true, if_false,
        List.head?_cons, Option.mem_some_iff, forall_eq']
      constructor <;>
      · rintro rfl
        exact absurd alnum (by decide)

theorem embedded_alnum (name : ∀ c ∈ m, Text.isAsciiAlnum c = true)
    (apart : continuesWord t = false) : embedded (m ++ t) = embedded t := by
  refine embedded_append fun s _ suffix => ?_
  have next := head_dropWhile_alnum (fun c member => name c (suffix.subset member)) apart
  refine reference_eq_none (fun v shape => ?_) fun v shape => ?_
  · exact absurd rfl (next '-' (by simp [shape])).1
  · exact absurd rfl (next '_' (by simp [shape])).2

/-- The name of a component that stands alone is skipped. -/
theorem embedded_component (shaped : Shaped .component id) (apart : continuesWord t = false) :
    embedded (id ++ t) = embedded t := by
  cases shaped with
  | @component u m c feature letter name =>
    have front : embedded (u ++ ['-'] ++ (c :: m ++ t)) = embedded (c :: m ++ t) := by
      refine embedded_append fun s filled suffix => ?_
      rcases List.suffix_concat_iff.mp suffix with rfl | ⟨s, rfl, inner⟩
      · exact absurd rfl filled
      · have next : (s ++ ['-'] ++ (c :: m ++ t)).dropWhile isCodeChar = '-' :: c :: (m ++ t) := by
          rw [List.append_assoc,
            List.dropWhile_append_of_pos fun d member => feature.all d (inner.subset member)]
          rfl
        refine reference_eq_none (fun v shape => ?_) fun v shape => ?_
        · cases next.symm.trans shape
          refine number_eq_none ?_
          rintro _ ⟨⟩
          exact not_isDigit_of_isLetter letter
        · cases next.symm.trans shape
    have alnum : ∀ d ∈ c :: m, Text.isAsciiAlnum d = true :=
      List.forall_mem_cons.mpr ⟨isAsciiAlnum_of_isLetter letter, name⟩
    rw [← embedded_alnum alnum apart, ← front]
    simp

end Traceability.Identifier
