import Traceability.Proofs.Identifier
import Traceability.Spec.Document

/-!
# What documents declare

A document defines what its lines declare, each identifier as the kind that its shape tells, and a
reference belongs to a component or a property that the document itself defines.
-/
namespace Traceability.Spec

namespace Declaration

variable {line : Text} {d : Declaration}

/-- Whether an identifier is one that a lexeme of its kind reads. -/
def Lexical (kind : IdKind) (id : Text) : Prop :=
  match kind with
  | .requirement => ∃ t rest, Identifier.requirement t = some (id, rest)
  | .criterion => ∃ t rest, Identifier.criterion t = some (id, rest)
  | .property => ∃ t rest, Identifier.property t = some (id, rest)
  | .component => ∃ t rest, Identifier.component t = some (id, rest)

theorem lexical_of_requirement? (found : requirement? line = some d) : Lexical d.kind d.id := by
  simp only [requirement?, Option.bind_eq_bind, Option.bind_eq_some_iff, Option.pure_def] at found
  obtain ⟨_, _, ⟨_, rest⟩, read, _, _, declared⟩ := found
  cases declared
  exact ⟨_, rest, read⟩

theorem lexical_of_criterion? (found : criterion? line = some d) : Lexical d.kind d.id := by
  simp only [criterion?, Option.bind_eq_bind, Option.bind_eq_some_iff, Option.pure_def] at found
  obtain ⟨_, _, ⟨_, rest⟩, read, _, _, declared⟩ := found
  cases declared
  exact ⟨_, rest, read⟩

theorem lexical_of_property? (found : property? line = some d) : Lexical d.kind d.id := by
  simp only [property?, Option.bind_eq_bind, Option.bind_eq_some_iff, Option.pure_def] at found
  obtain ⟨_, _, ⟨_, rest⟩, read, _, _, declared⟩ := found
  cases declared
  exact ⟨_, rest, read⟩

theorem lexical_of_component? (found : component? line = some d) : Lexical d.kind d.id := by
  simp only [component?, Option.bind_eq_bind, Option.bind_eq_some_iff, Option.pure_def] at found
  obtain ⟨_, _, ⟨_, rest⟩, read, declared⟩ := found
  split at declared
  · cases declared
    exact ⟨_, rest, read⟩
  · cases declared

/-- A line declares an identifier of the kind that it spells. -/
theorem lexical_of_ofLine? (found : ofLine? line = some d) : Lexical d.kind d.id := by
  simp only [ofLine?, Option.orElse_eq_orElse, Option.orElse_eq_or, Option.or_eq_some_iff] at found
  rcases found with requirement | ⟨_, criterion | ⟨_, property | ⟨_, component⟩⟩⟩
  · exact lexical_of_requirement? requirement
  · exact lexical_of_criterion? criterion
  · exact lexical_of_property? property
  · exact lexical_of_component? component

theorem Lexical.kind_eq {kind : IdKind} {id : Text} (lexical : Lexical kind id) :
    Identifier.kind id = kind := by
  cases kind with
  | requirement =>
    obtain ⟨_, _, read⟩ := lexical
    exact Identifier.kind_of_requirement read
  | criterion =>
    obtain ⟨_, _, read⟩ := lexical
    exact Identifier.kind_of_criterion read
  | property =>
    obtain ⟨_, _, read⟩ := lexical
    exact Identifier.kind_of_property read
  | component =>
    obtain ⟨_, _, read⟩ := lexical
    exact Identifier.kind_of_component read

end Declaration

/-- The kind of what a reference belongs to. -/
def ownerKind : CrossRefKind → IdKind
  | .implements => .component
  | .validates => .property

namespace Document

variable {keywords : List Text} {path text : Text}

/-- Whether a document was read from a text. -/
def Parsed (d : Document) : Prop := ∃ keywords path text, d = read keywords path text

theorem parsed_read (keywords : List Text) (path text : Text) : (read keywords path text).Parsed :=
  ⟨keywords, path, text, rfl⟩

theorem mem_definitions {x : Definition} :
    x ∈ (read keywords path text).definitions ↔ ∃ line number d,
      (line, number) ∈ (Text.lines text).zipIdx 1 ∧ Declaration.ofLine? line = some d ∧
        x = ⟨d.id, d.kind, d.text, ⟨path, number⟩⟩ := by
  simp only [read, List.mem_filterMap, definition?, Prod.exists, Option.map_eq_some_iff]
  constructor
  · intro defined
    obtain ⟨line, number, among, d, declared, rfl⟩ := defined
    exact ⟨line, number, d, among, declared, rfl⟩
  · intro defined
    obtain ⟨line, number, d, among, declared, rfl⟩ := defined
    exact ⟨line, number, among, d, declared, rfl⟩

/-- Whether all that references to come may belong to has a property. -/
def Owners.All (holds : CrossRefKind → Text → Prop) (owners : Owners) : Prop :=
  ∀ kind o, owners.of kind = some o → holds kind o

theorem Owners.All.after {holds : CrossRefKind → Text → Prop} {owners : Owners}
    (all : owners.All holds) {declared : Option Declaration}
    (new : ∀ d ∈ declared, ∀ kind, d.kind = ownerKind kind → holds kind d.id) :
    (owners.after declared).All holds := by
  intro kind o owned
  unfold Owners.after at owned
  split at owned
  · next id _ =>
    cases kind with
    | implements =>
      cases owned
      exact new _ rfl .implements rfl
    | validates => exact all .validates o owned
  · next id _ =>
    cases kind with
    | implements => exact all .implements o owned
    | validates =>
      cases owned
      exact new _ rfl .validates rfl
  · exact all kind o owned

theorem owner_of_reference? {owners : Owners} {number : Nat} {line : Text} {r : CrossReference}
    (made : reference? keywords owners number line = some r) : r.owner = owners.of r.kind := by
  unfold reference? at made
  split at made
  · cases made
  · dsimp only at made
    split at made
    · cases made
    · cases made
      rfl

/-- Every line is read below the owners that the lines before it declared. -/
theorem owner_of_mem_referencesBelow {holds : CrossRefKind → Text → Prop}
    {lines : List (Text × Nat)}
    (declared : ∀ line number d, (line, number) ∈ lines → Declaration.ofLine? line = some d →
      ∀ kind, d.kind = ownerKind kind → holds kind d.id)
    {owners : Owners} (all : owners.All holds) {r : CrossReference}
    (member : r ∈ referencesBelow keywords owners lines) {o : Text} (owned : r.owner = some o) :
    holds r.kind o := by
  induction lines generalizing owners with
  | nil => cases member
  | cons first rest ih =>
    obtain ⟨line, number⟩ := first
    have below : (owners.after (Declaration.ofLine? line)).All holds :=
      all.after fun d found => declared line number d List.mem_cons_self found
    rcases List.mem_append.mp member with here | later
    · rw [Option.mem_toList] at here
      rw [owner_of_reference? here] at owned
      exact below r.kind o owned
    · exact ih (fun l n d among => declared l n d (List.mem_cons_of_mem _ among)) below later

variable {d : Document}

/-- A reference belongs to a component, or to a property, that its document defines. -/
theorem Parsed.owner (parsed : d.Parsed) {r : CrossReference} (member : r ∈ d.crossRefs)
    {o : Text} (owned : r.owner = some o) :
    ∃ x ∈ d.definitions, x.id = o ∧ x.kind = ownerKind r.kind := by
  obtain ⟨keywords, path, text, rfl⟩ := parsed
  have none : ({} : Owners).All fun kind o =>
      ∃ x ∈ (read keywords path text).definitions, x.id = o ∧ x.kind = ownerKind kind := by
    intro kind o owned
    cases kind with
    | implements => cases owned
    | validates => cases owned
  refine owner_of_mem_referencesBelow (fun line number d among found kind fits => ?_) none member
    owned
  exact ⟨_, mem_definitions.mpr ⟨line, number, d, among, found, rfl⟩, rfl, fits⟩

theorem Parsed.defines_owner (parsed : d.Parsed) {r : CrossReference} (member : r ∈ d.crossRefs)
    {o : Text} (owned : r.owner = some o) : ∃ x ∈ d.definitions, x.id = o := by
  obtain ⟨x, defined, same, _⟩ := parsed.owner member owned
  exact ⟨x, defined, same⟩

theorem Parsed.lexical (parsed : d.Parsed) {x : Definition} (member : x ∈ d.definitions) :
    Declaration.Lexical x.kind x.id := by
  obtain ⟨keywords, path, text, rfl⟩ := parsed
  obtain ⟨line, number, d, _, found, rfl⟩ := mem_definitions.mp member
  exact Declaration.lexical_of_ofLine? found

theorem Parsed.criterion (parsed : d.Parsed) {x : Definition} (member : x ∈ d.definitions)
    (kind : x.kind = .criterion) : ∃ t rest, Identifier.criterion t = some (x.id, rest) := by
  have lexical := parsed.lexical member
  rwa [kind] at lexical

/-- What something is defined as can be told from its identifier. -/
theorem Parsed.kind_eq (parsed : d.Parsed) {x : Definition} (member : x ∈ d.definitions) :
    Identifier.kind x.id = x.kind :=
  (parsed.lexical member).kind_eq

end Document

end Traceability.Spec
