import Mathlib.Data.List.Induction
import Traceability.Proofs.Cut
import Traceability.Proofs.Line
import Traceability.Proofs.Spec.Document

/-!
# Positions in a document

A document has its definitions and its references in the order of their lines, one at most of each for a
line. A reference belongs to the last definition of its kind at or before its line: what a reader has
above a line, in its two running owners, are the last component and the last property so far.
-/
namespace Traceability.Spec.Document

open Text

variable {keywords : List Text} {path text line keyword rest : Text} {owners : Owners}
  {lines before after : List (Text × Nat)} {number : Nat} {r : CrossReference} {x : Definition}

/-! ## Keywords -/

/-- Whether a keyword announces a reference in a line: of the keywords it is the first that occurs
there, and what follows stands behind its first occurrence. -/
def Announced (keywords : List Text) (line keyword rest : Text) : Prop :=
  (∃ before after, keywords = before ++ keyword :: after ∧ ∀ other ∈ before, ¬ other <:+: line) ∧
    ∃ front, line = front ++ keyword ++ rest ∧ StandsBefore keyword line front

theorem keywordIn?_eq_some_iff :
    keywordIn? keywords line = some (keyword, rest) ↔ Announced keywords line keyword rest := by
  have absent (other : Text) : cut? other line = none ↔ ¬ other <:+: line := by
    rw [← includes_iff_infix, includes, Option.not_isSome_iff_eq_none]
  simp only [keywordIn?, List.findSome?_eq_some_iff, Option.map_eq_none_iff, Option.map_eq_some_iff,
    Prod.exists, Prod.mk.injEq, absent, cut?_eq_some_iff]
  constructor
  · rintro ⟨before, _, after, rfl, ⟨front, _, cut, rfl, rfl⟩, none⟩
    exact ⟨⟨before, after, rfl, none⟩, front, cut⟩
  · rintro ⟨⟨before, after, rfl, none⟩, front, cut⟩
    exact ⟨before, keyword, after, rfl, ⟨front, rest, cut, rfl, rfl⟩, none⟩

theorem reference?_eq_some_iff : reference? keywords owners number line = some r ↔
    ∃ keyword rest, Announced keywords line keyword rest ∧ Identifier.embedded rest ≠ [] ∧
      r = ⟨.ofKeyword keyword, Identifier.embedded rest, number, owners.of (.ofKeyword keyword)⟩ := by
  rw [reference?]
  cases announced : keywordIn? keywords line with
  | none =>
    simp only [← keywordIn?_eq_some_iff, announced]
    exact iff_of_false nofun nofun
  | some found =>
    obtain ⟨keyword, rest⟩ := found
    have own := keywordIn?_eq_some_iff.mp announced
    dsimp only
    split
    · next none =>
      refine iff_of_false nofun ?_
      rintro ⟨keyword', rest', announced', some, _⟩
      rw [← keywordIn?_eq_some_iff, announced] at announced'
      cases announced'
      exact some none
    · next some =>
      rw [Option.some.injEq]
      constructor
      · rintro rfl
        exact ⟨keyword, rest, own, some, rfl⟩
      · rintro ⟨keyword', rest', announced', _, rfl⟩
        rw [← keywordIn?_eq_some_iff, announced] at announced'
        cases announced'
        rfl

/-! ## Running owners -/

/-- What references to come belong to when some lines have been read. -/
def Owners.afterAll (owners : Owners) (lines : List (Text × Nat)) : Owners :=
  lines.foldl (fun owners l => owners.after (Declaration.ofLine? l.1)) owners

theorem Owners.of_after (owners : Owners) (declared : Option Declaration) (kind : CrossRefKind) :
    (owners.after declared).of kind =
      ((declared.filter fun d => d.kind = ownerKind kind).map (·.id)).or (owners.of kind) := by
  cases declared with
  | none => rfl
  | some d =>
    obtain ⟨own, id, _⟩ := d
    cases own <;> cases kind <;> rfl

/-- The definitions on some lines that a reference of a kind can belong to. -/
def ownersOn (path : Text) (kind : CrossRefKind) (lines : List (Text × Nat)) : List Definition :=
  (lines.filterMap (definition? path)).filter fun x => x.kind = ownerKind kind

theorem ownersOn_append (path : Text) (kind : CrossRefKind) (lines more : List (Text × Nat)) :
    ownersOn path kind (lines ++ more) = ownersOn path kind lines ++ ownersOn path kind more := by
  simp only [ownersOn, List.filterMap_append, List.filter_append]

/-- The running owner is the last definition so far. -/
theorem of_afterAll (path : Text) (kind : CrossRefKind) (lines : List (Text × Nat)) :
    (Owners.afterAll {} lines).of kind = (ownersOn path kind lines).getLast?.map (·.id) := by
  -- From the end: the last line defines an owner of the kind or leaves the one before it.
  induction lines using List.reverseRecOn with
  | nil => cases kind <;> rfl
  | append_singleton init l ih =>
    rw [Owners.afterAll, List.foldl_append, List.foldl_cons, List.foldl_nil, Owners.of_after,
      ← Owners.afterAll, ih, ownersOn_append]
    cases declared : Declaration.ofLine? l.1 with
    | none => simp [ownersOn, definition?, declared]
    | some d =>
      by_cases own : d.kind = ownerKind kind <;>
        simp [ownersOn, definition?, declared, own, Option.filter]

theorem mem_referencesBelow_iff : r ∈ referencesBelow keywords owners lines ↔
    ∃ before line number after, lines = before ++ (line, number) :: after ∧
      reference? keywords (owners.afterAll (before ++ [(line, number)])) number line = some r := by
  induction lines generalizing owners with
  | nil => simp [referencesBelow]
  | cons l lines ih =>
    obtain ⟨line, number⟩ := l
    rw [referencesBelow, List.mem_append, Option.mem_toList, ih]
    constructor
    · rintro (here | ⟨before, line', number', after, rfl, later⟩)
      · exact ⟨[], line, number, lines, rfl, here⟩
      · exact ⟨(line, number) :: before, line', number', after, rfl, later⟩
    · rintro ⟨before, line', number', after, split, made⟩
      cases before with
      | nil =>
        cases split
        exact .inl made
      | cons l before =>
        cases split
        exact .inr ⟨before, line', number', after, rfl, made⟩

/-! ## Order -/

theorem line_of_definition? {l : Text × Nat} (defined : definition? path l = some x) :
    x.location.line = l.2 := by
  obtain ⟨_, _, rfl⟩ := Option.map_eq_some_iff.mp defined
  rfl

/-- Definitions stand in the order of their lines. -/
theorem pairwise_definitions (ordered : lines.Pairwise fun l l' => l.2 < l'.2) :
    (lines.filterMap (definition? path)).Pairwise fun x y => x.location.line < y.location.line := by
  refine ordered.filterMap _ fun l l' below x defined y defined' => ?_
  rw [line_of_definition? defined, line_of_definition? defined']
  exact below

/-- A line makes one reference at most, with its own number. -/
theorem sublist_map_line (keywords : List Text) (owners : Owners) (lines : List (Text × Nat)) :
    ((referencesBelow keywords owners lines).map (·.line)).Sublist (lines.map Prod.snd) := by
  induction lines generalizing owners with
  | nil => exact List.Sublist.slnil
  | cons l lines ih =>
    obtain ⟨line, number⟩ := l
    rw [referencesBelow, List.map_append, List.map_cons]
    cases made : reference? keywords (owners.after (Declaration.ofLine? line)) number line with
    | none => exact (ih _).cons number
    | some r =>
      obtain ⟨_, _, _, _, rfl⟩ := reference?_eq_some_iff.mp made
      exact (ih _).cons_cons number

/-! ## The nearest definition -/

/-- Whether a definition is the last one of a kind at or before a line. -/
structure Nearest (d : Document) (kind : IdKind) (line : Nat) (x : Definition) : Prop where
  defined : x ∈ d.definitions
  own : x.kind = kind
  above : x.location.line ≤ line
  last : ∀ y ∈ d.definitions, y.kind = kind → y.location.line ≤ line →
    y.location.line ≤ x.location.line

/-- The last of a growing list is the greatest. -/
theorem getLast?_eq_some_iff_of_pairwise {α : Type} {f : α → Nat} {l : List α} {a : α}
    (growing : l.Pairwise fun b c => f b < f c) :
    l.getLast? = some a ↔ a ∈ l ∧ ∀ b ∈ l, f b ≤ f a := by
  cases l using List.reverseRecOn with
  | nil => simp
  | append_singleton init z =>
    rw [List.pairwise_append] at growing
    have below : ∀ b ∈ init, f b < f z := fun b member => growing.2.2 b member z List.mem_cons_self
    rw [List.getLast?_concat, Option.some.injEq]
    constructor
    · rintro rfl
      refine ⟨List.mem_concat_self, fun b member => ?_⟩
      rcases List.mem_append.mp member with earlier | last
      · exact Nat.le_of_lt (below b earlier)
      · exact Nat.le_of_eq (congrArg f (List.mem_singleton.mp last))
    · rintro ⟨member, most⟩
      rcases List.mem_append.mp member with earlier | last
      · exact absurd (most z List.mem_concat_self) (Nat.not_le_of_lt (below a earlier))
      · exact (List.mem_singleton.mp last).symm

/-- What the first lines of a document define is what it defines at or before the last of them. -/
theorem mem_ownersOn_iff (keywords : List Text) {kind : CrossRefKind}
    (split : (Text.lines text).zipIdx 1 = before ++ (line, number) :: after) :
    x ∈ ownersOn path kind (before ++ [(line, number)]) ↔
      x ∈ (read keywords path text).definitions ∧ x.kind = ownerKind kind ∧
        x.location.line ≤ number := by
  have ordered := pairwise_zipIdx (Text.lines text) 1
  rw [split, List.pairwise_append, List.pairwise_cons] at ordered
  obtain ⟨_, ⟨behind, _⟩, ahead⟩ := ordered
  have whole : (read keywords path text).definitions =
      ((before ++ [(line, number)]) ++ after).filterMap (definition? path) := by
    rw [read, split, List.append_assoc, List.singleton_append]
  rw [whole, List.filterMap_append, List.mem_append, ownersOn, List.mem_filter, decide_eq_true_eq]
  constructor
  · rintro ⟨defined, own⟩
    refine ⟨.inl defined, own, ?_⟩
    obtain ⟨l, member, made⟩ := List.mem_filterMap.mp defined
    rw [line_of_definition? made]
    rcases List.mem_append.mp member with earlier | here
    · exact Nat.le_of_lt (ahead l earlier _ List.mem_cons_self)
    · exact Nat.le_of_eq (congrArg Prod.snd (List.mem_singleton.mp here))
  · rintro ⟨defined | later, own, above⟩
    · exact ⟨defined, own⟩
    · obtain ⟨l, member, made⟩ := List.mem_filterMap.mp later
      rw [line_of_definition? made] at above
      exact absurd above (Nat.not_le_of_lt (behind l member))

theorem getLast?_ownersOn (keywords : List Text) {kind : CrossRefKind}
    (split : (Text.lines text).zipIdx 1 = before ++ (line, number) :: after) :
    (ownersOn path kind (before ++ [(line, number)])).getLast? = some x ↔
      (read keywords path text).Nearest (ownerKind kind) number x := by
  have ordered : (before ++ [(line, number)]).Pairwise fun l l' => l.2 < l'.2 := by
    have all := pairwise_zipIdx (Text.lines text) 1
    rw [split, ← List.singleton_append, ← List.append_assoc] at all
    exact (List.pairwise_append.mp all).1
  have growing : (ownersOn path kind (before ++ [(line, number)])).Pairwise
      fun x y => x.location.line < y.location.line :=
    (pairwise_definitions ordered).filter _
  rw [getLast?_eq_some_iff_of_pairwise growing]
  simp only [mem_ownersOn_iff keywords split]
  constructor
  · rintro ⟨⟨defined, own, above⟩, last⟩
    exact ⟨defined, own, above, fun y among kind below => last y ⟨among, kind, below⟩⟩
  · intro nearest
    exact ⟨⟨nearest.defined, nearest.own, nearest.above⟩,
      fun y ⟨among, kind, below⟩ => nearest.last y among kind below⟩

theorem owner_eq_some_iff {kind : CrossRefKind} {o : Text}
    (split : (Text.lines text).zipIdx 1 = before ++ (line, number) :: after) :
    (Owners.afterAll {} (before ++ [(line, number)])).of kind = some o ↔
      ∃ x, (read keywords path text).Nearest (ownerKind kind) number x ∧ x.id = o := by
  rw [of_afterAll path, Option.map_eq_some_iff]
  simp only [getLast?_ownersOn keywords split]

theorem owner_eq_none_iff {kind : CrossRefKind}
    (split : (Text.lines text).zipIdx 1 = before ++ (line, number) :: after) :
    (Owners.afterAll {} (before ++ [(line, number)])).of kind = none ↔
      ∀ x ∈ (read keywords path text).definitions, x.kind = ownerKind kind →
        number < x.location.line := by
  rw [of_afterAll path, Option.map_eq_none_iff, List.getLast?_eq_none_iff,
    List.eq_nil_iff_forall_not_mem]
  simp only [mem_ownersOn_iff keywords split, not_and, Nat.not_le]

theorem mem_crossRefs_iff : r ∈ (read keywords path text).crossRefs ↔
    ∃ before line number after keyword rest,
      (Text.lines text).zipIdx 1 = before ++ (line, number) :: after ∧
        Announced keywords line keyword rest ∧ Identifier.embedded rest ≠ [] ∧
        r = ⟨.ofKeyword keyword, Identifier.embedded rest, number,
          (Owners.afterAll {} (before ++ [(line, number)])).of (.ofKeyword keyword)⟩ := by
  rw [read, mem_referencesBelow_iff]
  simp only [reference?_eq_some_iff, exists_and_left]

theorem mem_numbered_iff :
    (line, number) ∈ (Text.lines text).zipIdx 1 ↔
      ∃ n, (Text.lines text)[n]? = some line ∧ number = n + 1 := by
  rw [List.mem_zipIdx_iff_le_and_getElem?_sub]
  constructor
  · rintro ⟨positive, found⟩
    exact ⟨number - 1, found, (Nat.sub_add_cancel positive).symm⟩
  · rintro ⟨n, found, rfl⟩
    exact ⟨Nat.le_add_left 1 n, found⟩

/-- A document defines what its lines declare, in their order. It has one reference at most for a line,
and has one just where something referable stands behind the first of the keywords that occurs in the
line. A reference belongs to the nearest definition of its kind at or before its line, if there is one. -/
theorem read_positions (keywords : List Text) (path text : Text) :
    let d := read keywords path text
    d.definitions.Pairwise (fun x y => x.location.line < y.location.line) ∧
      (∀ x, x ∈ d.definitions ↔ ∃ n line e, (Text.lines text)[n]? = some line ∧
        Declaration.ofLine? line = some e ∧ x = ⟨e.id, e.kind, e.text, ⟨path, n + 1⟩⟩) ∧
      d.crossRefs.Pairwise (fun r s => r.line < s.line) ∧
      (∀ r, r ∈ d.crossRefs ↔ ∃ n line keyword rest, (Text.lines text)[n]? = some line ∧
        Announced keywords line keyword rest ∧ Identifier.embedded rest ≠ [] ∧
        r.line = n + 1 ∧ r.kind = .ofKeyword keyword ∧ r.targets = Identifier.embedded rest ∧
        ∀ o, r.owner = some o ↔ ∃ x, d.Nearest (ownerKind r.kind) r.line x ∧ x.id = o) ∧
      ∀ r ∈ d.crossRefs, r.owner = none ↔
        ∀ x ∈ d.definitions, x.kind = ownerKind r.kind → r.line < x.location.line := by
  intro d
  refine ⟨pairwise_definitions (pairwise_zipIdx (Text.lines text) 1), fun x => ?_, ?_, fun r => ?_,
    fun r member => ?_⟩
  · rw [mem_definitions]
    simp only [mem_numbered_iff]
    constructor
    · rintro ⟨line, _, e, ⟨n, found, rfl⟩, declared, rfl⟩
      exact ⟨n, line, e, found, declared, rfl⟩
    · rintro ⟨n, line, e, found, declared, rfl⟩
      exact ⟨line, n + 1, e, ⟨n, found, rfl⟩, declared, rfl⟩
  · have numbers := List.pairwise_map.mpr (pairwise_zipIdx (Text.lines text) 1)
    exact List.pairwise_map.mp (numbers.sublist (sublist_map_line keywords {} _))
  · rw [mem_crossRefs_iff]
    constructor
    · rintro ⟨before, line, number, after, keyword, rest, split, announced, some, rfl⟩
      have member : (line, number) ∈ (Text.lines text).zipIdx 1 := by
        rw [split]
        exact List.mem_append_right before List.mem_cons_self
      obtain ⟨n, found, rfl⟩ := mem_numbered_iff.mp member
      exact ⟨n, line, keyword, rest, found, announced, some, rfl, rfl, rfl,
        fun o => owner_eq_some_iff split⟩
    · rintro ⟨n, line, keyword, rest, found, announced, some, numbered, kind, targets, owned⟩
      obtain ⟨before, after, split⟩ := List.append_of_mem (mem_numbered_iff.mpr ⟨n, found, rfl⟩)
      refine ⟨before, line, n + 1, after, keyword, rest, split, announced, some, ?_⟩
      obtain ⟨_, _, _, owner⟩ := r
      subst numbered kind targets
      congr 1
      exact Option.ext fun o => (owned o).trans (owner_eq_some_iff split).symm
  · obtain ⟨before, line, number, after, keyword, rest, split, _, _, rfl⟩ := mem_crossRefs_iff.mp member
    exact owner_eq_none_iff split

end Traceability.Spec.Document
