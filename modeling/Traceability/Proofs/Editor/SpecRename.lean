import Traceability.Live.Source
import Traceability.Proofs.Editor.Referred

/-!
# Identifiers renamed where they are defined

The edits that rename an identifier in the document that defines it rename it in all that the
document defines and refers to, and leave all other identifiers as they are, where an occurrence is
never a part of a longer identifier.
-/
namespace Traceability.Editor

open Identifier (Shaped embedded)
open Spec (Declaration Definition CrossReference)
open Spec.Declaration (Lexical ofLine?)
open Spec.Document (Owners keywordIn? reference? referencesBelow read)

variable {kind : IdKind} {old new path t t' line line' : Text} {n number : Nat} {owners : Owners}

/-- Whether renaming a word in a line renames what is read as that word there, and nothing else:
every occurrence that stands alone is the word and no part of another one, and where a line refers
to the word, the word stands alone. -/
@[mk_iff] structure Clear (kind : IdKind) (old new line : Text) : Prop where
  fits : ∀ x ∈ occurrences old line, Fits kind old new (line.drop (x + old.length))
  whole : ∀ r ∈ keywordIn? defaultKeywords line,
    (embedded r.2).count old ≤ (occurrences old r.2).length

instance : Decidable (Clear kind old new line) :=
  decidable_of_iff _ (clear_iff kind old new line).symm

/-- Whether a definition is another one with a word renamed. -/
structure Redefined (old new : Text) (d d' : Definition) : Prop where
  kind : d'.kind = d.kind
  id : d'.id = renameId old new d.id
  location : d'.location = d.location
  text : Replaced old new d.text d'.text

def renameReference (old new : Text) (r : CrossReference) : CrossReference :=
  { r with targets := r.targets.map (renameId old new), owner := r.owner.map (renameId old new) }

def renameOwners (old new : Text) (owners : Owners) : Owners :=
  ⟨owners.component.map (renameId old new), owners.property.map (renameId old new)⟩

theorem after_renamed {d d' : Option Declaration}
    (declared : Option.Rel (Redeclared old new) d d') :
    (renameOwners old new owners).after d' = renameOwners old new (owners.after d) := by
  cases declared with
  | none => rfl
  | @some d d' same =>
    obtain ⟨kind, id, text⟩ := d
    obtain ⟨kind', id', text'⟩ := d'
    obtain ⟨same, renamed, _⟩ := same
    dsimp only at same renamed
    subst same renamed
    cases kind' <;> rfl

section Shaped

variable (shaped : Shaped kind old) (shaped' : Shaped kind new)

include shaped shaped'

theorem reference?_renamed (clear : Clear kind old new line)
    (renamed : Renamed kind old new false n line line') :
    reference? defaultKeywords (renameOwners old new owners) number line' =
      (reference? defaultKeywords owners number line).map (renameReference old new) := by
  have same := keywordIn?_renamed shaped shaped' renamed
  have whole := clear.whole
  rw [reference?, reference?]
  generalize keywordIn? defaultKeywords line = x, keywordIn? defaultKeywords line' = x'
    at same whole
  cases same with
  | none => rfl
  | @some x x' same =>
    obtain ⟨keyword, rest⟩ := x
    obtain ⟨keyword', rest'⟩ := x'
    obtain ⟨same, m, renamed⟩ := same
    dsimp only at same renamed
    subst same
    have few := whole _ rfl
    rw [occurrences, renamed.length_occurrencesFrom (Identifier.endsTouching_of_shaped shaped)]
      at few
    dsimp only
    rw [(paired_embedded shaped shaped' renamed).eq_map few]
    cases embedded rest with
    | nil => rfl
    | cons id ids => cases Spec.CrossRefKind.ofKeyword keyword' <;> rfl

theorem referencesBelow_renamed {lines lines' : List Text}
    (clear : ∀ line ∈ lines, Clear kind old new line)
    (renamed : List.Forall₂ (fun line line' => ∃ n, Renamed kind old new false n line line')
      lines lines') (owners : Owners) (number : Nat) :
    referencesBelow defaultKeywords (renameOwners old new owners) (lines'.zipIdx number) =
      (referencesBelow defaultKeywords owners (lines.zipIdx number)).map
        (renameReference old new) := by
  induction renamed generalizing owners number with
  | nil => rfl
  | cons here _ ih =>
    obtain ⟨n, here⟩ := here
    obtain ⟨first, clear⟩ := List.forall_mem_cons.mp clear
    simp only [List.zipIdx_cons, referencesBelow, List.map_append,
      after_renamed (ofLine?_renamed shaped shaped' here), ih clear,
      reference?_renamed shaped shaped' first here, Option.toList_map]

theorem definitions_renamed {lines lines' : List Text}
    (renamed : List.Forall₂ (fun line line' => ∃ n, Renamed kind old new false n line line')
      lines lines') :
    List.Forall₂ (Redefined old new)
      ((lines.zipIdx number).filterMap (Spec.Document.definition? path))
      ((lines'.zipIdx number).filterMap (Spec.Document.definition? path)) := by
  induction renamed generalizing number with
  | nil => exact .nil
  | @cons line line' _ _ here _ ih =>
    obtain ⟨n, here⟩ := here
    have declared := ofLine?_renamed shaped shaped' here
    rw [List.zipIdx_cons, List.zipIdx_cons, List.filterMap_cons, List.filterMap_cons,
      Spec.Document.definition?, Spec.Document.definition?]
    generalize ofLine? line = d, ofLine? line' = d' at declared
    cases declared with
    | none => exact ih
    | some same => exact .cons ⟨same.kind, same.id, rfl, same.text⟩ ih

end Shaped

theorem textEdits_suffix_changesFor (disk : Disk) (i : LiveIndex) {x : Definition}
    (defined : i.definition? old = some x) (here : disk.text? (.ofText x.location.path) = some t) :
    textEdits old new t <:+
      ((changesFor disk i old new).get? (Uri.ofPath x.location.path)).getD [] := by
  simp only [changesFor, defined, here, getD_get?_addEdits, if_true]
  exact List.suffix_append _ _

/-- The edits of the document that defines an identifier rename it among the definitions, the targets
of references and their owners, and leave all others as they are. -/
theorem rename_spec {d : Definition} (defined : d ∈ (read defaultKeywords path t).definitions)
    (lexical : Lexical d.kind new) (clear : ∀ line ∈ Text.lines t, Clear d.kind d.id new line) :
    let edits := textEdits d.id new t
    let document := read defaultKeywords path t
    let renamed := read defaultKeywords path (editText edits t)
    List.Forall₂ (Redefined d.id new) document.definitions renamed.definitions ∧
      renamed.crossRefs = document.crossRefs.map (renameReference d.id new) ∧
      ∀ (disk : Disk) (i : LiveIndex) (x : Definition), i.definition? d.id = some x →
        x.location.path = path → disk.text? (.ofText path) = some t →
          edits <:+ ((changesFor disk i d.id new).get? (Uri.ofPath path)).getD [] := by
  intro edits document renamed
  have shaped := Identifier.shaped_of_lexical
    ((Spec.Document.parsed_read defaultKeywords path t).lexical defined)
  have shaped' := Identifier.shaped_of_lexical lexical
  have lines := forall₂_lines_textEdits (Identifier.endsTouching_of_shaped shaped)
    (Identifier.spelled_of_shaped shaped) (Identifier.spelled_of_shaped shaped')
    fun line member => (clear line member).fits
  refine ⟨definitions_renamed shaped shaped' lines,
    referencesBelow_renamed shaped shaped' clear lines {} 1, ?_⟩
  rintro disk i x found rfl here
  exact textEdits_suffix_changesFor disk i found here

def loaderSpec : Text :=
  "### CFG-1: Reads CFG-1.\n- [ ] CFG-1_AC-1 As CFG-1 says\n### CFG-Loader\n" ++
    "IMPLEMENTS: CFG-1_AC-1, CFG-1; CFG-1 and CFG-10\n### CFG-10: Another\n"

def loaderDisk : Disk := (Disk.blank []).write ["a.md"] (Text.Utf8.encode loaderSpec)

def loaderIndex : LiveIndex :=
  (({} : LiveIndex).rebuild loaderDisk { specGlobs := ["*.md"] } ⟨.root, []⟩).1

/-- An identifier is renamed beside its criterion and one that goes on with a digit. -/
theorem rename_spec_loader :
    let d : Definition := ⟨"CFG-1", .requirement, "Reads CFG-1.", ⟨"/a.md", 1⟩⟩
    let edits := textEdits "CFG-1" "LONG-1.2" loaderSpec
    let document := read defaultKeywords "/a.md" loaderSpec
    let renamed := read defaultKeywords "/a.md" (editText edits loaderSpec)
    d ∈ document.definitions ∧ Lexical .requirement "LONG-1.2" ∧
      (∀ line ∈ Text.lines loaderSpec, Clear .requirement "CFG-1" "LONG-1.2" line) ∧
      loaderIndex.definition? "CFG-1" = some d ∧
      loaderDisk.text? (.ofText "/a.md") = some loaderSpec ∧ edits.length = 5 ∧
      List.Forall₂ (Redefined "CFG-1" "LONG-1.2") document.definitions renamed.definitions ∧
      renamed.crossRefs = document.crossRefs.map (renameReference "CFG-1" "LONG-1.2") ∧
      edits <:+ ((changesFor loaderDisk loaderIndex "CFG-1" "LONG-1.2").get?
        (Uri.ofPath "/a.md")).getD [] := by
  intro d edits document renamed
  have defined : d ∈ document.definitions := by decide +kernel
  have lexical : Lexical .requirement "LONG-1.2" := ⟨"LONG-1.2", [], by decide +kernel⟩
  have clear : ∀ line ∈ Text.lines loaderSpec, Clear .requirement "CFG-1" "LONG-1.2" line := by
    decide +kernel
  have indexed : loaderIndex.definition? "CFG-1" = some d := by decide +kernel
  have here : loaderDisk.text? (.ofText "/a.md") = some loaderSpec := by decide +kernel
  obtain ⟨definitions, crossRefs, told⟩ := rename_spec defined lexical clear
  exact ⟨defined, lexical, clear, indexed, here, by decide +kernel, definitions, crossRefs,
    told loaderDisk loaderIndex d indexed rfl here⟩

def dottedSpec : Text := "### CFG-1: Title\n### CFG-1.2: Other title\n"

/-- A requirement that goes on behind a point is renamed with the one that it starts with. -/
theorem rename_spec_dotted :
    let edits := textEdits "CFG-1" "CFG-9" dottedSpec
    let document := read defaultKeywords "/a.md" dottedSpec
    let renamed := read defaultKeywords "/a.md" (editText edits dottedSpec)
    Lexical .requirement "CFG-9" ∧ dottedSpec.includes "CFG-9" = false ∧
      document.definitions.map (·.id) = ["CFG-1".toList, "CFG-1.2".toList] ∧
      renamed.definitions.map (·.id) = ["CFG-9".toList, "CFG-9.2".toList] ∧
      ¬ List.Forall₂ (Redefined "CFG-1" "CFG-9") document.definitions renamed.definitions := by
  intro edits document renamed
  have before : document.definitions.map (·.id) = ["CFG-1".toList, "CFG-1.2".toList] := by
    decide +kernel
  have after : renamed.definitions.map (·.id) = ["CFG-9".toList, "CFG-9.2".toList] := by
    decide +kernel
  refine ⟨⟨"CFG-9", [], by decide +kernel⟩, by decide +kernel, before, after, fun redefined => ?_⟩
  have ids : List.Forall₂ (fun id id' => id' = renameId "CFG-1" "CFG-9" id)
      (document.definitions.map (·.id)) (renamed.definitions.map (·.id)) :=
    List.forall₂_map_left_iff.mpr (List.forall₂_map_right_iff.mpr (redefined.imp fun _ _ r => r.id))
  rw [before, after] at ids
  cases ids with
  | cons _ later =>
    cases later with
    | cons same _ => exact absurd same (by decide +kernel)

end Traceability.Editor
