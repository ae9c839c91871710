import Traceability.Editor.Feature
import Traceability.Proofs.Line
import Traceability.Proofs.OrderedMap

/-!
# Edits made

What an editor makes of a text when it is given edits: the columns of all of them are those of the
text as it was. The lines of the new text are the old ones, each with its own edits made.
-/
namespace Traceability.Editor

open Text (Unbroken Replaces)

variable {edits : List Edit} {t : Text} {column number : Nat}

/-- A text that starts at a column, with edits made from left to right. -/
def spliceFrom : (column : Nat) → List Edit → Text → Text
  | _, [], t => t
  | column, e :: edits, t =>
    t.take (e.span.start - column) ++
      (e.newText ++ spliceFrom e.span.stop edits (t.drop (e.span.stop - column)))

def editLine (edits : List Edit) (number : Nat) (line : Text) : Text :=
  spliceFrom 0 (edits.filter (·.span.line = number)) line

/-- A text with edits made in it, those of a line being given from left to right. -/
def editText (edits : List Edit) (t : Text) : Text := Text.mapLines (editLine edits) 0 t

/-- Whether an edit ends before another one starts. -/
def Edit.Before (e e' : Edit) : Prop :=
  e.span.line < e'.span.line ∨ e.span.line = e'.span.line ∧ e.span.stop ≤ e'.span.start

/-- Whether a span covers a word of a text, no more and no less. -/
def Span.Covers (s : Span) (word t : Text) : Prop :=
  ∃ before after, (Text.lines t)[s.line]? = some (before ++ (word ++ after)) ∧
    s.start = before.length ∧ s.stop = before.length + word.length

/-- Edits that lie behind a prefix leave it alone. -/
theorem spliceFrom_append (behind : ∀ e ∈ edits, column + t.length ≤ e.span.start ∧
      e.span.start ≤ e.span.stop) (u : Text) :
    spliceFrom column edits (t ++ u) = t ++ spliceFrom (column + t.length) edits u := by
  cases edits with
  | nil => rfl
  | cons e edits =>
    obtain ⟨start, stop⟩ := behind e List.mem_cons_self
    simp only [spliceFrom, List.take_append, List.drop_append]
    rw [List.take_of_length_le (by omega), List.drop_of_length_le (by omega), Nat.sub_sub,
      Nat.sub_sub, List.nil_append, List.append_assoc]

theorem spliceFrom_cons (number column : Nat) (old new : Text) (edits : List Edit) (t : Text) :
    spliceFrom column (⟨⟨number, column, column + old.length⟩, new⟩ :: edits) (old ++ t) =
      new ++ spliceFrom (column + old.length) edits t := by
  simp [spliceFrom]

theorem lines_editText (proper : ∀ line n, (line, n) ∈ (Text.lines t).zipIdx →
      Replaces (editLine edits n line) line) :
    Text.lines (editText edits t) =
      (Text.lines t).zipIdx.map fun (line, n) => editLine edits n line :=
  Text.lines_mapLines proper

theorem getD_get?_addEdits (changes : Changes) (path uri : Text) (edits : List Edit) :
    ((addEdits changes path edits).get? uri).getD [] =
      (changes.get? uri).getD [] ++ if uri = Uri.ofPath path then edits else [] := by
  rw [addEdits]
  split
  · next none => simp [none]
  · rw [OrderedMap.get?_insert]
    split
    · next same => simp [same]
    · simp

end Traceability.Editor
