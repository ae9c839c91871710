import Mathlib.Data.List.Forall2
import Traceability.Config.Basic
import Traceability.Proofs.Editor.Edits
import Traceability.Proofs.Editor.Replaced
import Traceability.Proofs.Marker.Word
import Traceability.Proofs.Shape

/-!
# Words renamed in a text

What becomes of a text when the occurrences of an identifier that stand alone in it are replaced by
another one. Reading goes through both texts alike: where it is not at an occurrence, it never gets
into one, since the character before would touch it, or is a point and a digit is expected.
-/
namespace Traceability.Editor

open Text (touches)
open Marker (startsWithWord continuesWord startsWithWord_eq_true_iff)
open Identifier (Closed EndsTouching Spelled)

variable {kind : IdKind} {old new t t' u : Text} {c : Char} {joined : Bool} {n column : Nat}

def defaultKeywords : List Text := ({} : Config).crossRefKeywords

/-- Whether a text that follows an occurrence leaves it what it is: no number behind a point belongs
to the identifier, and no keyword ends with a colon behind it. -/
@[mk_iff] structure Fits (kind : IdKind) (old new rest : Text) : Prop where
  closed : Closed kind old rest
  closed' : Closed kind new rest
  unannounced : rest.head? = some ':' → ∀ keyword ∈ defaultKeywords,
    ¬ keyword <:+ old ++ [':'] ∧ ¬ keyword <:+ new ++ [':']

instance : Decidable (Fits kind old new u) := decidable_of_iff _ (fits_iff kind old new u).symm

/-- Whether a text comes out of another one by replacing the occurrences of a word that stand alone:
how many there are, where `joined` tells whether the character before the text touches it. -/
inductive Renamed (kind : IdKind) (old new : Text) : Bool → Nat → Text → Text → Prop
  | nil (joined : Bool) : Renamed kind old new joined 0 [] []
  | keep {joined : Bool} {n : Nat} {c : Char} {t t' : Text}
      (other : joined = false → startsWithWord old (c :: t) = false)
      (rest : Renamed kind old new (touches c) n t t') :
    Renamed kind old new joined n (c :: t) (c :: t')
  | swap {n : Nat} {t t' : Text} (apart : continuesWord t = false) (fits : Fits kind old new t)
      (rest : Renamed kind old new true n t t') :
    Renamed kind old new false (n + 1) (old ++ t) (new ++ t')

theorem Renamed.replaced (renamed : Renamed kind old new joined n t t') :
    Replaced old new t t' := by
  induction renamed with
  | nil => exact .nil
  | keep _ _ ih => exact .keep _ ih
  | swap _ _ _ ih => exact .swap ih

/-- Behind a character that touches, both texts go on with the same character. -/
theorem Renamed.joined_cases (renamed : Renamed kind old new true n t t') :
    (n = 0 ∧ t = [] ∧ t' = []) ∨ ∃ c u u', t = c :: u ∧ t' = c :: u' ∧
      Renamed kind old new (touches c) n u u' := by
  cases renamed with
  | nil => exact .inl ⟨rfl, rfl, rfl⟩
  | keep _ rest => exact .inr ⟨_, _, _, rfl, rfl, rest⟩

theorem Renamed.continuesWord_eq (renamed : Renamed kind old new true n t t') :
    continuesWord t' = continuesWord t := by
  rcases renamed.joined_cases with ⟨_, rfl, rfl⟩ | ⟨c, u, u', rfl, rfl, _⟩ <;> rfl

/-! ## The occurrences of a word -/

theorem le_of_mem_occurrencesFrom {word : Text} {skip x : Nat}
    (member : x ∈ occurrencesFrom word skip joined column t) : column ≤ x := by
  induction t generalizing skip joined column with
  | nil =>
    cases skip <;> cases member
  | cons c t ih =>
    cases skip with
    | succ skip => exact Nat.le_of_succ_le (ih member)
    | zero =>
      rw [occurrencesFrom] at member
      split at member
      · rcases List.mem_cons.mp member with rfl | later
        · exact Nat.le_refl x
        · exact Nat.le_of_succ_le (ih later)
      · exact Nat.le_of_succ_le (ih member)

theorem occurrencesFrom_keep {word : Text}
    (other : joined = false → startsWithWord word (c :: t) = false) (column : Nat) :
    occurrencesFrom word 0 joined column (c :: t) =
      occurrencesFrom word 0 (touches c) (column + 1) t := by
  have passed : (!joined && startsWithWord word (c :: t)) = false := by
    cases joined with
    | true => rfl
    | false => exact other rfl
  rw [occurrencesFrom, passed]
  rfl

theorem occurrencesFrom_skip (word u t : Text) (joined : Bool) (column : Nat) :
    occurrencesFrom word u.length joined column (u ++ t) =
      occurrencesFrom word 0 (u.foldl (fun _ c => touches c) joined) (column + u.length) t := by
  induction u generalizing joined column with
  | nil => rfl
  | cons c u ih =>
    rw [List.length_cons, List.cons_append, occurrencesFrom, ih, List.foldl_cons, Nat.add_assoc,
      Nat.add_comm 1]
    rfl

theorem occurrencesFrom_swap {word : Text} (ends : EndsTouching word)
    (apart : continuesWord t = false) (column : Nat) :
    occurrencesFrom word 0 false column (word ++ t) =
      column :: occurrencesFrom word 0 true (column + word.length) t := by
  have last : word.foldl (fun _ c => touches c) false = true := by
    obtain ⟨front, c, rfl, touching⟩ := ends
    rw [List.foldl_append]
    exact touching
  have starts : startsWithWord word (word ++ t) = true :=
    startsWithWord_eq_true_iff.mpr ⟨t, rfl, apart⟩
  cases word with
  | nil => cases last
  | cons c u =>
    have behind : occurrencesFrom (c :: u) u.length (touches c) (column + 1) (u ++ t) =
        occurrencesFrom (c :: u) 0 true (column + (u.length + 1)) t := by
      rw [List.foldl_cons] at last
      rw [occurrencesFrom_skip, last, Nat.add_assoc, Nat.add_comm 1]
    rw [List.cons_append] at starts ⊢
    rw [occurrencesFrom, starts]
    exact congrArg (column :: ·) behind

theorem Renamed.length_occurrencesFrom (ends : EndsTouching old)
    (renamed : Renamed kind old new joined n t t') (column : Nat) :
    (occurrencesFrom old 0 joined column t).length = n := by
  induction renamed generalizing column with
  | nil => rfl
  | keep other _ ih => rw [occurrencesFrom_keep other, ih]
  | swap apart _ _ ih => rw [occurrencesFrom_swap ends apart, List.length_cons, ih]

/-! ## The edits that rename a word -/

def editAt (old new : Text) (number column : Nat) : Edit :=
  ⟨⟨number, column, column + old.length⟩, new⟩

theorem behind_of_mem_editAt {number : Nat} {columns : List Nat}
    (behind : ∀ x ∈ columns, column ≤ x) : ∀ e ∈ columns.map (editAt old new number),
      column ≤ e.span.start ∧ e.span.start ≤ e.span.stop :=
  List.forall_mem_map.mpr fun x member => ⟨behind x member, Nat.le_add_right x _⟩

theorem fits_behind_keep (fits : ∀ x ∈ occurrencesFrom old 0 joined (column + 1) t,
      Fits kind old new ((c :: t).drop (x - column + old.length))) :
    ∀ x ∈ occurrencesFrom old 0 joined (column + 1) t,
      Fits kind old new (t.drop (x - (column + 1) + old.length)) := by
  intro x member
  have behind := le_of_mem_occurrencesFrom member
  have distance : x - column + old.length = x - (column + 1) + old.length + 1 := by omega
  have here := fits x member
  rwa [distance, List.drop_succ_cons] at here

theorem fits_behind_swap (fits : ∀ x ∈ occurrencesFrom old 0 joined (column + old.length) t,
      Fits kind old new ((old ++ t).drop (x - column + old.length))) :
    ∀ x ∈ occurrencesFrom old 0 joined (column + old.length) t,
      Fits kind old new (t.drop (x - (column + old.length) + old.length)) := by
  intro x member
  have behind := le_of_mem_occurrencesFrom member
  have distance : x - column = x - (column + old.length) + old.length := by omega
  have here := fits x member
  rwa [Nat.add_comm, ← List.drop_drop, List.drop_left, distance] at here

/-- The edits of the occurrences make the renamed text. -/
theorem exists_renamed_spliceFrom (ends : EndsTouching old) (number : Nat) (t : Text)
    (joined : Bool) (column : Nat) (fits : ∀ x ∈ occurrencesFrom old 0 joined column t,
      Fits kind old new (t.drop (x - column + old.length))) :
    ∃ n, Renamed kind old new joined n t (spliceFrom column
      ((occurrencesFrom old 0 joined column t).map (editAt old new number)) t) := by
  cases t with
  | nil => exact ⟨0, .nil joined⟩
  | cons c s =>
    by_cases here : joined = false ∧ startsWithWord old (c :: s) = true
    · obtain ⟨rfl, starts⟩ := here
      obtain ⟨u, shape, apart⟩ := startsWithWord_eq_true_iff.mp starts
      have shorter : u.length < (c :: s).length := by
        obtain ⟨front, d, rfl, _⟩ := ends
        simp only [shape, List.length_append, List.length_singleton]
        omega
      rw [shape, occurrencesFrom_swap ends apart] at fits
      obtain ⟨first, later⟩ := List.forall_mem_cons.mp fits
      obtain ⟨n, renamed⟩ :=
        exists_renamed_spliceFrom ends number u true (column + old.length) (fits_behind_swap later)
      rw [shape, occurrencesFrom_swap ends apart, List.map_cons, editAt, spliceFrom_cons]
      exact ⟨n + 1, .swap apart (by simpa using first) renamed⟩
    · have other : joined = false → startsWithWord old (c :: s) = false := by simpa using here
      rw [occurrencesFrom_keep other] at fits ⊢
      obtain ⟨n, renamed⟩ :=
        exists_renamed_spliceFrom ends number s (touches c) (column + 1) (fits_behind_keep fits)
      have behind : ∀ x ∈ occurrencesFrom old 0 (touches c) (column + 1) s, column + 1 ≤ x :=
        fun x member => le_of_mem_occurrencesFrom member
      refine ⟨n, ?_⟩
      rw [← List.singleton_append, spliceFrom_append (behind_of_mem_editAt behind)]
      exact .keep other renamed
termination_by t.length

theorem editLine_textEdits {line : Text} {number : Nat} (old new : Text)
    (here : (Text.lines t)[number]? = some line) :
    editLine (textEdits old new t) number line =
      spliceFrom 0 ((occurrences old line).map (editAt old new number)) line := by
  have distinct : (Text.lines t).zipIdx.Pairwise fun l l' => l.2 ≠ l'.2 := by
    have numbers : ((Text.lines t).zipIdx.map Prod.snd).Nodup := by
      rw [List.zipIdx_map_snd]
      exact List.nodup_range'
    exact List.pairwise_map.mp numbers
  have own : ∀ l ∈ (Text.lines t).zipIdx,
      ∀ e ∈ (occurrences old l.1).map (editAt old new l.2), e.span.line = l.2 :=
    fun l _ => List.forall_mem_map.mpr fun x _ => rfl
  have among : (line, number) ∈ (Text.lines t).zipIdx := List.mem_zipIdx_iff_getElem?.mpr here
  exact congrArg (spliceFrom 0 · line) (Text.filter_line_eq distinct own among)

/-- Line by line, the edits of a text replace the occurrences that stand alone. -/
theorem forall₂_lines_textEdits (ends : EndsTouching old) (spelled : Spelled old)
    (spelled' : Spelled new) (fits : ∀ line ∈ Text.lines t, ∀ x ∈ occurrences old line,
      Fits kind old new (line.drop (x + old.length))) :
    List.Forall₂ (fun line line' => ∃ n, Renamed kind old new false n line line')
      (Text.lines t) (Text.lines (editText (textEdits old new t) t)) := by
  have renamed : ∀ l ∈ (Text.lines t).zipIdx, ∃ n,
      Renamed kind old new false n l.1 (editLine (textEdits old new t) l.2 l.1) := by
    intro l member
    have here := List.mem_zipIdx_iff_getElem?.mp member
    rw [editLine_textEdits old new here]
    exact exists_renamed_spliceFrom ends l.2 l.1 false 0 (fits l.1 (List.mem_of_getElem? here))
  rw [lines_editText]
  · conv => arg 2; rw [← List.zipIdx_map_fst 0 (Text.lines t)]
    rw [List.forall₂_map_left_iff, List.forall₂_map_right_iff, List.forall₂_same]
    exact renamed
  · intro line number member
    obtain ⟨_, renamed⟩ := renamed _ member
    have here := List.mem_zipIdx_iff_getElem?.mp member
    exact renamed.replaced.replaces spelled.ne_nil spelled'.ne_nil spelled'.unbroken
      (Text.unbroken_of_mem_lines (List.mem_of_getElem? here))

end Traceability.Editor
