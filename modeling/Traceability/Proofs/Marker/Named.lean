import Mathlib.Data.List.Flatten
import Traceability.Proofs.Marker.Annotated

/-!
# Identifiers named by a text

The scan of a text and the list of the identifiers that it names read the same entries of a line. The
scan leaves out the lines that a directive hides and those whose token announces no kind, and nothing
else; so its markers are a part of the list in the order of the list, and the whole of it where no line
has a directive and all tokens announce a kind.
-/
namespace Traceability.Marker

variable {tokens lines : List Text} {t token entries : Text} {column offset : Nat}

/-! ## One line -/

/-- The identifiers that start the entries of a line. -/
def idsOnLine (tokens : List Text) (line : Text) : List Text :=
  match entriesOf? tokens line with
  | none => []
  | some (_, _, entries) =>
    (Text.splitOn ',' entries).filterMap fun entry => Identifier.leadingToken? (Text.trim entry)

theorem idsIn_eq (tokens : List Text) (text : Text) :
    idsIn tokens text = (Text.lines text).flatMap (idsOnLine tokens) :=
  rfl

/-- The token in front of the entries is one of those that are tried. -/
theorem mem_of_entriesFrom? (found : entriesFrom? tokens column t = some (token, offset, entries)) :
    token ∈ tokens := by
  induction t generalizing column with
  | nil => cases found
  | cons c t ih =>
    rw [entriesFrom?] at found
    cases here : tokens.findSome? (entriesAt? (c :: t)) with
    | some x =>
      rw [here] at found
      cases found
      obtain ⟨tried, member, stands⟩ := List.exists_of_findSome?_eq_some here
      obtain ⟨_, _, _, _, same⟩ := exists_of_entriesAt? stands
      cases same
      exact member
    | none =>
      rw [here] at found
      exact ih found

/-- Whether the entries of a line stand behind a token that announces a kind. -/
def IsAnnounced (tokens : List Text) (line : Text) : Prop :=
  ∀ x ∈ entriesOf? tokens line, kindOfToken? tokens x.1 ≠ none

instance (tokens : List Text) (line : Text) : Decidable (IsAnnounced tokens line) :=
  inferInstanceAs (Decidable (∀ x ∈ entriesOf? tokens line, kindOfToken? tokens x.1 ≠ none))

theorem isAnnounced_of_few (listed : tokens ≠ []) (few : tokens.length ≤ 3) (line : Text) :
    IsAnnounced tokens line := by
  rintro ⟨token, column, entries⟩ found
  have member : token ∈ tokens := (mem_tokenOrder_iff listed).mp (mem_of_entriesFrom? found)
  obtain ⟨kind, _, known, _⟩ := exists_kindOfToken? few member
  exact known ▸ Option.some_ne_none kind

/-- A line is scanned to the identifiers of its entries, or to nothing where no kind is
announced. -/
theorem map_id_scanLine (tokens : List Text) (path : Text) (l : Text × Nat) :
    (scanLine tokens path l).markers.map (·.id) =
      if IsAnnounced tokens l.1 then idsOnLine tokens l.1 else [] := by
  obtain ⟨line, number⟩ := l
  cases found : entriesOf? tokens line with
  | none =>
    have nothing : idsOnLine tokens line = [] := by rw [idsOnLine, found]
    simp only [scanLine, found, nothing, ite_self, List.map_nil]
  | some x =>
    obtain ⟨token, column, entries⟩ := x
    cases known : kindOfToken? tokens token with
    | none =>
      have silent : ¬ IsAnnounced tokens line := fun announced => announced _ found known
      rw [if_neg silent]
      simp only [scanLine, found, known, List.map_nil]
    | some kind =>
      have announced : IsAnnounced tokens line := by
        intro x own
        cases found.symm.trans own
        exact known ▸ Option.some_ne_none kind
      rw [if_pos announced, scanLine_of_some found known, map_id_scanEntries, idsOnLine, found]

/-! ## All lines -/

/-- A text is scanned to the identifiers on the lines that are looked at and announce a kind. -/
theorem map_id_scan (tokens : List Text) (path text : Text) :
    (scan tokens path text).markers.map (·.id) = (visibleLines (Text.lines text)).flatMap fun l =>
      if IsAnnounced tokens l.1 then idsOnLine tokens l.1 else [] := by
  rw [markers_scan, List.map_flatMap]
  simp only [map_id_scanLine]

theorem flatMap_zipIdx (f : Text → List Text) (lines : List Text) (n : Nat) :
    ((lines.zipIdx n).flatMap fun l => f l.1) = lines.flatMap f := by
  rw [← List.flatMap_map Prod.fst f, List.zipIdx_map_fst]

theorem Hiding.keep_of_undirected {numbered : List (Text × Nat)}
    (undirected : ∀ l ∈ numbered, Undirected l.1) : ({} : Hiding).keep numbered = numbered := by
  induction numbered with
  | nil => rfl
  | cons l rest ih =>
    obtain ⟨own, undirected⟩ := List.forall_mem_cons.mp undirected
    have shown : ({} : Hiding).step l.1 = (true, {}) := by simp [Hiding.step, own _]
    rw [Hiding.keep, shown]
    exact congrArg (l :: ·) (ih undirected)

/-- All lines are looked at where none has a directive. -/
theorem visibleLines_of_undirected (undirected : ∀ line ∈ lines, Undirected line) :
    visibleLines lines = lines.zipIdx 1 := by
  have unhidden : lines.any Directive.file.isOn = false :=
    List.any_eq_false.mpr fun line member => by simp [undirected line member .file]
  have numbered : ∀ l ∈ lines.zipIdx 1, Undirected l.1 := fun l member =>
    undirected l.1 (List.fst_mem_of_mem_zipIdx member)
  rw [visibleLines, unhidden, if_neg Bool.false_ne_true, Hiding.keep_of_undirected numbered]

/-- The markers of a text name a part of the identifiers that the text names, in their order, and all
of them where no line has a directive and there are one to three tokens. -/
theorem sublist_idsIn (tokens : List Text) (path text : Text) :
    ((scan tokens path text).markers.map (·.id)).Sublist (idsIn tokens text) ∧
      ((∀ line ∈ Text.lines text, Undirected line) → tokens ≠ [] → tokens.length ≤ 3 →
        (scan tokens path text).markers.map (·.id) = idsIn tokens text) := by
  rw [map_id_scan, idsIn_eq, ← flatMap_zipIdx _ _ 1]
  constructor
  · have here : ∀ l ∈ visibleLines (Text.lines text),
        (if IsAnnounced tokens l.1 then idsOnLine tokens l.1 else []).Sublist
          (idsOnLine tokens l.1) := by
      intro l _
      split
      · exact .refl _
      · exact List.nil_sublist _
    exact (List.Sublist.flatMap_right _ here).trans ((sublist_visibleLines _).flatMap _)
  · intro undirected listed few
    rw [visibleLines_of_undirected undirected]
    simp only [isAnnounced_of_few listed few, if_true]

/-- A token that starts another one, and is listed twice. -/
def overlapping : List Text := ["@spec", "@spec-impl", "@spec"]

theorem sublist_idsIn_overlapping :
    let text : Text := "# @spec-impl: A-1, none, A-2 (x)\n# @spec: A-1"
    ((∀ line ∈ Text.lines text, Undirected line) ∧ overlapping ≠ [] ∧ overlapping.length ≤ 3) ∧
      (scan overlapping "a.py" text).markers.map (·.id) = idsIn overlapping text ∧
      idsIn overlapping text = ["A-1".toList, "A-2".toList, "A-1".toList] := by
  intro text
  have undirected : ∀ line ∈ Text.lines text, Undirected line := by
    have plain : ∀ line ∈ Text.lines text, line.includes "@spec-ignore" = false := by
      decide +kernel
    exact fun line member => undirected_of_not_includes (plain line member)
  have listed : overlapping ≠ [] := List.cons_ne_nil _ _
  have few : overlapping.length ≤ 3 := by decide
  exact ⟨⟨undirected, listed, few⟩, (sublist_idsIn overlapping "a.py" text).2 undirected listed few,
    by decide +kernel⟩

/-- A fourth token announces nothing, and a hidden line is not scanned; both name identifiers. -/
example : let text : Text := "d: A-1\na: A-2 @spec-ignore\nb: A-3"
    (scan ["a", "b", "c", "d"] "a.py" text).markers.map (·.id) = ["A-3".toList] ∧
      idsIn ["a", "b", "c", "d"] text = ["A-1".toList, "A-2".toList, "A-3".toList] := by
  decide +kernel

end Traceability.Marker
