import Traceability.Proofs.Marker.Span

/-!
# Markers renamed

The edits that rename an identifier in the markers of a file cover the identifier and nothing else,
and do not overlap. Scanned again, the file has the markers it had, with the other identifier.
-/
namespace Traceability

open Identifier (Spelled)
open Editor (Replaced)

namespace Marker

variable {tokens lines : List Text} {path old new t : Text} {l : Text × Nat}

theorem clean_scanLine (clean : Clean (scan tokens path t))
    (member : l ∈ visibleLines (Text.lines t)) : Clean (scanLine tokens path l) := by
  intro f found
  exact clean f (List.mem_flatMap.mpr ⟨_, List.mem_map.mpr ⟨l, member, rfl⟩, found⟩)

/-- A line of a text with its markers renamed, where the line is looked at. -/
def renameVisible (tokens : List Text) (old new path : Text) (lines : List Text) (l : Text × Nat) :
    Text :=
  if l ∈ visibleLines lines then renameLine tokens old new path l else l.1

theorem renameVisible_eq_or_replaced (plain : ∀ token ∈ tokens, ':' ∉ token)
    (spelled' : Spelled new) (old path : Text) (lines : List Text) (l : Text × Nat) :
    renameVisible tokens old new path lines l = l.1 ∨
      Spelled old ∧ Replaced old new l.1 (renameVisible tokens old new path lines l) := by
  rw [renameVisible]
  split
  · exact renameLine_eq_or_replaced plain spelled' old path l.1 l.2
  · exact .inl rfl

theorem visibleLines_renameVisible (plain : ∀ token ∈ tokens, ':' ∉ token) (spelled' : Spelled new)
    (old path : Text) (lines : List Text) :
    visibleLines ((lines.zipIdx 1).map (renameVisible tokens old new path lines)) =
      (visibleLines lines).map fun l => (renameLine tokens old new path l, l.2) := by
  rw [visibleLines_map]
  · refine List.map_congr_left fun l member => ?_
    rw [renameVisible, if_pos member]
  · intro l _ d
    rcases renameVisible_eq_or_replaced plain spelled' old path lines l with
      same | ⟨spelled, replaced⟩
    · rw [same]
    · exact isOn_replaced spelled spelled' replaced d

end Marker

namespace Editor

open Marker (scan scanLine visibleLines renameLine renameVisible Clean)

variable {tokens : List Text} {path old new t : Text} {e : Edit}

theorem markerEdits_scan (old new : Text) (tokens : List Text) (path t : Text) :
    markerEdits old new (scan tokens path t).markers =
      (visibleLines (Text.lines t)).flatMap fun l =>
        markerEdits old new (scanLine tokens path l).markers := by
  simp [markerEdits, Marker.markers_scan, List.filter_flatMap, List.map_flatMap]

theorem line_of_mem_markerEdits {l : Text × Nat}
    (member : e ∈ markerEdits old new (scanLine tokens path l).markers) :
    e.span.line = l.2 - 1 := by
  simp only [markerEdits, List.mem_map, List.mem_filter] at member
  obtain ⟨m, ⟨member, _⟩, rfl⟩ := member
  rw [Span.ofMarker, (Marker.standsIn_of_mem_scanLine member).line_eq]

/-- The edits in a line of a text are those of its own markers. -/
theorem editLine_markerEdits (old new path : Text) {line : Text} {n : Nat}
    (here : (Text.lines t)[n]? = some line) :
    editLine (markerEdits old new (scan tokens path t).markers) n line =
      renameVisible tokens old new path (Text.lines t) (line, n + 1) := by
  have own : ∀ l ∈ visibleLines (Text.lines t),
      ∀ e ∈ markerEdits old new (scanLine tokens path l).markers, e.span.line = l.2 - 1 :=
    fun l _ e member => line_of_mem_markerEdits member
  rw [editLine, markerEdits_scan, renameVisible]
  split
  · next visible =>
    have distinct : (visibleLines (Text.lines t)).Pairwise fun l l' => l.2 - 1 ≠ l'.2 - 1 := by
      refine (Marker.pairwise_visibleLines _).imp_of_mem fun {l l'} member member' below => ?_
      have first := (Marker.getElem?_of_mem_visibleLines member).1
      have second := (Marker.getElem?_of_mem_visibleLines member').1
      omega
    exact congrArg (spliceFrom 0 · line) (Text.filter_line_eq distinct own visible)
  · next hidden =>
    rw [Text.filter_line_eq_nil own]
    · rfl
    · rintro ⟨line', number⟩ visible rfl
      obtain ⟨positive, there⟩ := Marker.getElem?_of_mem_visibleLines visible
      rw [here] at there
      cases there
      rw [Nat.sub_add_cancel positive] at hidden
      exact hidden visible

theorem lines_editText_markerEdits (plain : ∀ token ∈ tokens, ':' ∉ token) (spelled' : Spelled new)
    (old path t : Text) :
    Text.lines (editText (markerEdits old new (scan tokens path t).markers) t) =
      ((Text.lines t).zipIdx 1).map (renameVisible tokens old new path (Text.lines t)) := by
  rw [lines_editText]
  · rw [List.zipIdx_succ, List.map_map]
    refine List.map_congr_left fun l member => ?_
    exact editLine_markerEdits old new path (List.mem_zipIdx_iff_getElem?.mp member)
  · intro line n member
    have here := List.mem_zipIdx_iff_getElem?.mp member
    have unbroken : Text.Unbroken line := Text.unbroken_of_mem_lines (List.mem_of_getElem? here)
    rw [editLine_markerEdits old new path here]
    rcases Marker.renameVisible_eq_or_replaced plain spelled' old path (Text.lines t) (line, n + 1)
      with same | ⟨spelled, replaced⟩
    · rw [same]
      exact ⟨unbroken, Iff.rfl⟩
    · exact replaced.replaces spelled.ne_nil spelled'.ne_nil spelled'.unbroken unbroken

theorem map_key_scan_editText (plain : ∀ token ∈ tokens, ':' ∉ token)
    (whole : Identifier.leadingToken? new = some new) (clean : Clean (scan tokens path t))
    (old : Text) :
    (scan tokens path (editText (markerEdits old new (scan tokens path t).markers) t)).markers.map
        Marker.key =
      (scan tokens path t).markers.map (Marker.renamedKey old new) := by
  have spelled' := Identifier.spelled_of_leadingToken? whole
  rw [Marker.markers_scan, lines_editText_markerEdits plain spelled',
    Marker.visibleLines_renameVisible plain spelled', Marker.markers_scan, List.flatMap_map,
    List.map_flatMap, List.map_flatMap]
  refine List.flatMap_congr fun l member => ?_
  exact Marker.map_key_scanLine plain whole (Marker.clean_scanLine clean member)

theorem pairwise_before_markerEdits (tokens : List Text) (old new path t : Text) :
    (markerEdits old new (scan tokens path t).markers).Pairwise Edit.Before := by
  have apart : (scan tokens path t).markers.Pairwise fun m m' =>
      Edit.Before ⟨.ofMarker m, new⟩ ⟨.ofMarker m', new⟩ := by
    refine (Marker.pairwise_scan tokens path t).imp_of_mem fun {m m'} member _ precedes => ?_
    have positive := Marker.one_le_line_of_mem_scan member
    rcases precedes with below | ⟨same, behind⟩
    · refine .inl ?_
      rw [Span.ofMarker, Span.ofMarker]
      dsimp only
      omega
    · exact .inr ⟨congrArg (· - 1) same, behind⟩
  exact List.pairwise_map.mpr (apart.sublist List.filter_sublist)

theorem covers_of_mem_markerEdits (member : e ∈ markerEdits old new (scan tokens path t).markers) :
    e.newText = new ∧ e.span.Covers old t := by
  simp only [markerEdits, List.mem_map, List.mem_filter, decide_eq_true_eq] at member
  obtain ⟨m, ⟨member, rfl⟩, rfl⟩ := member
  obtain ⟨line, here, stands⟩ := Marker.standsIn_of_mem_scan member
  obtain ⟨before, after, rfl, start, stop⟩ := stands.split
  rw [Nat.zero_add] at start stop
  exact ⟨rfl, before, after, here, start, stop⟩

/-! ## The edits of all files -/

/-- The edits of a file that are made under a URI. -/
def editsAt (old new uri : Text) : Text × List Marker → List Edit
  | (path, markers) => if uri = Uri.ofPath path then markerEdits old new markers else []

theorem getD_get?_foldl_addEdits (changes : Changes) (files : List (Text × List Marker))
    (old new uri : Text) :
    ((files.foldl (fun changes (path, markers) =>
        addEdits changes path (markerEdits old new markers)) changes).get? uri).getD [] =
      (changes.get? uri).getD [] ++ files.flatMap (editsAt old new uri) := by
  induction files generalizing changes with
  | nil => simp
  | cons file files ih =>
    rw [List.foldl_cons, ih, getD_get?_addEdits, List.flatMap_cons, List.append_assoc]
    rfl

/-- The edits of the markers of a file stand together among those of its path. -/
theorem infix_changesFor (d : Disk) (i : LiveIndex) (old new : Text) {markers : List Marker}
    (file : (path, markers) ∈ i.markerFiles) :
    markerEdits old new markers <:+:
      ((changesFor d i old new).get? (Uri.ofPath path)).getD [] := by
  have own : editsAt old new (Uri.ofPath path) (path, markers) = markerEdits old new markers :=
    if_pos rfl
  have among := List.infix_of_mem_flatten
    (List.mem_map_of_mem (f := editsAt old new (Uri.ofPath path)) file)
  rw [own] at among
  have inside : markerEdits old new markers <:+:
      ((i.markerFiles.foldl (fun changes (path, markers) =>
        addEdits changes path (markerEdits old new markers)) .empty).get?
          (Uri.ofPath path)).getD [] := by
    rw [getD_get?_foldl_addEdits]
    exact among.trans (List.suffix_append _ _).isInfix
  rw [changesFor]
  split
  · exact inside
  · dsimp only
    split
    · exact inside
    · rw [getD_get?_addEdits]
      exact inside.trans (List.prefix_append _ _).isInfix

/-- Where no identifier of a marker is followed by unexpected text, renaming gives back the markers
with the other identifier, and the edits that do it cover the identifier and do not overlap. -/
theorem rename_markers (plain : ∀ token ∈ tokens, ':' ∉ token)
    (whole : Identifier.leadingToken? new = some new)
    (clean : ∀ f ∈ (scan tokens path t).findings, f.code ≠ .markerTrailingText) (old : Text) :
    let markers := (scan tokens path t).markers
    let edits := markerEdits old new markers
    (scan tokens path (editText edits t)).markers.map Marker.key =
        markers.map (Marker.renamedKey old new) ∧
      edits.Pairwise Edit.Before ∧
      (∀ e ∈ edits, e.newText = new ∧ e.span.Covers old t) ∧
      ∀ (d : Disk) (i : LiveIndex), (path, markers) ∈ i.markerFiles →
        edits <:+: ((changesFor d i old new).get? (Uri.ofPath path)).getD [] :=
  ⟨map_key_scan_editText plain whole clean old, pairwise_before_markerEdits tokens old new path t,
    fun _ => covers_of_mem_markerEdits, fun d i => infix_changesFor d i old new⟩

def remarkedCode : Text :=
  "# @spec-impl: A-1, B-2 (x),A-1 -->\r\n# @spec-test: A-1 # @spec-ignore\n/* @spec-test: A-1 */"

/-- Of three marker lines, one of which is ignored, two name the identifier, one of them twice. -/
theorem rename_markers_remarked :
    let markers := (scan Marker.defaultTokens "x.py" remarkedCode).markers
    let edits := markerEdits "A-1" "LONG-12_AC-3" markers
    (∀ token ∈ Marker.defaultTokens, ':' ∉ token) ∧
      Identifier.leadingToken? "LONG-12_AC-3" = some "LONG-12_AC-3".toList ∧
      (∀ f ∈ (scan Marker.defaultTokens "x.py" remarkedCode).findings,
        f.code ≠ .markerTrailingText) ∧
      edits.length = 3 ∧
      (scan Marker.defaultTokens "x.py" (editText edits remarkedCode)).markers.map Marker.key =
        markers.map (Marker.renamedKey "A-1" "LONG-12_AC-3") ∧
      edits.Pairwise Edit.Before ∧
      (∀ e ∈ edits, e.newText = "LONG-12_AC-3".toList ∧ e.span.Covers "A-1" remarkedCode) ∧
      ∀ (d : Disk) (i : LiveIndex), ("x.py".toList, markers) ∈ i.markerFiles →
        edits <:+: ((changesFor d i "A-1" "LONG-12_AC-3").get? (Uri.ofPath "x.py")).getD [] := by
  intro markers edits
  have plain : ∀ token ∈ Marker.defaultTokens, ':' ∉ token := by decide
  have whole : Identifier.leadingToken? "LONG-12_AC-3" = some "LONG-12_AC-3".toList := by
    decide +kernel
  have clean : ∀ f ∈ (scan Marker.defaultTokens "x.py" remarkedCode).findings,
      f.code ≠ .markerTrailingText := by
    decide +kernel
  exact ⟨plain, whole, clean, by decide +kernel, rename_markers plain whole clean "A-1"⟩

end Editor

end Traceability
