import Traceability.Marker.Scan
import Traceability.Proofs.Editor.Edits
import Traceability.Proofs.Editor.Replaced
import Traceability.Proofs.Path
import Traceability.Proofs.Trim

/-!
# Entries renamed

An entry whose identifier is replaced by another one starts with the other one, where nothing
unexpected follows. The edits that rename the markers of a list of entries do that to each entry,
and leave the commas alone.
-/
namespace Traceability

namespace Identifier

variable {t : Text}

theorem EndsToken.of_trim (ends : EndsToken (Text.trim t)) : EndsToken t := by
  cases t with
  | nil => exact endsToken_nil
  | cons c t =>
    cases blank : Text.isBlank c with
    | true => exact endsToken_cons (not_isTokenChar_of_isBlank blank) t
    | false =>
      have kept : Text.trim (c :: t) = c :: Text.trimEnd t :=
        @Text.trim_eq [] [c] (List.forall_mem_nil _) (List.cons_ne_nil c [])
          (List.forall_mem_singleton.mpr blank) t
      obtain ⟨tail, split, _⟩ := Text.exists_dropEndWhile Text.isBlank t
      have longer := (kept ▸ ends).append (List.cons_ne_nil _ _) tail
      rwa [List.cons_append, Text.trimEnd, ← split] at longer

theorem EndsToken.of_dropCloser {closer : Text} (closes : EndsToken closer)
    (ends : EndsToken (Marker.dropCloser t closer)) : EndsToken t := by
  unfold Marker.dropCloser at ends
  split at ends
  · next rest found =>
    rw [Text.dropTail?_eq_some_iff] at found
    rw [found]
    by_cases empty : rest = []
    · rw [empty]
      exact closes
    · exact ends.of_trim.append empty closer
  · exact ends

theorem endsToken_of_trailingText (clean : Marker.trailingText t = []) : EndsToken t := by
  rw [Marker.trailingText] at clean
  have behind :
      EndsToken (((Marker.dropRemark? (Text.trim t)).map Text.trim).getD (Text.trim t)) := by
    have star : EndsToken "*/" := endsToken_cons (by decide) _
    have arrow : EndsToken "-->" := by
      rintro _ _ shape
      cases shape
      exact .inr ⟨rfl, rfl⟩
    exact .of_dropCloser star (.of_dropCloser arrow (clean ▸ endsToken_nil))
  refine EndsToken.of_trim ?_
  cases remark : Marker.dropRemark? (Text.trim t) with
  | none =>
    rw [remark] at behind
    exact behind
  | some rest =>
    simp only [Marker.dropRemark?, Option.bind_eq_bind, Option.bind_eq_some_iff] at remark
    obtain ⟨inner, opened, _⟩ := remark
    rw [Text.dropStem?_eq_some_iff.mp opened]
    exact endsToken_cons (by decide) inner

end Identifier

namespace Marker

open Identifier (leadingToken?)
open Editor (Edit Replaced spliceFrom spliceFrom_append spliceFrom_cons markerEdits)

variable {kind : MarkerKind} {path entry old new id : Text} {line column : Nat}

/-- What is left of a marker when its columns are forgotten. -/
def key (m : Marker) : MarkerKind × Nat × Text := (m.kind, m.line, m.id)

def renamedKey (old new : Text) (m : Marker) : MarkerKind × Nat × Text :=
  (m.kind, m.line, if m.id = old then new else m.id)

/-- Whether no finding tells of unexpected text behind an identifier. -/
def Clean (s : MarkerScan) : Prop := ∀ f ∈ s.findings, f.code ≠ .markerTrailingText

/-- An entry with another identifier, if it starts with the given one. -/
def renameEntry (old new entry : Text) : Text :=
  if leadingToken? (Text.trim entry) = some old then
    entry.take (Text.indent entry) ++ (new ++ entry.drop (Text.indent entry + old.length))
  else entry

/-! ## One entry -/

theorem exists_entry (found : leadingToken? (Text.trim entry) = some id) :
    ∃ lead rest, entry = lead ++ (id ++ rest) ∧ ∀ c ∈ lead, Text.isBlank c = true := by
  obtain ⟨lead, tail, split, blank⟩ := Text.exists_trim entry
  obtain ⟨⟨_, rest⟩, read, rfl⟩ := Option.map_eq_some_iff.mp found
  rw [Identifier.splits_token read] at split
  exact ⟨lead, rest ++ tail, by rw [split, List.append_assoc], blank⟩

section Spelled

variable {lead rest : Text} (spelled : Identifier.Spelled id)
  (blank : ∀ c ∈ lead, Text.isBlank c = true)

include spelled blank

theorem trim_entry : Text.trim (lead ++ (id ++ rest)) = id ++ Text.trimEnd rest :=
  Text.trim_eq blank spelled.ne_nil spelled.not_isBlank rest

theorem indent_entry : Text.indent (lead ++ (id ++ rest)) = lead.length := by
  refine Text.indent_eq blank fun c first => ?_
  obtain ⟨d, more, rfl, _⟩ := spelled.capital
  cases first
  exact spelled.not_isBlank c List.mem_cons_self

theorem renameEntry_entry (found : leadingToken? (Text.trim (lead ++ (id ++ rest))) = some id) :
    renameEntry id new (lead ++ (id ++ rest)) = lead ++ (new ++ rest) := by
  rw [renameEntry, if_pos found, indent_entry spelled blank]
  simp

end Spelled

theorem scanEntry_of_none (absent : leadingToken? (Text.trim entry) = none) :
    scanEntry kind path line column entry = {} := by
  rw [scanEntry]
  simp only [absent]

theorem markers_scanEntry (found : leadingToken? (Text.trim entry) = some id) :
    (scanEntry kind path line column entry).markers =
      [⟨kind, id, path, line, column + Text.indent entry,
        column + Text.indent entry + id.length⟩] := by
  rw [scanEntry]
  simp only [found]

theorem trailingText_of_clean (clean : Clean (scanEntry kind path line column entry))
    (found : leadingToken? (Text.trim entry) = some id) :
    trailingText ((Text.trim entry).drop id.length) = [] := by
  rw [Clean, scanEntry] at clean
  simp only [found] at clean
  by_contra trailing
  rw [if_neg trailing] at clean
  exact clean _ List.mem_cons_self rfl

/-- The marker of a renamed entry is that of the entry, with the other identifier. -/
theorem map_key_scanEntry (clean : Clean (scanEntry kind path line column entry))
    (whole : leadingToken? new = some new) (column' : Nat) :
    (scanEntry kind path line column' (renameEntry old new entry)).markers.map key =
      (scanEntry kind path line column entry).markers.map (renamedKey old new) := by
  cases found : leadingToken? (Text.trim entry) with
  | none =>
    rw [renameEntry, if_neg (by simp [found]), scanEntry_of_none found, scanEntry_of_none found]
    rfl
  | some id =>
    by_cases same : id = old
    · subst same
      obtain ⟨lead, rest, rfl, blank⟩ := exists_entry found
      have spelled := Identifier.spelled_of_leadingToken? found
      have trailing := trailingText_of_clean clean found
      rw [trim_entry spelled blank, List.drop_left] at trailing
      have read : leadingToken? (Text.trim (lead ++ (new ++ rest))) = some new := by
        rw [trim_entry (Identifier.spelled_of_leadingToken? whole) blank]
        exact Identifier.leadingToken?_append whole (Identifier.endsToken_of_trailingText trailing)
      rw [renameEntry_entry spelled blank found, markers_scanEntry read, markers_scanEntry found]
      simp [key, renamedKey]
    · rw [renameEntry, if_neg (by simpa [found] using same), markers_scanEntry found,
        markers_scanEntry found]
      simp [key, renamedKey, same]

theorem replaced_renameEntry (old new entry : Text) :
    Replaced old new entry (renameEntry old new entry) := by
  by_cases found : leadingToken? (Text.trim entry) = some old
  · obtain ⟨lead, rest, rfl, blank⟩ := exists_entry found
    rw [renameEntry_entry (Identifier.spelled_of_leadingToken? found) blank found]
    exact (Replaced.refl lead).append (.swap (Replaced.refl rest))
  · rw [renameEntry, if_neg found]
    exact Replaced.refl entry

/-- Whether the columns of a marker are those of its identifier in a text that starts at a column of
a line. -/
structure StandsIn (m : Marker) (line column : Nat) (t : Text) : Prop where
  line_eq : m.line = line
  spelled : Identifier.Spelled m.id
  split : ∃ before after, t = before ++ (m.id ++ after) ∧ m.start = column + before.length ∧
    m.stop = column + before.length + m.id.length

theorem StandsIn.append {m : Marker} {t : Text} (stands : m.StandsIn line column t) (u : Text) :
    m.StandsIn line column (t ++ u) := by
  obtain ⟨own, spelled, before, after, rfl, columns⟩ := stands
  exact ⟨own, spelled, before, after ++ u, by simp, columns⟩

theorem StandsIn.behind {m : Marker} {t u : Text}
    (stands : m.StandsIn line (column + u.length) t) : m.StandsIn line column (u ++ t) := by
  obtain ⟨own, spelled, before, after, rfl, start, stop⟩ := stands
  refine ⟨own, spelled, u ++ before, after, by simp, ?_, ?_⟩
  · rw [start, List.length_append, Nat.add_assoc]
  · rw [stop, List.length_append, Nat.add_assoc column]

theorem standsIn_of_mem_scanEntry {m : Marker}
    (member : m ∈ (scanEntry kind path line column entry).markers) :
    m.StandsIn line column entry := by
  cases found : leadingToken? (Text.trim entry) with
  | none =>
    rw [scanEntry_of_none found] at member
    cases member
  | some id =>
    rw [markers_scanEntry found, List.mem_singleton] at member
    have spelled := Identifier.spelled_of_leadingToken? found
    obtain ⟨lead, rest, rfl, blank⟩ := exists_entry found
    rw [indent_entry spelled blank] at member
    subst member
    exact ⟨rfl, spelled, lead, rest, rfl, rfl, rfl⟩

/-! ## A list of entries -/

variable {entries : List Text}

theorem scanEntries_cons (rest : List Text) :
    (scanEntries kind path line column (entry :: rest)).markers =
      (scanEntry kind path line column entry).markers ++
        (scanEntries kind path line (column + entry.length + 1) rest).markers := rfl

theorem clean_scanEntries_cons {rest : List Text} :
    Clean (scanEntries kind path line column (entry :: rest)) ↔
      Clean (scanEntry kind path line column entry) ∧
        Clean (scanEntries kind path line (column + entry.length + 1) rest) :=
  List.forall_mem_append

theorem map_key_scanEntries (clean : Clean (scanEntries kind path line column entries))
    (whole : leadingToken? new = some new) (column' : Nat) :
    (scanEntries kind path line column' (entries.map (renameEntry old new))).markers.map key =
      (scanEntries kind path line column entries).markers.map (renamedKey old new) := by
  induction entries generalizing column column' with
  | nil => rfl
  | cons entry rest ih =>
    obtain ⟨first, later⟩ := clean_scanEntries_cons.mp clean
    rw [List.map_cons, scanEntries_cons, scanEntries_cons, List.map_append, List.map_append,
      map_key_scanEntry first whole, ih later]

theorem replaced_join (old new : Text) (entries : List Text) :
    Replaced old new (Text.join [','] entries)
      (Text.join [','] (entries.map (renameEntry old new))) := by
  induction entries with
  | nil => exact .nil
  | cons entry rest ih =>
    cases rest with
    | nil => exact replaced_renameEntry old new entry
    | cons next rest =>
      rw [List.map_cons, List.map_cons, Text.join_cons_cons, Text.join_cons_cons]
      exact (replaced_renameEntry old new entry).append (.keep ',' ih)

theorem standsIn_of_mem_scanEntries {m : Marker}
    (member : m ∈ (scanEntries kind path line column entries).markers) :
    m.StandsIn line column (Text.join [','] entries) := by
  induction entries generalizing column with
  | nil => cases member
  | cons entry rest ih =>
    rw [scanEntries_cons, List.mem_append] at member
    cases rest with
    | nil =>
      rcases member with member | member
      · exact standsIn_of_mem_scanEntry member
      · cases member
    | cons next rest =>
      rw [Text.join_cons_cons]
      rcases member with member | member
      · exact (standsIn_of_mem_scanEntry member).append _
      · have comma := (ih member).behind (u := [','])
        exact comma.behind

theorem pairwise_scanEntries (kind : MarkerKind) (path : Text) (line column : Nat)
    (entries : List Text) :
    (scanEntries kind path line column entries).markers.Pairwise fun m m' => m.stop ≤ m'.start := by
  induction entries generalizing column with
  | nil => exact .nil
  | cons entry rest ih =>
    rw [scanEntries_cons, List.pairwise_append]
    refine ⟨?_, ih _, fun m here m' later => ?_⟩
    · cases found : leadingToken? (Text.trim entry) with
      | none => simp [scanEntry_of_none found]
      | some id => simp [markers_scanEntry found]
    · obtain ⟨_, _, lead, after, shape, _, stop⟩ := standsIn_of_mem_scanEntry here
      obtain ⟨_, _, before, _, _, start, _⟩ := standsIn_of_mem_scanEntries later
      have length := congrArg List.length shape
      simp only [List.length_append] at length
      omega

/-! ## The edits of a list of entries -/

theorem markerEdits_append (markers markers' : List Marker) :
    markerEdits old new (markers ++ markers') =
      markerEdits old new markers ++ markerEdits old new markers' := by
  simp [markerEdits]

theorem markerEdits_of_mem (id : Text) {m : Marker} (same : m.id = id) :
    markerEdits id new [m] = [⟨.ofMarker m, new⟩] := by
  simp [markerEdits, same]

theorem spliceFrom_entry {edits : List Edit} (behind : ∀ e ∈ edits,
      column + entry.length ≤ e.span.start ∧ e.span.start ≤ e.span.stop) (u : Text) :
    spliceFrom column (markerEdits old new (scanEntry kind path line column entry).markers ++ edits)
        (entry ++ u) =
      renameEntry old new entry ++ spliceFrom (column + entry.length) edits u := by
  cases found : leadingToken? (Text.trim entry) with
  | none =>
    rw [scanEntry_of_none found, renameEntry, if_neg (by simp [found])]
    exact spliceFrom_append behind u
  | some id =>
    rw [markers_scanEntry found]
    by_cases same : id = old
    · subst same
      obtain ⟨lead, rest, rfl, blank⟩ := exists_entry found
      have spelled := Identifier.spelled_of_leadingToken? found
      rw [renameEntry_entry spelled blank found, indent_entry spelled blank,
        markerEdits_of_mem id rfl, Editor.Span.ofMarker, List.singleton_append]
      simp only [List.length_append] at behind ⊢
      have front : ∀ e ∈ Edit.mk ⟨line - 1, column + lead.length,
          column + lead.length + id.length⟩ new :: edits,
          column + lead.length ≤ e.span.start ∧ e.span.start ≤ e.span.stop := by
        refine List.forall_mem_cons.mpr ⟨⟨Nat.le_refl _, Nat.le_add_right _ _⟩, fun e inside => ?_⟩
        have := behind e inside
        omega
      have back : ∀ e ∈ edits, column + lead.length + id.length + rest.length ≤ e.span.start ∧
          e.span.start ≤ e.span.stop := by
        intro e inside
        have := behind e inside
        omega
      rw [List.append_assoc, List.append_assoc, spliceFrom_append front, spliceFrom_cons,
        spliceFrom_append back]
      simp [Nat.add_assoc]
    · rw [renameEntry, if_neg (by simpa [found] using same)]
      have none : markerEdits old new [⟨kind, id, path, line, column + Text.indent entry,
          column + Text.indent entry + id.length⟩] = [] := by
        simp [markerEdits, same]
      rw [none]
      exact spliceFrom_append behind u

theorem behind_of_mem_markerEdits {e : Edit}
    (member : e ∈ markerEdits old new (scanEntries kind path line column entries).markers) :
    column ≤ e.span.start ∧ e.span.start ≤ e.span.stop := by
  simp only [markerEdits, List.mem_map, List.mem_filter] at member
  obtain ⟨m, ⟨member, _⟩, rfl⟩ := member
  obtain ⟨_, _, before, _, _, start, stop⟩ := standsIn_of_mem_scanEntries member
  simp only [Editor.Span.ofMarker, start, stop]
  omega

theorem spliceFrom_entries (entries : List Text) :
    spliceFrom column (markerEdits old new (scanEntries kind path line column entries).markers)
        (Text.join [','] entries) =
      Text.join [','] (entries.map (renameEntry old new)) := by
  induction entries generalizing column with
  | nil => rfl
  | cons entry rest ih =>
    rw [scanEntries_cons, markerEdits_append]
    have behind : ∀ e ∈ markerEdits old new
        (scanEntries kind path line (column + entry.length + 1) rest).markers,
        column + entry.length + 1 ≤ e.span.start ∧ e.span.start ≤ e.span.stop :=
      fun e member => behind_of_mem_markerEdits member
    have after : ∀ e ∈ markerEdits old new
        (scanEntries kind path line (column + entry.length + 1) rest).markers,
        column + entry.length ≤ e.span.start ∧ e.span.start ≤ e.span.stop :=
      fun e member => ⟨Nat.le_of_succ_le (behind e member).1, (behind e member).2⟩
    cases rest with
    | nil =>
      exact (congrArg _ (List.append_nil entry).symm).trans
        ((spliceFrom_entry after []).trans (List.append_nil _))
    | cons next rest =>
      rw [List.map_cons, List.map_cons, Text.join_cons_cons, Text.join_cons_cons,
        spliceFrom_entry after]
      exact congrArg _ ((spliceFrom_append behind _).trans (congrArg ([','] ++ ·) ih))

end Marker

end Traceability
