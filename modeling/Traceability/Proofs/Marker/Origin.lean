import Traceability.Proofs.Marker.Visible

/-!
# Where markers come from

All markers of a line are of the kind that its token announces, and carry the path of the text. So no
two markers of one place are of different kinds.
-/
namespace Traceability.Marker

variable {tokens entries : List Text} {kind : MarkerKind} {path entry line text : Text}
  {number column : Nat} {m m' : Marker}

/-- Whether a marker is of a kind and in a file. -/
structure MadeIn (kind : MarkerKind) (path : Text) (m : Marker) : Prop where
  kind_eq : m.kind = kind
  path_eq : m.path = path

theorem madeIn_of_mem_scanEntry
    (member : m ∈ (scanEntry kind path number column entry).markers) : m.MadeIn kind path := by
  unfold scanEntry at member
  dsimp only at member
  split at member
  · cases member
  · rw [List.mem_singleton.mp member]
    exact ⟨rfl, rfl⟩

theorem madeIn_of_mem_scanEntries
    (member : m ∈ (scanEntries kind path number column entries).markers) : m.MadeIn kind path := by
  induction entries generalizing column with
  | nil => cases member
  | cons entry rest ih =>
    rcases List.mem_append.mp member with first | later
    · exact madeIn_of_mem_scanEntry first
    · exact ih later

/-- The kind that a line announces, if it is a marker line. -/
def kindOfLine? (tokens : List Text) (line : Text) : Option MarkerKind :=
  (entriesOf? tokens line).bind fun (token, _, _) => kindOfToken? tokens token

theorem madeIn_of_mem_scanLine (member : m ∈ (scanLine tokens path (line, number)).markers) :
    ∃ kind, kindOfLine? tokens line = some kind ∧ m.MadeIn kind path := by
  unfold scanLine at member
  dsimp only at member
  split at member
  · cases member
  · next token column entries found =>
    split at member
    · cases member
    · next kind known =>
      refine ⟨kind, ?_, madeIn_of_mem_scanEntries member⟩
      rw [kindOfLine?, found]
      exact known

theorem madeIn_of_mem_scan (member : m ∈ (scan tokens path text).markers) :
    ∃ line kind, (Text.lines text)[m.line - 1]? = some line ∧
      kindOfLine? tokens line = some kind ∧ m.MadeIn kind path := by
  rw [markers_scan] at member
  obtain ⟨⟨line, number⟩, visible, inside⟩ := List.mem_flatMap.mp member
  obtain ⟨kind, announced, made⟩ := madeIn_of_mem_scanLine inside
  obtain rfl : m.line = number := (liesOn_scanLine tokens path (line, number)).markers m inside
  exact ⟨line, kind, (getElem?_of_mem_visibleLines visible).2, announced, made⟩

theorem path_of_mem_scan (member : m ∈ (scan tokens path text).markers) : m.path = path := by
  obtain ⟨_, _, _, _, made⟩ := madeIn_of_mem_scan member
  exact made.path_eq

/-- The markers of a line are all of one kind. -/
theorem kind_eq_of_mem_scan (member : m ∈ (scan tokens path text).markers)
    (member' : m' ∈ (scan tokens path text).markers) (same : m.line = m'.line) :
    m.kind = m'.kind := by
  obtain ⟨line, kind, here, announced, made⟩ := madeIn_of_mem_scan member
  obtain ⟨line', kind', here', announced', made'⟩ := madeIn_of_mem_scan member'
  rw [same, here'] at here
  cases here
  rw [announced'] at announced
  cases announced
  rw [made.kind_eq, made'.kind_eq]

/-- In files that are scanned with the same tokens, what stands at one place is of one kind. -/
theorem kind_eq_of_mem_merge {paths : List Text} {content : Text → Text}
    (member : m ∈ (MarkerScan.merge (paths.map fun p => scan tokens p (content p))).markers)
    (member' : m' ∈ (MarkerScan.merge (paths.map fun p => scan tokens p (content p))).markers)
    (same : m.location = m'.location) : m.kind = m'.kind := by
  have scanned {m : Marker}
      (member : m ∈ (MarkerScan.merge (paths.map fun p => scan tokens p (content p))).markers) :
      m ∈ (scan tokens m.path (content m.path)).markers := by
    obtain ⟨s, among, inside⟩ := List.mem_flatMap.mp member
    obtain ⟨p, _, rfl⟩ := List.mem_map.mp among
    obtain rfl := path_of_mem_scan inside
    exact inside
  have paths_eq : m.path = m'.path := congrArg Location.path same
  have here := scanned member
  rw [paths_eq] at here
  exact kind_eq_of_mem_scan here (scanned member') (congrArg Location.line same)

end Traceability.Marker
