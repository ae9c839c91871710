import Mathlib.Data.List.Nodup
import Traceability.Marker.Scan
import Traceability.Proofs.Line
import Traceability.Proofs.Marker.Directive

/-!
# Lines looked at

On a line that a scan looks at it finds what the line holds by itself, and on any other line nothing.
So nothing is found on a line that a directive hides; and a line without a directive that is in no
block and not behind a directive for the next line is looked at, unless such a directive still waits
because a block follows it at once.
-/
namespace Traceability

namespace MarkerScan

/-- What a scan has found on a line. -/
def onLine (s : MarkerScan) (number : Nat) : MarkerScan :=
  ⟨s.markers.filter (·.line = number), s.findings.filter (·.line = some (number : Int))⟩

/-- Whether all that a scan has found is on a line. -/
structure LiesOn (s : MarkerScan) (number : Nat) : Prop where
  markers : ∀ m ∈ s.markers, m.line = number
  findings : ∀ f ∈ s.findings, f.line = some (number : Int)

variable {a b : MarkerScan} {number : Nat}

theorem liesOn_nothing (number : Nat) : LiesOn {} number :=
  ⟨List.forall_mem_nil _, List.forall_mem_nil _⟩

theorem LiesOn.append (first : a.LiesOn number) (second : b.LiesOn number) :
    (a.append b).LiesOn number :=
  ⟨List.forall_mem_append.mpr ⟨first.markers, second.markers⟩,
    List.forall_mem_append.mpr ⟨first.findings, second.findings⟩⟩

theorem onLine_eq_nothing_iff : a.onLine number = {} ↔
    (∀ m ∈ a.markers, m.line ≠ number) ∧ ∀ f ∈ a.findings, f.line ≠ some (number : Int) := by
  simp [onLine, List.filter_eq_nil_iff]

section Merge

variable {α : Type} {items : List α} {f : α → MarkerScan} {key : α → Nat} {x : α}
  (own : ∀ x ∈ items, (f x).LiesOn (key x))

include own

theorem onLine_merge_of_absent (absent : ∀ x ∈ items, key x ≠ number) :
    (merge (items.map f)).onLine number = {} := by
  rw [onLine_eq_nothing_iff, merge, List.flatMap_map, List.flatMap_map]
  constructor
  · intro m inside
    obtain ⟨x, member, inside⟩ := List.mem_flatMap.mp inside
    rw [(own x member).markers m inside]
    exact absent x member
  · intro g inside
    obtain ⟨x, member, inside⟩ := List.mem_flatMap.mp inside
    rw [(own x member).findings g inside]
    exact fun same => absent x member (Int.ofNat.inj (Option.some.inj same))

/-- Of scans that lie on lines of their own, each is what the whole has found on its line. -/
theorem onLine_merge (distinct : items.Pairwise fun x y => key x ≠ key y) (member : x ∈ items) :
    (merge (items.map f)).onLine (key x) = f x := by
  have distinct' : items.Pairwise fun x y => some (key x : Int) ≠ some (key y : Int) :=
    distinct.imp fun apart same => apart (Int.ofNat.inj (Option.some.inj same))
  rw [merge, onLine, List.flatMap_map, List.flatMap_map,
    Text.filter_line_eq distinct (fun x member => (own x member).markers) member,
    Text.filter_line_eq distinct' (fun x member => (own x member).findings) member]

end Merge

end MarkerScan

namespace Marker

variable {tokens lines : List Text} {path t line : Text} {l : Text × Nat} {k number : Nat}

/-! ## What is found on one line -/

theorem liesOn_scanEntry (kind : MarkerKind) (path : Text) (number column : Nat) (entry : Text) :
    (scanEntry kind path number column entry).LiesOn number := by
  unfold scanEntry
  dsimp only
  split
  · exact MarkerScan.liesOn_nothing number
  · refine ⟨List.forall_mem_singleton.mpr rfl, ?_⟩
    split
    · exact List.forall_mem_nil _
    · exact List.forall_mem_singleton.mpr rfl

theorem liesOn_scanEntries (kind : MarkerKind) (path : Text) (number column : Nat)
    (entries : List Text) : (scanEntries kind path number column entries).LiesOn number := by
  induction entries generalizing column with
  | nil => exact MarkerScan.liesOn_nothing number
  | cons entry rest ih => exact (liesOn_scanEntry kind path number column entry).append (ih _)

theorem liesOn_scanLine (tokens : List Text) (path : Text) (l : Text × Nat) :
    (scanLine tokens path l).LiesOn l.2 := by
  unfold scanLine
  dsimp only
  split
  · exact MarkerScan.liesOn_nothing l.2
  · split
    · exact MarkerScan.liesOn_nothing l.2
    · exact liesOn_scanEntries _ path l.2 _ _

theorem sublist_visibleLines (lines : List Text) :
    (visibleLines lines).Sublist (lines.zipIdx 1) := by
  rw [visibleLines]
  split
  · exact List.nil_sublist _
  · exact Hiding.sublist_keep {} _

theorem getElem?_of_mem_visibleLines (member : l ∈ visibleLines lines) :
    1 ≤ l.2 ∧ lines[l.2 - 1]? = some l.1 :=
  List.mem_zipIdx_iff_le_and_getElem?_sub.mp ((sublist_visibleLines lines).subset member)

theorem pairwise_visibleLines (lines : List Text) :
    (visibleLines lines).Pairwise fun l l' => l.2 < l'.2 :=
  (Text.pairwise_zipIdx lines 1).sublist (sublist_visibleLines lines)

theorem markers_scan (tokens : List Text) (path t : Text) : (scan tokens path t).markers =
    (visibleLines (Text.lines t)).flatMap fun l => (scanLine tokens path l).markers := by
  rw [scan, MarkerScan.merge, List.flatMap_map]

theorem onLine_scan (tokens : List Text) (path : Text)
    (member : l ∈ visibleLines (Text.lines t)) :
    (scan tokens path t).onLine l.2 = scanLine tokens path l :=
  MarkerScan.onLine_merge (fun l _ => liesOn_scanLine tokens path l)
    ((pairwise_visibleLines _).imp Nat.ne_of_lt) member

theorem onLine_scan_of_not_shown (tokens : List Text) (path : Text)
    (hidden : ∀ line, (line, number) ∉ visibleLines (Text.lines t)) :
    (scan tokens path t).onLine number = {} := by
  refine MarkerScan.onLine_merge_of_absent (fun l _ => liesOn_scanLine tokens path l) ?_
  rintro ⟨line, _⟩ member rfl
  exact hidden line member

/-! ## Lines that are hidden -/

/-- Whether a line announces that the next one is left out, told from the line in front of it. -/
def Effective (lines : List Text) : Nat → Prop
  | 0 => Carries lines .nextLine 0 ∧ ¬ Inside lines 0 ∧ ¬ Carries lines .blockStart 0
  | k + 1 => (Carries lines .nextLine (k + 1) ∧ ¬ Inside lines (k + 1) ∧
      ¬ Carries lines .blockStart (k + 1)) ∧ ¬ Effective lines k

instance decidableEffective : (k : Nat) → Decidable (Effective lines k)
  | 0 => inferInstanceAs (Decidable (_ ∧ _ ∧ _))
  | k + 1 =>
    have := decidableEffective k
    inferInstanceAs (Decidable ((_ ∧ _ ∧ _) ∧ ¬ Effective lines k))

/-- Whether no start of a block comes right after a directive for the next line. -/
def Apart (lines : List Text) : Prop :=
  ∀ k, Carries lines .nextLine k → ¬ Carries lines .blockStart (k + 1)

instance : Decidable (Apart lines) :=
  decidable_of_iff (∀ k < lines.length,
      Carries lines .nextLine k → ¬ Carries lines .blockStart (k + 1))
    ⟨fun few k carried => few k (lt_of_carries carried) carried, fun apart k _ => apart k⟩

theorem not_covered_iff : ¬ Covered lines k ↔
    ¬ Inside lines k ∧ ¬ Carries lines .blockStart k := by
  rw [Covered, Opens]
  tauto

/-- Where no block comes right after a directive for the next line, none keeps one waiting. -/
theorem Apart.not_covered (apart : Apart lines) (awaited : Awaited lines k) :
    ¬ Covered lines k := by
  induction k with
  | zero => exact absurd awaited (mt awaited_iff.mp not_since_zero)
  | succ k ih =>
    rcases awaited_succ.mp awaited with ⟨carried, outside, _⟩ | ⟨awaited, covered⟩
    · rw [not_covered_iff] at outside ⊢
      refine ⟨fun inside => ?_, apart k carried⟩
      rcases inside_succ.mp inside with opens | ⟨inside, _⟩
      · exact outside.2 opens.1
      · exact outside.1 inside
    · exact absurd covered (ih awaited)

theorem Apart.awaited_succ_iff (apart : Apart lines) :
    Awaited lines (k + 1) ↔ Announces lines k :=
  awaited_succ.trans (or_iff_left fun ⟨awaited, covered⟩ => apart.not_covered awaited covered)

theorem Apart.effective_iff (apart : Apart lines) : Effective lines k ↔ Announces lines k := by
  rw [Announces, not_covered_iff]
  induction k with
  | zero => simp [Effective, awaited_iff, not_since_zero]
  | succ k ih => rw [Effective, apart.awaited_succ_iff, Announces, not_covered_iff, ih, and_assoc]

/-- What hides a line: a directive for the file, a block that covers the line, its own directive, or
one in front of it for the next line. -/
inductive Ignored (lines : List Text) (k : Nat) : Prop
  | file {j : Nat} (carried : Carries lines .file j)
  | block {s : Nat} (opens : Opens lines s) (behind : s ≤ k)
      (unended : ∀ e, s < e → e < k → ¬ Carries lines .blockEnd e)
  | own {d : Directive} (outside : ¬ Inside lines k)
      (known : d ∈ [Directive.line, .nextLine, .blockStart]) (carried : Carries lines d k)
  | next {j : Nat} (apart : Apart lines) (effective : Effective lines j) (behind : k = j + 1)

theorem not_mem_visibleLines (ignored : Ignored lines k) (line : Text) :
    (line, k + 1) ∉ visibleLines lines := by
  intro member
  obtain ⟨_, unhidden, outside, unawaited, plain, own⟩ := mem_visibleLines_iff.mp member
  cases ignored with
  | file carried => exact unhidden _ carried
  | block opens behind unended => exact outside (covered_of_opens opens behind unended)
  | own free known carried =>
    simp only [List.mem_cons, List.not_mem_nil, or_false] at known
    rcases known with rfl | rfl | rfl
    · exact own carried
    · exact plain carried
    · exact outside (.inl ⟨carried, free⟩)
  | next apart effective behind =>
    subst behind
    exact unawaited (apart.awaited_succ_iff.mpr (apart.effective_iff.mp effective))

/-- Nothing is found on a line that is hidden: no marker, and no unexpected text behind one. -/
theorem scan_ignored (ignored : Ignored (Text.lines t) k) (tokens : List Text) (path : Text) :
    (∀ m ∈ (scan tokens path t).markers, m.line ≠ k + 1) ∧
      ∀ f ∈ (scan tokens path t).findings, f.line ≠ some ((k + 1 : Nat) : Int) :=
  MarkerScan.onLine_eq_nothing_iff.mp
    (onLine_scan_of_not_shown tokens path (not_mem_visibleLines ignored))

/-- A directive on the line that another one leaves out has no effect itself. -/
def twiceDirected : List Text :=
  ["# @spec-ignore-next-line", "# @spec-impl: A-1 @spec-ignore-next-line", "# @spec-impl: A-2"]

theorem scan_ignored_twice_directed : Ignored twiceDirected 1 ∧
    let s := scan defaultTokens "a.py" (Text.join ['\n'] twiceDirected)
    (∀ m ∈ s.markers, m.line ≠ 2) ∧ (∀ f ∈ s.findings, f.line ≠ some 2) ∧
      s.markers.map (·.id) = ["A-2"] := by
  have lines : Text.lines (Text.join ['\n'] twiceDirected) = twiceDirected := by decide +kernel
  have effective : Effective twiceDirected 0 := by decide +kernel
  have ignored : Ignored twiceDirected 1 := .next (by decide +kernel) effective rfl
  obtain ⟨markers, findings⟩ := scan_ignored (lines.symm ▸ ignored) defaultTokens "a.py"
  exact ⟨ignored, markers, findings, by decide +kernel⟩

/-! ## Lines without a directive -/

/-- Whether a line has no directive, lies in no block, and is not right behind a directive for the next
line, in a file that is not hidden. -/
structure Bare (lines : List Text) (k : Nat) (line : Text) : Prop where
  here : lines[k]? = some line
  unhidden : ∀ j, ¬ Carries lines .file j
  undirected : ∀ d : Directive, d.isOn line = false
  outside : ¬ Covered lines k
  unpreceded : ∀ j, k = j + 1 → ¬ Carries lines .nextLine j

/-- Whether a directive for the next line has been kept waiting up to a line: it is followed by
blocks, and by nothing else. -/
def Delayed (lines : List Text) (j k : Nat) : Prop :=
  Announces lines j ∧ j + 1 < k ∧ ∀ i, j < i → i < k → Covered lines i

theorem Bare.awaited_iff (bare : Bare lines k line) :
    Awaited lines k ↔ ∃ j, Delayed lines j k := by
  rw [Marker.awaited_iff]
  constructor
  · rintro ⟨j, before, announces, covered⟩
    rcases Nat.eq_or_lt_of_le before with next | before
    · exact absurd announces.1 (bare.unpreceded j next.symm)
    · exact ⟨j, announces, before, covered⟩
  · rintro ⟨j, announces, before, covered⟩
    exact ⟨j, Nat.lt_of_succ_lt before, announces, covered⟩

theorem Bare.shown_iff (bare : Bare lines k line) :
    Shown lines k ↔ ∀ j, ¬ Delayed lines j k := by
  have free (d : Directive) : ¬ Carries lines d k := fun carried =>
    absurd ((carries_iff bare.here).mp carried) (by simp [bare.undirected d])
  rw [← not_exists, ← bare.awaited_iff]
  exact ⟨Shown.unawaited, fun unawaited => ⟨bare.outside, unawaited, free _, free _⟩⟩

theorem Apart.not_delayed (apart : Apart lines) (j : Nat) : ¬ Delayed lines j k := by
  rintro ⟨announces, before, covered⟩
  exact apart.not_covered (apart.awaited_succ_iff.mpr announces)
    (covered (j + 1) (Nat.lt_succ_self j) before)

/-- A line that no directive speaks of is looked at, unless a directive in front of a block is still
waiting; and where it is looked at, all that it holds is found. -/
theorem scan_bare (bare : Bare lines k line) :
    ((line, k + 1) ∈ visibleLines lines ↔ ∀ j, ¬ Delayed lines j k) ∧
      (Apart lines → (line, k + 1) ∈ visibleLines lines) ∧
      ∀ tokens path t, Text.lines t = lines → (line, k + 1) ∈ visibleLines lines →
        (scan tokens path t).onLine (k + 1) = scanLine tokens path (line, k + 1) := by
  have kept : (line, k + 1) ∈ visibleLines lines ↔ ∀ j, ¬ Delayed lines j k := by
    simp [mem_visibleLines_iff, bare.here, bare.unhidden, bare.shown_iff]
  refine ⟨kept, fun apart => kept.mpr apart.not_delayed, ?_⟩
  rintro tokens path t rfl member
  exact onLine_scan tokens path member

/-- A directive for the next line, a line, and a block. -/
def separatedLines : List Text :=
  ["# @spec-ignore-next-line", "x = 1", "# @spec-ignore-start", "# @spec-ignore-end",
    "# @spec-impl: X-1"]

theorem scan_bare_separated : Bare separatedLines 4 "# @spec-impl: X-1" ∧
    (scan defaultTokens "a.py" (Text.join ['\n'] separatedLines)).onLine 5 =
      ⟨[⟨.implementation, "X-1", "a.py", 5, 14, 17⟩], []⟩ := by
  have lines : Text.lines (Text.join ['\n'] separatedLines) = separatedLines := by decide +kernel
  have bare : Bare separatedLines 4 "# @spec-impl: X-1" :=
    { here := rfl
      unhidden := by decide +kernel
      undirected := fun d => by cases d <;> decide +kernel
      outside := by decide +kernel
      unpreceded := by rintro _ ⟨⟩; decide +kernel }
  obtain ⟨_, kept, found⟩ := scan_bare bare
  exact ⟨bare, (found defaultTokens "a.py" _ lines (kept (by decide +kernel))).trans
    (by decide +kernel)⟩

/-- A directive for the next line, and a block right behind it. -/
def adjacentLines : List Text :=
  ["# @spec-ignore-next-line", "# @spec-ignore-start", "# @spec-ignore-end", "# @spec-impl: X-1"]

/-- The directive is kept waiting by the block, and hides the line behind it. -/
theorem lost_behind_block : Bare adjacentLines 3 "# @spec-impl: X-1" ∧
    (("# @spec-impl: X-1" : Text), 4) ∉ visibleLines adjacentLines ∧
    scan defaultTokens "a.py" (Text.join ['\n'] adjacentLines) = {} := by
  refine ⟨⟨rfl, by decide +kernel, fun d => by cases d <;> decide +kernel, by decide +kernel, ?_⟩,
    by decide +kernel, by decide +kernel⟩
  rintro _ ⟨⟩
  decide +kernel

end Marker

end Traceability
