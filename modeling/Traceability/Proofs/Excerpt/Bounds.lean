import Mathlib.Data.List.Induction
import Mathlib.Order.Basic
import Traceability.Excerpt.Bounds
import Traceability.Proofs.Line

/-!
# Bounds of excerpts lie in their file

The bounds of an excerpt around a line are bounds of lines that the file has, for every file with a
line and every line number, also one behind the end of the file. The lines around a line of code
always hold that line. The section around a line of a spec loses only final blank lines, so it holds
the line unless that one is blank.
-/
namespace Traceability

/-! ## Numbered lines -/

section Numbered

variable {α : Type} {xs : List α} {a : α} {i n : Nat}

theorem take_zipIdx (xs : List α) (start n : Nat) :
    (xs.zipIdx start).take n = (xs.zipIdx start).filter fun x => x.2 < start + n := by
  induction xs generalizing start n with
  | nil => simp
  | cons a xs ih =>
    cases n with
    | zero =>
      refine (List.filter_eq_nil_iff.mpr fun x member => ?_).symm
      simpa using List.le_snd_of_mem_zipIdx member
    | succ n =>
      rw [List.zipIdx_cons, List.take_succ_cons, ih, List.filter_cons_of_pos (by simp),
        Nat.add_assoc, Nat.add_comm 1 n]

theorem drop_zipIdx (xs : List α) (start n : Nat) :
    (xs.zipIdx start).drop n = (xs.zipIdx start).filter fun x => start + n ≤ x.2 := by
  induction xs generalizing start n with
  | nil => simp
  | cons a xs ih =>
    cases n with
    | zero =>
      refine (List.filter_eq_self.mpr fun x member => ?_).symm
      simpa using List.le_snd_of_mem_zipIdx member
    | succ n =>
      rw [List.zipIdx_cons, List.drop_succ_cons, ih, List.filter_cons_of_neg (by simp),
        Nat.add_assoc, Nat.add_comm 1 n]

theorem mem_take_zipIdx_iff : (a, i) ∈ xs.zipIdx.take n ↔ xs[i]? = some a ∧ i < n := by
  rw [take_zipIdx, List.mem_filter, List.mk_mem_zipIdx_iff_getElem?, Nat.zero_add, decide_eq_true_eq]

theorem mem_drop_zipIdx_iff : (a, i) ∈ xs.zipIdx.drop n ↔ xs[i]? = some a ∧ n ≤ i := by
  rw [drop_zipIdx, List.mem_filter, List.mk_mem_zipIdx_iff_getElem?, Nat.zero_add, decide_eq_true_eq]

/-- What is found first from the end has nothing behind it that would be found. -/
theorem find?_reverse_zipIdx {p : α × Nat → Bool} {x : α × Nat}
    (found : (xs.zipIdx.take n).reverse.find? p = some x) :
    (xs[x.2]? = some x.1 ∧ x.2 < n) ∧ p x = true ∧
      ∀ i a, x.2 < i → i < n → xs[i]? = some a → p (a, i) = false := by
  refine ⟨mem_take_zipIdx_iff.mp (List.mem_reverse.mp (List.mem_of_find?_eq_some found)),
    List.find?_some found, fun i a behind inside known => ?_⟩
  obtain ⟨-, later, earlier, split, none⟩ := List.find?_eq_some_iff_append.mp found
  have ordered : (xs.zipIdx.take n).Pairwise fun y z => y.2 < z.2 :=
    (Text.pairwise_zipIdx xs 0).sublist (List.take_sublist _ _)
  have member : (a, i) ∈ later ++ x :: earlier := by
    rw [← split, List.mem_reverse]
    exact mem_take_zipIdx_iff.mpr ⟨known, inside⟩
  rw [← List.reverse_reverse (xs.zipIdx.take n), split, List.pairwise_reverse,
    List.pairwise_append] at ordered
  obtain later | rfl | earlier : (a, i) ∈ later ∨ (a, i) = x ∨ (a, i) ∈ earlier := by
    simpa using member
  · simpa using none _ later
  · exact absurd behind (Nat.lt_irrefl _)
  · exact absurd behind (Nat.lt_asymm ((List.pairwise_cons.mp ordered.2.1).1 _ earlier))

end Numbered

namespace LineSpan

open Outline

variable {lines block : List Text} {t : Text} {here i start level : Nat}

/-- Bounds of some of the lines of a file that has `count` of them. -/
structure Within (s : LineSpan) (count : Nat) : Prop where
  first_nonneg : 0 ≤ s.first
  first_le_last : s.first ≤ s.last
  last_lt : s.last < count

def Holds (s : LineSpan) (here : Nat) : Prop := s.first ≤ here ∧ here ≤ s.last

theorem anchor_lt (nonempty : lines ≠ []) (line : Nat) :
    anchor lines.length line < lines.length := by
  have := List.length_pos_iff.mpr nonempty
  rw [anchor]
  omega

/-! ## Sections -/

theorem length_headingLevels (inside : Bool) (lines : List Text) :
    (headingLevels inside lines).length = lines.length := by
  induction lines generalizing inside with
  | nil => rfl
  | cons line rest ih =>
    rw [headingLevels]
    split
    · simp [ih]
    · split <;> simp [ih]

theorem filledLength_le (lines : List Text) : filledLength lines ≤ lines.length := by
  have := (List.dropWhile_suffix (l := lines.reverse) Text.allBlank).length_le
  rwa [List.length_reverse] at this

theorem filledLength_concat (lines : List Text) (last : Text) : filledLength (lines ++ [last]) =
    if Text.allBlank last = true then filledLength lines else lines.length + 1 := by
  rw [filledLength, List.reverse_append, List.reverse_singleton, List.singleton_append,
    List.dropWhile_cons]
  split
  · rfl
  · rw [List.length_cons, List.length_reverse]

/-- No filled line is lost with the final blank lines. -/
theorem lt_filledLength (found : lines[i]? = some t) (filled : Text.allBlank t = false) :
    i < filledLength lines := by
  induction lines using List.reverseRecOn with
  | nil => simp at found
  | append_singleton lines last ih =>
    obtain inside | ⟨rfl, rfl⟩ : i < lines.length ∨ i = lines.length ∧ last = t := by grind
    · rw [List.getElem?_append_left inside] at found
      rw [filledLength_concat]
      split
      · exact ih found
      · exact Nat.lt_succ_of_lt inside
    · rw [filledLength_concat, if_neg (by simp [filled])]
      exact Nat.lt_succ_self _

/-- Without the final blank lines, a filled line is the last one. -/
theorem exists_filled_of_filledLength {n : Nat} (kept : filledLength lines = n + 1) :
    ∃ t, lines[n]? = some t ∧ Text.allBlank t = false := by
  induction lines using List.reverseRecOn with
  | nil => cases kept
  | append_singleton lines last ih =>
    rw [filledLength_concat] at kept
    split at kept
    · obtain ⟨t, found, filled⟩ := ih kept
      have inside := (List.getElem?_eq_some_iff.mp found).1
      exact ⟨t, by rwa [List.getElem?_append_left inside], filled⟩
    · next filled =>
      cases kept
      exact ⟨last, by simp, eq_false_of_ne_true filled⟩

/-- The nearest heading at a line or above, or the line itself where none stands above. -/
def openedAt (lines : List Text) (here : Nat) : Nat × Nat :=
  (((headingLevels false lines).zipIdx.take (here + 1)).reverse.find?
    fun (level, _) => level ≠ 0).getD (6, here)

/-- The next heading of a rank, or the end of the file. -/
def closedAt (lines : List Text) (level start : Nat) : Nat :=
  (((headingLevels false lines).zipIdx.drop (start + 1)).find?
    fun (l, _) => l ≠ 0 && l ≤ level).elim lines.length Prod.snd

/-- Behind the nearest heading, no other one stands up to the line. -/
theorem openedAt_nearest (opened : openedAt lines here = (level, start)) : start ≤ here ∧
    ∀ i l, start < i → i ≤ here → (headingLevels false lines)[i]? = some l → l = 0 := by
  rw [openedAt] at opened
  cases found : ((headingLevels false lines).zipIdx.take (here + 1)).reverse.find?
      fun (level, _) => level ≠ 0 with
  | none =>
    rw [found] at opened
    cases opened
    exact ⟨Nat.le_refl _, fun i l below above _ => absurd below (Nat.not_lt_of_le above)⟩
  | some x =>
    rw [found] at opened
    cases opened
    obtain ⟨⟨-, above⟩, -, nearest⟩ := find?_reverse_zipIdx found
    refine ⟨Nat.le_of_lt_succ above, fun i l behind upTo known => ?_⟩
    simpa using nearest i l behind (Nat.lt_succ_of_le upTo) known

theorem closedAt_le (lines : List Text) (level start : Nat) :
    closedAt lines level start ≤ lines.length := by
  rw [closedAt]
  cases found : ((headingLevels false lines).zipIdx.drop (start + 1)).find?
      fun (l, _) => l ≠ 0 && l ≤ level with
  | none => exact Nat.le_refl _
  | some x =>
    obtain ⟨known, -⟩ := mem_drop_zipIdx_iff.mp (List.mem_of_find?_eq_some found)
    have := (List.getElem?_eq_some_iff.mp known).1
    rw [length_headingLevels] at this
    exact Nat.le_of_lt this

/-- The section of a line is not closed before the line. -/
theorem lt_closedAt (opened : openedAt lines here = (level, start)) (inside : here < lines.length) :
    here < closedAt lines level start := by
  rw [closedAt]
  cases found : ((headingLevels false lines).zipIdx.drop (start + 1)).find?
      fun (l, _) => l ≠ 0 && l ≤ level with
  | none => exact inside
  | some x =>
    obtain ⟨known, behind⟩ := mem_drop_zipIdx_iff.mp (List.mem_of_find?_eq_some found)
    have heading : x.1 ≠ 0 ∧ x.1 ≤ level := by simpa using List.find?_some found
    refine Nat.lt_of_not_le fun above => heading.1 ?_
    exact (openedAt_nearest opened).2 x.2 x.1 behind above known

theorem ofSection_eq (nonempty : lines ≠ []) {line : Nat}
    (opened : openedAt lines (anchor lines.length line) = (level, start)) :
    ofSection lines line = ⟨start, start + filledLength
      ((lines.take (closedAt lines level start)).drop (start + 1))⟩ := by
  rw [openedAt] at opened
  rw [ofSection, if_neg nonempty]
  simp only [opened]
  rfl

/-- A section opens at a line or above and closes behind it, and ends with a filled line or where it
opens. -/
theorem exists_ofSection (nonempty : lines ≠ []) (line : Nat) : ∃ start stop : Nat,
    start ≤ anchor lines.length line ∧ anchor lines.length line < stop ∧ stop ≤ lines.length ∧
      ofSection lines line =
        ⟨start, start + filledLength ((lines.take stop).drop (start + 1))⟩ := by
  cases opened : openedAt lines (anchor lines.length line) with
  | mk level start =>
    exact ⟨start, closedAt lines level start, (openedAt_nearest opened).1,
      lt_closedAt opened (anchor_lt nonempty line), closedAt_le lines level start,
      ofSection_eq nonempty opened⟩

theorem within_ofSection (nonempty : lines ≠ []) (line : Nat) :
    (ofSection lines line).Within lines.length := by
  obtain ⟨start, stop, above, below, inside, eq⟩ := exists_ofSection nonempty line
  have filled := filledLength_le ((lines.take stop).drop (start + 1))
  rw [List.length_drop, List.length_take] at filled
  rw [eq]
  refine ⟨?_, ?_, ?_⟩ <;> dsimp only <;> omega

theorem holds_ofSection (nonempty : lines ≠ []) {line : Nat}
    (found : lines[anchor lines.length line]? = some t) (filled : Text.allBlank t = false) :
    (ofSection lines line).Holds (anchor lines.length line) := by
  obtain ⟨start, stop, above, below, inside, eq⟩ := exists_ofSection nonempty line
  rw [eq]
  generalize anchor lines.length line = here at *
  refine ⟨Int.ofNat_le.mpr above, ?_⟩
  obtain rfl | behind := Nat.eq_or_lt_of_le above
  · dsimp only
    omega
  · have kept : ((lines.take stop).drop (start + 1))[here - (start + 1)]? = some t := by
      rw [List.getElem?_drop, List.getElem?_take, Nat.add_sub_cancel' behind, if_pos below, found]
    have := lt_filledLength kept filled
    dsimp only
    omega

/-! ## Blocks of code -/

theorem bracedEnd?_lt {state : Int × Bool} {index stop : Nat}
    (closed : bracedEnd? state index block = some stop) : stop < index + block.length := by
  induction block generalizing state index with
  | nil => cases closed
  | cons line rest ih =>
    rw [bracedEnd?] at closed
    split at closed
    · cases closed
      simp
    · have := ih closed
      rw [List.length_cons]
      omega

theorem indentedEnd_lt {indent last index bound : Nat} (before : last < bound)
    (after : index + block.length ≤ bound) : indentedEnd indent last index block < bound := by
  induction block generalizing last index with
  | nil => exact before
  | cons line rest ih =>
    rw [List.length_cons] at after
    rw [indentedEnd]
    split
    · exact ih before (by omega)
    · split
      · exact before
      · exact ih (by omega) (by omega)

theorem blockEnd?_lt {size : Nat} (found : blockEnd? block = some size) : size < block.length := by
  rw [blockEnd?] at found
  split at found
  · cases found
  · next header opened =>
    obtain ⟨inside, -⟩ := List.findIdx?_eq_some_iff_getElem.mp opened
    split at found
    · simpa using bracedEnd?_lt found
    · cases found
      refine indentedEnd_lt inside ?_
      rw [List.length_drop]
      omega

theorem openerAbove?_le {opener : Nat} (found : openerAbove? lines here = some opener) :
    opener ≤ here := by
  rw [openerAbove?, Option.map_eq_some_iff] at found
  obtain ⟨x, found, rfl⟩ := found
  have member := List.mem_of_mem_drop (List.mem_reverse.mp (List.mem_of_find?_eq_some found))
  have known := (List.getElem?_eq_some_iff.mp (List.mem_zipIdx_iff_getElem?.mp member)).1
  rw [List.length_take] at known
  omega

theorem decoratorsAbove_le (lines : List Text) (index : Nat) :
    decoratorsAbove lines index ≤ index := by
  have := (List.takeWhile_prefix isDecorator (l := (lines.take index).reverse)).length_le
  rw [List.length_reverse, List.length_take] at this
  exact Nat.le_trans this (Nat.min_le_left _ _)

/-- A block is one of lines of the file and reaches from above a line down to it. -/
theorem within_blockAround? {s : LineSpan} (found : blockAround? lines here = some s) :
    s.Within lines.length ∧ s.Holds here := by
  rw [blockAround?] at found
  obtain ⟨opener, above, found⟩ := Option.bind_eq_some_iff.mp found
  obtain ⟨size, ended, found⟩ := Option.bind_eq_some_iff.mp found
  split at found
  · cases found
  · next reaches =>
    cases found
    have upTo := openerAbove?_le above
    have decorated := decoratorsAbove_le lines opener
    have inside := blockEnd?_lt ended
    rw [List.length_take, List.length_drop] at inside
    refine ⟨⟨?_, ?_, ?_⟩, ?_, ?_⟩ <;> dsimp only <;> omega

theorem ofCode_inside (nonempty : lines ≠ []) (line : Nat) {before after : Int} (back : 0 ≤ before)
    (ahead : 0 ≤ after) : (ofCode lines line before after).Within lines.length ∧
      (ofCode lines line before after).Holds (anchor lines.length line) := by
  rw [ofCode, if_neg nonempty]
  have inside := anchor_lt nonempty line
  dsimp only
  cases found : blockAround? lines (anchor lines.length line) with
  | some s => exact within_blockAround? found
  | none =>
    rw [Option.getD_none]
    refine ⟨⟨?_, ?_, ?_⟩, ?_, ?_⟩ <;> dsimp only <;> omega

end LineSpan

end Traceability
