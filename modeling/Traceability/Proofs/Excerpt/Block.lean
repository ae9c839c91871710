import Mathlib.Data.List.TakeWhile
import Traceability.Proofs.Excerpt.Bounds

/-!
# Blocks of code by their indentation

A line that opens a block and ends with a colon has the run of lines under it that are blank or
indented deeper; the block ends at the last filled line of the run. A brace in the line itself makes
the block one in braces instead, which ends where as many are closed as opened, whatever the
indentation. The excerpt around a line of the block is the block with the decorators above it.
-/
namespace Traceability

namespace LineSpan

variable {lines rest : List Text} {header t : Text} {opener here i n : Nat}

/-! ## The run of lines under a header -/

/-- Whether a line goes on with the block under a header: it is blank or indented deeper. -/
def continues (header line : Text) : Bool :=
  Text.allBlank line || Text.indent header < Text.indent line

theorem filledLength_cons_blank {line : Text} (blank : Text.allBlank line = true)
    (rest : List Text) : filledLength (line :: rest) =
      if filledLength rest = 0 then 0 else filledLength rest + 1 := by
  rw [filledLength, List.reverse_cons, List.dropWhile_append, filledLength]
  cases rest.reverse.dropWhile Text.allBlank <;> simp [blank]

theorem filledLength_cons_filled {line : Text} (filled : ¬ Text.allBlank line = true)
    (rest : List Text) : filledLength (line :: rest) = filledLength rest + 1 := by
  rw [filledLength, List.reverse_cons, List.dropWhile_append, filledLength]
  cases rest.reverse.dropWhile Text.allBlank <;> simp [filled]

/-- The end of a block is the last filled line of the run that goes on with it. -/
theorem indentedEnd_eq (header : Text) (last index : Nat) (rest : List Text) :
    indentedEnd (Text.indent header) last index rest =
      if filledLength (rest.takeWhile (continues header)) = 0 then last
      else index + filledLength (rest.takeWhile (continues header)) - 1 := by
  induction rest generalizing last index with
  | nil => rfl
  | cons line rest ih =>
    rw [indentedEnd, List.takeWhile_cons]
    by_cases blank : Text.allBlank line = true
    · have goes : continues header line = true := by simp [continues, blank]
      rw [if_pos blank, if_pos goes, ih, filledLength_cons_blank blank]
      split
      · rw [if_pos rfl]
      · rw [if_neg (Nat.succ_ne_zero _)]
        omega
    · rw [if_neg blank]
      by_cases shallow : Text.indent line ≤ Text.indent header
      · have ends : ¬ continues header line = true := by simp [continues, blank, shallow]
        rw [if_pos shallow, if_neg ends]
        rfl
      · have goes : continues header line = true := by simpa [continues, blank] using shallow
        rw [if_neg shallow, if_pos goes, ih, filledLength_cons_filled blank,
          if_neg (Nat.succ_ne_zero _)]
        split <;> omega

/-- Whether a block by indentation ends at a line: `stop` is the first line behind the opening one, or
the first out of reach, that does not go on with the block, and `last` is the last filled line before
it. -/
structure EndsIndented (lines : List Text) (header : Text) (opener last : Nat) : Prop where
  opener_le : opener ≤ last
  filled : last ≠ opener → ∃ line, lines[last]? = some line ∧ Text.allBlank line = false
  run : ∃ stop, last < stop ∧ stop ≤ opener + blockReach ∧
    (∀ i line, opener < i → i < stop → lines[i]? = some line → continues header line = true) ∧
    (∀ i line, last < i → i < stop → lines[i]? = some line → Text.allBlank line = true) ∧
    (stop = opener + blockReach ∨ ∀ line, lines[stop]? = some line → continues header line = false)

/-- The lines from an opening one on, as far as a block may reach. -/
def window (lines : List Text) (opener : Nat) : List Text := (lines.drop opener).take blockReach

theorem window_eq (opens : lines[opener]? = some header) :
    window lines opener = header :: (lines.drop (opener + 1)).take (blockReach - 1) := by
  obtain ⟨inside, rfl⟩ := List.getElem?_eq_some_iff.mp opens
  rw [window, List.drop_eq_getElem_cons inside, blockReach, List.take_succ_cons]

theorem blockEnd?_indented (colon : endsWithColon header = true) (plain : '\x7b' ∉ header)
    (rest : List Text) : blockEnd? (header :: rest) =
      some (filledLength (rest.takeWhile (continues header))) := by
  have first : (header :: rest).findIdx? (fun line => line.elem '\x7b' || endsWithColon line) =
      some 0 := by simp [List.findIdx?_cons, colon]
  rw [blockEnd?, first]
  have unbraced : ¬ header.elem '\x7b' = true := by simpa using plain
  simp only [List.getElem?_cons_zero, Option.getD_some, if_neg unbraced, List.head?_cons,
    List.drop_succ_cons, List.drop_zero, indentedEnd_eq]
  split <;> simp_all

/-- The lines behind an opening one that go on with its block, as far as a block may reach. -/
def runBehind (lines : List Text) (header : Text) (opener : Nat) : List Text :=
  ((lines.drop (opener + 1)).take (blockReach - 1)).takeWhile (continues header)

theorem length_runBehind_le (lines : List Text) (header : Text) (opener : Nat) :
    (runBehind lines header opener).length ≤ blockReach - 1 :=
  Nat.le_trans (List.takeWhile_prefix _).length_le (List.length_take_le _ _)

theorem getElem?_runBehind (inside : i < (runBehind lines header opener).length) :
    (runBehind lines header opener)[i]? = lines[opener + 1 + i]? := by
  have reach := length_runBehind_le lines header opener
  have front := List.prefix_iff_eq_take.mp (List.takeWhile_prefix (continues header)
    (l := (lines.drop (opener + 1)).take (blockReach - 1)))
  rw [runBehind] at inside reach ⊢
  rw [front, List.getElem?_take_of_lt inside, List.getElem?_take_of_lt (by omega),
    List.getElem?_drop]

/-- Behind the run the block does not go on. -/
theorem not_continues_behind (near : (runBehind lines header opener).length < blockReach - 1)
    (found : lines[opener + 1 + (runBehind lines header opener).length]? = some t) :
    continues header t = false := by
  have parts := List.takeWhile_append_dropWhile (p := continues header)
    (l := (lines.drop (opener + 1)).take (blockReach - 1))
  have ended := List.head?_dropWhile_not (continues header)
    ((lines.drop (opener + 1)).take (blockReach - 1))
  rw [← List.getElem?_drop, ← List.getElem?_take_of_lt near, ← parts, runBehind,
    List.getElem?_append_right (Nat.le_refl _), Nat.sub_self, ← List.head?_eq_getElem?] at found
  rw [found] at ended
  exact ended

/-- The block under a header ends at the last filled line of its run. -/
theorem endsIndented_run (lines : List Text) (header : Text) (opener : Nat) :
    EndsIndented lines header opener
      (opener + filledLength (runBehind lines header opener)) := by
  have filled := filledLength_le (runBehind lines header opener)
  have reach := length_runBehind_le lines header opener
  have reaches : 1 ≤ blockReach := by decide
  -- the lines behind the opening one and before the stop are those of the run
  have among {i : Nat} {line : Text} (behind : opener < i)
      (inside : i < opener + 1 + (runBehind lines header opener).length)
      (found : lines[i]? = some line) :
      (runBehind lines header opener)[i - (opener + 1)]? = some line := by
    rw [getElem?_runBehind (by omega), ← found]
    congr 1
    omega
  refine ⟨Nat.le_add_right _ _, fun some => ?_,
    opener + 1 + (runBehind lines header opener).length, by omega, by omega, ?_, ?_, ?_⟩
  · obtain ⟨n, kept⟩ : ∃ n, filledLength (runBehind lines header opener) = n + 1 :=
      Nat.exists_eq_succ_of_ne_zero fun none => some (by rw [none]; rfl)
    obtain ⟨line, found, filled'⟩ := exists_filled_of_filledLength kept
    rw [getElem?_runBehind (by omega)] at found
    refine ⟨line, ?_, filled'⟩
    rw [kept, ← found]
    congr 1
    omega
  · intro i line behind inside found
    exact List.mem_takeWhile_imp (List.mem_of_getElem? (among behind inside found))
  · intro i line behind inside found
    by_contra some
    have := lt_filledLength (among (by omega) inside found) (Bool.eq_false_iff.mpr some)
    omega
  · by_cases near : (runBehind lines header opener).length < blockReach - 1
    · exact .inr fun line found => not_continues_behind near found
    · exact .inl (by omega)

/-! ## Openers and decorators -/

/-- The nearest opener within reach is found. -/
theorem openerAbove?_eq (opens : lines[opener]? = some header) (opening : isOpener header = true)
    (above : opener ≤ here) (near : here ≤ opener + openerReach)
    (nearest : ∀ i line, opener < i → i ≤ here → lines[i]? = some line → isOpener line = false) :
    openerAbove? lines here = some opener := by
  have known : (lines.take (here + 1)).zipIdx[opener]? = some (header, opener) := by
    rw [List.getElem?_zipIdx, List.getElem?_take_of_lt (Nat.lt_succ_of_le above), opens]
    simp
  obtain ⟨inside, here'⟩ := List.getElem?_eq_some_iff.mp known
  have split : (lines.take (here + 1)).zipIdx.drop (here - openerReach) =
      ((lines.take (here + 1)).zipIdx.drop (here - openerReach)).take
          (opener - (here - openerReach)) ++
        (header, opener) :: (lines.take (here + 1)).zipIdx.drop (opener + 1) := by
    rw [← here', ← List.drop_eq_getElem_cons inside]
    conv_lhs => rw [← List.take_append_drop (opener - (here - openerReach))
      ((lines.take (here + 1)).zipIdx.drop (here - openerReach)), List.drop_drop]
    congr 2
    omega
  have none : (((lines.take (here + 1)).zipIdx.drop (opener + 1)).reverse.find? fun l =>
      isOpener l.1) = none := by
    refine List.find?_eq_none.mpr fun l member => ?_
    obtain ⟨line, i⟩ := l
    obtain ⟨found, behind⟩ := mem_drop_zipIdx_iff.mp (List.mem_reverse.mp member)
    have upTo := (List.getElem?_eq_some_iff.mp found).1
    rw [List.length_take] at upTo
    rw [List.getElem?_take_of_lt (by omega)] at found
    simp [nearest i line behind (by omega) found]
  have search : openerAbove? lines here = ((((lines.take (here + 1)).zipIdx.drop
      (here - openerReach)).reverse.find? fun l => isOpener l.1).map Prod.snd) := rfl
  rw [search, split, List.reverse_append, List.reverse_cons, List.append_assoc,
    List.find?_append, none, Option.none_or, List.singleton_append,
    List.find?_cons_of_pos (by simpa using opening), Option.map_some]

/-- Whether a line is the first of the decorators directly above another one, or that line itself
where no decorator stands above it. -/
structure TopsDecorators (lines : List Text) (opener first : Nat) : Prop where
  le_opener : first ≤ opener
  decorators : ∀ i line, first ≤ i → i < opener → lines[i]? = some line → isDecorator line = true
  ended : ∀ i line, i + 1 = first → lines[i]? = some line → isDecorator line = false

theorem topsDecorators (inside : opener ≤ lines.length) :
    TopsDecorators lines opener (opener - decoratorsAbove lines opener) := by
  induction opener with
  | zero => exact ⟨Nat.sub_le _ _, nofun, nofun⟩
  | succ opener ih =>
    have step : decoratorsAbove lines (opener + 1) =
        if isDecorator lines[opener] = true then decoratorsAbove lines opener + 1 else 0 := by
      rw [decoratorsAbove, List.take_add_one, List.getElem?_eq_getElem inside, Option.toList_some,
        List.reverse_append, List.reverse_singleton, List.singleton_append, List.takeWhile_cons]
      split <;> rfl
    obtain ⟨le, decorators, ended⟩ := ih (Nat.le_of_lt inside)
    rw [step]
    split
    · next decorated =>
      rw [Nat.add_sub_add_right]
      refine ⟨Nat.le_succ_of_le le, fun i line from' below found => ?_, ended⟩
      rcases Nat.lt_succ_iff_lt_or_eq.mp below with before | rfl
      · exact decorators i line from' before found
      · rw [List.getElem?_eq_getElem inside] at found
        cases found
        exact decorated
    · next plain =>
      refine ⟨Nat.le_refl _, fun i line from' below => ?_, fun i line place found => ?_⟩
      · omega
      · cases Nat.succ.inj place
        rw [List.getElem?_eq_getElem inside] at found
        cases found
        exact eq_false_of_ne_true plain

/-! ## Braces -/

/-- How many braces some lines open without closing them. -/
def openBraces (lines : List Text) : Int :=
  (lines.flatten.count '\x7b' : Int) - lines.flatten.count '\x7d'

theorem openBraces_cons (line : Text) (rest : List Text) :
    openBraces (line :: rest) = openBraces [line] + openBraces rest := by
  simp only [openBraces, List.flatten_cons, List.flatten_nil, List.append_nil, List.count_append,
    Int.natCast_add]
  omega

theorem braceDepth_eq (depth : Int) (opened : Bool) (line : Text) :
    braceDepth (depth, opened) line =
      (depth + openBraces [line], opened || line.elem '\x7b') := by
  rw [openBraces, List.flatten_singleton]
  induction line generalizing depth opened with
  | nil => simp [braceDepth]
  | cons c line ih =>
    have step : braceDepth (depth, opened) (c :: line) =
        braceDepth (if c = '\x7b' then (depth + 1, true)
          else if c = '\x7d' then (depth - 1, opened) else (depth, opened)) line := rfl
    rw [step]
    by_cases opens : c = '\x7b'
    · rw [if_pos opens, ih, opens]
      simp
      omega
    · rw [if_neg opens]
      by_cases closes : c = '\x7d'
      · rw [if_pos closes, ih, closes]
        simp
        omega
      · rw [if_neg closes, ih]
        simp [opens, closes, Ne.symm opens]

/-- Behind a first brace, a block in braces ends at the first line at which none is open. -/
theorem bracedEnd?_eq_some_iff {depth : Int} {index stop : Nat} {block : List Text} :
    bracedEnd? (depth, true) index block = some stop ↔ ∃ k, stop = index + k ∧ k < block.length ∧
      depth + openBraces (block.take (k + 1)) ≤ 0 ∧
      ∀ i < k, 0 < depth + openBraces (block.take (i + 1)) := by
  induction block generalizing depth index with
  | nil => simp [bracedEnd?]
  | cons line rest ih =>
    rw [bracedEnd?, braceDepth_eq]
    by_cases closed : depth + openBraces [line] ≤ 0
    · simp only [Bool.true_or, Bool.true_and, decide_eq_true_eq, if_pos closed, Option.some.injEq]
      constructor
      · rintro rfl
        exact ⟨0, rfl, Nat.zero_lt_succ _, closed, fun i before => absurd before (Nat.not_lt_zero i)⟩
      · rintro ⟨k, rfl, -, -, open'⟩
        rcases Nat.eq_zero_or_pos k with rfl | positive
        · rfl
        · exact absurd closed (Int.not_le.mpr (open' 0 positive))
    · simp only [Bool.true_or, Bool.true_and, decide_eq_true_eq, if_neg closed, ih]
      constructor
      · rintro ⟨k, rfl, inside, closed', open'⟩
        refine ⟨k + 1, by omega, Nat.succ_lt_succ inside, ?_, fun i before => ?_⟩
        · rwa [List.take_succ_cons, openBraces_cons, ← Int.add_assoc]
        · cases i with
          | zero => exact Int.not_le.mp closed
          | succ i =>
            rw [List.take_succ_cons, openBraces_cons, ← Int.add_assoc]
            exact open' i (Nat.lt_of_succ_lt_succ before)
      · rintro ⟨k, rfl, inside, closed', open'⟩
        cases k with
        | zero => exact absurd closed' closed
        | succ k =>
          rw [List.take_succ_cons, openBraces_cons, ← Int.add_assoc] at closed'
          refine ⟨k, by omega, Nat.lt_of_succ_lt_succ inside, closed', fun i before => ?_⟩
          have still := open' (i + 1) (Nat.succ_lt_succ before)
          rwa [List.take_succ_cons, openBraces_cons, ← Int.add_assoc] at still

/-- Whether a block in braces ends at a line: it is the first line from the opening one on, within
reach, at which no brace is open. -/
structure ClosesBraces (lines : List Text) (opener last : Nat) : Prop where
  opener_le : opener ≤ last
  near : last < opener + blockReach
  inside : last < lines.length
  closed : openBraces ((lines.take (last + 1)).drop opener) ≤ 0
  opened : ∀ i, opener ≤ i → i < last → 0 < openBraces ((lines.take (i + 1)).drop opener)

theorem take_window (near : n < blockReach) : (window lines opener).take (n + 1) =
    (lines.take (opener + n + 1)).drop opener := by
  rw [window, List.take_take, Nat.min_eq_left near, List.drop_take]
  congr 1
  omega

theorem blockEnd?_braced_iff (opens : lines[opener]? = some header) (brace : '\x7b' ∈ header) :
    blockEnd? (window lines opener) = some n ↔ ClosesBraces lines opener (opener + n) := by
  have shape := window_eq opens
  have size : (window lines opener).length = min blockReach (lines.length - opener) := by
    rw [window, List.length_take, List.length_drop]
  have first : blockEnd? (window lines opener) = bracedEnd? (0, true) 0 (window lines opener) := by
    have starts : (window lines opener).findIdx?
        (fun line => line.elem '\x7b' || endsWithColon line) = some 0 := by
      simp [shape, List.findIdx?_cons, brace]
    rw [blockEnd?, starts, shape]
    simp [brace, bracedEnd?, braceDepth_eq]
  rw [first, bracedEnd?_eq_some_iff]
  constructor
  · rintro ⟨k, rfl, inside, closed, opened⟩
    rw [size] at inside
    rw [Nat.zero_add]
    refine ⟨by omega, by omega, by omega, ?_, fun i from' below => ?_⟩
    · rwa [Int.zero_add, take_window (by omega)] at closed
    · have still := opened (i - opener) (by omega)
      rwa [Int.zero_add, take_window (by omega), Nat.add_sub_cancel' from'] at still
  · rintro ⟨-, near, inside, closed, opened⟩
    refine ⟨n, by omega, by omega, ?_, fun i below => ?_⟩
    · rwa [Int.zero_add, take_window (by omega)]
    · rw [Int.zero_add, take_window (by omega)]
      exact opened (opener + i) (by omega) (by omega)

/-! ## The excerpt around a line of a block -/

/-- Whether a line stands in the block of a header as the indentation shows it: it is the header, or a
filled line with all filled lines down to it indented deeper than the header; the header is within
reach, and no other opener stands between. -/
structure StandsUnder (lines : List Text) (header : Text) (opener here : Nat) : Prop where
  opener_le : opener ≤ here
  near : here ≤ opener + openerReach
  filled : here ≠ opener → ∃ line, lines[here]? = some line ∧ Text.allBlank line = false
  deeper : ∀ i line, opener < i → i ≤ here → lines[i]? = some line → Text.allBlank line = false →
    Text.indent header < Text.indent line
  nearest : ∀ i line, opener < i → i ≤ here → lines[i]? = some line → isOpener line = false

/-- A line right below a header that is indented deeper stands under it, unless it is an opener. -/
theorem standsUnder_next {line : Text} (found : lines[opener + 1]? = some line)
    (filled : Text.allBlank line = false) (deeper : Text.indent header < Text.indent line)
    (plain : isOpener line = false) : StandsUnder lines header opener (opener + 1) := by
  have near : opener + 1 ≤ opener + openerReach := Nat.add_le_add_left (by decide) opener
  refine ⟨Nat.le_succ opener, near, fun _ => ⟨line, found, filled⟩, ?_, ?_⟩
  · intro i other behind upTo there _
    obtain rfl : i = opener + 1 := by omega
    cases found.symm.trans there
    exact deeper
  · intro i other behind upTo there
    obtain rfl : i = opener + 1 := by omega
    cases found.symm.trans there
    exact plain

/-- The run of a header reaches down to each line of its block. -/
theorem EndsIndented.le_last {last : Nat} (ends : EndsIndented lines header opener last)
    (stands : StandsUnder lines header opener here) : here ≤ last := by
  obtain ⟨stop, lastBefore, -, -, blank, ended⟩ := ends.run
  have above := ends.opener_le
  by_contra behind
  obtain ⟨line, found, filled⟩ := stands.filled (by omega)
  by_cases inside : here < stop
  · rw [blank here line (by omega) inside found] at filled
    cases filled
  · -- the run stops at a line that is blank or indented deeper
    obtain ⟨next, found'⟩ : ∃ next, lines[stop]? = some next := by
      have := (List.getElem?_eq_some_iff.mp found).1
      exact ⟨_, List.getElem?_eq_getElem (by omega)⟩
    have reach : openerReach < blockReach := by decide
    have near := stands.near
    have stops := ended.resolve_left (by omega) next found'
    rw [continues, Bool.or_eq_false_iff, decide_eq_false_iff_not] at stops
    exact stops.2 (stands.deeper stop next (by omega) (by omega) found' stops.1)

section Around

variable (opens : lines[opener]? = some header) (opening : isOpener header = true)
  (stands : StandsUnder lines header opener here) (before after : Int)

include opens opening stands

theorem ofCode_eq : ofCode lines (here + 1) before after =
    ((blockEnd? (window lines opener)).bind fun size =>
      if opener + size < here then none
      else some ⟨(opener - decoratorsAbove lines opener : Nat), (opener + size : Nat)⟩).getD
        ⟨max 0 (here - before), min (lines.length - 1) (here + after)⟩ := by
  have inside : here < lines.length := by
    by_cases own : here = opener
    · rw [own]
      exact (List.getElem?_eq_some_iff.mp opens).1
    · obtain ⟨line, found, -⟩ := stands.filled own
      exact (List.getElem?_eq_some_iff.mp found).1
  have nonempty : lines ≠ [] := List.ne_nil_of_length_pos (Nat.zero_lt_of_lt inside)
  have place : anchor lines.length (here + 1) = here := by
    rw [anchor]
    omega
  have decorated := decoratorsAbove_le lines opener
  have around : blockAround? lines here = (blockEnd? (window lines opener)).bind fun size =>
      if opener + size < here then none
      else some ⟨(opener - decoratorsAbove lines opener : Nat), (opener + size : Nat)⟩ := by
    rw [blockAround?, openerAbove?_eq opens opening stands.opener_le stands.near stands.nearest,
      Int.natCast_sub decorated]
    rfl
  rw [ofCode, if_neg nonempty]
  dsimp only
  rw [place, around]

theorem ofCode_of_blockEnd? {size : Nat} (ended : blockEnd? (window lines opener) = some size)
    (reaches : here ≤ opener + size) : ofCode lines (here + 1) before after =
      ⟨(opener - decoratorsAbove lines opener : Nat), (opener + size : Nat)⟩ := by
  rw [ofCode_eq opens opening stands, ended, Option.bind_some,
    if_neg (Nat.not_lt_of_le reaches), Option.getD_some]

/-- The excerpt around a line that stands under a header with a colon is the block of the header with
the decorators above it. By the indentation of its lines the block ends at the last filled line of its
run, whatever braces the lines hold, unless the header holds one: then it ends where the braces from
the header on are closed, and if that is above the line or nowhere within reach, the excerpt is some
lines before and after the line. -/
theorem ofCode_block (colon : endsWithColon header = true) :
    ('\x7b' ∉ header → ∃ first last : Nat, TopsDecorators lines opener first ∧
      EndsIndented lines header opener last ∧
      ofCode lines (here + 1) before after = ⟨first, last⟩) ∧
    ('\x7b' ∈ header → ∀ last : Nat, ClosesBraces lines opener last → here ≤ last →
      ∃ first : Nat, TopsDecorators lines opener first ∧
        ofCode lines (here + 1) before after = ⟨first, last⟩) ∧
    ('\x7b' ∈ header → (∀ last, ClosesBraces lines opener last → last < here) →
      ofCode lines (here + 1) before after =
        ⟨max 0 (here - before), min (lines.length - 1) (here + after)⟩) := by
  have tops := topsDecorators (Nat.le_of_lt (List.getElem?_eq_some_iff.mp opens).1)
  refine ⟨fun plain => ?_, fun brace last closes reaches => ?_, fun brace above => ?_⟩
  · have ends := endsIndented_run lines header opener
    have ended : blockEnd? (window lines opener) =
        some (filledLength (runBehind lines header opener)) := by
      rw [window_eq opens, blockEnd?_indented colon plain, runBehind]
    exact ⟨_, _, tops, ends,
      ofCode_of_blockEnd? opens opening stands before after ended (ends.le_last stands)⟩
  · obtain ⟨size, rfl⟩ := Nat.exists_eq_add_of_le closes.opener_le
    exact ⟨_, tops, ofCode_of_blockEnd? opens opening stands before after
      ((blockEnd?_braced_iff opens brace).mpr closes) reaches⟩
  · rw [ofCode_eq opens opening stands]
    cases ended : blockEnd? (window lines opener) with
    | none => rfl
    | some size =>
      have early := above _ ((blockEnd?_braced_iff opens brace).mp ended)
      rw [Option.bind_some, if_pos early, Option.getD_none]

end Around

/-- A function under two decorators, with braces, a shallow blank line and blank lines behind it. -/
def decoratedCode : List Text :=
  ["x = 0", "@cached", "@checked(1)", "def load(path):", "    read = \x7b", "", "    \x7d",
    "    return read", "", "def other():", "    pass"]

theorem standsUnder_decoratedCode : StandsUnder decoratedCode "def load(path):" 3 6 := by
  have among {i : Nat} (behind : 3 < i) (upTo : i ≤ 6) : i = 4 ∨ i = 5 ∨ i = 6 := by omega
  refine ⟨by decide, by decide, fun _ => ⟨"    \x7d", rfl, by decide⟩, ?_, ?_⟩
  · intro i line behind upTo found
    rcases among behind upTo with rfl | rfl | rfl <;> cases found <;> decide
  · intro i line behind upTo found
    rcases among behind upTo with rfl | rfl | rfl <;> cases found <;> decide

/-- A function whose header holds braces, which are closed in it. -/
def bracedDefault : List Text := ["x = 0", "def f(x=\x7b\x7d):", "    y = 1", "z = 2"]

theorem standsUnder_bracedDefault : StandsUnder bracedDefault "def f(x=\x7b\x7d):" 1 2 :=
  standsUnder_next rfl (by decide) (by decide) (by decide)

/-- A function whose header holds a brace that is closed in the line below. -/
def openDefault : List Text :=
  ["x = 0", "def f(x=\x7b1:", "    2\x7d):", "    return x", "z = 2"]

theorem standsUnder_openDefault : StandsUnder openDefault "def f(x=\x7b1:" 1 2 :=
  standsUnder_next rfl (by decide) (by decide) (by decide)

theorem closesBraces_openDefault : ClosesBraces openDefault 1 2 := by
  refine ⟨by decide, by decide, by decide, by decide +kernel, fun i from_opener before => ?_⟩
  obtain rfl : i = 1 := by omega
  decide +kernel

theorem closesBraces_bracedDefault {last : Nat} (closes : ClosesBraces bracedDefault 1 last) :
    last < 2 := by
  by_contra reaches
  have opened := closes.opened 1 (Nat.le_refl 1) (by omega)
  revert opened
  decide +kernel

theorem ofCode_block_decorated :
    (∃ first last : Nat, TopsDecorators decoratedCode 3 first ∧
      EndsIndented decoratedCode "def load(path):" 3 last ∧
      ofCode decoratedCode 7 5 20 = ⟨first, last⟩) ∧
    ofCode decoratedCode 7 5 20 = ⟨1, 7⟩ ∧
    (∃ first : Nat, TopsDecorators openDefault 1 first ∧
      ofCode openDefault 3 5 20 = ⟨first, 2⟩) ∧
    ofCode bracedDefault 3 5 20 = ⟨0, 3⟩ :=
  ⟨(ofCode_block rfl (by decide +kernel) standsUnder_decoratedCode 5 20 (by decide +kernel)).1
      (by decide),
    by decide +kernel,
    (ofCode_block rfl (by decide +kernel) standsUnder_openDefault 5 20 (by decide +kernel)).2.1
      (by decide) 2 closesBraces_openDefault (Nat.le_refl 2),
    (ofCode_block rfl (by decide +kernel) standsUnder_bracedDefault 5 20 (by decide +kernel)).2.2
      (by decide) fun _ => closesBraces_bracedDefault⟩

/-- Braces in a header that ends with a colon keep its block from being found by indentation. -/
theorem ofCode_braced_header :
    ¬ ∀ (lines : List Text) (header : Text) (opener here : Nat) (before after : Int),
      lines[opener]? = some header → isOpener header = true → endsWithColon header = true →
      StandsUnder lines header opener here →
      ∃ first last : Nat, TopsDecorators lines opener first ∧
        EndsIndented lines header opener last ∧
        ofCode lines (here + 1) before after = ⟨first, last⟩ := by
  intro always
  obtain ⟨first, last, -, ends, shown⟩ := always bracedDefault "def f(x=\x7b\x7d):" 1 2 5 20 rfl
    (by decide +kernel) (by decide +kernel) standsUnder_bracedDefault
  have whole : ofCode bracedDefault (2 + 1) 5 20 = ⟨0, 3⟩ := by decide +kernel
  rw [whole] at shown
  obtain rfl : last = 3 := by
    have := congrArg LineSpan.last shown
    dsimp only at this
    omega
  obtain ⟨stop, behind, -, run, -⟩ := ends.run
  exact absurd (run 3 "z = 2" (by decide) behind rfl) (by decide)

end LineSpan

end Traceability
