import Mathlib.Algebra.GroupWithZero.Nat
import Traceability.Report.Content

/-!
# Excerpts within a budget

Excerpts are kept greedily: one is kept exactly if it fits together with those kept before it. Only a
first excerpt that does not fit by itself is kept in part. What is kept stays within the limit, excerpt
by excerpt and as one text, and a footer says how many excerpts are left out; the cut of a first
excerpt with nothing behind it goes without one.
-/
namespace Traceability

/-- The value of a field of an object. -/
def Json.field? (name : Text) : Json → Option Json
  | .object fields => (fields.find? fun field => field.1 = name).map Prod.snd
  | _ => none

namespace Report

variable {excerpts : List Excerpt} {label : Text} {footer : Option Text}

theorem estimatedTokens_contentReport : (contentReport excerpts label footer).field?
    "estimatedTokens" = some (.number (estimateTokens (excerpts.flatMap (·.content)))) := rfl

theorem truncated_contentReport : (contentReport excerpts label footer).field? "truncated" =
    (shownFooter footer).map fun _ => .bool true := by
  rw [contentReport]
  cases shownFooter footer with
  | none => cases footer <;> rfl
  | some => rfl

end Report

variable {limit used : Nat} {e : Excerpt} {es given : List Excerpt} {chosen : Nat → Bool}

/-! ## Estimates -/

theorem estimateTokens_append_le (s t : Text) :
    estimateTokens (s ++ t) ≤ estimateTokens s + estimateTokens t := by
  simp only [estimateTokens, charactersPerToken, List.length_append]
  omega

theorem estimateTokens_le_iff {t : Text} :
    estimateTokens t ≤ limit ↔ t.length ≤ limit * charactersPerToken := by
  simp only [estimateTokens, charactersPerToken]
  omega

namespace Excerpt

/-- The tokens of some excerpts, each of them estimated by itself. -/
def tokens (es : List Excerpt) : Nat := (es.map fun e => estimateTokens e.content).sum

/-- As one text, excerpts have no more tokens than one by one. -/
theorem estimateTokens_flatMap_le (es : List Excerpt) :
    estimateTokens (es.flatMap (·.content)) ≤ tokens es := by
  induction es with
  | nil => exact Nat.zero_le _
  | cons e es ih =>
    rw [List.flatMap_cons]
    exact Nat.le_trans (estimateTokens_append_le _ _) (Nat.add_le_add_left ih _)

/-- An excerpt with the first characters of its content only. -/
def cut (limit : Nat) (e : Excerpt) : Excerpt :=
  { e with content := e.content.take (4 * limit) }

theorem estimateTokens_cut_le (limit : Nat) (e : Excerpt) :
    estimateTokens (e.cut limit).content ≤ limit := by
  rw [estimateTokens_le_iff, cut, List.length_take, charactersPerToken, Nat.mul_comm limit]
  exact Nat.min_le_left _ _

theorem cut_ne (exceeds : limit < estimateTokens e.content) : e.cut limit ≠ e := by
  intro same
  have fits := estimateTokens_cut_le limit e
  rw [same] at fits
  exact Nat.not_le_of_lt exceeds fits

/-! ## Greedy choices -/

/-- The excerpts at the places that a choice picks out, in their order. -/
def picked (chosen : Nat → Bool) (es : List Excerpt) : List Excerpt :=
  (es.zipIdx.filter fun place => chosen place.2).map Prod.fst

/-- Whether a choice is greedy: a place is chosen exactly if its excerpt fits together with those
chosen before it. -/
def Greedy (limit : Nat) (es : List Excerpt) (chosen : Nat → Bool) : Prop :=
  ∀ i e, es[i]? = some e →
    (chosen i = true ↔ estimateTokens e.content + tokens (picked chosen (es.take i)) ≤ limit)

theorem picked_concat (chosen : Nat → Bool) (es : List Excerpt) (e : Excerpt) :
    picked chosen (es ++ [e]) = picked chosen es ++ if chosen es.length then [e] else [] := by
  rw [picked, List.zipIdx_append, List.filter_append, List.map_append, picked]
  cases here : chosen es.length <;> simp [here]

end Excerpt

namespace BudgetedExcerpts

open Excerpt

/-- One more excerpt is kept if it fits together with those kept before it. -/
theorem fitting_concat (limit used : Nat) (es : List Excerpt) (e : Excerpt) :
    fitting limit used (es ++ [e]) = fitting limit used es ++
      if used + tokens (fitting limit used es) + estimateTokens e.content ≤ limit then [e]
      else [] := by
  fun_induction fitting limit used es with
  | case1 used => simp [fitting, tokens]
  | case2 used first rest cost fits ih =>
    rw [List.cons_append, fitting, if_pos fits, ih, List.cons_append]
    simp only [tokens, List.map_cons, List.sum_cons, Nat.add_assoc, cost]
  | case3 used first rest cost exceeds ih => rw [List.cons_append, fitting, if_neg exceeds, ih]

theorem tokens_fitting_le (within : used ≤ limit) (es : List Excerpt) :
    used + tokens (fitting limit used es) ≤ limit := by
  fun_induction fitting limit used es with
  | case1 used => exact within
  | case2 used first rest cost fits ih =>
    rw [tokens, List.map_cons, List.sum_cons, ← Nat.add_assoc]
    exact ih fits
  | case3 used first rest cost exceeds ih => exact ih within

theorem fitting_sublist (limit used : Nat) (es : List Excerpt) :
    (fitting limit used es).Sublist es := by
  fun_induction fitting limit used es with
  | case1 => exact .slnil
  | case2 used first rest cost fits ih => exact ih.cons_cons first
  | case3 used first rest cost exceeds ih => exact ih.cons first

/-- What a choice picks is what is kept, if at each place it asks what the loop asks there. -/
theorem picked_take_eq_fitting (asks : ∀ i e, es[i]? = some e →
      (chosen i = true ↔
        estimateTokens e.content + tokens (fitting limit 0 (es.take i)) ≤ limit)) (n : Nat) :
    picked chosen (es.take n) = fitting limit 0 (es.take n) := by
  induction n with
  | zero => rfl
  | succ n ih =>
    rw [List.take_add_one]
    cases found : es[n]? with
    | none => rwa [Option.toList_none, List.append_nil]
    | some e =>
      have place : (es.take n).length = n :=
        List.length_take_of_le (Nat.le_of_lt (List.getElem?_eq_some_iff.mp found).1)
      rw [Option.toList_some, picked_concat, fitting_concat, ih, place, Nat.zero_add, Nat.add_comm]
      simp only [asks n e found]

theorem exists_greedy_fitting (limit : Nat) (es : List Excerpt) :
    ∃ chosen, Greedy limit es chosen ∧ fitting limit 0 es = picked chosen es := by
  let chosen (i : Nat) : Bool := es[i]?.any fun e =>
    estimateTokens e.content + tokens (fitting limit 0 (es.take i)) ≤ limit
  have asks (i : Nat) (e : Excerpt) (found : es[i]? = some e) : chosen i = true ↔
      estimateTokens e.content + tokens (fitting limit 0 (es.take i)) ≤ limit := by
    simp [chosen, found]
  refine ⟨chosen, fun i e found => ?_, ?_⟩
  · rw [picked_take_eq_fitting asks]
    exact asks i e found
  · have whole := picked_take_eq_fitting asks es.length
    rw [List.take_length] at whole
    exact whole.symm

/-! ## Budgets -/

theorem within_of_fits (positive : 0 < limit)
    (fits : ∀ e ∈ given.head?, estimateTokens e.content ≤ limit) :
    within limit given =
      ⟨fitting limit 0 given, footerFor (given.length - (fitting limit 0 given).length)⟩ := by
  have some : ¬ (limit : Int) ≤ 0 := by omega
  cases given with
  | nil => simp [within, fitting, footerFor]
  | cons e rest => rw [within, if_neg some, Int.toNat_natCast, if_pos (fits e rfl)]

theorem within_of_exceeds (positive : 0 < limit) (exceeds : limit < estimateTokens e.content)
    (rest : List Excerpt) : within limit (e :: rest) = ⟨[e.cut limit], footerFor rest.length⟩ := by
  have some : ¬ (limit : Int) ≤ 0 := by omega
  rw [within, if_neg some, Int.toNat_natCast, if_neg (Nat.not_le_of_lt exceeds), Nat.mul_comm]
  rfl

/-- A budget keeps what fits in turn, or the cut of a first excerpt that exceeds it by itself. -/
theorem within_cases (positive : 0 < limit) (given : List Excerpt) :
    within limit given =
        ⟨fitting limit 0 given, footerFor (given.length - (fitting limit 0 given).length)⟩ ∨
      ∃ e rest, given = e :: rest ∧ limit < estimateTokens e.content ∧
        within limit given = ⟨[e.cut limit], footerFor rest.length⟩ := by
  cases given with
  | nil => exact .inl (within_of_fits positive nofun)
  | cons e rest =>
    by_cases fits : estimateTokens e.content ≤ limit
    · exact .inl (within_of_fits positive fun | _, rfl => fits)
    · have exceeds := Nat.lt_of_not_le fits
      exact .inr ⟨e, rest, rfl, exceeds, within_of_exceeds positive exceeds rest⟩

theorem footerFor_eq_none_iff {omitted : Nat} : footerFor omitted = none ↔ omitted = 0 := by
  rw [footerFor]
  split
  · next none => simp [none]
  · next some => exact ⟨nofun, fun none => absurd none some⟩

/-- A budget keeps no more excerpts than there are, and its footer tells of the others. -/
theorem footer_within (positive : 0 < limit) (given : List Excerpt) :
    (within limit given).excerpts.length ≤ given.length ∧
      (within limit given).footer =
        footerFor (given.length - (within limit given).excerpts.length) := by
  rcases within_cases positive given with result | ⟨e, rest, rfl, -, result⟩ <;> rw [result]
  · exact ⟨(fitting_sublist limit 0 given).length_le, rfl⟩
  · exact ⟨Nat.le_add_left 1 _, rfl⟩

theorem footer_within_eq_none_iff (positive : 0 < limit) : (within limit given).footer = none ↔
    (within limit given).excerpts.length = given.length := by
  obtain ⟨fewer, footer⟩ := footer_within positive given
  rw [footer, footerFor_eq_none_iff]
  omega

theorem shownFooter_footerFor (omitted : Nat) :
    Report.shownFooter (footerFor omitted) = footerFor omitted := by
  rw [footerFor]
  split <;> rfl

/-- What a budget has to make of excerpts: no more tokens than the limit, one by one and in the
report; the excerpts of a greedy choice, or the cut of a first one that does not fit by itself; and a
footer exactly if some are left out, with their number. -/
structure KeepsWithin (limit : Nat) (given : List Excerpt) (b : BudgetedExcerpts) : Prop where
  tokens_le : tokens b.excerpts ≤ limit
  reported : ∀ label footer, ∃ n : Nat, n ≤ limit ∧
    (Report.contentReport b.excerpts label footer).field? "estimatedTokens" = some (.number n)
  greedy : (∀ e ∈ given.head?, estimateTokens e.content ≤ limit) →
    ∃ chosen, Greedy limit given chosen ∧ b.excerpts = picked chosen given
  first : ∀ e rest, given = e :: rest → limit < estimateTokens e.content →
    b.excerpts = [e.cut limit]
  length_le : b.excerpts.length ≤ given.length
  footer_eq_none_iff : b.footer = none ↔ b.excerpts.length = given.length
  footer_eq : ∀ omitted, omitted ≠ 0 → given.length = b.excerpts.length + omitted →
    b.footer = some ("... " ++ Text.ofNat omitted ++ " more " ++
      (if omitted = 1 then "section" else "sections" : Text) ++
      " omitted (use --max-tokens to increase)")

theorem tokens_within_le (positive : 0 < limit) (given : List Excerpt) :
    tokens (within limit given).excerpts ≤ limit := by
  rcases within_cases positive given with result | ⟨e, rest, rfl, -, result⟩ <;> rw [result]
  · have kept := tokens_fitting_le (Nat.zero_le limit) given
    rwa [Nat.zero_add] at kept
  · exact estimateTokens_cut_le limit e

/-- A budget is kept, greedily, and what it leaves out is announced. -/
theorem keepsWithin_within (positive : 0 < limit) (given : List Excerpt) :
    KeepsWithin limit given (within limit given) := by
  obtain ⟨fewer, footer⟩ := footer_within positive given
  refine ⟨tokens_within_le positive given, fun label footer => ?_, fun fits => ?_,
    fun e rest shape exceeds => ?_, fewer, footer_within_eq_none_iff positive,
    fun omitted some split => ?_⟩
  · exact ⟨_, Nat.le_trans (estimateTokens_flatMap_le _) (tokens_within_le positive given),
      Report.estimatedTokens_contentReport⟩
  · rw [within_of_fits positive fits]
    exact exists_greedy_fitting limit given
  · rw [shape, within_of_exceeds positive exceeds]
  · have rest : given.length - (within limit given).excerpts.length = omitted := by omega
    rw [footer, rest, footerFor, if_neg some]

/-- A task that fits, a design that does not fit behind it, and a test that does. -/
def traced : List Excerpt :=
  [⟨.task, "t.md", 1, 1, "abcdefg"⟩, ⟨.design, "a.md", 3, 3, "abcdefghi"⟩,
    ⟨.test, "a.py", 1, 1, "abcdefgh"⟩]

theorem keepsWithin_within_traced :
    0 < 4 ∧ KeepsWithin 4 traced (within 4 traced) ∧
      (within 4 traced).excerpts.map (·.kind) = [.task, .test] :=
  ⟨by decide, keepsWithin_within (by decide) traced, by decide +kernel⟩

/-! ## Losses -/

/-- Whether excerpts are one alone, which does not fit by itself. -/
def Lone (limit : Nat) (given : List Excerpt) : Prop :=
  ∃ e, given = [e] ∧ limit < estimateTokens e.content

theorem Lone.within_ne (lone : Lone limit given) (positive : 0 < limit) :
    (within limit given).excerpts ≠ given := by
  obtain ⟨e, rfl, exceeds⟩ := lone
  rw [within_of_exceeds positive exceeds]
  exact fun same => cut_ne exceeds (List.singleton_inj.mp same)

theorem truncated_eq_false_iff (positive : 0 < limit) : (within limit given).truncated = false ↔
    (within limit given).excerpts.length = given.length := by
  rw [truncated, Option.isSome_eq_false_iff, Option.isNone_iff_eq_none,
    footer_within_eq_none_iff positive]

/-- The flag tells of every loss but for the cut of an excerpt that stands alone, and of no other, and
the report says what the flag says. -/
theorem loss_iff_truncated (positive : 0 < limit) (given : List Excerpt) :
    ((within limit given).truncated = false ↔
      (within limit given).excerpts = given ∨ Lone limit given) ∧
    (Lone limit given → (within limit given).excerpts ≠ given) ∧
    ∀ label, (Report.contentReport (within limit given).excerpts label
        (within limit given).footer).field? "truncated" =
      if (within limit given).truncated then some (.bool true) else none := by
  refine ⟨?_, fun lone => lone.within_ne positive, fun label => ?_⟩
  · rw [truncated_eq_false_iff positive]
    constructor
    · intro same
      rcases within_cases positive given with result | ⟨e, rest, rfl, exceeds, result⟩ <;>
        rw [result] at same
      · rw [result]
        exact .inl ((fitting_sublist limit 0 given).eq_of_length same)
      · have none : rest = [] := List.length_eq_zero_iff.mp (Nat.succ.inj same).symm
        exact .inr ⟨e, congrArg _ none, exceeds⟩
    · rintro (same | ⟨e, rfl, exceeds⟩)
      · rw [same]
      · rw [within_of_exceeds positive exceeds]
        rfl
  · rw [Report.truncated_contentReport, truncated, (footer_within positive given).2,
      shownFooter_footerFor]
    cases footerFor _ <;> rfl

def longTask : Excerpt := ⟨.task, "t.md", 1, 1, "abcde"⟩

theorem loss_iff_truncated_cut :
    0 < 1 ∧
    (((within 1 [longTask, longTask]).truncated = false ↔
      (within 1 [longTask, longTask]).excerpts = [longTask, longTask] ∨
        Lone 1 [longTask, longTask]) ∧
    (Lone 1 [longTask, longTask] →
      (within 1 [longTask, longTask]).excerpts ≠ [longTask, longTask]) ∧
    ∀ label, (Report.contentReport (within 1 [longTask, longTask]).excerpts label
        (within 1 [longTask, longTask]).footer).field? "truncated" =
      if (within 1 [longTask, longTask]).truncated then some (.bool true) else none) ∧
    (within 1 [longTask, longTask]).truncated = true :=
  ⟨by decide, loss_iff_truncated (by decide) _, by decide +kernel⟩

/-- An excerpt that stands alone is cut without a word. -/
theorem lone_cut_unannounced :
    ¬ ∀ (limit : Nat) (given : List Excerpt), 0 < limit →
      (within limit given).truncated = false → (within limit given).excerpts = given := by
  intro always
  exact absurd (always 1 [longTask] (by decide) (by decide +kernel)) (by decide +kernel)

end BudgetedExcerpts

end Traceability
