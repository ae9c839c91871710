import Traceability.Pattern.Reader
import Traceability.Proofs.Pattern.EscapeTracks

/-!
# Groups and repetitions read twice

What stands behind an opening parenthesis is read in the same way again; so are the bounds of a repetition.
Flags agree but for those that a reading never asks for.
-/
namespace Traceability

theorem PatternFlags.bare_switch {f g : PatternFlags} (same : f.bare = g.bare) (on : Bool)
    (flag : PatternReader.Flag) : (flag.switch on f).bare = (flag.switch on g).bare := by
  obtain ⟨_, _, _, _, _⟩ := f
  obtain ⟨_, _, _, _, _⟩ := g
  cases same
  cases flag <;> cases on <;> rfl

theorem PatternFlags.bare_foldl_switch {f g : PatternFlags} (same : f.bare = g.bare) (on : Bool)
    (flags : List PatternReader.Flag) : (flags.foldl (PatternReader.Flag.switch on) f).bare =
      (flags.foldl (PatternReader.Flag.switch on) g).bare := by
  induction flags generalizing f g with
  | nil => exact same
  | cons flag flags ih => exact ih (bare_switch same on flag)

namespace PatternReader

open PatternReading PatternNode

variable {ending : Text} {base : PatternFlags} {n : Nat} {f g : PatternFlags}

/-! ## Flags -/

theorem mirrors_flagsOn {k k' : Nat} (le : k ≤ k') (flag : Flag) (read : List Flag) :
    Mirrors ending base n Eq (flagsOn k flag read) (flagsOn k' flag read) := by
  induction k generalizing k' flag read with
  | zero => exact fails_fail.follows
  | succ k ih =>
    obtain ⟨j, rfl⟩ := Nat.exists_eq_succ_of_ne_zero (Nat.ne_zero_of_lt le)
    refine follows_unless fails_fail fun _ => ?_
    refine follows_unless fails_fail fun _ => ?_
    refine follows_next (fun token => ?_) fails_fail
    refine follows_ite (fun _ => follows_pure rfl) fun _ => ?_
    split
    · exact ih (Nat.le_of_succ_le_succ le) _ _
    · exact (fails_fail.ite fails_fail).follows

theorem mirrors_flagsOff {k k' : Nat} (le : k ≤ k') (flag : Flag) (read : List Flag) :
    Mirrors ending base n Eq (flagsOff k flag read) (flagsOff k' flag read) := by
  induction k generalizing k' flag read with
  | zero => exact fails_fail.follows
  | succ k ih =>
    obtain ⟨j, rfl⟩ := Nat.exists_eq_succ_of_ne_zero (Nat.ne_zero_of_lt le)
    refine follows_unless fails_fail fun _ => ?_
    refine follows_next (fun token => ?_) fails_fail
    refine follows_ite (fun _ => follows_pure rfl) fun _ => ?_
    split
    · exact ih (Nat.le_of_succ_le_succ le) _ _
    · exact (fails_fail.ite fails_fail).follows

/-- What stands behind the flags to be set. -/
def flagsBehind (fuel : Nat) (on : List Flag) (stop : Char) : PatternReader FlagGroup := do
  if stop = ')' then return .whole on
  if on.elem .template then fail .globalFlagOn 1
  let off ← if stop = '-' then do
      match ← next with
      | none => fail .missingFlag
      | some token =>
        match tokenFlag? token with
        | some flag => flagsOff fuel flag []
        | none =>
          if isLetterToken token then fail .unknownFlag token.length
          else fail .missingFlag token.length
    else pure []
  if off.elem .template then fail .globalFlagOff 1
  if on.any off.elem then fail .flagOnAndOff 1
  return .part on off

theorem flagGroup_eq (token : Text) : flagGroup token = (do
    let fuel := (← get).rest.length + 1
    match tokenFlag? token with
    | some flag =>
      let (on, stop) ← flagsOn fuel flag []
      flagsBehind fuel on stop
    | none => flagsBehind fuel [] '-') := by
  unfold flagGroup flagsBehind
  cases tokenFlag? token <;> rfl

theorem mirrors_flagsBehind {k k' : Nat} (le : k ≤ k') (on : List Flag) (stop : Char) :
    Mirrors ending base n Eq (flagsBehind k on stop) (flagsBehind k' on stop) := by
  have behind (off : List Flag) : Mirrors ending base n Eq
      (do
        if off.elem .template then fail .globalFlagOff 1
        if on.any off.elem then fail .flagOnAndOff 1
        return FlagGroup.part on off)
      (do
        if off.elem .template then fail .globalFlagOff 1
        if on.any off.elem then fail .flagOnAndOff 1
        return FlagGroup.part on off) :=
    follows_unless fails_fail.bind fun _ => follows_unless fails_fail.bind fun _ => follows_pure rfl
  refine follows_ite (fun _ => follows_pure rfl) fun _ => ?_
  refine follows_unless fails_fail.bind fun _ => ?_
  refine follows_ite (fun _ => ?_) fun _ => behind []
  refine follows_next (fun token => ?_) fails_fail.bind
  dsimp only
  split
  · exact (mirrors_flagsOff le _ _).seq behind
  · exact (fails_fail.bind.ite fails_fail.bind).follows

theorem mirrors_flagGroup {token : Text} :
    Mirrors ending base n Eq (flagGroup token) (flagGroup token) := by
  rw [flagGroup_eq]
  refine follows_get fun s t tracks => ?_
  have le := Nat.succ_le_succ tracks.length_le
  dsimp only
  split
  · exact (mirrors_flagsOn le _ _).seq fun _ => mirrors_flagsBehind le _ _
  · exact mirrors_flagsBehind le _ _

/-! ## Names and references -/

theorem mirrors_checkGroupName {word : Text} {offset : Nat} :
    Mirrors ending base n Eq (checkGroupName word offset) (checkGroupName word offset) :=
  follows_ite (fun _ => follows_pure rfl) fun _ => fails_fail.follows

theorem mirrors_namedReference :
    Mirrors ending base n Alike (namedReference f) (namedReference g) := by
  refine mirrors_nameUpTo.seq fun word => ?_
  refine mirrors_checkGroupName.seq fun _ => ?_
  refine follows_get fun s t tracks => ?_
  rw [← tracks.names]
  split
  · exact fails_fail.follows
  · refine follows_get fun s t tracks => ?_
    rw [← tracks.groups]
    refine follows_unless fails_fail fun _ => ?_
    exact mirrors_checkLookbehind.seq fun _ => follows_pure (alike_again _)

/-- A number that a condition asks for is kept, with its place. -/
theorem mirrors_keepCondition {index offset offset' : Nat} : Mirrors ending base n Eq
    (modify fun s =>
      if s.conditions.any (·.1 = index) then s
      else { s with conditions := s.conditions ++ [(index, s.position - offset)] })
    (modify fun s =>
      if s.conditions.any (·.1 = index) then s
      else { s with conditions := s.conditions ++ [(index, s.position - offset')] }) := by
  refine mirrors_modify fun s t tracks => ?_
  have known : s.conditions.any (·.1 = index) = t.conditions.any (·.1 = index) := by
    have same := congrArg (List.any · (· = index)) tracks.conditions
    rwa [List.any_map, List.any_map] at same
  rw [known]
  split
  · exact tracks
  · have conditions : (s.conditions ++ [(index, s.position - offset)]).map (·.1) =
        (t.conditions ++ [(index, t.position - offset')]).map (·.1) := by
      rw [List.map_append, List.map_append, tracks.conditions]
      rfl
    exact { tracks with conditions }

theorem mirrors_conditionGroup :
    Mirrors ending base n Eq conditionGroup conditionGroup := by
  have found {m : Nat} (index : Nat) : Mirrors ending base m Eq
      (do checkLookbehind index; pure index) (do checkLookbehind index; pure index) :=
    mirrors_checkLookbehind.seq fun _ => follows_pure rfl
  refine mirrors_nameUpTo.seq fun word => ?_
  refine follows_ite (fun _ => ?_) fun _ => ?_
  · refine follows_get fun s t tracks => ?_
    rw [← tracks.names]
    split
    · exact fails_fail.bind.follows
    · exact Mirrors.seq (follows_pure rfl) found
  · split
    · exact fails_fail.bind.follows
    · refine follows_unless fails_fail.bind fun _ => ?_
      exact mirrors_keepCondition.seq fun _ => Mirrors.seq (follows_pure rfl) found
    · exact fails_fail.bind.follows

/-! ## Comments -/

theorem mirrors_skipComment {start start' k k' : Nat} (le : k ≤ k') :
    Mirrors ending base n Eq (skipComment start k) (skipComment start' k') := by
  induction k generalizing k' with
  | zero => exact fails_fail.follows
  | succ k ih =>
    obtain ⟨j, rfl⟩ := Nat.exists_eq_succ_of_ne_zero (Nat.ne_zero_of_lt le)
    refine follows_next (fun token => ?_) fails_failAt
    exact follows_ite (fun _ => follows_pure rfl) fun _ => ih (Nat.le_of_succ_le_succ le)

/-! ## The numbers of groups -/

theorem mirrors_openGroup {word : Option Text} :
    Mirrors ending base n Eq (openGroup word) (openGroup word) := by
  refine follows_get fun s t tracks => ?_
  rw [← tracks.groups, ← tracks.names]
  dsimp only
  split
  · refine (mirrors_set ?_).seq fun _ => follows_pure rfl
    exact { tracks with groups := rfl, names := rfl }
  · split
    · exact fails_fail.bind.follows
    · refine (mirrors_set ?_).seq fun _ => follows_pure rfl
      exact { tracks with groups := rfl, names := rfl }

theorem mirrors_widthOf {a b : PatternNode} (alike : Alike a b) :
    Mirrors ending base n Eq (widthOf a) (widthOf b) := by
  refine follows_get fun s t tracks => ?_
  rw [tracks.groups]
  exact follows_pure (alike _)

theorem mirrors_closeGroup {index : Nat} {a b : PatternNode} (alike : Alike a b) :
    Mirrors ending base n Eq (closeGroup index a) (closeGroup index b) := by
  refine (mirrors_widthOf alike).seq fun width => mirrors_modify fun s t tracks => ?_
  exact { tracks with groups := congrArg (List.set · (index - 1) (some width)) tracks.groups }

theorem mirrors_lookbehindNode {negated : Bool} {a b : PatternNode} (alike : Alike a b) :
    Mirrors ending base n Alike (lookbehindNode negated a) (lookbehindNode negated b) := by
  refine (mirrors_widthOf alike).seq fun width => ?_
  refine (mirrors_modify fun s t tracks => ?_).seq fun _ => follows_pure fun _ => rfl
  exact { tracks with late := congrArg (Option.or · _) tracks.late }

/-! ## Behind an opening parenthesis -/

/-- Whether two openings are the same but for flags and the nodes that hold them. -/
inductive AlikeOpening : Opening → Opening → Prop
  | capture (word : Option Text) : AlikeOpening (.capture word) (.capture word)
  | plain {f g : PatternFlags} (same : f.bare = g.bare) : AlikeOpening (.plain f) (.plain g)
  | atomic : AlikeOpening .atomic .atomic
  | ahead (negated : Bool) : AlikeOpening (.ahead negated) (.ahead negated)
  | behind (negated : Bool) : AlikeOpening (.behind negated) (.behind negated)
  | condition (index : Nat) : AlikeOpening (.condition index) (.condition index)
  | item {a b : PatternNode} (alike : Alike a b) : AlikeOpening (.item a) (.item b)
  | nothing : AlikeOpening .nothing .nothing
  | wholeFlags (on : List Flag) : AlikeOpening (.wholeFlags on) (.wholeFlags on)

theorem mirrors_opening (same : f.bare = g.bare) {start start' : Nat} :
    Mirrors ending base n AlikeOpening (opening f start) (opening g start') := by
  refine (mirrors_accept (by decide)).seq fun special => ?_
  refine follows_ite (fun _ => follows_pure (.capture none)) fun _ => ?_
  refine follows_next (fun token => ?_) fails_fail
  refine follows_ite (fun _ => ?_) fun _ => ?_
  · refine (mirrors_accept (by decide)).seq fun named => ?_
    refine follows_ite (fun _ => ?_) fun _ => ?_
    · refine mirrors_nameUpTo.seq fun word => ?_
      exact mirrors_checkGroupName.seq fun _ => follows_pure (.capture (some word))
    · refine (mirrors_accept (by decide)).seq fun again => ?_
      refine follows_ite (fun _ => ?_) fun _ => follows_next (fun _ => fails_fail.follows) fails_fail
      exact mirrors_namedReference.bind fun _ _ alike => follows_pure (.item alike)
  refine follows_ite (fun _ => follows_pure (.plain same)) fun _ => ?_
  refine follows_ite (fun _ => ?_) fun _ => ?_
  · refine follows_get fun s t tracks => ?_
    exact (mirrors_skipComment (Nat.succ_le_succ tracks.length_le)).seq fun _ => follows_pure .nothing
  refine follows_ite (fun _ => follows_pure (.ahead false)) fun _ => ?_
  refine follows_ite (fun _ => follows_pure (.ahead true)) fun _ => ?_
  refine follows_ite (fun _ => ?_) fun _ => ?_
  · refine follows_next (fun c => ?_) fails_fail
    refine follows_ite (fun _ => follows_pure (.behind false)) fun _ => ?_
    exact follows_ite (fun _ => follows_pure (.behind true)) fun _ => fails_fail.follows
  refine follows_ite (fun _ => ?_) fun _ => ?_
  · exact mirrors_conditionGroup.seq fun index => follows_pure (.condition index)
  refine follows_ite (fun _ => follows_pure .atomic) fun _ => ?_
  refine follows_ite (fun _ => ?_) fun _ => fails_fail.follows
  refine mirrors_flagGroup.seq fun group => ?_
  cases group with
  | whole on => exact follows_pure (.wholeFlags on)
  | part on off =>
    have same := PatternFlags.bare_foldl_switch (PatternFlags.bare_foldl_switch same true on) false off
    exact follows_pure (.plain same)

/-- Flags for the whole pattern may be set where nothing stands behind it. -/
theorem mirrors_setFlags {on : List Flag} :
    Mirrors [] base n Eq (setFlags on) (setFlags on) := by
  refine mirrors_modify fun s t tracks => ?_
  exact
    { tracks with
      flags := PatternFlags.bare_foldl_switch tracks.flags true _
      wide := congrArg (· || _) tracks.wide
      kept := fun some => absurd rfl some }

theorem closing_eq_ok_iff {start : Nat} {s s' : PatternReading} {u : Unit} :
    closing start s = .ok (u, s') ↔ headToken? s.rest = some [')'] ∧
      (s.behind [')']).rest ≠ ['\\'] ∧ s' = s.behind [')'] := by
  rw [← accept_eq_true_iff]
  refine bind_eq_ok_iff.trans ⟨?_, fun here => ⟨true, s', here, rfl⟩⟩
  rintro ⟨_ | _, m, here, onward⟩
  · exact absurd onward (fails_failAt m (u, s'))
  · cases onward
    exact here

theorem mirrors_closing {start start' : Nat} :
    Mirrors ending base n Eq (closing start) (closing start') := by
  intro s t tracks u s' run
  obtain ⟨found, whole, rfl⟩ := closing_eq_ok_iff.mp run
  have tracks' := tracks.behind found whole
  have there := tracks.headToken?_of_some found
  exact .inl ⟨u, _, closing_eq_ok_iff.mpr ⟨there, tracks'.whole_right, rfl⟩, rfl, tracks'⟩

/-! ## Repetitions -/

theorem mirrors_bounds? : Mirrors ending base n Eq bounds? bounds? := by
  refine follows_get fun s t tracks => ?_
  have digits : Mirrors ending base s.rest.length Eq (upTo Char.isDigit s.rest.length)
      (upTo Char.isDigit t.rest.length) :=
    mirrors_upTo (by decide) (.inr ⟨Nat.le_refl _, tracks.length_le⟩)
  refine follows_peek rfl fun token => ?_
  refine follows_ite (fun _ => follows_pure rfl) fun _ => ?_
  refine digits.seq fun low => (mirrors_accept (by decide)).seq fun comma => ?_
  refine follows_ite_seq digits (follows_pure rfl) fun high => ?_
  refine (mirrors_accept (by decide)).seq fun closed => ?_
  refine follows_ite (fun _ => (mirrors_set tracks).seq fun _ => follows_pure rfl) fun _ => ?_
  refine follows_unless fails_throw.bind fun _ => ?_
  exact follows_unless fails_failAt.bind fun _ => follows_pure rfl

theorem mirrors_repeatBounds? {c : Char} :
    Mirrors ending base n Eq (repeatBounds? c) (repeatBounds? c) := by
  refine follows_ite (fun _ => follows_pure rfl) fun _ => ?_
  refine follows_ite (fun _ => follows_pure rfl) fun _ => ?_
  exact follows_ite (fun _ => follows_pure rfl) fun _ => mirrors_bounds?

theorem mirrors_eagerness : Mirrors ending base n Eq eagerness eagerness := by
  refine (mirrors_accept (by decide)).seq fun _ => ?_
  refine follows_ite (fun _ => follows_pure rfl) fun _ => ?_
  refine (mirrors_accept (by decide)).seq fun _ => ?_
  exact follows_ite (fun _ => follows_pure rfl) fun _ => follows_pure rfl

theorem mirrors_repeatLast {position position' least : Nat} {most : Option Nat}
    {read read' : List (ItemSort × PatternNode)} (alike : List.Forall₂ AlikeItem read read') :
    Mirrors ending base n (fun items items' => items ≠ [] ∧ List.Forall₂ AlikeItem items items')
      (repeatLast position least most read) (repeatLast position' least most read') := by
  cases alike with
  | nil => exact fails_failAt.follows
  | @cons a b rest rest' first alike =>
    obtain ⟨sort, node⟩ := a
    obtain ⟨_, node'⟩ := b
    obtain ⟨same, nodes⟩ := first
    cases same
    cases sort with
    | place => exact fails_failAt.follows
    | repetition => exact fails_failAt.follows
    | other =>
      refine mirrors_eagerness.seq fun eager => follows_pure ⟨List.cons_ne_nil _ _, .cons ⟨rfl, ?_⟩ alike⟩
      exact fun groups => congrArg (PatternWidth.times · least most) (nodes groups)

end PatternReader

end Traceability
