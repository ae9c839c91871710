import Traceability.Proofs.Pattern.GlobalFlags

/-!
# Items read twice

A second reading of items, of alternatives and of what stands in groups goes on as the first one. The
proof is by induction on the depth that the first one may reach; every group is closed in its text, so
what is an exception inside a group is none outside.
-/
namespace Traceability.PatternReader

open PatternReading PatternNode

variable {ending : Text} {base : PatternFlags} {n k k' : Nat} {verbose : Prop}
  {flagged : Text → Prop} {s t : PatternReading} {f g : PatternFlags} {top first : Bool}
  {read read' : List (ItemSort × PatternNode)} {node node' : PatternNode}

/-! ## At the end of the text -/

theorem ends_closing {α : Type} {start : Nat} {h : Unit → PatternReader α} :
    Ends (closing start >>= h) := by
  rintro s spent ⟨c, s'⟩ run
  obtain ⟨_, _, closed, _⟩ := bind_eq_ok_iff.mp run
  have found := (closing_eq_ok_iff.mp closed).1
  rw [headToken?_eq_none_iff.mpr spent] at found
  cases found

theorem stays_skipLine : Stays (skipLine k) := by
  intro s a s' spent run
  cases k with
  | zero =>
    cases run
    exact spent
  | succ k =>
    rw [skipLine, bind_of_ok (next_of_nil spent)] at run
    cases run
    exact spent

/-! ## Comments up to the end of a line -/

/-- Such a comment ends in the text of the first reading, or takes it all. -/
theorem follows_skipLine (enough : n < k) (enough' : n + ending.length < k') :
    Follows ending base n True (fun _ => False) Eq (skipLine k) (skipLine k') := by
  intro s t tracks a s' run
  induction k generalizing k' n s t with
  | zero => exact absurd enough (Nat.not_lt_zero _)
  | succ k ih =>
    obtain ⟨j, rfl⟩ := Nat.exists_eq_succ_of_ne_zero (Nat.ne_zero_of_lt enough')
    cases found : headToken? s.rest with
    | none =>
      have spent := headToken?_eq_none_iff.mp found
      cases ending with
      | nil =>
        have spent' : t.rest = [] := by rw [tracks.rest, spent]; rfl
        rw [skipLine, bind_of_ok (next_of_nil spent)] at run
        rw [skipLine, bind_of_ok (next_of_nil spent')]
        cases run
        exact .inl ⟨(), t, rfl, rfl, tracks⟩
      | cons c more =>
        -- The second reading goes on skipping, into the ending.
        exact .inr (.inl ⟨List.cons_ne_nil c more, trivial, stays_skipLine spent run⟩)
    | some token =>
      obtain ⟨whole, onward⟩ := (next_bind_eq_ok_iff found).mp run
      have there := tracks.headToken?_of_some found
      have tracks' := tracks.behind found whole
      rw [skipLine, bind_of_ok (next_eq_some_iff.mpr ⟨there, tracks'.whole_right, rfl⟩)]
      dsimp only at onward ⊢
      by_cases line : token = ['\n']
      · rw [if_pos line] at onward ⊢
        cases onward
        exact .inl ⟨(), _, rfl, rfl, tracks'⟩
      · rw [if_neg line] at onward ⊢
        have shorter := length_behind_lt found
        have within := tracks.length
        have enough : (s.behind token).rest.length < k := by omega
        have enough' : (s.behind token).rest.length + ending.length < j := by omega
        rcases ih enough enough' tracks'.tighten onward with ⟨b, t', done, fits, tracks''⟩ | other
        · exact .inl ⟨b, t', done, fits, tracks''.weaken (by omega)⟩
        · exact .inr other

/-! ## The step -/

theorem alike_sequence (alike : List.Forall₂ AlikeItem read read') :
    Alike (sequence read) (sequence read') := by
  suffices behind : ∀ {a b}, Alike a b → Alike (read.foldl (fun node item => .cat item.2 node) a)
      (read'.foldl (fun node item => .cat item.2 node) b) from behind fun _ => rfl
  induction alike with
  | nil => exact fun same => same
  | cons first _ ih =>
    exact fun same => ih fun groups => congrArg₂ PatternWidth.add (first.2 groups) (same groups)

/-- Whether readers of items go on beside each other: the second one is in a group, where there is an
ending, and where the first one is outside all groups, its flags are those that it began with. -/
structure Beside (ending : Text) (base : PatternFlags) (top first : Bool) (f g : PatternFlags)
    (read read' : List (ItemSort × PatternNode)) : Prop where
  outer : first → top
  flags : f.bare = g.bare
  kept : ending ≠ [] → top → f.bare = base
  alike : List.Forall₂ AlikeItem read read'

/-- Outside all groups blanks and comments are not skipped before an ending. -/
theorem Beside.not_verbose (plain : base.verbose = false)
    (beside : Beside ending base top first f g read read')
    (some : ending ≠ []) (outer : top) : ¬ f.verbose := by
  intro held
  have off := (congrArg PatternFlags.verbose (beside.kept some outer)).trans plain
  exact absurd (held.symm.trans off) (by decide)

/-- The flags of a further alternative. -/
theorem Beside.further (beside : Beside ending base top first f g read read')
    (tracks : Tracks ending base n s t) : Beside ending base top false (if top then s.flags else f)
      (if top && ending.isEmpty then t.flags else g) [] [] where
  outer := nofun
  flags := by
    cases top with
    | false => exact beside.flags
    | true =>
      cases ending with
      | nil => exact tracks.flags
      | cons c more =>
        have some := List.cons_ne_nil c more
        exact (tracks.kept some).trans ((beside.kept some rfl).symm.trans beside.flags)
  kept some outer := by
    rw [if_pos outer]
    exact tracks.kept some
  alike := .nil

theorem beside_inner (flags : f.bare = g.bare) : Beside ending base false false f g [] [] :=
  ⟨nofun, flags, nofun, .nil⟩

theorem Beside.push (beside : Beside ending base top first f g read read')
    {item item' : ItemSort × PatternNode} (pair : AlikeItem item item') :
    Beside ending base top first f g (item :: read) (item' :: read') :=
  { beside with alike := .cons pair beside.alike }

/-! ## Readings up to a depth -/

variable [CharacterNames]

theorem items_of_nil (spent : s.rest = []) :
    items top first (k + 1) f read s = .ok (sequence read, s) := by
  rw [items, peek_bind_of_nil spent]
  rfl

theorem moreAlternatives_of_nil (spent : s.rest = []) :
    moreAlternatives top (k + 1) f node s = .ok (node, s) := by
  rw [moreAlternatives, bind_of_ok (accept_of_nil spent)]
  rfl

theorem stays_items : Stays (items top first k f read) := by
  intro s a s' spent run
  cases k with
  | zero => exact absurd run (fails_fail s _)
  | succ k =>
    rw [items_of_nil spent] at run
    cases run
    exact spent

theorem stays_moreAlternatives : Stays (moreAlternatives top k f node) := by
  intro s a s' spent run
  cases k with
  | zero => exact absurd run (fails_fail s _)
  | succ k =>
    rw [moreAlternatives_of_nil spent] at run
    cases run
    exact spent

/-- Whether readings that may reach a depth are followed. -/
structure FollowsUpTo (ending : Text) (base : PatternFlags) (k : Nat) : Prop where
  items {top first : Bool} {f g : PatternFlags} {read read' : List (ItemSort × PatternNode)}
    {k' n : Nat} (le : k ≤ k') (beside : Beside ending base top first f g read read') :
    Follows ending base n f.verbose (fun text => first ∧ read = [] ∧ OpensWithFlags text) Alike
      (items top first k f read) (items (top && ending.isEmpty) (first && ending.isEmpty) k' g read')
  more {top : Bool} {f g : PatternFlags} {node node' : PatternNode} {k' n : Nat} (le : k ≤ k')
    (beside : Beside ending base top false f g [] []) (alike : Alike node node') :
    Follows ending base n f.verbose (fun _ => False) Alike (moreAlternatives top k f node)
      (moreAlternatives (top && ending.isEmpty) k' g node')
  alternatives {top : Bool} {f g : PatternFlags} {k' n : Nat} (le : k ≤ k')
    (beside : Beside ending base top top f g [] []) :
    Follows ending base n f.verbose (fun text => top ∧ OpensWithFlags text) Alike
      (alternatives top k f) (alternatives (top && ending.isEmpty) k' g)

theorem followsUpTo_zero : FollowsUpTo ending base 0 where
  items _ _ := fails_fail.follows
  more _ _ _ := fails_fail.follows
  alternatives _ _ := fails_fail.follows

variable (plain : base.verbose = false) (upTo : FollowsUpTo ending base k) (le : k ≤ k')

section Alternatives

include plain upTo le in
theorem follows_more (beside : Beside ending base top false f g [] []) (alike : Alike node node') :
    Follows ending base n f.verbose (fun _ => False) Alike (moreAlternatives top (k + 1) f node)
      (moreAlternatives (top && ending.isEmpty) (k' + 1) g node') := by
  refine (mirrors_accept (by decide)).seq fun further => ?_
  cases further with
  | false => exact follows_pure alike
  | true =>
    refine follows_get fun s t tracks => ?_
    have beside' := beside.further tracks
    have taken (some : ending ≠ []) (held : (if top then s.flags else f).verbose) : f.verbose := by
      cases top with
      | false => exact held
      | true => exact absurd held (beside'.not_verbose plain some rfl)
    refine .weaken (.bind (upTo.items le beside') (fun a b alike' => ?_) fun _ => ?_) taken
      fun _ _ held => absurd held.1 (by decide)
    · refine .bind (upTo.more le beside' alike') (fun c d alike'' => ?_) fun _ => stays_pure
      refine follows_pure fun groups => ?_
      exact congrArg₂ PatternWidth.either (alike groups) (alike'' groups)
    · exact stays_moreAlternatives.bind fun _ => stays_pure

include upTo le in
theorem follows_alternatives (beside : Beside ending base top top f g [] []) :
    Follows ending base n f.verbose (fun text => top ∧ OpensWithFlags text) Alike
      (alternatives top (k + 1) f) (alternatives (top && ending.isEmpty) (k' + 1) g) := by
  refine .weaken (.bind (upTo.items le beside) (fun a b alike => ?_) fun _ => ?_) (fun _ => id)
    fun _ text held => ⟨held.1, held.2.2⟩
  · exact upTo.more le { beside with outer := nofun } alike
  · exact stays_moreAlternatives

end Alternatives

section Groups

variable (flags : f.bare = g.bare) {start start' : Nat}

include upTo le flags

theorem FollowsUpTo.inner : Follows ending base n f.verbose (fun _ => False) Alike
    (PatternReader.alternatives false k f) (PatternReader.alternatives false k' g) :=
  .weaken (upTo.alternatives le (beside_inner flags)) (fun _ => id) fun _ _ held => nomatch held.1

theorem FollowsUpTo.branch : Follows ending base n f.verbose (fun _ => False) Alike
    (PatternReader.items false false k f []) (PatternReader.items false false k' g []) :=
  .weaken (upTo.items le (beside_inner flags)) (fun _ => id) fun _ _ held => nomatch held.1

/-- What stands in a group is followed up to its closing parenthesis. -/
theorem FollowsUpTo.enclosed {h h' : PatternNode → PatternReader PatternNode}
    (rest : ∀ a b, Alike a b → Follows ending base n verbose (fun _ => False) Alike (h a) (h' b)) :
    Follows ending base n verbose flagged Alike
      (do
        let body ← PatternReader.alternatives false k f
        closing start
        h body)
      (do
        let body ← PatternReader.alternatives false k' g
        closing start'
        h' body) := by
  refine (upTo.inner le flags).closed (fun a b alike => ?_) fun _ => ends_closing
  exact mirrors_closing.seq fun _ => rest a b alike

theorem FollowsUpTo.lookingBehind {h h' : PatternNode → PatternReader PatternNode}
    (rest : ∀ m a b, Alike a b →
      Follows ending base m verbose (fun _ => False) Alike (h a) (h' b)) :
    Follows ending base n verbose flagged Alike
      (do
        let outer := (← get).lookbehind
        modify fun s => { s with lookbehind := s.lookbehind.or (some s.groups.length) }
        let body ← PatternReader.alternatives false k f
        modify fun s => { s with lookbehind := outer }
        closing start
        h body)
      (do
        let outer := (← get).lookbehind
        modify fun s => { s with lookbehind := s.lookbehind.or (some s.groups.length) }
        let body ← PatternReader.alternatives false k' g
        modify fun s => { s with lookbehind := outer }
        closing start'
        h' body) := by
  refine follows_get fun s t tracks => ?_
  have opened : Mirrors ending base s.rest.length Eq
      (modify fun s => { s with lookbehind := s.lookbehind.or (some s.groups.length) })
      (modify fun s => { s with lookbehind := s.lookbehind.or (some s.groups.length) }) := by
    refine mirrors_modify fun s t tracks => { tracks with lookbehind := ?_ }
    change s.lookbehind.or (some s.groups.length) = t.lookbehind.or (some t.groups.length)
    rw [tracks.lookbehind, tracks.groups]
  refine opened.seq fun _ => ?_
  refine (upTo.inner le flags).closed (fun a b alike => ?_) fun _ => ends_closing.modify fun _ => rfl
  refine (mirrors_modify fun _ _ tracks' => ?_).seq fun _ => ?_
  · exact { tracks' with lookbehind := tracks.lookbehind }
  · exact mirrors_closing.seq fun _ => rest _ a b alike

theorem FollowsUpTo.conditional {h h' : PatternNode → PatternNode → PatternReader PatternNode}
    (rest : ∀ a b c d, Alike a b → Alike c d →
      Follows ending base n verbose (fun _ => False) Alike (h a c) (h' b d)) :
    Follows ending base n verbose flagged Alike
      (do
        let yes ← PatternReader.items false false k f []
        let no ← if ← accept '|' then do
            let no ← PatternReader.items false false k f []
            if (← peek) = some ['|'] then fail .tooManyBranches
            pure no
          else pure .empty
        closing start
        h yes no)
      (do
        let yes ← PatternReader.items false false k' g []
        let no ← if ← accept '|' then do
            let no ← PatternReader.items false false k' g []
            if (← peek) = some ['|'] then fail .tooManyBranches
            pure no
          else pure .empty
        closing start'
        h' yes no) := by
  have closed (a b c d) (first : Alike a b) (second : Alike c d) :
      Follows ending base n verbose (fun _ => False) Alike
        (do closing start; h a c) (do closing start'; h' b d) :=
    mirrors_closing.seq fun _ => rest a b c d first second
  have ends (a c) : Ends (do closing start; h a c) := ends_closing
  refine (upTo.branch le flags).closed (fun a b alike => ?_) fun a => .accept (ends a .empty)
  refine (mirrors_accept (by decide)).seq fun further => ?_
  refine follows_ite (fun _ => ?_) fun _ => closed a b _ _ alike fun _ => rfl
  refine (upTo.branch le flags).closed (fun c d alike' => ?_) fun c => .peek (ends a c)
  refine follows_peek rfl fun token => ?_
  exact follows_unless fails_fail.bind fun _ => closed a b c d alike alike'

end Groups

/-- Whether flags for the whole pattern are read as, or behind, what an opening parenthesis began. -/
def Opening.Late (first : Bool) (read : List (ItemSort × PatternNode)) : Opening → Text → Prop
  | .nothing, text => first ∧ read = [] ∧ OpensWithFlags text
  | .wholeFlags _, _ => first ∧ read = []
  | _, _ => False

section Items

variable (beside : Beside ending base top first f g read read')

include upTo le beside

/-- Behind an item flags for the whole pattern come late in both readings. -/
theorem FollowsUpTo.behindItem (some : read ≠ []) : Follows ending base n f.verbose flagged Alike
    (PatternReader.items top first k f read)
    (PatternReader.items (top && ending.isEmpty) (first && ending.isEmpty) k' g read') :=
  .weaken (upTo.items le beside) (fun _ => id) fun _ _ held => absurd held.2.1 some

theorem FollowsUpTo.pushed {item item' : ItemSort × PatternNode} (pair : AlikeItem item item') :
    Follows ending base n f.verbose flagged Alike
      (PatternReader.items top first k f (item :: read))
      (PatternReader.items (top && ending.isEmpty) (first && ending.isEmpty) k' g (item' :: read')) :=
  upTo.behindItem le (beside.push pair) (List.cons_ne_nil _ _)

include plain in
theorem FollowsUpTo.skipped (held : f.verbose) : Follows ending base n f.verbose flagged Alike
    (PatternReader.items top first k f read)
    (PatternReader.items (top && ending.isEmpty) (first && ending.isEmpty) k' g read') :=
  .weaken (upTo.items le beside) (fun _ => id) fun some _ late =>
    absurd held (beside.not_verbose plain some (beside.outer late.1))

include plain in
theorem FollowsUpTo.line (held : f.verbose) : Follows ending base n f.verbose flagged Alike
    (do
      skipLine ((← get).rest.length + 1)
      PatternReader.items top first k f read)
    (do
      skipLine ((← get).rest.length + 1)
      PatternReader.items (top && ending.isEmpty) (first && ending.isEmpty) k' g read') := by
  refine follows_get fun s t tracks => ?_
  have enough' : s.rest.length + ending.length < t.rest.length + 1 := by
    rw [tracks.rest, List.length_append]
    exact Nat.lt_succ_self _
  have line : Follows ending base s.rest.length True (fun _ => False) Eq
      (skipLine (s.rest.length + 1)) (skipLine (t.rest.length + 1)) :=
    follows_skipLine (Nat.lt_succ_self _) enough'
  refine .bind (line.weaken (fun _ _ => held) fun _ _ => False.elim) (fun _ _ _ => ?_) fun _ => ?_
  · exact upTo.skipped plain le beside held
  · exact stays_items

/-- Flags for the whole pattern come late behind the beginning of a longer one. -/
theorem FollowsUpTo.wholeFlags {on : List Flag} {start start' : Nat} :
    Follows ending base n verbose (fun _ => first ∧ read = []) Alike
      (do
        setFlags on
        if !first || read ≠ [] then failAt .lateGlobalFlags start
        PatternReader.items top first k (← get).flags read)
      (do
        setFlags on
        if !(first && ending.isEmpty) || read' ≠ [] then failAt .lateGlobalFlags start'
        PatternReader.items (top && ending.isEmpty) (first && ending.isEmpty) k' (← get).flags
          read') := by
  have same : read = [] ↔ read' = [] := by
    cases beside.alike with
    | nil => exact Iff.rfl
    | cons _ _ => exact iff_of_false (List.cons_ne_nil _ _) (List.cons_ne_nil _ _)
  cases ending with
  | nil =>
    have nowhere {p : Prop} (some : ([] : Text) ≠ []) : p := absurd rfl some
    simp only [List.isEmpty_nil, Bool.and_true, ne_eq, same]
    refine mirrors_setFlags.seq fun _ => follows_unless fails_failAt.bind fun _ => ?_
    refine follows_get fun s t tracks => ?_
    have rest := upTo.items (n := s.rest.length) le
      { beside with flags := tracks.flags, kept := fun some => nowhere some }
    simp only [List.isEmpty_nil, Bool.and_true] at rest
    exact rest.weaken nowhere nowhere
  | cons c more =>
    -- The second reading is in a group: it refuses the flags wherever they stand.
    intro s t tracks a s' run
    obtain ⟨_, m, _, run⟩ := bind_eq_ok_iff.mp run
    obtain ⟨early, _⟩ := of_unless fails_failAt.bind run
    simp only [Bool.or_eq_true, Bool.not_eq_true', decide_eq_true_eq, not_or, not_not,
      Bool.not_eq_false] at early
    refine .inr (.inr ⟨List.cons_ne_nil c more, early, some start', ?_⟩)
    simp only [List.isEmpty_cons, Bool.and_false]
    rfl

include plain in
theorem follows_items :
    Follows ending base n f.verbose (fun text => first ∧ read = [] ∧ OpensWithFlags text) Alike
      (items top first (k + 1) f read)
      (items (top && ending.isEmpty) (first && ending.isEmpty) (k' + 1) g read') := by
  have flags := beside.flags
  have same : g.verbose = f.verbose := (congrArg PatternFlags.verbose flags).symm
  intro s t tracks a s' run
  have ended (done : (pure (sequence read) : PatternReader PatternNode) s = .ok (a, s')) :
      Outcome ending base n f.verbose (first ∧ read = [] ∧ OpensWithFlags s.rest) Alike a s'
        ((pure (sequence read') : PatternReader PatternNode) t) := by
    cases done
    exact .inl ⟨_, t, rfl, alike_sequence beside.alike, tracks⟩
  rw [items, peek_bind_eq] at run ⊢
  rcases tracks.headToken? with there | ⟨spent, there⟩
  · rw [there]
    generalize found : headToken? s.rest = token at run ⊢
    revert run
    split
    · exact ended
    · exact ended
    · exact ended
    · next token _ _ =>
      intro run
      refine Follows.behind (fun text => first ∧ read = [] ∧ OpensWithFlags text) ?_ tracks found run
      split
      · exact mirrors_escape.bind fun _ _ pair => upTo.pushed le beside pair
      · next c more _ _ _ =>
        rw [same]
        refine follows_ite (fun held => ?_) fun _ => ?_
        · exact upTo.skipped plain le beside (Bool.and_eq_true_iff.mp held).1
        refine follows_ite (fun held => ?_) fun _ => ?_
        · exact upTo.line plain le beside (Bool.and_eq_true_iff.mp held).1
        refine follows_ite (fun _ => ?_) fun _ => ?_
        · exact mirrors_readSet.bind fun _ _ pair => upTo.pushed le beside ⟨rfl, pair⟩
        refine follows_ite (fun _ => ?_) fun _ => ?_
        · refine follows_get fun s t tracks => mirrors_repeatBounds?.seq fun bounds => ?_
          cases bounds with
          | none => exact upTo.pushed le beside ⟨rfl, alike_char _⟩
          | some bounds =>
            refine (mirrors_repeatLast beside.alike).bind fun items items' pairs => ?_
            exact upTo.behindItem le { beside with alike := pairs.2 } pairs.1
        refine follows_ite (fun _ => upTo.pushed le beside ⟨rfl, fun _ => rfl⟩) fun _ => ?_
        refine follows_ite (fun _ => upTo.pushed le beside ⟨rfl, fun _ => rfl⟩) fun _ => ?_
        refine follows_ite (fun _ => upTo.pushed le beside ⟨rfl, fun _ => rfl⟩) fun _ => ?_
        refine follows_ite (fun paren => ?_) fun _ => upTo.pushed le beside ⟨rfl, alike_char _⟩
        subst paren
        obtain rfl := eq_nil_of_headToken? found (by decide)
        -- What an opening parenthesis begins is told first; only then are flags seen to come late.
        refine follows_get fun s t tracks => (mirrors_opening flags).bind_late
          (Opening.Late first read) (fun o o' openings => ?_) fun s o s' run held => ?_
        · cases openings with
          | capture word =>
            refine mirrors_openGroup.seq fun index => upTo.enclosed le flags fun a b alike => ?_
            exact (mirrors_closeGroup alike).seq fun _ => upTo.pushed le beside ⟨rfl, alike⟩
          | plain inner =>
            exact upTo.enclosed le inner fun a b alike => upTo.pushed le beside ⟨rfl, alike⟩
          | atomic =>
            exact upTo.enclosed le flags fun a b alike => upTo.pushed le beside ⟨rfl, alike⟩
          | ahead negated =>
            exact upTo.enclosed le flags fun a b _ => upTo.pushed le beside ⟨rfl, fun _ => rfl⟩
          | behind negated =>
            refine upTo.lookingBehind le flags fun m a b alike => ?_
            exact (mirrors_lookbehindNode alike).bind fun _ _ alike =>
              upTo.pushed le beside ⟨rfl, alike⟩
          | condition index =>
            refine upTo.conditional le flags fun a b c d yes no => ?_
            refine upTo.pushed le beside ⟨rfl, fun groups => ?_⟩
            exact congrArg₂ PatternWidth.either (yes groups) (no groups)
          | item alike => exact upTo.pushed le beside ⟨rfl, alike⟩
          | nothing => exact upTo.items le beside
          | wholeFlags on => exact upTo.wholeFlags le beside
        · cases o with
          | nothing => exact ⟨held.1, held.2.1, opensWithFlags_of_nothing run held.2.2⟩
          | wholeFlags on => exact ⟨held.1, held.2, opensWithFlags_of_wholeFlags run⟩
          | _ => exact held.elim
      · exact follows_pure (alike_sequence beside.alike)
  · -- To the second reading the end of the first one is a closing parenthesis, which ends items too.
    rw [headToken?_eq_none_iff.mpr spent] at run
    rw [there]
    exact ended run

end Items

include plain in
theorem followsUpTo (k : Nat) : FollowsUpTo ending base k := by
  -- Every call among the three goes one level less deep, so that one induction serves them all.
  induction k with
  | zero => exact followsUpTo_zero
  | succ k ih =>
    refine ⟨fun {_ _ _ _ _ _ k' _} le beside => ?_, fun {_ _ _ _ _ k' _} le beside alike => ?_,
      fun {_ _ _ k' _} le beside => ?_⟩
    all_goals
      obtain ⟨j, rfl⟩ := Nat.exists_eq_succ_of_ne_zero (Nat.ne_zero_of_lt le)
      replace le := Nat.le_of_succ_le_succ le
    · exact follows_items plain ih le beside
    · exact follows_more plain ih le beside alike
    · exact follows_alternatives ih le beside

end Traceability.PatternReader
