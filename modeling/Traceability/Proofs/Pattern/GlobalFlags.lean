import Traceability.Proofs.Pattern.GroupTracks

/-!
# Flags for a whole pattern

A pattern may begin with flags for the whole of it, comments aside. Only then are such flags read at the
start of a reading.
-/
namespace Traceability

namespace PatternReader

open PatternReading

variable {α β : Type} {s s' : PatternReading}

/-! ## Results that never come -/

/-- Whether a reader gives no result of a kind. -/
def Never (bad : α → Prop) (x : PatternReader α) : Prop := ∀ s a s', x s = .ok (a, s') → ¬ bad a

variable {bad : α → Prop} {x y : PatternReader α}

theorem never_pure {a : α} (good : ¬ bad a) : Never bad (pure a) := by
  intro s a' s' run
  cases run
  exact good

theorem Fails.never (fails : Fails x) : Never bad x := fun s _ _ run => absurd run (fails s _)

theorem Never.after {z : PatternReader β} {f : β → PatternReader α} (never : ∀ b, Never bad (f b)) :
    Never bad (z >>= f) := by
  intro s a s' run
  obtain ⟨b, m, _, onward⟩ := bind_eq_ok_iff.mp run
  exact never b m a s' onward

theorem Never.ite {p : Prop} [Decidable p] (first : Never bad x) (second : Never bad y) :
    Never bad (if p then x else y) := by
  split
  · exact first
  · exact second

/-- A branch that never gives such a result has not been taken. -/
theorem Never.skip {p : Prop} [Decidable p] {a : α} (never : Never bad x) (held : bad a)
    (run : (if p then x else y) s = .ok (a, s')) : y s = .ok (a, s') := by
  split at run
  · exact absurd held (never _ _ _ run)
  · exact run

end PatternReader

/-! ## Comments and flags in the text -/

/-- The text behind the comment that it begins in. -/
def behindComment? : Text → Option Text
  | '\\' :: _ :: rest => behindComment? rest
  | ')' :: rest => some rest
  | _ :: rest => behindComment? rest
  | [] => none

/-- Whether a text begins with flags for a whole pattern, comments aside. -/
inductive OpensWithFlags : Text → Prop
  | flags {letters : Text} (rest : Text) (some : letters ≠ [])
      (each : ∀ c ∈ letters, (PatternReader.flag? c).isSome) :
      OpensWithFlags ('(' :: '?' :: letters ++ ')' :: rest)
  | comment {text rest : Text} (behind : behindComment? text = some rest)
      (opens : OpensWithFlags rest) : OpensWithFlags ('(' :: '?' :: '#' :: text)

theorem OpensWithFlags.head? {text : Text} (opens : OpensWithFlags text) :
    text.head? = some '(' := by
  cases opens with
  | flags => rfl
  | comment => rfl

namespace PatternReader

open PatternReading

variable {s s' : PatternReading}

theorem behindComment?_eq {text token : Text} (found : headToken? text = some token) :
    behindComment? text =
      if token = [')'] then some (text.drop token.length) else behindComment? (text.drop token.length) := by
  unfold headToken? at found
  split at found
  · cases found
    rfl
  · next c rest other =>
    cases found
    by_cases closed : c = ')'
    · subst closed
      rfl
    · rw [if_neg fun same => closed (List.cons.inj same).1]
      exact behindComment?.eq_3 c rest other closed
  · cases found

theorem behindComment?_of_skipComment {start k : Nat} {u : Unit}
    (run : skipComment start k s = .ok (u, s')) : behindComment? s.rest = some s'.rest := by
  induction k generalizing s with
  | zero => exact absurd run (fails_fail s _)
  | succ k ih =>
    obtain ⟨token, found, _, onward⟩ := exists_token fails_failAt run
    rw [behindComment?_eq found]
    dsimp only at onward
    by_cases closed : token = [')']
    · rw [if_pos closed] at onward ⊢
      cases onward
      rfl
    · rw [if_neg closed] at onward ⊢
      exact ih onward

theorem exists_of_tokenFlag? {token : Text} {flag : Flag} (found : tokenFlag? token = some flag) :
    ∃ c, token = [c] ∧ (flag? c).isSome := by
  unfold tokenFlag? at found
  split at found
  · next c => exact ⟨c, rfl, by rw [found]; rfl⟩
  · cases found

/-- Letters of flags, up to a closing parenthesis. -/
theorem letters_of_flagsOn {k : Nat} {flag : Flag} {read on : List Flag}
    (run : flagsOn k flag read s = .ok ((on, ')'), s')) :
    ∃ letters, s.rest = letters ++ ')' :: s'.rest ∧ ∀ c ∈ letters, (flag? c).isSome := by
  induction k generalizing s flag read with
  | zero => exact absurd run (fails_fail s _)
  | succ k ih =>
    replace run := (of_unless fails_fail.bind (of_unless fails_fail.bind run).2).2
    obtain ⟨token, found, _, onward⟩ := exists_token fails_fail run
    dsimp only at onward
    split at onward
    · next last =>
      simp only [Bool.or_eq_true, decide_eq_true_eq] at last
      rcases last with (rfl | rfl) | rfl
      · cases onward
        exact ⟨[], rest_eq_cons found, fun _ none => absurd none List.not_mem_nil⟩
      · cases onward
      · cases onward
    · cases same : tokenFlag? token with
      | none =>
        rw [same] at onward
        exact absurd onward ((fails_fail.ite fails_fail) _ _)
      | some flag' =>
        rw [same] at onward
        obtain ⟨c, rfl, known⟩ := exists_of_tokenFlag? same
        obtain ⟨letters, whole, each⟩ := ih onward
        refine ⟨c :: letters, ?_, List.forall_mem_cons.mpr ⟨known, each⟩⟩
        rw [rest_eq_cons found, whole]
        rfl

theorem whole_of_flagsBehind {k : Nat} {on on' : List Flag} {stop : Char}
    (run : flagsBehind k on stop s = .ok (.whole on', s')) : stop = ')' ∧ s' = s := by
  have part (off : List Flag) : Never (fun group => ∃ on, group = FlagGroup.whole on) (do
      if off.elem .template then fail .globalFlagOff 1
      if on.any off.elem then fail .flagOnAndOff 1
      return FlagGroup.part on off) :=
    .ite fails_fail.bind.never (.ite fails_fail.bind.never (never_pure nofun))
  unfold flagsBehind at run
  by_cases closed : stop = ')'
  · rw [if_pos closed] at run
    cases run
    exact ⟨closed, rfl⟩
  · rw [if_neg closed] at run
    replace run := (of_unless fails_fail.bind run).2
    refine absurd ⟨on', rfl⟩ (Never.ite (.after fun read => ?_) (part []) _ _ _ run)
    cases read with
    | none => exact fails_fail.bind.never
    | some token =>
      dsimp only
      split
      · exact .after part
      · exact (fails_fail.bind.ite fails_fail.bind).never

/-- Flags for the whole pattern are letters in parentheses. -/
theorem letters_of_flagGroup {token : Text} {on : List Flag}
    (run : flagGroup token s = .ok (.whole on, s')) :
    ∃ letters, token ++ s.rest = letters ++ ')' :: s'.rest ∧ letters ≠ [] ∧
      ∀ c ∈ letters, (flag? c).isSome := by
  rw [flagGroup_eq] at run
  obtain ⟨_, _, here, run⟩ := bind_eq_ok_iff.mp run
  cases here
  dsimp only at run
  cases same : tokenFlag? token with
  | none =>
    rw [same] at run
    cases (whole_of_flagsBehind run).1
  | some flag =>
    rw [same] at run
    obtain ⟨⟨on', stop⟩, m, read, run⟩ := bind_eq_ok_iff.mp run
    obtain ⟨rfl, rfl⟩ := whole_of_flagsBehind run
    obtain ⟨c, rfl, known⟩ := exists_of_tokenFlag? same
    obtain ⟨letters, whole, each⟩ := letters_of_flagsOn read
    refine ⟨c :: letters, ?_, List.cons_ne_nil _ _, List.forall_mem_cons.mpr ⟨known, each⟩⟩
    rw [whole]
    rfl

/-- Whether an opening begins an item. -/
def Opening.IsItem : Opening → Prop
  | .nothing => False
  | .wholeFlags _ => False
  | _ => True

theorem never_item {o : Opening} (held : o.IsItem := by trivial) :
    Never (¬ Opening.IsItem ·) (pure o) := never_pure (not_not_intro held)

/-- Names of groups begin items. -/
theorem never_named {f : PatternFlags} : Never (¬ Opening.IsItem ·) (do
    if ← accept '<' then
      let word ← nameUpTo '>' "group name"
      checkGroupName word 1
      return .capture (some word)
    else if ← accept '=' then return .item (← namedReference f)
    else match ← next with
      | none => fail .unexpectedEnd
      | some c => fail (.unknownExtension ("?P" ++ c)) (c.length + 2)) := by
  refine .after fun _ => .ite (.after fun _ => .after fun _ => never_item) ?_
  refine .after fun _ => .ite (.after fun _ => never_item) (.after fun read => ?_)
  cases read <;> exact fails_fail.never

theorem never_lookbehind : Never (¬ Opening.IsItem ·) (do
    match ← next with
    | none => fail .unexpectedEnd
    | some c =>
      if c = ['='] then return .behind false
      else if c = ['!'] then return .behind true
      else fail (.unknownExtension ("?<" ++ c)) (c.length + 2)) := by
  refine .after fun read => ?_
  cases read with
  | none => exact fails_fail.never
  | some c => exact .ite never_item (.ite never_item fails_fail.never)

/-- Behind an opening parenthesis, what is not an item is a comment or flags for the whole pattern. -/
theorem not_isItem_of_opening {f : PatternFlags} {start : Nat} {o : Opening} (other : ¬ o.IsItem)
    (run : opening f start s = .ok (o, s')) :
    (o = .nothing ∧ ∃ text, s.rest = '?' :: '#' :: text ∧ behindComment? text = some s'.rest) ∨
    (∃ on, o = .wholeFlags on) ∧ ∃ letters, s.rest = '?' :: letters ++ ')' :: s'.rest ∧
      letters ≠ [] ∧ ∀ c ∈ letters, (flag? c).isSome := by
  obtain ⟨_ | _, m, here, run⟩ := bind_eq_ok_iff.mp run
  · cases run
    exact absurd trivial other
  obtain ⟨marked, _, rfl⟩ := accept_eq_true_iff.mp here
  replace marked := rest_eq_cons marked
  obtain ⟨token, found, _, run⟩ := exists_token fails_fail run
  replace run := Never.skip never_item other (never_named.skip other run)
  by_cases comment : token = ['#']
  · rw [if_pos comment] at run
    subst comment
    obtain ⟨_, _, here, run⟩ := bind_eq_ok_iff.mp run
    cases here
    obtain ⟨_, _, skipped, run⟩ := bind_eq_ok_iff.mp run
    cases run
    refine .inl ⟨rfl, _, ?_, behindComment?_of_skipComment skipped⟩
    rw [marked, rest_eq_cons found]
  rw [if_neg comment] at run
  replace run := Never.skip never_item other (Never.skip never_item other run)
  replace run := never_lookbehind.skip other run
  replace run := Never.skip (.after fun _ => never_item) other run
  replace run := Never.skip never_item other run
  split at run
  · obtain ⟨group, m, read, run⟩ := bind_eq_ok_iff.mp run
    cases group with
    | part on off =>
      cases run
      exact absurd trivial other
    | whole on =>
      cases run
      obtain ⟨letters, whole, some, each⟩ := letters_of_flagGroup read
      refine .inr ⟨⟨on, rfl⟩, letters, ?_, some, each⟩
      rw [marked]
      exact congrArg ('?' :: ·) ((eq_append_of_headToken? found).1.trans whole)
  · exact absurd run (fails_fail _ _)

variable {f : PatternFlags} {start : Nat}

theorem opensWithFlags_of_nothing (run : opening f start s = .ok (.nothing, s'))
    (opens : OpensWithFlags s'.rest) : OpensWithFlags ('(' :: s.rest) := by
  rcases not_isItem_of_opening (nofun : ¬ Opening.nothing.IsItem) run with
    ⟨_, text, marked, behind⟩ | ⟨⟨_, never⟩, _⟩
  · rw [marked]
    exact .comment behind opens
  · cases never

theorem opensWithFlags_of_wholeFlags {on : List Flag}
    (run : opening f start s = .ok (.wholeFlags on, s')) : OpensWithFlags ('(' :: s.rest) := by
  rcases not_isItem_of_opening (nofun : ¬ (Opening.wholeFlags on).IsItem) run with
    ⟨never, _⟩ | ⟨_, letters, marked, some, each⟩
  · cases never
  · rw [marked]
    exact .flags s'.rest some each

end PatternReader

end Traceability
