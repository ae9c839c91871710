import Traceability.Proofs.Pattern.Reading

/-!
# Reading a pattern twice

A pattern may be read with other flags, or inside a group of a longer pattern. The second reading tracks
the first one: wherever the first goes on, the second goes on in the same way, until the text of the
pattern ends.
-/
namespace Traceability

/-- The flags without the one that a reading never asks for. -/
def PatternFlags.bare (f : PatternFlags) : PatternFlags := { f with multiline := false }

namespace PatternReading

/-- Whether a second reading is where a first one is. Behind the text of the first, which is not longer
than a bound, the second one has an ending that starts with a closing parenthesis, if it is not empty;
then the flags of the whole pattern are those that it began with. -/
structure Tracks (ending : Text) (base : PatternFlags) (bound : Nat) (s t : PatternReading) : Prop where
  closed : ∀ c ∈ ending.head?, c = ')'
  rest : t.rest = s.rest ++ ending
  length : s.rest.length ≤ bound
  whole : s.rest ≠ ['\\']
  flags : s.flags.bare = t.flags.bare
  kept : ending ≠ [] → s.flags.bare = base
  wide : s.wide = t.wide
  groups : s.groups = t.groups
  names : s.names = t.names
  lookbehind : s.lookbehind = t.lookbehind
  late : s.late = t.late
  conditions : s.conditions.map (·.1) = t.conditions.map (·.1)

end PatternReading

namespace PatternReading.Tracks

open PatternReader

variable {ending : Text} {base : PatternFlags} {n m : Nat} {s t : PatternReading} {token : Text}

theorem weaken (tracks : Tracks ending base n s t) (le : n ≤ m) : Tracks ending base m s t :=
  { tracks with length := Nat.le_trans tracks.length le }

theorem tighten (tracks : Tracks ending base n s t) : Tracks ending base s.rest.length s t :=
  { tracks with length := Nat.le_refl _ }

theorem length_le (tracks : Tracks ending base n s t) : s.rest.length ≤ t.rest.length := by
  rw [tracks.rest, List.length_append]
  exact Nat.le_add_right _ _

theorem headToken? (tracks : Tracks ending base n s t) : PatternReader.headToken? t.rest =
      PatternReader.headToken? s.rest ∨
    s.rest = [] ∧ PatternReader.headToken? t.rest = some [')'] := by
  rw [tracks.rest]
  by_cases ended : s.rest = []
  · rw [ended, List.nil_append]
    cases same : ending with
    | nil => exact .inl rfl
    | cons c more =>
      have closed := tracks.closed c (by rw [same]; rfl)
      exact .inr ⟨rfl, by simp [PatternReader.headToken?, closed]⟩
  · exact .inl (headToken?_append ended tracks.whole ending)

theorem headToken?_eq_iff (tracks : Tracks ending base n s t) (other : token ≠ [')']) :
    PatternReader.headToken? s.rest = some token ↔ PatternReader.headToken? t.rest = some token := by
  rcases tracks.headToken? with same | ⟨spent, closing⟩
  · rw [same]
  · rw [headToken?_eq_none_iff.mpr spent, closing]
    exact iff_of_false nofun fun same => other (Option.some.inj same).symm

theorem headToken?_of_some (tracks : Tracks ending base n s t)
    (found : PatternReader.headToken? s.rest = some token) :
    PatternReader.headToken? t.rest = some token := by
  rcases tracks.headToken? with same | ⟨spent, _⟩
  · exact same.trans found
  · rw [headToken?_eq_none_iff.mpr spent] at found
    cases found

theorem not_sort (tracks : Tracks ending base n s t) {p : Char → Bool} (other : p ')' = false)
    (neg : ∀ c, PatternReader.headToken? s.rest = some [c] → p c = false) :
    ∀ c, PatternReader.headToken? t.rest = some [c] → p c = false := by
  intro c there
  rcases tracks.headToken? with same | ⟨_, closing⟩
  · exact neg c (same ▸ there)
  · rw [closing] at there
    cases there
    exact other

/-- A further token is a token of both. -/
theorem behind (tracks : Tracks ending base n s t)
    (found : PatternReader.headToken? s.rest = some token)
    (whole : (s.behind token).rest ≠ ['\\']) : Tracks ending base n (s.behind token) (t.behind token) := by
  have start := (eq_append_of_headToken? found).1
  have within : token.length ≤ s.rest.length := by
    rw [start, List.length_append]
    exact Nat.le_add_right _ _
  exact
    { tracks with
      whole
      rest := by
        change t.rest.drop token.length = s.rest.drop token.length ++ ending
        rw [tracks.rest, List.drop_append_of_le_length within]
      length := by
        change (s.rest.drop token.length).length ≤ n
        rw [List.length_drop]
        exact Nat.le_trans (Nat.sub_le _ _) tracks.length }

theorem whole_right (tracks : Tracks ending base n s t) : t.rest ≠ ['\\'] := by
  rw [tracks.rest]
  intro stray
  rcases List.append_eq_singleton_iff.mp stray with ⟨_, closed⟩ | ⟨whole, _⟩
  · have := tracks.closed '\\' (by rw [closed]; rfl)
    exact absurd this (by decide)
  · exact tracks.whole whole

end PatternReading.Tracks

namespace PatternReader

open PatternReading

variable {α β γ δ : Type} {ending : Text} {base : PatternFlags} {n : Nat} {verbose verbose' : Prop}
  {flagged flagged' : Text → Prop} {Q : α → β → Prop} {P : γ → δ → Prop} {s s' t : PatternReading}
  {x : PatternReader α} {y : PatternReader β} {f : α → PatternReader γ} {g : β → PatternReader δ}

/-- What a second reading comes to. It goes on as the first one, but for two cases where there is an
ending: a comment that the first one reads up to the end of its text takes the ending in, and flags for
the whole pattern come late. -/
def Outcome (ending : Text) (base : PatternFlags) (n : Nat) (verbose flagged : Prop)
    (Q : α → β → Prop) (a : α) (s' : PatternReading)
    (second : Except PatternError (β × PatternReading)) : Prop :=
  (∃ b t', second = .ok (b, t') ∧ Q a b ∧ Tracks ending base n s' t') ∨
  (ending ≠ [] ∧ verbose ∧ s'.rest = []) ∨
  (ending ≠ [] ∧ flagged ∧ ∃ position, second = .error ⟨.lateGlobalFlags, position⟩)

/-- Whether a second reader goes on as a first one that succeeds, with results that fit. -/
def Follows (ending : Text) (base : PatternFlags) (n : Nat) (verbose : Prop)
    (flagged : Text → Prop) (Q : α → β → Prop) (x : PatternReader α) (y : PatternReader β) : Prop :=
  ∀ ⦃s t⦄, Tracks ending base n s t → ∀ ⦃a s'⦄, x s = .ok (a, s') →
    Outcome ending base n verbose (flagged s.rest) Q a s' (y t)

/-- The usual case, without exceptions. -/
abbrev Mirrors (ending : Text) (base : PatternFlags) (n : Nat) (Q : α → β → Prop)
    (x : PatternReader α) (y : PatternReader β) : Prop :=
  Follows ending base n False (fun _ => False) Q x y

theorem mirrors_iff : Mirrors ending base n Q x y ↔
    ∀ ⦃s t⦄, Tracks ending base n s t → ∀ ⦃a s'⦄, x s = .ok (a, s') →
      ∃ b t', y t = .ok (b, t') ∧ Q a b ∧ Tracks ending base n s' t' := by
  refine ⟨fun mirrors s t tracks a s' run => ?_, fun mirrors s t tracks a s' run => ?_⟩
  · rcases mirrors tracks run with done | ⟨_, never, _⟩ | ⟨_, never, _⟩
    · exact done
    · exact never.elim
    · exact never.elim
  · exact .inl (mirrors tracks run)

/-! ## Putting readers together -/

theorem Outcome.weaken {late late' : Prop} {a : α} {second : Except PatternError (β × PatternReading)}
    (outcome : Outcome ending base n verbose late Q a s' second)
    (taken : ending ≠ [] → verbose → verbose') (later : ending ≠ [] → late → late') :
    Outcome ending base n verbose' late' Q a s' second := by
  rcases outcome with done | ⟨some, held, spent⟩ | ⟨some, held, failed⟩
  · exact .inl done
  · exact .inr (.inl ⟨some, taken some held, spent⟩)
  · exact .inr (.inr ⟨some, later some held, failed⟩)

/-- Where flags do not come late, there is nothing more to say of them. -/
theorem Outcome.early {late : Prop} {a : α} {second : Except PatternError (β × PatternReading)}
    (outcome : Outcome ending base n verbose False Q a s' second) :
    Outcome ending base n verbose late Q a s' second :=
  outcome.weaken (fun _ => id) fun _ => False.elim

theorem Follows.weaken (follows : Follows ending base n verbose flagged Q x y)
    (taken : ending ≠ [] → verbose → verbose')
    (late : ending ≠ [] → ∀ text, flagged text → flagged' text) :
    Follows ending base n verbose' flagged' Q x y :=
  fun _ _ tracks _ _ run => (follows tracks run).weaken taken fun some => late some _

theorem Fails.follows (fails : Fails x) : Follows ending base n verbose flagged Q x y :=
  fun s _ _ a s' run => absurd run (fails s (a, s'))

theorem follows_pure {a : α} {b : β} (fits : Q a b) :
    Follows ending base n verbose flagged Q (pure a) (pure b) := by
  intro s t tracks a' s' run
  cases run
  exact .inl ⟨b, t, rfl, fits, tracks⟩

/-- Whether flags come late is told from what has been read. -/
theorem Mirrors.bind_late (late : α → Text → Prop) (first : Mirrors ending base n Q x y)
    (rest : ∀ a b, Q a b → Follows ending base n verbose (late a) P (f a) (g b))
    (early : ∀ ⦃s a s'⦄, x s = .ok (a, s') → late a s'.rest → flagged s.rest) :
    Follows ending base n verbose flagged P (x >>= f) (y >>= g) := by
  intro s t tracks c s'' run
  obtain ⟨a, s', read, onward⟩ := bind_eq_ok_iff.mp run
  obtain ⟨b, t', read', fits, tracks'⟩ := mirrors_iff.mp first tracks read
  rw [bind_of_ok read']
  exact (rest a b fits tracks' onward).weaken (fun _ => id) fun _ => early read

theorem Mirrors.bind (first : Mirrors ending base n Q x y)
    (rest : ∀ a b, Q a b → Follows ending base n verbose (fun _ => False) P (f a) (g b)) :
    Follows ending base n verbose flagged P (x >>= f) (y >>= g) :=
  first.bind_late (fun _ _ => False) rest fun _ _ _ _ => False.elim

/-- The usual case: the results are equal. -/
theorem Mirrors.seq {y : PatternReader α} {g : α → PatternReader δ}
    (first : Mirrors ending base n Eq x y)
    (rest : ∀ a, Follows ending base n verbose (fun _ => False) P (f a) (g a)) :
    Follows ending base n verbose flagged P (x >>= f) (y >>= g) :=
  first.bind fun a _ same => same ▸ rest a

theorem Mirrors.map {x y : PatternReader α} (same : Mirrors ending base n Eq x y) (h : α → γ) :
    Mirrors ending base n Eq (h <$> x) (h <$> y) := by
  rw [map_eq_pure_bind, map_eq_pure_bind]
  exact same.seq fun _ => follows_pure rfl

theorem Follows.bind (first : Follows ending base n verbose flagged Q x y)
    (rest : ∀ a b, Q a b → Follows ending base n verbose (fun _ => False) P (f a) (g b))
    (stays : ∀ a, Stays (f a)) : Follows ending base n verbose flagged P (x >>= f) (y >>= g) := by
  intro s t tracks c s'' run
  obtain ⟨a, s', read, onward⟩ := bind_eq_ok_iff.mp run
  rcases first tracks read with ⟨b, t', read', fits, tracks'⟩ | ⟨some, taken, spent⟩ |
    ⟨some, late, position, failed⟩
  · rw [bind_of_ok read']
    exact (rest a b fits tracks' onward).early
  · exact .inr (.inl ⟨some, taken, stays a spent onward⟩)
  · exact .inr (.inr ⟨some, late, position, bind_of_error failed⟩)

/-- What has to be closed is closed in the text of the first reading. -/
theorem Follows.closed (first : Follows ending base n verbose (fun _ => False) Q x y)
    (rest : ∀ a b, Q a b → Follows ending base n verbose' (fun _ => False) P (f a) (g b))
    (ends : ∀ a, Ends (f a)) : Follows ending base n verbose' flagged P (x >>= f) (y >>= g) := by
  intro s t tracks c s'' run
  obtain ⟨a, s', read, onward⟩ := bind_eq_ok_iff.mp run
  rcases first tracks read with ⟨b, t', read', fits, tracks'⟩ | ⟨_, _, spent⟩ | ⟨_, never, _⟩
  · rw [bind_of_ok read']
    exact (rest a b fits tracks' onward).early
  · exact absurd onward (ends a spent _)
  · exact never.elim

theorem follows_get {f : PatternReading → PatternReader γ} {g : PatternReading → PatternReader δ}
    (rest : ∀ s t, Tracks ending base s.rest.length s t →
      Follows ending base s.rest.length verbose flagged P (f s) (g t)) :
    Follows ending base n verbose flagged P (get >>= f) (get >>= g) := by
  intro s t tracks c s' run
  rcases rest s t tracks.tighten tracks.tighten run with ⟨b, t', onward, fits, tracks'⟩ | other
  · exact .inl ⟨b, t', onward, fits, tracks'.weaken tracks.length⟩
  · exact .inr other

theorem mirrors_set {s t : PatternReading} (tracks : Tracks ending base n s t) :
    Mirrors ending base n Eq (set s) (set t) := by
  intro _ _ _ a s' run
  cases run
  exact .inl ⟨(), t, rfl, rfl, tracks⟩

theorem mirrors_modify {f g : PatternReading → PatternReading}
    (keeps : ∀ s t, Tracks ending base n s t → Tracks ending base n (f s) (g t)) :
    Mirrors ending base n Eq (modify f) (modify g) := by
  intro s t tracks a s' run
  cases run
  exact .inl ⟨(), g t, rfl, rfl, keeps s t tracks⟩

section Choices

variable {p : Prop} [Decidable p] {x' : PatternReader α} {y' : PatternReader β}

theorem follows_ite (yes : p → Follows ending base n verbose flagged Q x y)
    (no : ¬ p → Follows ending base n verbose flagged Q x' y') :
    Follows ending base n verbose flagged Q (if p then x else x') (if p then y else y') := by
  split
  · next held => exact yes held
  · next other => exact no other

/-- What is refused is not looked at. -/
theorem follows_unless (fails : Fails x')
    (rest : ¬ p → Follows ending base n verbose flagged Q x y) :
    Follows ending base n verbose flagged Q (if p then x' else x) (if p then y' else y) :=
  follows_ite (fun _ => fails.follows) rest

theorem follows_ite_seq {y y' : PatternReader α} {g : α → PatternReader δ}
    (yes : Mirrors ending base n Eq x y) (no : Mirrors ending base n Eq x' y')
    (rest : ∀ a, Follows ending base n verbose (fun _ => False) P (f a) (g a)) :
    Follows ending base n verbose flagged P (if p then x >>= f else x' >>= f)
      (if p then y >>= g else y' >>= g) :=
  follows_ite (fun _ => yes.seq rest) fun _ => no.seq rest

end Choices

/-! ## Tokens -/

/-- A look at the next token, where a closing parenthesis is as good as the end. -/
theorem follows_peek {f : Option Text → PatternReader γ} {g : Option Text → PatternReader δ}
    (blind : g (some [')']) = g none)
    (same : ∀ token, Follows ending base n verbose flagged P (f token) (g token)) :
    Follows ending base n verbose flagged P (peek >>= f) (peek >>= g) := by
  intro s t tracks c s' run
  rw [peek_bind_eq] at run ⊢
  rcases tracks.headToken? with there | ⟨spent, there⟩
  · rw [there]
    exact same _ tracks run
  · rw [headToken?_eq_none_iff.mpr spent] at run
    rw [there, blind]
    exact same _ tracks run

/-- Going on behind a token that has been seen. -/
theorem Follows.behind (flagged : Text → Prop) {token : Text}
    {f : Option Text → PatternReader γ} {g : Option Text → PatternReader δ} {c : γ}
    (follows : Follows ending base n verbose (fun text => flagged (token ++ text)) P
      (f (some token)) (g (some token)))
    (tracks : Tracks ending base n s t) (found : headToken? s.rest = some token)
    (run : (next >>= f) s = .ok (c, s')) :
    Outcome ending base n verbose (flagged s.rest) P c s' ((next >>= g) t) := by
  obtain ⟨whole, onward⟩ := (next_bind_eq_ok_iff found).mp run
  have tracks' := tracks.behind found whole
  have there := tracks.headToken?_of_some found
  rw [bind_of_ok (next_eq_some_iff.mpr ⟨there, tracks'.whole_right, rfl⟩),
    (eq_append_of_headToken? found).1]
  exact follows tracks' onward

/-- A next token, where there has to be one. -/
theorem follows_next {f : Option Text → PatternReader γ} {g : Option Text → PatternReader δ}
    (same : ∀ token, Follows ending base n verbose (fun _ => False) P (f (some token))
      (g (some token)))
    (fails : Fails (f none)) :
    Follows ending base n verbose flagged P (next >>= f) (next >>= g) := by
  intro s t tracks c s' run
  obtain ⟨token, found, _, _⟩ := exists_token fails run
  exact Follows.behind _ ((same token).weaken (fun _ => id) fun _ _ => False.elim) tracks found run

theorem mirrors_accept {c : Char} (other : c ≠ ')') :
    Mirrors ending base n Eq (accept c) (accept c) := by
  intro s t tracks a s' run
  unfold accept at run ⊢
  rw [peek_bind_eq] at run ⊢
  have same : headToken? s.rest = some [c] ↔ headToken? t.rest = some [c] :=
    tracks.headToken?_eq_iff fun closing => other (List.cons.inj closing).1
  by_cases found : headToken? s.rest = some [c]
  · rw [if_pos found] at run
    rw [if_pos (same.mp found)]
    exact Follows.behind (fun _ => False) (follows_pure rfl) tracks found run
  · rw [if_neg found] at run
    rw [if_neg (mt same.mpr found)]
    cases run
    exact .inl ⟨false, t, rfl, rfl, tracks⟩

/-- Characters that are read as far as they are of a sort, no closing parenthesis being of it: it is
enough that as many may be read as there are. -/
theorem mirrors_upTo {p : Char → Bool} (other : p ')' = false) {k k' : Nat}
    (enough : k = k' ∨ n ≤ k ∧ n ≤ k') : Mirrors ending base n Eq (upTo p k) (upTo p k') := by
  rw [mirrors_iff]
  -- The bound gets smaller with the text, so that what was enough stays enough.
  induction k generalizing k' n with
  | zero =>
    intro s t tracks a s' run
    cases run
    rcases enough with rfl | ⟨none, _⟩
    · exact ⟨[], t, rfl, rfl, tracks⟩
    · have spent := List.eq_nil_of_length_eq_zero (Nat.le_zero.mp (Nat.le_trans tracks.length none))
      refine ⟨[], t, upTo_of_neg (tracks.not_sort other fun c found => ?_), rfl, tracks⟩
      rw [spent] at found
      cases found
  | succ k ih =>
    intro s t tracks a s' run
    by_cases more : ∃ c, headToken? s.rest = some [c] ∧ p c = true
    · obtain ⟨c, found, fits⟩ := more
      have shorter := length_behind_lt found
      obtain ⟨m, rfl⟩ : ∃ m, n = m + 1 := Nat.exists_eq_succ_of_ne_zero
        (Nat.ne_zero_of_lt (Nat.lt_of_lt_of_le shorter tracks.length))
      obtain ⟨j, rfl⟩ : ∃ j, k' = j + 1 := by
        rcases enough with rfl | ⟨_, enough⟩
        · exact ⟨k, rfl⟩
        · exact Nat.exists_eq_succ_of_ne_zero (Nat.ne_zero_of_lt enough)
      obtain ⟨whole, text, read, rfl⟩ := (upTo_succ_of_pos found fits).mp run
      have tracks' := tracks.behind found whole
      have within : Tracks ending base m (s.behind [c]) (t.behind [c]) :=
        tracks'.tighten.weaken (Nat.le_of_lt_succ (Nat.lt_of_lt_of_le shorter tracks.length))
      have enough : k = j ∨ m ≤ k ∧ m ≤ j := by omega
      obtain ⟨_, t', read', rfl, tracks''⟩ := ih enough within read
      have there := tracks.headToken?_of_some found
      exact ⟨c :: text, t', (upTo_succ_of_pos there fits).mpr ⟨tracks'.whole_right, text, read', rfl⟩,
        rfl, tracks''.weaken (Nat.le_succ m)⟩
    · have neg c (found : headToken? s.rest = some [c]) : p c = false :=
        Bool.eq_false_iff.mpr fun fits => more ⟨c, found, fits⟩
      rw [upTo_of_neg neg] at run
      cases run
      exact ⟨[], t, upTo_of_neg (tracks.not_sort other neg), rfl, tracks⟩

/-! ## Names -/

theorem mirrors_name {closing : Char} {what : Text} {k k' : Nat} (le : k ≤ k') (read : Text) :
    Mirrors ending base n Eq (name closing what k read) (name closing what k' read) := by
  induction k generalizing k' read with
  | zero => exact fails_fail.follows
  | succ k ih =>
    obtain ⟨j, rfl⟩ := Nat.exists_eq_succ_of_ne_zero (Nat.ne_zero_of_lt le)
    refine follows_next (fun token => ?_) (fails_fail.ite fails_fail)
    refine follows_ite (fun _ => ?_) fun _ => ih (Nat.le_of_succ_le_succ le) _
    exact follows_unless fails_fail fun _ => follows_pure rfl

theorem mirrors_nameUpTo {closing : Char} {what : Text} :
    Mirrors ending base n Eq (nameUpTo closing what) (nameUpTo closing what) :=
  follows_get fun _ _ tracks => mirrors_name (Nat.succ_le_succ tracks.length_le) []

end PatternReader

end Traceability
