import Traceability.Pattern.Reading
import Traceability.Proofs.Results

/-!
# Runs of a reader

What a reader has done when it succeeds: which tokens it has gone behind, and what it does at the end of
the text.
-/
namespace Traceability

namespace PatternReading

def behind (s : PatternReading) (token : Text) : PatternReading :=
  { s with rest := s.rest.drop token.length, position := s.position + token.length }

end PatternReading

namespace PatternReader

open PatternReading

variable {α β : Type} {s s' m : PatternReading} {x x' : PatternReader α} {f : α → PatternReader β}

theorem bind_eq_ok_iff {b : β} :
    (x >>= f) s = .ok (b, s') ↔ ∃ a m, x s = .ok (a, m) ∧ f a m = .ok (b, s') := by
  change (x s >>= fun p => f p.1 p.2) = _ ↔ _
  rw [Traceability.bind_eq_ok_iff]
  exact Prod.exists

theorem bind_of_eq (same : x s = x' s') : (x >>= f) s = (x' >>= f) s' := by
  change (x s >>= fun p => f p.1 p.2) = (x' s' >>= fun p => f p.1 p.2)
  rw [same]

theorem bind_of_ok {a : α} (run : x s = .ok (a, m)) : (x >>= f) s = f a m :=
  bind_of_eq (show x s = (pure a : PatternReader α) m from run)

theorem bind_of_error {e : PatternError} (run : x s = .error e) : (x >>= f) s = .error e :=
  bind_of_eq (show x s = (throw e : PatternReader α) s from run)

/-! ## Readers that fail -/

/-- Whether a reader never succeeds. -/
def Fails (x : PatternReader α) : Prop := ∀ s r, x s ≠ .ok r

theorem fails_throw {e : PatternError} : Fails (throw e : PatternReader α) := by
  intro s r run
  change Except.error e = Except.ok r at run
  cases run

theorem fails_failAt {fault : PatternFault} {position : Nat} :
    Fails (failAt fault position : PatternReader α) := fails_throw

theorem Fails.bind (fails : Fails x) : Fails (x >>= f) := by
  rintro s ⟨c, s'⟩ run
  obtain ⟨a, m, never, _⟩ := bind_eq_ok_iff.mp run
  exact fails s _ never

theorem Fails.after (fails : ∀ a, Fails (f a)) : Fails (x >>= f) := by
  rintro s ⟨c, s'⟩ run
  obtain ⟨a, m, _, never⟩ := bind_eq_ok_iff.mp run
  exact fails a m _ never

theorem fails_fail {fault : PatternFault} {offset : Nat} :
    Fails (fail fault offset : PatternReader α) := .after fun _ => fails_failAt

theorem Fails.ite {p : Prop} [Decidable p] (first : Fails x) (second : Fails x') :
    Fails (if p then x else x') := by
  split
  · exact first
  · exact second

/-- What is refused has not been met. -/
theorem of_unless {p : Prop} [Decidable p] (fails : Fails x') {r : α × PatternReading}
    (run : (if p then x' else x) s = .ok r) : ¬ p ∧ x s = .ok r := by
  split at run
  · exact absurd run (fails s r)
  · next other => exact ⟨other, run⟩

/-! ## Tokens -/

/-- The next character, an escape with the character behind it. -/
def headToken? : Text → Option Text
  | '\\' :: c :: _ => some ['\\', c]
  | c :: _ => some [c]
  | [] => none

theorem headToken?_eq_none_iff {text : Text} : headToken? text = none ↔ text = [] := by
  unfold headToken?
  split <;> simp

theorem isSome_headToken?_iff {text : Text} : (headToken? text).isSome ↔ text ≠ [] := by
  rw [ne_eq, ← headToken?_eq_none_iff, Option.isSome_iff_ne_none]

theorem headToken?_append {text : Text} (more : text ≠ []) (whole : text ≠ ['\\']) (rest : Text) :
    headToken? (text ++ rest) = headToken? text := by
  rcases text with _ | ⟨c, _ | ⟨d, text⟩⟩
  · exact absurd rfl more
  · have other : c ≠ '\\' := fun same => whole (same ▸ rfl)
    simp [headToken?, other]
  · by_cases escape : c = '\\'
    · subst escape
      rfl
    · simp [headToken?, escape]

/-- A token is the beginning of the text. -/
theorem eq_append_of_headToken? {text token : Text} (found : headToken? text = some token) :
    text = token ++ text.drop token.length ∧ token ≠ [] := by
  unfold headToken? at found
  split at found
  · cases found
    exact ⟨rfl, List.cons_ne_nil _ _⟩
  · cases found
    exact ⟨rfl, List.cons_ne_nil _ _⟩
  · cases found

/-- Only an escape has a second character. -/
theorem eq_nil_of_headToken? {c : Char} {text more : Text}
    (found : headToken? text = some (c :: more)) (other : c ≠ '\\') : more = [] := by
  unfold headToken? at found
  split at found
  · cases found
    exact absurd rfl other
  · cases found
    rfl
  · cases found

theorem rest_eq_cons {c : Char} (found : headToken? s.rest = some [c]) :
    s.rest = c :: (s.behind [c]).rest := (eq_append_of_headToken? found).1

theorem length_behind_lt {token : Text} (found : headToken? s.rest = some token) :
    (s.behind token).rest.length < s.rest.length := by
  obtain ⟨start, some⟩ := eq_append_of_headToken? found
  have size := congrArg List.length start
  rw [List.length_append] at size
  have := List.length_pos_iff.mpr some
  change (s.rest.drop token.length).length < _
  omega

theorem peek_eq (s : PatternReading) : peek s = .ok (headToken? s.rest, s) := by
  change (match s.rest with
    | '\\' :: c :: _ => pure (some ['\\', c])
    | c :: _ => pure (some [c])
    | [] => pure none : PatternReader (Option Text)) s = _
  unfold headToken?
  split
  · next same => simp only [same]; rfl
  · next other same => simp only [same]; rfl
  · next same => simp only [same]; rfl

theorem peek_bind_eq {f : Option Text → PatternReader β} :
    (peek >>= f) s = f (headToken? s.rest) s := bind_of_ok (peek_eq s)

theorem checkEscape_eq_ok_iff {u : Unit} :
    checkEscape s = .ok (u, s') ↔ s.rest ≠ ['\\'] ∧ s' = s := by
  change (if s.rest = ['\\'] then failAt .danglingEscape s.position else pure ()) s = .ok (u, s') ↔ _
  split
  · next stray => exact iff_of_false (fails_failAt s _) fun whole => whole.1 stray
  · next whole =>
    constructor
    · intro run
      cases run
      exact ⟨whole, rfl⟩
    · rintro ⟨_, rfl⟩
      rfl

theorem next_eq_none_iff : next s = .ok (none, s') ↔ s.rest = [] ∧ s' = s := by
  rw [next, peek_bind_eq, ← headToken?_eq_none_iff]
  cases headToken? s.rest with
  | none =>
    constructor
    · intro run
      cases run
      exact ⟨rfl, rfl⟩
    · rintro ⟨_, rfl⟩
      rfl
  | some token =>
    refine iff_of_false (fun run => ?_) fun never => nomatch never.1
    obtain ⟨_, _, _, run⟩ := bind_eq_ok_iff.mp run
    obtain ⟨_, _, _, run⟩ := bind_eq_ok_iff.mp run
    cases run

theorem next_eq_some_iff {token : Text} : next s = .ok (some token, s') ↔
    headToken? s.rest = some token ∧ (s.behind token).rest ≠ ['\\'] ∧ s' = s.behind token := by
  rw [next, peek_bind_eq]
  constructor
  · intro run
    cases found : headToken? s.rest with
    | none =>
      rw [found] at run
      cases run
    | some other =>
      rw [found] at run
      obtain ⟨_, m, checked, done⟩ := bind_eq_ok_iff.mp ((bind_of_ok (x := modify _) rfl).symm.trans run)
      obtain ⟨whole, rfl⟩ := checkEscape_eq_ok_iff.mp checked
      cases done
      exact ⟨rfl, whole, rfl⟩
  · rintro ⟨found, whole, rfl⟩
    rw [found]
    exact (bind_of_ok (x := modify _) rfl).trans
      (bind_of_ok (checkEscape_eq_ok_iff (u := ()) |>.mpr ⟨whole, rfl⟩))

/-- Going on behind a token that is known. -/
theorem next_bind_eq_ok_iff {token : Text} {f : Option Text → PatternReader β} {b : β}
    (found : headToken? s.rest = some token) : (next >>= f) s = .ok (b, s') ↔
      (s.behind token).rest ≠ ['\\'] ∧ f (some token) (s.behind token) = .ok (b, s') := by
  rw [bind_eq_ok_iff]
  constructor
  · rintro ⟨read, m, here, onward⟩
    cases read with
    | none =>
      rw [(next_eq_none_iff.mp here).1] at found
      cases found
    | some other =>
      obtain ⟨same, whole, rfl⟩ := next_eq_some_iff.mp here
      cases found.symm.trans same
      exact ⟨whole, onward⟩
  · rintro ⟨whole, onward⟩
    exact ⟨some token, _, next_eq_some_iff.mpr ⟨found, whole, rfl⟩, onward⟩

/-- Where a next token has to be, there is one. -/
theorem exists_token {f : Option Text → PatternReader β} (fails : Fails (f none))
    {r : β × PatternReading} (run : (next >>= f) s = .ok r) : ∃ token,
      headToken? s.rest = some token ∧ (s.behind token).rest ≠ ['\\'] ∧
        f (some token) (s.behind token) = .ok r := by
  obtain ⟨read, m, here, onward⟩ := bind_eq_ok_iff.mp run
  cases read with
  | none => exact absurd onward (fails m r)
  | some token =>
    obtain ⟨found, whole, rfl⟩ := next_eq_some_iff.mp here
    exact ⟨token, found, whole, onward⟩

theorem next_eq_of_rest {c : Char} {more : Text} (start : s.rest = c :: more) (other : c ≠ '\\')
    (whole : more ≠ ['\\']) : next s = .ok (some [c], s.behind [c]) := by
  refine next_eq_some_iff.mpr ⟨?_, ?_, rfl⟩
  · rw [start]
    simp [headToken?, other]
  · change s.rest.drop 1 ≠ ['\\']
    rwa [start]

theorem accept_eq_true_iff {c : Char} : accept c s = .ok (true, s') ↔
    headToken? s.rest = some [c] ∧ (s.behind [c]).rest ≠ ['\\'] ∧ s' = s.behind [c] := by
  rw [accept, peek_bind_eq]
  by_cases found : headToken? s.rest = some [c]
  · rw [if_pos found, next_bind_eq_ok_iff found]
    refine ⟨fun ⟨whole, run⟩ => ⟨found, whole, ?_⟩, fun ⟨_, whole, same⟩ => ⟨whole, ?_⟩⟩
    · cases run
      rfl
    · rw [same]
      rfl
  · rw [if_neg found]
    exact iff_of_false nofun fun here => found here.1

/-! ## Characters of a sort -/

theorem upTo_succ_of_pos {p : Char → Bool} {k : Nat} {c : Char} {text : Text}
    (found : headToken? s.rest = some [c]) (fits : p c = true) :
    upTo p (k + 1) s = .ok (text, s') ↔ (s.behind [c]).rest ≠ ['\\'] ∧
      ∃ more, upTo p k (s.behind [c]) = .ok (more, s') ∧ text = c :: more := by
  rw [upTo, peek_bind_eq, found]
  dsimp only
  rw [if_pos fits, next_bind_eq_ok_iff found, bind_eq_ok_iff]
  refine and_congr_right fun _ => ⟨?_, ?_⟩
  · rintro ⟨more, _, read, same⟩
    cases same
    exact ⟨more, read, rfl⟩
  · rintro ⟨more, read, rfl⟩
    exact ⟨more, s', read, rfl⟩

theorem upTo_of_neg {p : Char → Bool} {k : Nat}
    (other : ∀ c, headToken? s.rest = some [c] → p c = false) : upTo p k s = .ok ([], s) := by
  cases k with
  | zero => rfl
  | succ k =>
    rw [upTo, peek_bind_eq]
    rcases found : headToken? s.rest with _ | _ | ⟨c, _ | ⟨d, more⟩⟩
    · rfl
    · rfl
    · dsimp only
      rw [if_neg (Bool.eq_false_iff.mp (other c found))]
      rfl
    · rfl

/-! ## At the end of the text -/

theorem peek_bind_of_nil {f : Option Text → PatternReader β} (spent : s.rest = []) :
    (peek >>= f) s = f none s := by
  rw [peek_bind_eq, headToken?_eq_none_iff.mpr spent]

theorem next_of_nil (spent : s.rest = []) : next s = .ok (none, s) := next_eq_none_iff.mpr ⟨spent, rfl⟩

theorem accept_of_nil {c : Char} (spent : s.rest = []) : accept c s = .ok (false, s) :=
  peek_bind_of_nil spent

/-- Whether a reader that begins at the end of the text stays there. -/
def Stays (x : PatternReader α) : Prop := ∀ ⦃s a s'⦄, s.rest = [] → x s = .ok (a, s') → s'.rest = []

theorem stays_pure {a : α} : Stays (pure a) := by
  intro s a' s' spent run
  cases run
  exact spent

theorem Stays.bind (first : Stays x) (rest : ∀ a, Stays (f a)) : Stays (x >>= f) := by
  intro s c s' spent run
  obtain ⟨a, m, read, onward⟩ := bind_eq_ok_iff.mp run
  exact rest a (first spent read) onward

/-- Whether a reader fails at the end of the text. -/
def Ends (x : PatternReader α) : Prop := ∀ ⦃s⦄, s.rest = [] → ∀ r, x s ≠ .ok r

theorem Ends.modify {h : PatternReading → PatternReading} {f : Unit → PatternReader β}
    (ends : Ends (f ())) (same : ∀ s, (h s).rest = s.rest) : Ends (modify h >>= f) :=
  fun s spent => ends ((same s).trans spent)

theorem Ends.peek {f : Option Text → PatternReader β} (ends : Ends (f none)) :
    Ends (peek >>= f) := by
  intro s spent r run
  rw [peek_bind_of_nil spent] at run
  exact ends spent r run

theorem Ends.accept {c : Char} {f : Bool → PatternReader β} (ends : Ends (f false)) :
    Ends (accept c >>= f) := by
  intro s spent r run
  rw [bind_of_ok (accept_of_nil spent)] at run
  exact ends spent r run

end PatternReader

end Traceability
