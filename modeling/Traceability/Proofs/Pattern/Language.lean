import Mathlib.Computability.Language
import Traceability.Pattern.Match

/-!
# The language of a pattern

What a pattern reads is a word of a language that is told from the pattern alone: characters and sets
stand for their characters, a sequence for a product, a choice for a sum and a repetition for powers.
The language is a bound only. Whatever asks for the surroundings (edges, looking around, a group once
more, reading for good) is taken as if it were met.
-/
namespace Traceability.PatternNode

open Computability

def characters (p : Char → Bool) : Language Char := {w | ∃ d, w = [d] ∧ p d = true}

def language : PatternNode → Language Char
  | .empty => 1
  | .char code f => characters (PatternNode.char code f).holds
  | .any f => characters (PatternNode.any f).holds
  | .set negated items f => characters (PatternNode.set negated items f).holds
  | .boundary _ _ => 1
  | .cat a b => a.language * b.language
  | .alt a b => a.language + b.language
  | .group _ body => body.language
  | .again _ _ => ⊤
  | .iterate least _ _ body => body.language ^ least * body.language∗
  | .ahead _ _ => 1
  | .behind _ _ _ => 1
  | .atomic body => body.language
  | .ifGroup _ yes no => yes.language + no.language

/-- Whether a cursor moved over a word of a language. -/
def Moves (l : Language Char) (c c' : PatternCursor) : Prop :=
  ∃ word ∈ l, c.after = word ++ c'.after

/-- Whether a reader goes on only where it has moved over a word of a language. -/
def ReadsIn (l : Language Char) (reader : Continuation → Continuation) : Prop :=
  ∀ ⦃k c r⦄, reader k c = some r → ∃ c', Moves l c c' ∧ k c' = some r

variable {l m : Language Char} {c c' c'' : PatternCursor} {k : Continuation} {r : PatternCursor}
  {body : Continuation → Continuation}

theorem moves_one (same : c.after = c'.after) : Moves 1 c c' := ⟨[], Language.nil_mem_one, same⟩

theorem Moves.mul (first : Moves l c c') (second : Moves m c' c'') : Moves (l * m) c c'' := by
  obtain ⟨u, read, here⟩ := first
  obtain ⟨v, read', there⟩ := second
  exact ⟨u ++ v, Language.append_mem_mul read read', by rw [here, there, List.append_assoc]⟩

theorem Moves.mono (moved : Moves l c c') (le : ∀ word ∈ l, word ∈ m) : Moves m c c' := by
  obtain ⟨word, read, here⟩ := moved
  exact ⟨word, le word read, here⟩

/-! ## Repetitions -/

theorem moves_kstar (first : Moves l c c') (rest : Moves l∗ c' c'') : Moves l∗ c c'' :=
  (first.mul rest).mono fun _ read => (mul_kstar_le_kstar : l * l∗ ≤ l∗) read

theorem moves_stop {least count : Nat} (enough : least ≤ count) (same : c.after = c'.after) :
    Moves (l ^ (least - count) * l∗) c c' := by
  rw [Nat.sub_eq_zero_of_le enough, pow_zero, one_mul]
  exact (moves_one same).mono fun _ read => (one_le_kstar : 1 ≤ l∗) read

theorem moves_required {least count : Nat} (missing : count < least) (first : Moves l c c')
    (rest : Moves (l ^ (least - (count + 1)) * l∗) c' c'') :
    Moves (l ^ (least - count) * l∗) c c'' := by
  have power : least - count = least - (count + 1) + 1 := by omega
  rw [power, pow_succ', mul_assoc]
  exact first.mul rest

theorem moves_further {least count : Nat} (enough : least ≤ count) (first : Moves l c c')
    (rest : Moves (l ^ (least - (count + 1)) * l∗) c' c'') :
    Moves (l ^ (least - count) * l∗) c c'' := by
  rw [Nat.sub_eq_zero_of_le enough, pow_zero, one_mul]
  rw [Nat.sub_eq_zero_of_le (Nat.le_succ_of_le enough), pow_zero, one_mul] at rest
  exact moves_kstar first rest

/-- From some count on the rounds to come make up for the required ones that are missing. -/
theorem readsIn_rounds (inner : ReadsIn l body) (least : Nat) (most : Option Nat) (lazy : Bool)
    {fuel count : Nat} (enough : least ≤ count + fuel) {last : Option Nat}
    (read : rounds body least most lazy k fuel count last c = some r) :
    ∃ c', Moves (l ^ (least - count) * l∗) c c' ∧ k c' = some r := by
  induction fuel generalizing count last c with
  | zero => exact ⟨c, moves_stop enough rfl, read⟩
  | succ fuel ih =>
    have onward : least ≤ count + 1 + fuel := by omega
    rw [rounds] at read
    split at read
    · next missing =>
      obtain ⟨c', moved, rest⟩ := inner read
      obtain ⟨c'', moved', done⟩ := ih onward rest
      exact ⟨c'', moves_required missing moved moved', done⟩
    · next met =>
      have met := Nat.le_of_not_lt met
      have stop (done : k c = some r) : ∃ c', Moves (l ^ (least - count) * l∗) c c' ∧ k c' = some r :=
        ⟨c, moves_stop met rfl, done⟩
      have further {last : Option Nat}
          (read : body (rounds body least most lazy k fuel (count + 1) last) c = some r) :
          ∃ c', Moves (l ^ (least - count) * l∗) c c' ∧ k c' = some r := by
        obtain ⟨c', moved, rest⟩ := inner read
        obtain ⟨c'', moved', done⟩ := ih onward rest
        exact ⟨c'', moves_further met moved moved', done⟩
      dsimp only at read
      split at read
      · rcases Option.or_eq_some_iff.mp read with done | ⟨_, more⟩
        · exact stop done
        · split at more
          · exact further more
          · cases more
      · split at read
        · rcases Option.or_eq_some_iff.mp read with more | ⟨_, done⟩
          · exact further more
          · exact stop done
        · exact stop read

theorem readsIn_roundsForGood (inner : ReadsIn l body) (least : Nat) (most : Option Nat)
    {fuel count : Nat} (enough : least ≤ count + fuel) {last : Option Nat}
    (read : roundsForGood body least most fuel count last c = some r) :
    Moves (l ^ (least - count) * l∗) c r := by
  induction fuel generalizing count last c with
  | zero =>
    cases read
    exact moves_stop enough rfl
  | succ fuel ih =>
    have onward : least ≤ count + 1 + fuel := by omega
    rw [roundsForGood] at read
    split at read
    · next missing =>
      split at read
      · next c' here =>
        obtain ⟨_, moved, same⟩ := inner here
        cases same
        exact moves_required missing moved (ih onward read)
      · cases read
    · next met =>
      have met := Nat.le_of_not_lt met
      split at read
      · split at read
        · next c' here =>
          obtain ⟨_, moved, same⟩ := inner here
          cases same
          exact moves_further met moved (ih onward read)
        · cases read
          exact moves_stop met rfl
      · cases read
        exact moves_stop met rfl

/-! ## All nodes -/

theorem after_of_advance? {d : Char} (advanced : c.advance? = some (d, c')) :
    c.after = d :: c'.after := by
  unfold PatternCursor.advance? at advanced
  split at advanced
  · cases advanced
  · next here =>
    cases advanced
    exact here

theorem readsIn_runChar (p : Char → Bool) : ReadsIn (characters p) (runChar p) := by
  intro k c r read
  unfold runChar at read
  split at read
  · next d c' ahead =>
    split at read
    · next held => exact ⟨c', ⟨[d], ⟨d, rfl, held⟩, after_of_advance? ahead⟩, read⟩
    · cases read
  · cases read

theorem moves_over {same : Char → Char → Bool} {word : Text}
    (passed : c.over? same word = some c') : Moves ⊤ c c' := by
  induction word generalizing c with
  | nil =>
    cases passed
    exact ⟨[], trivial, rfl⟩
  | cons d word ih =>
    rw [PatternCursor.over?] at passed
    split at passed
    · next e c'' ahead =>
      split at passed
      · obtain ⟨rest, _, here⟩ := ih passed
        exact ⟨e :: rest, trivial, by rw [after_of_advance? ahead, here]; rfl⟩
      · cases passed
    · cases passed

/-- A look around reads nothing, whatever it finds. -/
theorem moves_look {found : Option PatternCursor} {negated : Bool}
    (read : (match found with
      | some c' => if negated then none else k { c with groups := c'.groups }
      | none => if negated then k c else none) = some r) : ∃ c', Moves 1 c c' ∧ k c' = some r := by
  cases found with
  | some c' =>
    dsimp only at read
    split at read
    · cases read
    · exact ⟨{ c with groups := c'.groups }, moves_one rfl, read⟩
  | none =>
    dsimp only at read
    split at read
    · exact ⟨c, moves_one rfl, read⟩
    · cases read

/-- What a pattern reads is a word of its language. -/
theorem readsIn_run (n : PatternNode) : ReadsIn n.language n.run := by
  induction n with
  | empty => exact fun k c r read => ⟨c, moves_one rfl, read⟩
  | char code f => exact readsIn_runChar _
  | any f => exact readsIn_runChar _
  | set negated items f => exact readsIn_runChar _
  | boundary place f =>
    intro k c r read
    simp only [run] at read
    split at read
    · exact ⟨c, moves_one rfl, read⟩
    · cases read
  | cat a b first second =>
    intro k c r read
    obtain ⟨c', moved, rest⟩ := first read
    obtain ⟨c'', moved', done⟩ := second rest
    exact ⟨c'', moved.mul moved', done⟩
  | alt a b first second =>
    intro k c r read
    rcases Option.or_eq_some_iff.mp read with left | ⟨_, right⟩
    · obtain ⟨c', moved, done⟩ := first left
      exact ⟨c', moved.mono fun _ => .inl, done⟩
    · obtain ⟨c', moved, done⟩ := second right
      exact ⟨c', moved.mono fun _ => .inr, done⟩
  | group index body inner =>
    intro k c r read
    obtain ⟨c', moved, done⟩ := inner read
    exact ⟨{ c' with groups := (index, c'.textSince c) :: c'.groups }, moved, done⟩
  | again index f =>
    intro k c r read
    simp only [run] at read
    split at read
    · cases read
    · split at read
      · next c' passed => exact ⟨c', moves_over passed, read⟩
      · cases read
  | iterate least most eagerness body inner =>
    intro k c r read
    have enough : least ≤ 0 + (least + c.after.length + 2) := by omega
    simp only [run] at read
    split at read
    · split at read
      · next c' rounds =>
        exact ⟨c', readsIn_roundsForGood inner least most enough rounds, read⟩
      · cases read
    · exact readsIn_rounds inner least most false enough read
    · exact readsIn_rounds inner least most true enough read
  | ahead negated body _ => exact fun k c r read => moves_look read
  | behind negated width body _ => exact fun k c r read => moves_look read
  | atomic body inner =>
    intro k c r read
    simp only [run] at read
    split at read
    · next c' here =>
      obtain ⟨_, moved, same⟩ := inner here
      cases same
      exact ⟨c', moved, read⟩
    · cases read
  | ifGroup index yes no first second =>
    intro k c r read
    simp only [run] at read
    split at read
    · obtain ⟨c', moved, done⟩ := first read
      exact ⟨c', moved.mono fun _ => .inl, done⟩
    · obtain ⟨c', moved, done⟩ := second read
      exact ⟨c', moved.mono fun _ => .inr, done⟩

/-- A text that a pattern matches as a whole is a word of its language. -/
theorem mem_language_of_matchesAll {n : PatternNode} {t : Text} (matched : n.matchesAll t = true) :
    t ∈ n.language := by
  obtain ⟨r, read⟩ := Option.isSome_iff_exists.mp matched
  obtain ⟨c, ⟨word, inside, here⟩, done⟩ := readsIn_run n read
  have ended : c.after = [] := by
    by_contra more
    rw [if_neg more] at done
    cases done
  rw [ended, List.append_nil] at here
  exact (show t = word from here) ▸ inside

end Traceability.PatternNode
