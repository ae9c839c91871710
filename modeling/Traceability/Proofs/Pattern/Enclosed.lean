import Traceability.Pattern.Use
import Traceability.Proofs.Pattern.ItemTracks

/-!
# Patterns read elsewhere

A pattern that can be read by itself can be read where lines begin and end in the text, and as one that a
whole text has to match, unless it begins with flags: these come late then.
-/
namespace Traceability

/-- Whether nothing is amiss with a reading as a whole. -/
structure PatternReading.Sound (s : PatternReading) : Prop where
  alphabet : ¬ (s.flags.ascii ∧ s.wide)
  conditions : ∀ index ∈ s.conditions.map (·.1), index ≤ s.groups.length
  late : s.late = none

namespace PatternReading.Sound

variable {ending : Text} {base : PatternFlags} {n : Nat} {s t : PatternReading}

theorem of_tracks (sound : s.Sound) (tracks : Tracks ending base n s t) : t.Sound where
  alphabet := by
    have ascii := congrArg PatternFlags.ascii tracks.flags
    change s.flags.ascii = t.flags.ascii at ascii
    rw [← ascii, ← tracks.wide]
    exact sound.alphabet
  conditions := by
    rw [← tracks.conditions, ← tracks.groups]
    exact sound.conditions
  late := tracks.late.symm.trans sound.late

theorem behind (sound : s.Sound) (token : Text) : (s.behind token).Sound :=
  ⟨sound.alphabet, sound.conditions, sound.late⟩

end PatternReading.Sound

namespace PatternReader

open PatternReading

variable {s s' : PatternReading} {node : PatternNode}

theorem conditions_le_iff : (∀ index ∈ s.conditions.map (·.1), index ≤ s.groups.length) ↔
    s.conditions.find? (fun (index, _) => s.groups.length < index) = none := by
  rw [List.forall_mem_map, List.find?_eq_none]
  simp only [decide_eq_true_eq, Nat.not_lt]

variable [CharacterNames]

theorem whole_eq_ok_iff : whole s = .ok (node, s') ↔ s.rest ≠ ['\\'] ∧
    alternatives true (4 * s.rest.length + 4) s.flags s = .ok (node, s') ∧
      s'.rest = [] ∧ s'.Sound := by
  unfold whole
  constructor
  · intro run
    obtain ⟨_, m, checked, run⟩ := bind_eq_ok_iff.mp run
    obtain ⟨whole, same⟩ := checkEscape_eq_ok_iff.mp checked
    rw [same, bind_of_ok (x := get) rfl] at run
    obtain ⟨node', s₁, read, run⟩ := bind_eq_ok_iff.mp run
    rw [bind_of_ok (x := get) rfl] at run
    obtain ⟨alphabet, run⟩ := of_unless fails_throw.bind run
    dsimp only at run
    rw [peek_bind_eq] at run
    obtain ⟨spent, run⟩ := of_unless fails_fail.bind run
    cases conditions : s₁.conditions.find? (fun (index, _) => s₁.groups.length < index) with
    | some found =>
      rw [conditions] at run
      exact absurd run (fails_failAt.bind _ _)
    | none =>
      rw [conditions] at run
      cases late : s₁.late with
      | some fault =>
        rw [late] at run
        exact absurd run (fails_throw _ _)
      | none =>
        rw [late] at run
        cases run
        rw [isSome_headToken?_iff, not_not] at spent
        rw [Bool.and_eq_true] at alphabet
        exact ⟨whole, read, spent, alphabet, conditions_le_iff.mpr conditions, late⟩
  · rintro ⟨whole, read, spent, sound⟩
    rw [bind_of_ok (checkEscape_eq_ok_iff (u := ()) |>.mpr ⟨whole, rfl⟩),
      bind_of_ok (x := get) rfl, bind_of_ok read, bind_of_ok (x := get) rfl]
    dsimp only
    rw [if_neg (by rw [Bool.and_eq_true]; exact sound.alphabet), peek_bind_eq,
      if_neg (by rw [isSome_headToken?_iff, not_not]; exact spent),
      conditions_le_iff.mp sound.conditions, sound.late]
    rfl

/-! ## What encloses a pattern -/

variable {k : Nat} {read : List (ItemSort × PatternNode)} {more : Text}

theorem items_lineStart (whole : more ≠ ['\\']) (start : s.rest = '^' :: more) :
    items true true (k + 1) {} [] s =
      items true true k {} [(.place, .boundary .lineStart {})] (s.behind ['^']) := by
  have found : headToken? s.rest = some ['^'] := by rw [start]; rfl
  rw [items, peek_bind_eq, found]
  exact bind_of_ok (next_eq_of_rest start (by decide) whole)

theorem items_lineEnd (start : s.rest = ['$']) : items true true (k + 1) {} read s =
    items true true k {} ((.place, .boundary .lineEnd {}) :: read) (s.behind ['$']) := by
  have found : headToken? s.rest = some ['$'] := by rw [start]; rfl
  rw [items, peek_bind_eq, found]
  exact bind_of_ok (next_eq_of_rest start (by decide) (List.cons_ne_nil _ _).symm)

theorem items_group (whole : more ≠ ['\\']) (start : s.rest = '(' :: '?' :: ':' :: more) :
    items true true (k + 1) {} read s = (do
      let body ← alternatives false k {}
      closing ((s.behind ['(']).position - 1)
      items true true k {} ((.other, body) :: read)) (((s.behind ['(']).behind ['?']).behind [':']) := by
  have behind₁ : (s.behind ['(']).rest = '?' :: ':' :: more := congrArg (List.drop 1) start
  have behind₂ : ((s.behind ['(']).behind ['?']).rest = ':' :: more :=
    congrArg (List.drop 1) behind₁
  have opened (position : Nat) : opening {} position (s.behind ['(']) =
      .ok (.plain {}, ((s.behind ['(']).behind ['?']).behind [':']) := by
    have special := next_eq_some_iff.mp (next_eq_of_rest behind₁ (by decide) (by simp))
    rw [opening, bind_of_ok (accept_eq_true_iff.mpr special)]
    exact bind_of_ok (next_eq_of_rest behind₂ (by decide) whole)
  have found : headToken? s.rest = some ['('] := by rw [start]; rfl
  rw [items, peek_bind_eq, found]
  refine (bind_of_ok (next_eq_of_rest start (by decide) (by simp))).trans ?_
  exact (bind_of_ok (x := get) rfl).trans (bind_of_ok (opened _))

end PatternReader

namespace PatternNode

open PatternReading PatternReader

variable {flags : PatternFlags} {p : Text}

/-- Two readings of a pattern begin together, whatever else the flags of the second one are. -/
theorem tracks_start (ending : Text) {text : Text} {g : PatternFlags} {n : Nat}
    (closed : ∀ c ∈ ending.head?, c = ')') (start : p ≠ ['\\']) (flags : PatternFlags.bare {} = g.bare)
    (rest : text = p ++ ending) : Tracks ending {} p.length { rest := p, position := 0, flags := {} }
      { rest := text, position := n, flags := g } where
  closed := closed
  rest := rest
  length := Nat.le_refl _
  whole := start
  flags := flags
  kept := fun _ => rfl
  wide := rfl
  groups := rfl
  names := rfl
  lookbehind := rfl
  late := rfl
  conditions := rfl

/-! ## The text of an enclosed pattern -/

/-- The pattern that matches where a pattern matches a whole text. -/
def enclosed (p : Text) : Text := "^(?:" ++ p ++ ")$"

/-- The reading of an enclosed pattern where the pattern itself begins. -/
def inside (p : Text) : PatternReading := { rest := p ++ [')', '$'], position := 4, flags := {} }

theorem enclosed_eq (p : Text) : enclosed p = '^' :: '(' :: '?' :: ':' :: (inside p).rest :=
  rfl

theorem rest_inside_ne (p : Text) : (inside p).rest ≠ ['\\'] := by
  intro same
  have size := congrArg List.length same
  simp [inside] at size

/-- How deep the reading of an enclosed pattern may go. -/
theorem depth_enclosed (p : Text) :
    4 * (enclosed p).length + 4 = 4 * p.length + 25 + 3 := by
  rw [enclosed_eq]
  simp only [inside, List.length_cons, List.length_append, List.length_nil]
  omega

theorem enclosed_ne (p : Text) : enclosed p ≠ ['\\'] := by
  rw [enclosed_eq]
  simp

/-! ## Patterns as a whole -/

variable [CharacterNames]

def Readable (p : Text) : Prop := ∃ node, read {} p = .ok node

theorem exists_read_iff : (∃ node, read flags p = .ok node) ↔
    p ≠ ['\\'] ∧ ∃ node s, alternatives true (4 * p.length + 4) flags
      { rest := p, position := 0, flags } = .ok (node, s) ∧ s.rest = [] ∧ s.Sound := by
  change (∃ node, (whole { rest := p, position := 0, flags }).map (·.1) = .ok node) ↔ _
  constructor
  · rintro ⟨node, done⟩
    cases run : whole { rest := p, position := 0, flags } with
    | error e =>
      rw [run] at done
      cases done
    | ok r =>
      obtain ⟨start, read, spent, sound⟩ := whole_eq_ok_iff.mp run
      exact ⟨start, r.1, r.2, read, spent, sound⟩
  · rintro ⟨start, node, s, read, spent, sound⟩
    have run : whole { rest := p, position := 0, flags } = .ok (node, s) :=
      whole_eq_ok_iff.mpr ⟨start, read, spent, sound⟩
    exact ⟨node, by rw [run]; rfl⟩

theorem read_eq_error {e : PatternError} (start : p ≠ ['\\'])
    (failed : alternatives true (4 * p.length + 4) flags { rest := p, position := 0, flags } =
      .error e) : read flags p = .error e := by
  change (whole { rest := p, position := 0, flags }).map (·.1) = .error e
  unfold whole
  rw [bind_of_ok (checkEscape_eq_ok_iff (u := ()) |>.mpr ⟨start, rfl⟩), bind_of_ok (x := get) rfl,
    bind_of_error failed]
  rfl

theorem Readable.multiline (readable : Readable p) :
    ∃ node, read { multiline := true } p = .ok node := by
  obtain ⟨start, node, s, run, spent, sound⟩ := exists_read_iff.mp readable
  have tracks := tracks_start [] (g := { multiline := true }) (n := 0) nofun start rfl
    (List.append_nil p).symm
  have upTo : FollowsUpTo [] {} (4 * p.length + 4) := followsUpTo rfl _
  have beside : Beside [] {} true true {} { multiline := true } [] [] :=
    ⟨fun _ => rfl, rfl, fun _ _ => rfl, .nil⟩
  rcases upTo.alternatives (Nat.le_refl _) beside tracks run with
    ⟨node', t, run', _, tracks'⟩ | ⟨some, _⟩ | ⟨some, _⟩
  · have spent' : t.rest = [] := by rw [tracks'.rest, spent]; rfl
    exact exists_read_iff.mpr ⟨start, node', t, run', spent', sound.of_tracks tracks'⟩
  · exact absurd rfl some
  · exact absurd rfl some

/-! ## A whole text -/

theorem alternatives_enclosed (k : Nat) : alternatives true (k + 3) {}
      { rest := enclosed p, position := 0, flags := {} } =
    (do
      let body ← alternatives false k {}
      closing 1
      let node ← items true true k {} [(.other, body), (.place, .boundary .lineStart {})]
      moreAlternatives true (k + 2) {} node) (inside p) := by
  have entered : items true true (k + 2) {} [] { rest := enclosed p, position := 0, flags := {} } =
      (do
        let body ← alternatives false k {}
        closing 1
        items true true k {} [(.other, body), (.place, .boundary .lineStart {})]) (inside p) := by
    rw [enclosed_eq]
    exact (items_lineStart (by simp) rfl).trans (items_group (rest_inside_ne p) rfl)
  rw [alternatives]
  refine (bind_of_eq entered).trans ?_
  simp only [bind_assoc]

/-- Behind the pattern there is its closing parenthesis, and the end of the line. -/
theorem readable_enclosed_of_body {body : PatternNode} {t : PatternReading}
    (run : alternatives false (4 * p.length + 25) {} (inside p) = .ok (body, t))
    (ending : t.rest = [')', '$']) (sound : t.Sound) : Readable (enclosed p) := by
  have behind : (t.behind [')']).rest = ['$'] := congrArg (List.drop 1) ending
  have spent : ((t.behind [')']).behind ['$']).rest = [] := congrArg (List.drop 1) behind
  have closed : closing 1 t = .ok ((), t.behind [')']) := by
    refine closing_eq_ok_iff.mpr ⟨by rw [ending]; rfl, ?_, rfl⟩
    rw [behind]
    decide
  refine exists_read_iff.mpr ⟨enclosed_ne p, ?_⟩
  rw [depth_enclosed, alternatives_enclosed, bind_of_ok run, bind_of_ok closed,
    bind_of_ok ((items_lineEnd behind).trans (items_of_nil spent))]
  exact ⟨_, _, moreAlternatives_of_nil spent, spent, (sound.behind _).behind _⟩

theorem Readable.enclosed (readable : Readable p) : Readable (enclosed p) ∨
    OpensWithFlags p ∧ ∃ position, read {} (enclosed p) = .error ⟨.lateGlobalFlags, position⟩ := by
  obtain ⟨start, node, s, run, spent, sound⟩ := exists_read_iff.mp readable
  have le : 4 * p.length + 4 ≤ 4 * p.length + 25 := by omega
  have upTo : FollowsUpTo [')', '$'] {} (4 * p.length + 4) := followsUpTo rfl _
  have beside : Beside [')', '$'] {} true true {} {} [] [] :=
    ⟨fun _ => rfl, rfl, fun _ _ => rfl, .nil⟩
  have tracks := tracks_start [')', '$'] (n := 4) (by simp) start rfl rfl
  -- Blanks and comments are not skipped outside groups here, so that no comment takes the ending in.
  rcases upTo.alternatives le beside tracks run with
    ⟨body, t, run', _, tracks⟩ | ⟨_, never, _⟩ | ⟨_, ⟨_, opens⟩, position, failed⟩
  · have ending : t.rest = [')', '$'] := by rw [tracks.rest, spent]; rfl
    exact .inl (readable_enclosed_of_body run' ending (sound.of_tracks tracks))
  · cases never
  · refine .inr ⟨opens, position, read_eq_error (enclosed_ne p) ?_⟩
    rw [depth_enclosed, alternatives_enclosed]
    exact bind_of_error failed

end PatternNode

end Traceability
