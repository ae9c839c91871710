import Traceability.Pattern.Match

/-!
# Words that a pattern spells

A pattern spells a word that it can read by its characters alone, without a look at the
surroundings and without reading for good. The ways of a pattern are tried in order of preference,
and each is taken back if the rest does not match; so a word that is spelled is found, in whatever
order the ways are tried.
-/
namespace Traceability.PatternNode

/-- The rounds of a repetition each spell a word that is not empty. -/
inductive Spells : PatternNode → Text → Prop
  | single {n : PatternNode} {d : Char} (held : n.holds d = true) : Spells n [d]
  | empty : Spells .empty []
  | cat {a b : PatternNode} {u v : Text} (first : Spells a u) (second : Spells b v) :
    Spells (.cat a b) (u ++ v)
  | former {a : PatternNode} {w : Text} (b : PatternNode) (spelled : Spells a w) :
    Spells (.alt a b) w
  | latter {b : PatternNode} {w : Text} (a : PatternNode) (spelled : Spells b w) :
    Spells (.alt a b) w
  | group {body : PatternNode} {w : Text} (index : Nat) (spelled : Spells body w) :
    Spells (.group index body) w
  | iterate {body : PatternNode} {least : Nat} {most : Option Nat} {eagerness : Eagerness}
    {parts : List Text} (back : eagerness ≠ .possessive) (enough : least ≤ parts.length)
    (few : ∀ m ∈ most, parts.length ≤ m) (filled : ∀ part ∈ parts, part ≠ [])
    (spelled : ∀ part ∈ parts, Spells body part) :
    Spells (.iterate least most eagerness body) parts.flatten

/-- As many characters as there are, each by itself. -/
theorem spells_many {n : PatternNode} {least : Nat} {w : Text} (enough : least ≤ w.length)
    (held : ∀ d ∈ w, n.holds d = true) : Spells (.iterate least none .greedy n) w := by
  have spelled : Spells (.iterate least none .greedy n) (w.map fun d => [d]).flatten := by
    refine .iterate (by decide) (by simpa using enough) (fun _ never => nomatch never) ?_ ?_
    · exact List.forall_mem_map.mpr fun d _ => List.cons_ne_nil d []
    · exact List.forall_mem_map.mpr fun d member => .single (held d member)
  rwa [← List.flatMap_def, List.flatMap_singleton'] at spelled

/-- Whether a reader comes past a word that it stands in front of, wherever what follows the word can
be read. -/
def Offers (reader : Continuation → Continuation) (word : Text) : Prop :=
  ∀ ⦃k : Continuation⦄ ⦃c : PatternCursor⦄ ⦃rest : Text⦄, c.after = word ++ rest →
    (∀ c', c'.after = rest → c'.position = c.position + word.length → (k c').isSome = true) →
      (reader k c).isSome = true

variable {body : Continuation → Continuation} {k : Continuation} {c : PatternCursor}
  {n : PatternNode} {w rest : Text} {d : Char}

theorem isSome_or {a b : Option PatternCursor} (some : a.isSome = true ∨ b.isSome = true) :
    (a.or b).isSome = true := by
  rwa [Option.isSome_or, Bool.or_eq_true]

theorem run_of_holds (held : n.holds d = true) : n.run = runChar fun d => n.holds d := by
  cases n with
  | char => rfl
  | any => rfl
  | set => rfl
  | _ => cases held

theorem offers_runChar {p : Char → Bool} (held : p d = true) : Offers (runChar p) [d] := by
  intro k c rest here goes
  have ahead : c.advance? =
      some (d, { c with before := d :: c.before, after := rest, position := c.position + 1 }) := by
    rw [PatternCursor.advance?, here]
    rfl
  simp only [runChar, ahead, held, if_true]
  exact goes _ rfl rfl

/-! ## Repetitions -/

/-- From any count on, rounds for the words to come are found; the last round started further back. -/
theorem isSome_rounds {parts : List Text} (offers : ∀ part ∈ parts, Offers body part)
    (filled : ∀ part ∈ parts, part ≠ []) {least : Nat} {most : Option Nat} (lazy : Bool)
    {fuel count : Nat} {last : Option Nat} (fuelled : parts.length ≤ fuel)
    (enough : least ≤ count + parts.length) (few : ∀ m ∈ most, count + parts.length ≤ m)
    (moved : ∀ place ∈ last, place < c.position) (here : c.after = parts.flatten ++ rest)
    (goes : ∀ c', c'.after = rest → c'.position = c.position + parts.flatten.length →
      (k c').isSome = true) :
    (rounds body least most lazy k fuel count last c).isSome = true := by
  induction parts generalizing fuel count last c with
  | nil =>
    have done : (k c).isSome = true := goes c here rfl
    have met : ¬ count < least := Nat.not_lt.mpr enough
    cases fuel with
    | zero => exact done
    | succ fuel =>
      simp only [rounds, if_neg met]
      split
      · exact isSome_or (.inl done)
      · split
        · exact isSome_or (.inr done)
        · exact done
  | cons part parts ih =>
    obtain ⟨offer, offers⟩ := List.forall_mem_cons.mp offers
    obtain ⟨full, filled⟩ := List.forall_mem_cons.mp filled
    rw [List.length_cons] at fuelled enough few
    obtain ⟨fuel, rfl⟩ : ∃ more, fuel = more + 1 := ⟨fuel - 1, by omega⟩
    rw [List.flatten_cons, List.append_assoc] at here
    rw [List.flatten_cons, List.length_append] at goes
    have long : 0 < part.length := List.length_pos_iff.mpr full
    -- A round over the first word leads further on than the place where it starts.
    have round {last : Option Nat} (known : ∀ place ∈ last, place ≤ c.position) :
        (body (rounds body least most lazy k fuel (count + 1) last) c).isSome = true := by
      refine offer here fun c' after position => ?_
      refine ih offers filled (by omega) (by omega) (fun m bound => ?_) (fun place started => ?_)
        after fun c'' after' position' => goes c'' after' (by omega)
      · have := few m bound
        omega
      · have := known place started
        omega
    rw [rounds]
    split
    · exact round fun place started => Nat.le_of_lt (moved place started)
    · have more : ((most.all fun m => count < m) && last ≠ some c.position) = true := by
        rw [Bool.and_eq_true, Option.all_eq_true, decide_eq_true_eq]
        refine ⟨fun m bound => ?_, fun same => absurd (moved _ same) (Nat.lt_irrefl _)⟩
        have := few m bound
        rw [decide_eq_true_eq]
        omega
      have next : (body (rounds body least most lazy k fuel (count + 1) (some c.position)) c).isSome =
          true := by
        refine round ?_
        rintro _ ⟨⟩
        exact Nat.le_refl _
      simp only [more, if_true]
      split
      · exact isSome_or (.inr next)
      · exact isSome_or (.inl next)

theorem length_le_flatten {parts : List Text} (filled : ∀ part ∈ parts, part ≠ []) :
    parts.length ≤ parts.flatten.length := by
  induction parts with
  | nil => exact Nat.le_refl 0
  | cons part parts ih =>
    obtain ⟨full, filled⟩ := List.forall_mem_cons.mp filled
    have long : 0 < part.length := List.length_pos_iff.mpr full
    have := ih filled
    rw [List.flatten_cons, List.length_append, List.length_cons]
    omega

/-! ## All nodes -/

/-- A pattern comes past a word that it spells. -/
theorem offers_run (spelled : Spells n w) : Offers n.run w := by
  induction spelled with
  | single held =>
    rw [run_of_holds held]
    exact offers_runChar held
  | empty => exact fun k c rest here goes => goes c here rfl
  | cat _ _ first second =>
    intro k c rest here goes
    rw [List.append_assoc] at here
    refine first here fun c' after position => second after fun c'' after' position' => ?_
    refine goes c'' after' ?_
    rw [position', position, List.length_append, Nat.add_assoc]
  | former _ _ first => exact fun k c rest here goes => isSome_or (.inl (first here goes))
  | latter _ _ second => exact fun k c rest here goes => isSome_or (.inr (second here goes))
  | group _ _ inner =>
    exact fun k c rest here goes => inner here fun c' after position => goes _ after position
  | @iterate body least most eagerness parts back enough few filled _ inner =>
    intro k c rest here goes
    have fuelled : parts.length ≤ least + c.after.length + 2 := by
      have := length_le_flatten filled
      rw [here, List.length_append]
      omega
    have found (lazy : Bool) : (rounds body.run least most lazy k (least + c.after.length + 2) 0 none
        c).isSome = true :=
      isSome_rounds inner filled lazy fuelled (by omega) (fun m bound => by simpa using few m bound)
        (fun _ never => nomatch never) here goes
    cases eagerness with
    | possessive => exact absurd rfl back
    | greedy => exact found false
    | lazy => exact found true

/-- A text that a pattern spells is one that it matches as a whole. -/
theorem matchesAll_of_spells (spelled : Spells n w) : n.matchesAll w = true := by
  refine offers_run spelled (List.append_nil w).symm fun c ended _ => ?_
  rw [if_pos ended]
  rfl

end Traceability.PatternNode
