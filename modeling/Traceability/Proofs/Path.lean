import Traceability.Path

/-!
# Paths and their texts

Between slashes a text gives back the names that were joined, so a path whose names are proper is
known by its text.
-/
namespace Traceability

namespace Text

theorem splitOn_cons_separator (separator : Char) (t : Text) :
    splitOn separator (separator :: t) = [] :: splitOn separator t := by
  rw [splitOn, if_pos rfl]

theorem splitOn_of_not_mem {separator : Char} {t : Text} (free : separator ∉ t) :
    splitOn separator t = [t] := by
  induction t with
  | nil => rfl
  | cons c t ih =>
    obtain ⟨other, free⟩ := not_or.mp (mt List.mem_cons.mpr free)
    rw [splitOn, if_neg (Ne.symm other), ih free]

theorem splitOn_append (separator : Char) (t u : Text) :
    splitOn separator (t ++ separator :: u) = splitOn separator t ++ splitOn separator u := by
  induction t with
  | nil => exact splitOn_cons_separator separator u
  | cons c t ih =>
    rw [List.cons_append, splitOn, splitOn, ih]
    split
    · rw [List.cons_append]
    · cases pieces : splitOn separator t with
      | nil => exact absurd pieces (splitOn_ne_nil separator t)
      | cons piece pieces => rfl

theorem splitOn_append_separator {separator : Char} {piece : Text} (free : separator ∉ piece)
    (t : Text) :
    splitOn separator (piece ++ separator :: t) = piece :: splitOn separator t := by
  rw [splitOn_append, splitOn_of_not_mem free, List.singleton_append]

theorem join_cons_cons (separator t u : Text) (rest : List Text) :
    join separator (t :: u :: rest) = t ++ (separator ++ join separator (u :: rest)) := by
  rw [join, List.append_assoc]
  simp

/-- Splitting gives the joined pieces back, where none of them holds the separator. -/
theorem splitOn_join {separator : Char} {pieces : List Text} (filled : pieces ≠ [])
    (free : ∀ piece ∈ pieces, separator ∉ piece) :
    splitOn separator (join [separator] pieces) = pieces := by
  induction pieces with
  | nil => exact absurd rfl filled
  | cons piece rest ih =>
    have first : separator ∉ piece := free piece List.mem_cons_self
    cases rest with
    | nil => exact splitOn_of_not_mem first
    | cons next rest =>
      rw [join_cons_cons, List.singleton_append, splitOn_append_separator first, ih (by simp)]
      exact fun p member => free p (List.mem_cons_of_mem _ member)

theorem not_mem_of_mem_splitOn {separator : Char} {t piece : Text}
    (member : piece ∈ splitOn separator t) : separator ∉ piece := by
  induction t generalizing piece with
  | nil =>
    rw [splitOn, List.mem_singleton] at member
    simp [member]
  | cons c t ih =>
    unfold splitOn at member
    split at member
    · rcases List.mem_cons.mp member with rfl | later
      · simp
      · exact ih later
    · next other =>
      split at member
      · rw [List.mem_singleton.mp member]
        simpa using Ne.symm other
      · next first rest split =>
        rw [split] at ih
        rcases List.mem_cons.mp member with rfl | later
        · have free := ih List.mem_cons_self
          simp [free, Ne.symm other]
        · exact ih (List.mem_cons_of_mem _ later)

theorem mem_of_mem_splitOn {separator c : Char} {t piece : Text}
    (member : piece ∈ splitOn separator t) (inside : c ∈ piece) : c ∈ t := by
  induction t generalizing piece with
  | nil =>
    rw [splitOn, List.mem_singleton] at member
    rwa [member] at inside
  | cons d t ih =>
    unfold splitOn at member
    split at member
    · rcases List.mem_cons.mp member with rfl | later
      · cases inside
      · exact List.mem_cons_of_mem d (ih later inside)
    · split at member
      · rw [List.mem_singleton.mp member, List.mem_singleton] at inside
        exact inside ▸ List.mem_cons_self
      · next first rest split =>
        rw [split] at ih
        rcases List.mem_cons.mp member with rfl | later
        · rcases List.mem_cons.mp inside with rfl | inside
          · exact List.mem_cons_self
          · exact List.mem_cons_of_mem d (ih List.mem_cons_self inside)
        · exact List.mem_cons_of_mem d (ih (List.mem_cons_of_mem _ later) inside)

end Text

namespace Path

/-- Whether a text is one name of a path. -/
def ProperName (n : Text) : Prop := isName n = true ∧ '/' ∉ n

instance (n : Text) : Decidable (ProperName n) := inferInstanceAs (Decidable (_ ∧ _))

/-- Whether the parts of a path are names. -/
def Proper (p : Path) : Prop := ∀ n ∈ p.parts, ProperName n

instance (p : Path) : Decidable p.Proper := inferInstanceAs (Decidable (∀ n ∈ p.parts, ProperName n))

theorem proper_ofText (t : Text) : (ofText t).Proper := by
  intro n member
  obtain ⟨among, name⟩ := List.mem_filter.mp member
  exact ⟨name, Text.not_mem_of_mem_splitOn among⟩

theorem join_eq_cons {n : Text} (rest : List Text) (proper : ProperName n) :
    ∃ c t, Text.join ['/'] (n :: rest) = c :: t ∧ c ≠ '/' := by
  obtain ⟨name, free⟩ := proper
  cases n with
  | nil => simp [isName] at name
  | cons c n =>
    have first : c ≠ '/' := by
      intro same
      subst same
      simp at free
    cases rest with
    | nil => exact ⟨c, n, rfl, first⟩
    | cons next rest => exact ⟨c, _, by rw [Text.join_cons_cons, List.cons_append], first⟩

theorem anchorOf_slashes {parts : List Text} (proper : ∀ n ∈ parts, ProperName n)
    (anchor : Anchor) :
    anchorOf (anchor.slashes ++ Text.join ['/'] parts) = anchor := by
  cases parts with
  | nil => cases anchor <;> rfl
  | cons n rest =>
    obtain ⟨c, t, spelled, other⟩ := join_eq_cons rest (proper n List.mem_cons_self)
    rw [spelled]
    cases anchor with
    | relative =>
      change anchorOf (c :: t) = .relative
      unfold anchorOf
      split <;> simp_all
    | root => simp [Anchor.slashes, anchorOf, other]
    | doubleRoot => simp [Anchor.slashes, anchorOf, other]

theorem names_slashes {parts : List Text} (proper : ∀ n ∈ parts, ProperName n) (anchor : Anchor) :
    (Text.splitOn '/' (anchor.slashes ++ Text.join ['/'] parts)).filter isName = parts := by
  have names : (Text.splitOn '/' (Text.join ['/'] parts)).filter isName = parts := by
    cases parts with
    | nil => rfl
    | cons n rest =>
      rw [Text.splitOn_join (by simp) fun m member => (proper m member).2, List.filter_eq_self]
      exact fun m member => (proper m member).1
  have skip : ∀ t, (Text.splitOn '/' ('/' :: t)).filter isName =
      (Text.splitOn '/' t).filter isName := by
    intro t
    rw [Text.splitOn_cons_separator, List.filter_cons_of_neg (by simp [isName])]
  cases anchor with
  | relative => exact names
  | root => exact (skip _).trans names
  | doubleRoot => exact (skip _).trans ((skip _).trans names)

/-- A proper path is what its text spells. -/
theorem ofText_toText {p : Path} (proper : p.Proper) : ofText p.toText = p := by
  obtain ⟨anchor, parts⟩ := p
  unfold toText
  dsimp only
  split
  · rfl
  · rw [ofText, anchorOf_slashes proper, names_slashes proper]

/-- The text of a path from the root starts with a slash. -/
theorem exists_toText_eq_slash {p : Path} (absolute : p.isAbsolute = true) :
    ∃ t, p.toText = '/' :: t := by
  obtain ⟨anchor, parts⟩ := p
  cases anchor with
  | relative => cases absolute
  | root => exact ⟨_, rfl⟩
  | doubleRoot => exact ⟨_, rfl⟩

/-- In the text of a relative path there is something between any two slashes. -/
theorem nil_not_mem_splitOn_toText {p : Path} (proper : p.Proper) (relative : p.isAbsolute = false) :
    [] ∉ Text.splitOn '/' p.toText := by
  obtain ⟨anchor, parts⟩ := p
  cases anchor with
  | relative =>
    cases parts with
    | nil => decide
    | cons n rest =>
      have names : Text.splitOn '/' (toText ⟨.relative, n :: rest⟩) = n :: rest :=
        Text.splitOn_join (by simp) fun m member => (proper m member).2
      rw [names]
      exact fun member => absurd (proper [] member).1 (by decide)
  | root => cases relative
  | doubleRoot => cases relative

theorem toText_injective {p q : Path} (properP : p.Proper) (properQ : q.Proper)
    (same : p.toText = q.toText) : p = q := by
  rw [← ofText_toText properP, same, ofText_toText properQ]

end Path

end Traceability
