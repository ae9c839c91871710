/-!
# Text

A text is the list of its characters. Lengths and columns therefore count code points, and every
function on text is a recursion on a list. A string literal stands for the text it spells.
-/
namespace Traceability

abbrev Text := List Char

instance : Coe String Text := ⟨String.toList⟩

instance : LawfulBEq Text := inferInstance

namespace Text

def ofNat (n : Nat) : Text := Nat.toDigits 10 n

def ofInt : Int → Text
  | .ofNat n => ofNat n
  | .negSucc n => '-' :: ofNat (n + 1)

/-- What is left of a text after a leading `stem`, or `none` when it starts otherwise. -/
def dropStem? : Text → Text → Option Text
  | [], t => some t
  | _ :: _, [] => none
  | c :: stem, d :: t => if c = d then dropStem? stem t else none

def startsWith (t stem : Text) : Bool := (dropStem? stem t).isSome

def dropTail? (tail t : Text) : Option Text := (dropStem? tail.reverse t.reverse).map List.reverse

def endsWith (t tail : Text) : Bool := (dropTail? tail t).isSome

def cut? (word : Text) : Text → Option (Text × Text)
  | [] => if word = [] then some ([], []) else none
  | c :: t =>
    match dropStem? word (c :: t) with
    | some rest => some ([], rest)
    | none => (cut? word t).map fun (before, rest) => (c :: before, rest)

def includes (t word : Text) : Bool := (cut? word t).isSome

/-- The pieces between the occurrences of a separator character; never empty. -/
def splitOn (separator : Char) : Text → List Text
  | [] => [[]]
  | c :: t =>
    if c = separator then [] :: splitOn separator t
    else match splitOn separator t with
      | [] => [[c]]
      | piece :: pieces => (c :: piece) :: pieces

def join (separator : Text) : List Text → Text
  | [] => []
  | [t] => t
  | t :: ts => t ++ separator ++ join separator ts

def dropEndWhile (p : Char → Bool) (t : Text) : Text := (t.reverse.dropWhile p).reverse

def replaceChar (old : Char) (new : Text) (t : Text) : Text :=
  t.flatMap fun c => if c = old then new else [c]

def le : Text → Text → Bool
  | [], _ => true
  | _ :: _, [] => false
  | c :: s, d :: t => if c = d then le s t else c.toNat ≤ d.toNat

theorem le_total (s t : Text) : le s t = true ∨ le t s = true := by
  induction s generalizing t with
  | nil => exact .inl rfl
  | cons c s ih =>
    cases t with
    | nil => exact .inr rfl
    | cons d t =>
      by_cases h : c = d
      · simpa [le, h] using ih t
      · simpa [le, h, Ne.symm h] using Nat.le_total c.toNat d.toNat

theorem le_antisymm {s t : Text} (h : le s t = true) (h' : le t s = true) : s = t := by
  induction s generalizing t with
  | nil => cases t <;> simp [le] at h' ⊢
  | cons c s ih =>
    cases t with
    | nil => simp [le] at h
    | cons d t =>
      by_cases hc : c = d
      · simp only [le, hc, if_pos] at h h'
        rw [hc, ih h h']
      · simp only [le, hc, Ne.symm hc, if_false, decide_eq_true_eq] at h h'
        exact absurd (Char.toNat_inj.mp (Nat.le_antisymm h h')) hc

theorem le_trans {s t u : Text} (h : le s t = true) (h' : le t u = true) : le s u = true := by
  induction s generalizing t u with
  | nil => rfl
  | cons c s ih =>
    cases t with
    | nil => simp [le] at h
    | cons d t =>
      cases u with
      | nil => simp [le] at h'
      | cons e u =>
        simp only [le] at h h' ⊢
        by_cases hc : c = d <;> by_cases hd : d = e
        · subst hc hd
          simp only [if_pos] at h h' ⊢
          exact ih h h'
        · subst hc
          simpa [hd] using h'
        · subst hd
          simpa [hc] using h
        · simp only [hc, hd, if_false, decide_eq_true_eq] at h h'
          by_cases he : c = e
          · subst he
            exact absurd (Char.toNat_inj.mp (Nat.le_antisymm h h')) hc
          · simpa [he] using Nat.le_trans h h'

/-- All matches of a recogniser, from left to right and without overlap. The recogniser answers, for
the text that starts at a position, a value and the number of characters it covers. -/
def findAll {α : Type} (recognise : Text → Option (α × Nat)) (t : Text) : List α :=
  go 0 t
where
  /-- Continues behind the `skip` characters that the last match still covers. -/
  go : Nat → Text → List α
    | _, [] => []
    | skip + 1, _ :: t => go skip t
    | 0, c :: t =>
      match recognise (c :: t) with
      | some (a, n) => a :: go (n - 1) t
      | none => go 0 t

@[simp] theorem dropStem?_nil (t : Text) : dropStem? [] t = some t := by
  cases t <;> rfl

/-- A stem is found exactly where the text continues it. -/
theorem dropStem?_eq_some_iff {stem t rest : Text} :
    dropStem? stem t = some rest ↔ t = stem ++ rest := by
  induction stem generalizing t with
  | nil => simp [eq_comm]
  | cons c stem ih =>
    cases t with
    | nil => simp [dropStem?]
    | cons d t =>
      by_cases h : c = d
      · subst h; simp [dropStem?, ih]
      · simp [dropStem?, h]; intro h'; exact absurd h'.symm h

theorem dropTail?_eq_some_iff {tail t rest : Text} :
    dropTail? tail t = some rest ↔ t = rest ++ tail := by
  rw [dropTail?, Option.map_eq_some_iff]
  constructor
  · rintro ⟨back, found, rfl⟩
    rw [dropStem?_eq_some_iff] at found
    rw [← List.reverse_reverse t, found, List.reverse_append, List.reverse_reverse]
  · rintro rfl
    exact ⟨rest.reverse, dropStem?_eq_some_iff.mpr List.reverse_append, List.reverse_reverse rest⟩

/-- Cutting loses nothing but the word. -/
theorem eq_of_cut?_eq_some {word t before rest : Text} (h : cut? word t = some (before, rest)) :
    t = before ++ word ++ rest := by
  induction t generalizing before with
  | nil =>
    unfold cut? at h
    split at h
    · simp_all
    · simp at h
  | cons c t ih =>
    unfold cut? at h
    split at h
    · rename_i r hr
      simp only [Option.some.injEq, Prod.mk.injEq] at h
      obtain ⟨rfl, rfl⟩ := h
      simpa using dropStem?_eq_some_iff.mp hr
    · simp only [Option.map_eq_some_iff, Prod.mk.injEq, Prod.exists] at h
      obtain ⟨b, r, hb, rfl, rfl⟩ := h
      simp [ih hb]

theorem splitOn_ne_nil (separator : Char) (t : Text) : splitOn separator t ≠ [] := by
  cases t with
  | nil => simp [splitOn]
  | cons c t =>
    unfold splitOn
    split
    · simp
    · split <;> simp

/-- Joining the pieces with the separator gives the text back. -/
theorem join_splitOn (separator : Char) (t : Text) :
    join [separator] (splitOn separator t) = t := by
  induction t with
  | nil => rfl
  | cons c t ih =>
    unfold splitOn
    split
    · rename_i h
      subst h
      cases hs : splitOn c t with
      | nil => exact absurd hs (splitOn_ne_nil c t)
      | cons piece pieces => rw [hs] at ih; simp [join, ih]
    · cases hs : splitOn separator t with
      | nil => exact absurd hs (splitOn_ne_nil separator t)
      | cons piece pieces =>
        rw [hs] at ih
        cases pieces with
        | nil => simpa [join] using ih
        | cons q qs => simp only [join, List.cons_append] at ih ⊢; simp [← ih]

end Text

end Traceability
