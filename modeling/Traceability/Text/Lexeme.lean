import Traceability.Text.Blank
import Traceability.Text.Digit
import Traceability.Text.Word

/-!
# Lexemes

A lexeme is read from the start of a text: the characters read, and the rest. Every reader here is
greedy and never gives characters back, and what it reads together with the rest is the text.
-/
namespace Traceability

/-- A way to read a lexeme from the start of a text: what is read and what is left. -/
abbrev Lexeme := Text → Option (Text × Text)

namespace Lexeme

def word (w : Text) : Lexeme := fun t => (Text.dropStem? w t).map fun rest => (w, rest)

def char (p : Char → Bool) : Lexeme
  | [] => none
  | c :: t => if p c then some ([c], t) else none

def chars (p : Char → Bool) : Lexeme := fun t => some (t.takeWhile p, t.dropWhile p)

def andThen (a b : Lexeme) : Lexeme := fun t =>
  match a t with
  | none => none
  | some (read, rest) =>
    match b rest with
    | none => none
    | some (more, rest) => some (read ++ more, rest)

def optional (a : Lexeme) : Lexeme := fun t => some ((a t).getD ([], t))

def orElse (a b : Lexeme) : Lexeme := fun t => (a t).or (b t)

def run (p : Char → Bool) : Lexeme := (char p).andThen (chars p)

def all (a : Lexeme) (t : Text) : Bool := (a t).any fun (_, rest) => rest.isEmpty

def findAll (a : Lexeme) (t : Text) : List Text :=
  Text.findAll (fun t => (a t).map fun (read, _) => (read, read.length)) t

/-- What a reader reads, and the rest behind it, make up the text. -/
def Splits (a : Lexeme) : Prop := ∀ ⦃t read rest⦄, a t = some (read, rest) → t = read ++ rest

theorem splits_word (w : Text) : Splits (word w) := by
  intro t read rest h
  simp only [word, Option.map_eq_some_iff, Prod.mk.injEq] at h
  obtain ⟨r, hr, rfl, rfl⟩ := h
  exact Text.dropStem?_eq_some_iff.mp hr

theorem splits_char (p : Char → Bool) : Splits (char p) := by
  intro t read rest h
  cases t with
  | nil => simp [char] at h
  | cons c t =>
    simp only [char] at h
    split at h
    · simp only [Option.some.injEq, Prod.mk.injEq] at h
      obtain ⟨rfl, rfl⟩ := h
      rfl
    · simp at h

theorem splits_chars (p : Char → Bool) : Splits (chars p) := by
  intro t read rest h
  simp only [chars, Option.some.injEq, Prod.mk.injEq] at h
  obtain ⟨rfl, rfl⟩ := h
  exact List.takeWhile_append_dropWhile.symm

theorem Splits.andThen {a b : Lexeme} (ha : a.Splits) (hb : b.Splits) : (a.andThen b).Splits := by
  intro t read rest h
  simp only [Lexeme.andThen] at h
  split at h
  · simp at h
  · rename_i x r hx
    split at h
    · simp at h
    · rename_i y r' hy
      simp only [Option.some.injEq, Prod.mk.injEq] at h
      obtain ⟨rfl, rfl⟩ := h
      rw [ha hx, hb hy, List.append_assoc]

theorem Splits.optional {a : Lexeme} (ha : a.Splits) : a.optional.Splits := by
  intro t read rest h
  simp only [Lexeme.optional, Option.some.injEq] at h
  cases hx : a t with
  | none => rw [hx] at h; simp at h; obtain ⟨rfl, rfl⟩ := h; rfl
  | some x => rw [hx] at h; simp at h; subst h; exact ha hx

theorem Splits.orElse {a b : Lexeme} (ha : a.Splits) (hb : b.Splits) : (a.orElse b).Splits := by
  intro t read rest h
  simp only [Lexeme.orElse] at h
  cases hx : a t with
  | none => rw [hx] at h; exact hb (by simpa using h)
  | some x => rw [hx] at h; simp at h; subst h; exact ha hx

theorem splits_run (p : Char → Bool) : Splits (run p) := (splits_char p).andThen (splits_chars p)

end Lexeme

end Traceability
