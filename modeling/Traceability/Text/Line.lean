import Traceability.Text.Basic

/-!
# Lines

A line ends at a line feed, a carriage return, both in a row, a vertical tab, a form feed, one of the
separators U+001C to U+001E, the next-line character, or one of the separators U+2028 and U+2029.
A final line break ends the last line and starts no further one.
-/
namespace Traceability.Text

def isLineBreak (c : Char) : Bool :=
  let n := c.toNat
  (10 ≤ n && n ≤ 13) || (28 ≤ n && n ≤ 30) || n == 0x85 || n == 0x2028 || n == 0x2029

def consFirst (c : Char) : List Text → List Text
  | [] => [[c]]
  | line :: rest => (c :: line) :: rest

def lines : Text → List Text
  | [] => []
  | '\r' :: '\n' :: t => [] :: lines t
  | c :: t => if isLineBreak c then [] :: lines t else consFirst c (lines t)

def linesWithBreaks : Text → List Text
  | [] => []
  | '\r' :: '\n' :: t => ['\r', '\n'] :: linesWithBreaks t
  | c :: t => if isLineBreak c then [c] :: linesWithBreaks t else consFirst c (linesWithBreaks t)

/-- A text in which every carriage return, with or without a line feed, is a line feed. -/
def unifyBreaks : Text → Text
  | [] => []
  | '\r' :: '\n' :: t => '\n' :: unifyBreaks t
  | '\r' :: t => '\n' :: unifyBreaks t
  | c :: t => c :: unifyBreaks t

/-- No line holds a line break. -/
theorem not_isLineBreak_of_mem_lines {t line : Text} {c : Char} (hl : line ∈ lines t)
    (hc : c ∈ line) : isLineBreak c = false := by
  induction t using lines.induct generalizing line with
  | case1 => simp [lines] at hl
  | case2 t ih =>
    simp only [lines, List.mem_cons] at hl
    rcases hl with rfl | hl
    · simp at hc
    · exact ih hl hc
  | case3 d t hne hb ih =>
    rw [lines] at hl
    · simp only [hb, ↓reduceIte, List.mem_cons] at hl
      rcases hl with rfl | hl
      · simp at hc
      · exact ih hl hc
    · exact hne
  | case4 d t hne hb ih =>
    rw [lines] at hl
    · simp only [hb] at hl
      cases hs : lines t with
      | nil =>
        simp only [hs, consFirst] at hl
        simp at hl
        subst hl
        simp at hc
        subst hc
        simpa using hb
      | cons first rest =>
        rw [hs] at ih
        simp only [hs, consFirst] at hl
        simp at hl
        rcases hl with rfl | hl
        · simp only [List.mem_cons] at hc
          rcases hc with rfl | hc
          · simpa using hb
          · exact ih (List.mem_cons_self) hc
        · exact ih (List.mem_cons_of_mem _ hl) hc
    · exact hne

example : lines "a\r\nb\u2028\u001fc\n" = ["a".toList, "b".toList, "\u001fc".toList] := by
  decide +kernel
example : lines "" = [] ∧ lines "\n\n" = [[], []] := by decide +kernel

end Traceability.Text
