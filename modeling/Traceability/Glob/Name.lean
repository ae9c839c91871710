import Traceability.Text.Basic

/-!
# Patterns for names

A pattern for one name: a star stands for anything, a question mark for one character, and brackets
for one character of a set, or with an exclamation mark for one outside it. A bracket that is not
closed stands for itself.
-/
namespace Traceability.Glob

inductive NamePiece where
  | star
  | one
  | exactly (c : Char)
  | oneOf (negated : Bool) (chars : List Char) (ranges : List (Char × Char))
deriving DecidableEq, Repr

abbrev NamePattern := List NamePiece

namespace NamePattern

def isPattern (t : Text) : Bool := t.any fun c => c = '*' || c = '?' || c = '['

/-- The inside of brackets, read behind the opening one, and what follows the closing one. An
exclamation mark and then a closing bracket may come first. -/
def bracket? (t : Text) : Option (Text × Text) :=
  let (mark, t) := match t with
    | '!' :: t => (['!'], t)
    | t => ([], t)
  let (first, t) := match t with
    | ']' :: t => ([']'], t)
    | t => ([], t)
  match t.dropWhile (· ≠ ']') with
  | _ :: rest => some (mark ++ first ++ t.takeWhile (· ≠ ']'), rest)
  | [] => none

/-- The parts of a set between the hyphens that make ranges. A hyphen makes a range only behind at
least `skip` characters of its part; `part` holds those read so far. A hyphen at the very end stands
for itself. -/
def chunks : (skip : Nat) → (part : Text) → Text → List Text
  | _, part, [] => if part = [] then [] else [part]
  | skip + 1, part, c :: t => chunks skip (part ++ [c]) t
  | 0, part, c :: t =>
    if c = '-' then
      if t = [] then [part ++ ['-']] else part :: chunks 2 [] t
    else chunks 0 (part ++ [c]) t

/-- Joins neighbouring parts whose range would be empty, without its ends; from the right. -/
def mergeEmpty : List Text → List Text
  | [] => []
  | part :: rest =>
    match mergeEmpty rest with
    | next :: more =>
      match part.getLast?, next with
      | some low, high :: others =>
        if high < low then (part.dropLast ++ others) :: more else part :: next :: more
      | _, _ => part :: next :: more
    | [] => [part]

def rangesBetween : List Text → List (Char × Char)
  | part :: next :: more =>
    match part.getLast?, next.head? with
    | some low, some high => (low, high) :: rangesBetween (next :: more)
    | _, _ => rangesBetween (next :: more)
  | _ => []

def setOf (inside : Text) : NamePiece :=
  let parts := mergeEmpty (chunks (if inside.head? = some '!' then 2 else 1) [] inside)
  match parts with
  | ('!' :: first) :: more =>
    .oneOf true (first :: more).flatten (rangesBetween (first :: more))
  | parts => .oneOf false parts.flatten (rangesBetween parts)

def ofTextWithin : (fuel : Nat) → Text → NamePattern
  | 0, _ => []
  | _, [] => []
  | fuel + 1, c :: t =>
    if c = '*' then .star :: ofTextWithin fuel t
    else if c = '?' then .one :: ofTextWithin fuel t
    else if c = '[' then
      match bracket? t with
      | some (inside, rest) => setOf inside :: ofTextWithin fuel rest
      | none => .exactly '[' :: ofTextWithin fuel t
    else .exactly c :: ofTextWithin fuel t

/-- The pattern that a text spells; every element takes at least one character. -/
def ofText (t : Text) : NamePattern := ofTextWithin t.length t

def holds (c : Char) : NamePiece → Bool
  | .star => false
  | .one => true
  | .exactly d => c = d
  | .oneOf negated chars ranges =>
    (chars.elem c || ranges.any fun (low, high) => low ≤ c && c ≤ high) != negated

def tails : Text → List Text
  | [] => [[]]
  | c :: t => (c :: t) :: tails t

def fits : NamePattern → Text → Bool
  | [], t => t = []
  | .star :: pattern, t => (tails t).any (fits pattern)
  | _ :: _, [] => false
  | piece :: pattern, c :: t => holds c piece && fits pattern t

end NamePattern

end Traceability.Glob
