import Traceability.Text.Basic

/-!
# Paths

A path is an anchor and the names below it. Repeated slashes, final slashes and names that are a
single point say nothing and are dropped; a name of two points stays. Exactly two leading slashes
are an anchor of their own.
-/
namespace Traceability

inductive Anchor where
  | relative
  | root
  | doubleRoot
deriving DecidableEq, Repr, Inhabited

def Anchor.slashes : Anchor → Text
  | .relative => []
  | .root => ['/']
  | .doubleRoot => ['/', '/']

structure Path where
  anchor : Anchor
  parts : List Text
deriving DecidableEq, Repr, Inhabited

namespace Path

def anchorOf : Text → Anchor
  | '/' :: '/' :: '/' :: _ => .root
  | '/' :: '/' :: _ => .doubleRoot
  | '/' :: _ => .root
  | _ => .relative

def isName (piece : Text) : Bool := piece ≠ [] && piece ≠ ['.']

def ofText (t : Text) : Path := ⟨anchorOf t, (Text.splitOn '/' t).filter isName⟩

/-- A path as text; the empty relative path is a single point. -/
def toText (p : Path) : Text :=
  match p.anchor, p.parts with
  | .relative, [] => ['.']
  | anchor, parts => anchor.slashes ++ Text.join ['/'] parts

def isAbsolute (p : Path) : Bool := p.anchor ≠ .relative

/-- A path continued by another; an absolute one replaces it. -/
def join (p q : Path) : Path :=
  match q.anchor with
  | .relative => ⟨p.anchor, p.parts ++ q.parts⟩
  | _ => q

def name (p : Path) : Text := p.parts.getLast?.getD []

def dropLeading? : List Text → List Text → Option (List Text)
  | [], parts => some parts
  | _ :: _, [] => none
  | x :: stem, y :: parts => if x = y then dropLeading? stem parts else none

/-- A path as seen from a directory that it lies in. -/
def relativeTo? (p directory : Path) : Option Path :=
  if p.anchor = directory.anchor then
    (dropLeading? directory.parts p.parts).map fun parts => ⟨.relative, parts⟩
  else none

def relativeOrSelf (p directory : Path) : Path := (p.relativeTo? directory).getD p

theorem dropLeading?_eq_some_iff {stem parts rest : List Text} :
    dropLeading? stem parts = some rest ↔ parts = stem ++ rest := by
  induction stem generalizing parts with
  | nil => cases parts <;> simp [dropLeading?, eq_comm]
  | cons x stem ih =>
    cases parts with
    | nil => simp [dropLeading?]
    | cons y parts =>
      by_cases h : x = y
      · subst h; simp [dropLeading?, ih]
      · simp [dropLeading?, h]; intro h'; exact absurd h'.symm h

example : (ofText "//a/./b//c/").toText = "//a/b/c" := by decide +kernel
example : (ofText "").toText = "." ∧ (ofText "///x").toText = "/x" := by decide +kernel

end Path

end Traceability
