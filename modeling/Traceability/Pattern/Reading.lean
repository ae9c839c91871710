import Traceability.Pattern.Fault
import Traceability.Pattern.Width

/-!
# Steps of reading a pattern

A pattern is read character by character, an escape counting as one. What is found out on the way, about
groups and flags, is kept beside the rest of the text.
-/
namespace Traceability

structure PatternReading where
  rest : Text
  position : Nat
  flags : PatternFlags
  wide : Bool := false
  groups : List (Option PatternWidth) := []
  names : List (Text × Nat) := []
  /-- The number of groups when the outermost open look-behind began. -/
  lookbehind : Option Nat := none
  conditions : List (Nat × Nat) := []
  /-- A fault that is reported once the whole pattern is read. -/
  late : Option PatternFault := none

abbrev PatternReader := StateT PatternReading (Except PatternError)

namespace PatternReader

def failAt {α : Type} (fault : PatternFault) (position : Nat) : PatternReader α :=
  throw ⟨fault, some position⟩

/-- Fails at the place reached, less an offset. -/
def fail {α : Type} (fault : PatternFault) (offset : Nat := 0) : PatternReader α := do
  failAt fault ((← get).position - offset)

def checkEscape : PatternReader Unit := do
  let s ← get
  if s.rest = ['\\'] then failAt .danglingEscape s.position

/-- The next character, an escape with the character behind it. -/
def peek : PatternReader (Option Text) := do
  match (← get).rest with
  | '\\' :: c :: _ => pure (some ['\\', c])
  | c :: _ => pure (some [c])
  | [] => pure none

def next : PatternReader (Option Text) := do
  match ← peek with
  | none => pure none
  | some token =>
    modify fun s =>
      { s with rest := s.rest.drop token.length, position := s.position + token.length }
    checkEscape
    pure (some token)

def accept (c : Char) : PatternReader Bool := do
  if (← peek) = some [c] then
    let _ ← next
    pure true
  else pure false

def upTo (p : Char → Bool) : Nat → PatternReader Text
  | 0 => pure []
  | n + 1 => do
    match ← peek with
    | some [c] =>
      if p c then
        let _ ← next
        pure (c :: (← upTo p n))
      else pure []
    | _ => pure []

def name (closing : Char) (what : Text) : (fuel : Nat) → (read : Text) → PatternReader Text
  | 0, _ => fail .unexpectedEnd
  | fuel + 1, read => do
    match ← next with
    | none =>
      if read = [] then fail (.missingName what)
      else fail (.unterminatedName closing) read.length
    | some token =>
      if token = [closing] then
        if read = [] then fail (.missingName what) 1 else pure read
      else name closing what fuel (read ++ token)

def nameUpTo (closing : Char) (what : Text) : PatternReader Text := do
  name closing what ((← get).rest.length + 1) []

end PatternReader

end Traceability
