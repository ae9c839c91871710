import Traceability.Text.Case
import Traceability.Text.Word
import Traceability.Text.Blank
import Traceability.Text.Digit

/-!
# Patterns

A pattern is a tree of nodes. Every node carries the flags that were in force where it was read, so
that a node says by itself what it matches.
-/
namespace Traceability

structure PatternFlags where
  ignoreCase : Bool := false
  multiline : Bool := false
  dotAll : Bool := false
  verbose : Bool := false
  ascii : Bool := false
deriving DecidableEq, Repr, Inhabited

inductive CharClass where
  | digit
  | blank
  | word
deriving DecidableEq, Repr

inductive SetItem where
  | char (code : Nat)
  | range (low high : Nat)
  | cls (c : CharClass) (negated : Bool)
deriving DecidableEq, Repr

inductive Boundary where
  | lineStart
  | lineEnd
  | textStart
  | textEnd
  | wordEdge
  | noWordEdge
deriving DecidableEq, Repr

/-- How a repetition goes on: as often or as seldom as possible, or as often as possible for good. -/
inductive Eagerness where
  | greedy
  | lazy
  | possessive
deriving DecidableEq, Repr

inductive PatternNode where
  | empty
  | char (code : Nat) (flags : PatternFlags)
  | any (flags : PatternFlags)
  | set (negated : Bool) (items : List SetItem) (flags : PatternFlags)
  | boundary (place : Boundary) (flags : PatternFlags)
  | cat (first second : PatternNode)
  | alt (first second : PatternNode)
  | group (index : Nat) (body : PatternNode)
  | again (index : Nat) (flags : PatternFlags)
  | iterate (least : Nat) (most : Option Nat) (eagerness : Eagerness) (body : PatternNode)
  | ahead (negated : Bool) (body : PatternNode)
  | behind (negated : Bool) (width : Nat) (body : PatternNode)
  | atomic (body : PatternNode)
  | ifGroup (index : Nat) (yes no : PatternNode)
deriving DecidableEq, Repr, Inhabited

namespace CharClass

def holds (c : CharClass) (ascii : Bool) (d : Char) : Bool :=
  match c with
  | .digit => if ascii then '0' ≤ d && d ≤ '9' else Text.isDigit d
  | .blank => if ascii then d = ' ' || (9 ≤ d.toNat && d.toNat ≤ 13) else Text.isBlank d
  | .word => if ascii then Text.isAsciiAlnum d || d = '_' else Text.isWord d

end CharClass

namespace PatternFlags

def lower (f : PatternFlags) (c : Char) : Char :=
  if f.ascii then c.toLower else Text.lowerChar c

/-- The characters that a character of a pattern may stand for, written the other way round: what a
character of the text may be read as. -/
def readings (f : PatternFlags) (c : Char) : List Char :=
  if !f.ignoreCase then [c]
  else if f.ascii then
    if c.toNat < 128 then [c.toLower, c.toUpper] else [c]
  else Text.caseVariants c

end PatternFlags

namespace SetItem

def holds (f : PatternFlags) (d : Char) : SetItem → Bool
  | .char code => (f.readings d).any fun c => c.toNat == code
  | .range low high => (f.readings d).any fun c => low ≤ c.toNat && c.toNat ≤ high
  | .cls c negated => c.holds f.ascii d != negated

end SetItem

namespace PatternNode

def holds (d : Char) : PatternNode → Bool
  | .char code f => (f.readings d).any fun c => c.toNat == code
  | .any f => f.dotAll || d ≠ '\n'
  | .set negated items f => items.any (SetItem.holds f d) != negated
  | _ => false

end PatternNode

end Traceability
