import Traceability.Pattern.Basic

/-!
# Widths of patterns

How many characters a node can match.
-/
namespace Traceability

structure PatternWidth where
  least : Nat
  most : Option Nat
deriving DecidableEq, Repr

namespace PatternWidth

def zero : PatternWidth := ⟨0, some 0⟩

def one : PatternWidth := ⟨1, some 1⟩

def add (a b : PatternWidth) : PatternWidth :=
  ⟨a.least + b.least, do pure ((← a.most) + (← b.most))⟩

def either (a b : PatternWidth) : PatternWidth :=
  ⟨min a.least b.least, do pure (max (← a.most) (← b.most))⟩

def times (a : PatternWidth) (least : Nat) (most : Option Nat) : PatternWidth :=
  ⟨a.least * least,
    if a.most = some 0 || most = some 0 then some 0 else do pure ((← a.most) * (← most))⟩

end PatternWidth

def PatternNode.width (groups : Nat → PatternWidth) : PatternNode → PatternWidth
  | .empty | .boundary .. | .ahead .. | .behind .. => .zero
  | .char .. | .any .. | .set .. => .one
  | .cat a b => (a.width groups).add (b.width groups)
  | .alt a b => (a.width groups).either (b.width groups)
  | .group _ body | .atomic body => body.width groups
  | .again index _ => groups index
  | .iterate least most _ body => (body.width groups).times least most
  | .ifGroup _ yes no => (yes.width groups).either (no.width groups)

end Traceability
