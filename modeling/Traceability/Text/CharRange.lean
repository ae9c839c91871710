import Traceability.Text.Basic

/-!
# Ranges of characters

A class of characters is given by closed ranges of code points, ascending and apart. The tables of
this library hold the properties of Unicode 14.
-/
namespace Traceability

abbrev CharRanges := List (Nat × Nat)

namespace CharRanges

def covers (ranges : CharRanges) (n : Nat) : Bool := ranges.any fun (low, high) => low ≤ n && n ≤ high

def ascending : CharRanges → Bool
  | [] => true
  | [(low, high)] => low ≤ high
  | (low, high) :: (low', high') :: rest =>
    low ≤ high && high + 1 < low' && ascending ((low', high') :: rest)

def count (ranges : CharRanges) : Nat :=
  ranges.foldr (fun (low, high) n => high + 1 - low + n) 0

theorem covers_iff {ranges : CharRanges} {n : Nat} :
    ranges.covers n = true ↔ ∃ r ∈ ranges, r.1 ≤ n ∧ n ≤ r.2 := by
  simp [covers]

end CharRanges

end Traceability
