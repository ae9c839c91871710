import Traceability.Text.Basic

/-!
# Gathering

Work on the items of a list may be finished in any order; the results stand in the order of the
items. The first work to fail, in the order of finishing, ends the gathering.
-/
namespace Traceability

structure StageFailure (ε : Type) where
  stage : Text
  cause : ε
deriving DecidableEq, Repr

namespace Gather

variable {α β ε : Type}

def finish (stage : Text) (work : α → Except ε β) (items : List α) (slots : List (Option β))
    (index : Nat) : Except (StageFailure ε) (List (Option β)) :=
  match items[index]? with
  | none => .ok slots
  | some a =>
    match work a with
    | .ok b => .ok (slots.set index (some b))
    | .error e => .error ⟨stage, e⟩

/-- The results for the items of a list whose work is finished in the given order of indices. -/
def inOrder (order : List Nat) (stage : Text) (work : α → Except ε β) (items : List α) :
    Except (StageFailure ε) (List β) :=
  (order.foldlM (finish stage work items) (List.replicate items.length none)).map
    fun slots => slots.filterMap id

def all (stage : Text) (work : α → Except ε β) (items : List α) :
    Except (StageFailure ε) (List β) :=
  inOrder (List.range items.length) stage work items

end Gather

end Traceability
