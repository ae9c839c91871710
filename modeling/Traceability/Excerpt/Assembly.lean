import Traceability.Excerpt.Bounds
import Traceability.Sorted
import Traceability.Trace.Chain

/-!
# Assembling excerpts

The lines behind the nodes of a trace, in the order in which they are read: the task, requirements,
design, implementations, tests. No lines of a file are shown twice under the same bounds.
-/
namespace Traceability

inductive ExcerptKind where
  | task
  | requirement
  | design
  | implementation
  | test
deriving DecidableEq, Repr, Inhabited

namespace ExcerptKind

def word : ExcerptKind → Text
  | .task => "task"
  | .requirement => "requirement"
  | .design => "design"
  | .implementation => "implementation"
  | .test => "test"

def priority : ExcerptKind → Nat
  | .task => 1
  | .requirement => 2
  | .design => 3
  | .implementation => 5
  | .test => 6

def isCode : ExcerptKind → Bool
  | .implementation | .test => true
  | _ => false

end ExcerptKind

structure Excerpt where
  kind : ExcerptKind
  path : Text
  first : Int
  last : Int
  content : Text
deriving DecidableEq, Repr, Inhabited

structure ContextLines where
  before : Int := 5
  after : Int := 20
deriving DecidableEq, Repr, Inhabited

namespace Excerpt

def joinLines (lines : List Text) : Text := Text.join ['\n'] lines

/-- The nodes of a chain with the kinds of their excerpts; the code of a component counts as
implementation. -/
def nodesByKind (c : TraceChain) : List (ExcerptKind × TraceNode) :=
  (c.requirement.toList ++ c.criteria).map (.requirement, ·) ++
    (c.components ++ c.properties).map (.design, ·) ++
    c.implementations.map (.implementation, ·) ++
    c.tests.map (.test, ·)

/-- The nodes of a list without those that are shown as the same thing, in the same file and under the
same identifier as an earlier one. -/
def distinctNodes : List (ExcerptKind × TraceNode) → List (ExcerptKind × TraceNode)
  | [] => []
  | (kind, n) :: rest =>
    (kind, n) :: (distinctNodes rest).filter fun (kind', n') =>
      !(kind' = kind && n'.location.path = n.location.path && n'.id = n.id)

def spanOf (context : ContextLines) (lines : List Text) (kind : ExcerptKind) (line : Nat) :
    LineSpan :=
  if kind.isCode then .ofCode lines line context.before context.after else .ofSection lines line

def ofSpan (kind : ExcerptKind) (path : Text) (lines : List Text) (span : LineSpan) : Excerpt :=
  ⟨kind, path, span.first + 1, span.last + 1,
    joinLines (sliceBetween span.first (span.last + 1) lines)⟩

def ofNode? (read : Text → Option (List Text)) (context : ContextLines) (kind : ExcerptKind)
    (n : TraceNode) : Option Excerpt :=
  match read n.location.path with
  | none => none
  | some [] => none
  | some lines => some (ofSpan kind n.location.path lines (spanOf context lines kind n.location.line))

def sameLines (a b : Excerpt) : Bool := a.path = b.path && a.first = b.first && a.last = b.last

def distinct : List Excerpt → List Excerpt
  | [] => []
  | e :: rest => e :: (distinct rest).filter fun e' => !sameLines e e'

def ofTask? (read : Text → Option (List Text)) (path : Text) : Option Excerpt :=
  (read path).map fun lines => ⟨.task, path, 1, lines.length, joinLines lines⟩

def assemble (read : Text → Option (List Text)) (context : ContextLines) (task : Option Text)
    (chains : List TraceChain) : List Excerpt :=
  let nodes := distinctNodes (chains.flatMap nodesByKind)
  let ofNodes := nodes.filterMap fun (kind, n) => ofNode? read context kind n
  sortBy (fun a b => a.kind.priority ≤ b.kind.priority)
    ((task.bind (ofTask? read)).toList ++ distinct ofNodes)

end Excerpt

end Traceability
