import Traceability.Pattern.Basic

/-!
# Matching

A node is matched by trying its ways in order of preference; the first way that lets the rest of the
pattern match is taken. The rest of the pattern is a continuation, so matching is a recursion on the
node. A repetition goes on only from a place where it has not just started a further round, so the
text bounds the number of rounds beyond the required ones.
-/
namespace Traceability

/-- A place in a text: the characters before it, the nearest first, the characters after it, and the
texts of the groups that are closed, the latest first. -/
structure PatternCursor where
  before : Text
  after : Text
  position : Nat
  groups : List (Nat × Text)
deriving DecidableEq, Repr, Inhabited

/-- What is to be matched behind a place; answers the place reached. -/
abbrev Continuation := PatternCursor → Option PatternCursor

namespace PatternCursor

def start (t : Text) : PatternCursor := ⟨[], t, 0, []⟩

def advance? (c : PatternCursor) : Option (Char × PatternCursor) :=
  match c.after with
  | [] => none
  | d :: rest => some (d, { c with before := d :: c.before, after := rest, position := c.position + 1 })

def back? : Nat → PatternCursor → Option PatternCursor
  | 0, c => some c
  | n + 1, c =>
    match c.before with
    | [] => none
    | d :: rest =>
      back? n { c with before := rest, after := d :: c.after, position := c.position - 1 }

def over? (same : Char → Char → Bool) : Text → PatternCursor → Option PatternCursor
  | [], c => some c
  | d :: word, c =>
    match c.advance? with
    | some (e, c') => if same d e then over? same word c' else none
    | none => none

def textSince (c earlier : PatternCursor) : Text :=
  (c.before.take (c.position - earlier.position)).reverse

def group? (c : PatternCursor) (index : Nat) : Option Text := c.groups.lookup index

def isVoid (c : PatternCursor) : Bool := c.before = [] && c.after = []

def atWordEdge (c : PatternCursor) (ascii : Bool) : Bool :=
  let word (d : Option Char) := d.any (CharClass.word.holds ascii)
  word c.before.head? != word c.after.head?

def isAt (c : PatternCursor) (f : PatternFlags) : Boundary → Bool
  | .lineStart => c.before = [] || (f.multiline && c.before.head? = some '\n')
  | .lineEnd =>
    c.after = [] || c.after = ['\n'] || (f.multiline && c.after.head? = some '\n')
  | .textStart => c.before = []
  | .textEnd => c.after = []
  | .wordEdge => !c.isVoid && c.atWordEdge f.ascii
  | .noWordEdge => !c.isVoid && !c.atWordEdge f.ascii

end PatternCursor

namespace PatternNode

/-- The rounds of a greedy or lazy repetition. `fuel` bounds the number of rounds to come, `count`
counts the rounds done, and `last` is where the last round beyond the required ones started. -/
def rounds (body : Continuation → Continuation) (least : Nat) (most : Option Nat) (lazy : Bool)
    (k : Continuation) : (fuel count : Nat) → (last : Option Nat) → Continuation
  | 0, _, _, c => k c
  | fuel + 1, count, last, c =>
    if count < least then body (rounds body least most lazy k fuel (count + 1) last) c
    else
      let more := (most.all fun m => count < m) && last ≠ some c.position
      let next (_ : Unit) := body (rounds body least most lazy k fuel (count + 1) (some c.position)) c
      if lazy then (k c).or (if more then next () else none)
      else if more then (next ()).or (k c)
      else k c

/-- The rounds of a possessive repetition: as many as there are, none of them taken back. -/
def roundsForGood (body : Continuation → Continuation) (least : Nat) (most : Option Nat) :
    (fuel count : Nat) → (last : Option Nat) → Continuation
  | 0, _, _, c => some c
  | fuel + 1, count, last, c =>
    if count < least then
      match body some c with
      | some c' => roundsForGood body least most fuel (count + 1) last c'
      | none => none
    else if (most.all fun m => count < m) && last ≠ some c.position then
      match body some c with
      | some c' => roundsForGood body least most fuel (count + 1) (some c.position) c'
      | none => some c
    else some c

def runChar (p : Char → Bool) (k : Continuation) : Continuation := fun c =>
  match c.advance? with
  | some (d, c') => if p d then k c' else none
  | none => none

def run : PatternNode → Continuation → Continuation
  | .empty, k => k
  | .char code f, k => runChar (fun d => (PatternNode.char code f).holds d) k
  | .any f, k => runChar (fun d => (PatternNode.any f).holds d) k
  | .set negated items f, k => runChar (fun d => (PatternNode.set negated items f).holds d) k
  | .boundary place f, k => fun c => if c.isAt f place then k c else none
  | .cat a b, k => a.run (b.run k)
  | .alt a b, k => fun c => (a.run k c).or (b.run k c)
  | .group index body, k => fun c =>
    body.run (fun c' => k { c' with groups := (index, c'.textSince c) :: c'.groups }) c
  | .again index f, k => fun c =>
    match c.group? index with
    | none => none
    | some word =>
      let same d e := if f.ignoreCase then f.lower d == f.lower e else d == e
      match c.over? same word with
      | some c' => k c'
      | none => none
  | .iterate least most eagerness body, k => fun c =>
    let fuel := least + c.after.length + 2
    match eagerness with
    | .possessive =>
      match roundsForGood body.run least most fuel 0 none c with
      | some c' => k c'
      | none => none
    | .greedy => rounds body.run least most false k fuel 0 none c
    | .lazy => rounds body.run least most true k fuel 0 none c
  | .ahead negated body, k => fun c =>
    match body.run some c with
    | some c' => if negated then none else k { c with groups := c'.groups }
    | none => if negated then k c else none
  | .behind negated width body, k => fun c =>
    match (c.back? width).bind (body.run some) with
    | some c' => if negated then none else k { c with groups := c'.groups }
    | none => if negated then k c else none
  | .atomic body, k => fun c =>
    match body.run some c with
    | some c' => k c'
    | none => none
  | .ifGroup index yes no, k => fun c =>
    if (c.group? index).isSome then yes.run k c else no.run k c

def searchFrom (n : PatternNode) : (places : Nat) → Continuation
  | 0, _ => none
  | places + 1, c =>
    match n.run some c with
    | some c' => some c'
    | none =>
      match c.advance? with
      | some (_, c') => searchFrom n places c'
      | none => none

def occursIn (n : PatternNode) (t : Text) : Bool :=
  (n.searchFrom (t.length + 1) (.start t)).isSome

def startsText (n : PatternNode) (t : Text) : Bool := (n.run some (.start t)).isSome

def matchesAll (n : PatternNode) (t : Text) : Bool :=
  (n.run (fun c => if c.after = [] then some c else none) (.start t)).isSome

end PatternNode

end Traceability
