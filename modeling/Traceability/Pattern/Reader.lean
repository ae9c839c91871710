import Traceability.Pattern.Group

/-!
# Reading patterns

A pattern is a sequence of items, or several with bars between them; an item may be repeated. Flags for
the whole pattern may stand only at its start; the flags in force are written into the nodes.
-/
namespace Traceability

variable [CharacterNames]

namespace PatternReader

def repeatLimit : Nat := 4294967295

/-- The bounds in braces, behind the opening brace; `none` if the brace stands for itself, and then
nothing has been read. -/
def bounds? : PatternReader (Option (Nat × Option Nat)) := do
  let s ← get
  if (← peek) = some ['\x7d'] then return none
  let low ← upTo Char.isDigit s.rest.length
  let high ← if ← accept ',' then upTo Char.isDigit s.rest.length else pure low
  if !(← accept '\x7d') then
    set s
    return none
  let least := Text.numberIn 10 low
  let most := if high = [] then none else some (Text.numberIn 10 high)
  if repeatLimit ≤ least || most.any (repeatLimit ≤ ·) then
    throw ⟨.hugeRepeat, none⟩
  if most.any (· < least) then failAt .repeatBounds s.position
  return some (least, most)

def sequence (items : List (ItemSort × PatternNode)) : PatternNode :=
  items.foldl (fun node item => .cat item.2 node) .empty

def repeatBounds? (c : Char) : PatternReader (Option (Nat × Option Nat)) :=
  if c = '?' then pure (some (0, some 1))
  else if c = '*' then pure (some (0, none))
  else if c = '+' then pure (some (1, none))
  else bounds?

def eagerness : PatternReader Eagerness := do
  if ← accept '?' then return .lazy
  if ← accept '+' then return .possessive
  return .greedy

/-- Repeats the last item; `position` is that of the repetition. -/
def repeatLast (position : Nat) (least : Nat) (most : Option Nat)
    (items : List (ItemSort × PatternNode)) : PatternReader (List (ItemSort × PatternNode)) := do
  match items with
  | [] => failAt .nothingToRepeat position
  | (.place, _) :: _ => failAt .nothingToRepeat position
  | (.repetition, _) :: _ => failAt .multipleRepeat position
  | (.other, node) :: rest =>
    pure ((.repetition, .iterate least most (← eagerness) node) :: rest)

mutual

def alternatives (top : Bool) : (fuel : Nat) → PatternFlags → PatternReader PatternNode
  | 0, _ => fail .unexpectedEnd
  | fuel + 1, flags => do
    let node ← items top top fuel flags []
    moreAlternatives top fuel flags node

def moreAlternatives (top : Bool) :
    (fuel : Nat) → PatternFlags → PatternNode → PatternReader PatternNode
  | 0, _, _ => fail .unexpectedEnd
  | fuel + 1, flags, node => do
    if ← accept '|' then
      let s ← get
      let flags := if top then s.flags else flags
      let second ← items top false fuel flags []
      pure (.alt node (← moreAlternatives top fuel flags second))
    else pure node

/-- The items of one alternative, the last one first in `read`; `first` holds in the first
alternative outside all groups, where flags for the whole pattern may stand. -/
def items (top first : Bool) : (fuel : Nat) → PatternFlags → List (ItemSort × PatternNode) →
    PatternReader PatternNode
  | 0, _, _ => fail .unexpectedEnd
  | fuel + 1, flags, read => do
    match ← peek with
    | none => pure (sequence read)
    | some ['|'] => pure (sequence read)
    | some [')'] => pure (sequence read)
    | some token =>
      let _ ← next
      match token with
      | ['\\', c] => items top first fuel flags ((← escape flags c) :: read)
      | c :: _ =>
        if flags.verbose && (c = ' ' || (9 ≤ c.toNat && c.toNat ≤ 13)) then
          items top first fuel flags read
        else if flags.verbose && c = '#' then
          skipLine ((← get).rest.length + 1)
          items top first fuel flags read
        else if c = '[' then
          items top first fuel flags ((.other, ← readSet flags) :: read)
        else if c = '*' || c = '+' || c = '?' || c = '\x7b' then
          let position := (← get).position - 1
          match ← repeatBounds? c with
          | none => items top first fuel flags ((.other, .char c.toNat flags) :: read)
          | some (least, most) =>
            items top first fuel flags (← repeatLast position least most read)
        else if c = '.' then items top first fuel flags ((.other, .any flags) :: read)
        else if c = '^' then
          items top first fuel flags ((.place, .boundary .lineStart flags) :: read)
        else if c = '$' then
          items top first fuel flags ((.place, .boundary .lineEnd flags) :: read)
        else if c = '(' then
          let start := (← get).position - 1
          match ← opening flags start with
          | .nothing => items top first fuel flags read
          | .item node => items top first fuel flags ((.other, node) :: read)
          | .wholeFlags on =>
            setFlags on
            if !first || read ≠ [] then failAt .lateGlobalFlags start
            items top first fuel (← get).flags read
          | .capture word =>
            let index ← openGroup word
            let body ← alternatives false fuel flags
            closing start
            closeGroup index body
            items top first fuel flags ((.other, .group index body) :: read)
          | .plain inner =>
            let body ← alternatives false fuel inner
            closing start
            items top first fuel flags ((.other, body) :: read)
          | .atomic =>
            let body ← alternatives false fuel flags
            closing start
            items top first fuel flags ((.other, .atomic body) :: read)
          | .ahead negated =>
            let body ← alternatives false fuel flags
            closing start
            items top first fuel flags ((.other, .ahead negated body) :: read)
          | .behind negated =>
            let outer := (← get).lookbehind
            modify fun s => { s with lookbehind := s.lookbehind.or (some s.groups.length) }
            let body ← alternatives false fuel flags
            modify fun s => { s with lookbehind := outer }
            closing start
            items top first fuel flags ((.other, ← lookbehindNode negated body) :: read)
          | .condition index =>
            let yes ← items false false fuel flags []
            let no ← if ← accept '|' then do
                let no ← items false false fuel flags []
                if (← peek) = some ['|'] then fail .tooManyBranches
                pure no
              else pure .empty
            closing start
            items top first fuel flags ((.other, .ifGroup index yes no) :: read)
        else items top first fuel flags ((.other, .char c.toNat flags) :: read)
      | [] => pure (sequence read)

end

def whole : PatternReader PatternNode := do
  checkEscape
  let s ← get
  let node ← alternatives true (4 * s.rest.length + 4) s.flags
  let s ← get
  if s.flags.ascii && s.wide then throw ⟨.incompatibleAlphabets, none⟩
  if (← peek).isSome then fail .unbalancedParenthesis
  match s.conditions.find? fun (index, _) => s.groups.length < index with
  | some (index, position) => failAt (.unknownGroup index) position
  | none => pure ()
  match s.late with
  | some fault => throw ⟨fault, none⟩
  | none => pure node

end PatternReader

def PatternNode.read (flags : PatternFlags) (t : Text) : Except PatternError PatternNode :=
  (PatternReader.whole.run { rest := t, position := 0, flags }).map (·.1)

def PatternNode.ofText (t : Text) : Except PatternError PatternNode := PatternNode.read {} t

end Traceability
