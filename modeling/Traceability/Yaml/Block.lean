import Traceability.Text.Hex
import Traceability.Yaml.Basic

/-!
# Block scalars

Literal and folded scalars: a header, then indented lines. The header says what becomes of the line
breaks at the end, and may say how far the lines are indented.
-/
namespace Traceability.Yaml

/-- What becomes of the line breaks at the end of a block: one is kept, all are, or none. -/
inductive Chomping where
  | clip
  | keep
  | strip
deriving DecidableEq, Repr

structure BlockHeader where
  chomping : Chomping := .clip
  increment : Option Nat := none
deriving DecidableEq, Repr

def chomping? : Char → Option Chomping
  | '+' => some .keep
  | '-' => some .strip
  | _ => none

def increment? (c : Char) : Option Nat := if c.isDigit then some (Text.hexValue c) else none

def blockHeader (t : Text) : BlockHeader × Text :=
  match t with
  | [] => ({}, [])
  | c :: rest =>
    match chomping? c, increment? c with
    | some s, _ =>
      match rest.head?.bind increment? with
      | some n => (⟨s, some n⟩, rest.drop 1)
      | none => (⟨s, none⟩, rest)
    | none, some n =>
      match rest.head?.bind chomping? with
      | some s => (⟨s, some n⟩, rest.drop 1)
      | none => (⟨.clip, some n⟩, rest)
    | none, none => ({}, t)

/-- The breaks of empty lines at the start of a block whose indentation is not known, the greatest
column in them, the column that is reached, and what follows. -/
def blockStart : (most column : Nat) → Text → Text × Nat × Nat × Text
  | most, column, [] => ([], most, column, [])
  | most, _, '\r' :: '\n' :: t =>
    let (breaks, r) := blockStart most 0 t
    ('\n' :: breaks, r)
  | most, column, c :: t =>
    if c = ' ' then blockStart (max most (column + 1)) (column + 1) t
    else if isBreak c then
      let (breaks, r) := blockStart most 0 t
      ((if c = '\u2028' || c = '\u2029' then c else '\n') :: breaks, r)
    else ([], most, column, c :: t)

def blockBreaks (indent : Nat) : (column : Nat) → Text → Text × Nat × Text
  | column, [] => ([], column, [])
  | _, '\r' :: '\n' :: t =>
    let (breaks, r) := blockBreaks indent 0 t
    ('\n' :: breaks, r)
  | column, c :: t =>
    if c = ' ' && column < indent then blockBreaks indent (column + 1) t
    else if isBreak c then
      let (breaks, r) := blockBreaks indent 0 t
      ((if c = '\u2028' || c = '\u2029' then c else '\n') :: breaks, r)
    else ([], column, c :: t)

def isSpaced (t : Text) : Bool := t.head?.any isSpace

/-- The lines of a block from one that starts at the column of the block: their text without the last
break, the last break, the breaks behind it, and what follows. -/
def blockLines (folded : Bool) (indent : Nat) : (fuel : Nat) → Text → Text × Text × Text × Text
  | 0, t => ([], [], [], t)
  | fuel + 1, t =>
    let line := t.takeWhile fun c => !isBreak c
    let (last, rest) : Text × Text := match lineBreak? (t.dropWhile fun c => !isBreak c) with
      | some (b, rest) => ([b], rest)
      | none => ([], [])
    let (breaks, column, rest) := blockBreaks indent 0 rest
    if column = indent && rest ≠ [] then
      let joint :=
        if folded && last = ['\n'] && !isSpaced t && !isSpaced rest then
          if breaks = [] then [' '] else []
        else last
      let (more, r) := blockLines folded indent fuel rest
      (line ++ joint ++ breaks ++ more, r)
    else (line, last, breaks, rest)

def Chomping.ending (c : Chomping) (last breaks : Text) : Text :=
  match c with
  | .clip => last
  | .keep => last ++ breaks
  | .strip => []

/-- A block scalar, read behind its indicator; `least` is the least indentation of its lines. -/
def blockScalar (folded : Bool) (least : Nat) (t : Text) : Reading (Text × Text) := do
  let (header, t) := blockHeader t
  if header.increment = some 0 || !atSpaceOrLineEnd t then malformed
  else
    let t ← skipLineEnd t
    let (breaks, column, indent, t) : Text × Nat × Nat × Text :=
      match header.increment with
      | none =>
        let (breaks, most, column, t) := blockStart 0 0 t
        (breaks, column, max least most, t)
      | some n =>
        let indent := least + n - 1
        let (breaks, column, t) := blockBreaks indent 0 t
        (breaks, column, indent, t)
    if column = indent && t ≠ [] then
      let (body, last, after, rest) := blockLines folded indent (t.length + 1) t
      pure (breaks ++ body ++ header.chomping.ending last after, rest)
    else pure (header.chomping.ending [] breaks, t)

end Traceability.Yaml
