import Traceability.Yaml.Basic

/-!
# Plain scalars

A scalar without quotes goes on as long as no indicator ends it: behind a colon a gap, in brackets a
bracket or a comma. It goes over several lines as long as these are indented.
-/
namespace Traceability.Yaml

def endsKey (inFlow : Bool) (t : Text) : Bool :=
  atGap t || (inFlow && t.head?.any fun c => c ∈ [',', '[', ']', '\x7b', '\x7d'])

def endsInFlow (c : Char) : Bool := c ∈ [',', '?', '[', ']', '\x7b', '\x7d']

def plainStretch (inFlow : Bool) : Text → Text × Text
  | [] => ([], [])
  | c :: t =>
    if isSpace c || isBreak c || (c = ':' && endsKey inFlow t) || (inFlow && endsInFlow c) then
      ([], c :: t)
    else
      let (read, rest) := plainStretch inFlow t
      (c :: read, rest)

def plainEmptyLines : (fuel : Nat) → Text → Text × Nat × Text
  | 0, t => ([], 0, t)
  | fuel + 1, t =>
    if atSeparator t then ([], 0, t)
    else
      let column := (t.takeWhile (· = ' ')).length
      let rest := t.dropWhile (· = ' ')
      match lineBreak? rest with
      | some (b, rest) =>
        let (breaks, column, rest) := plainEmptyLines fuel rest
        (b :: breaks, column, rest)
      | none => ([], column, rest)

/-- A gap in a plain scalar: what it counts as, nothing if the scalar ends there; whether it breaks
the line, and the column that is reached then; and what follows. -/
structure PlainGap where
  fill : Text
  isBroken : Bool
  column : Nat
  rest : Text

def PlainGap.ofText (t : Text) : PlainGap :=
  let spaces := t.takeWhile (· = ' ')
  let rest := t.dropWhile (· = ' ')
  match lineBreak? rest with
  | some (b, rest) =>
    let (breaks, column, rest) := plainEmptyLines (rest.length + 1) rest
    ⟨if column = 0 && atSeparator rest then [] else foldBreaks b breaks, true, column, rest⟩
  | none => ⟨spaces, false, 0, rest⟩

def PlainGap.goesOn (inFlow : Bool) (indent : Nat) (g : PlainGap) : Bool :=
  g.fill ≠ [] && g.rest.head? ≠ some '#' && (inFlow || !g.isBroken || indent ≤ g.column)

/-- A plain scalar: its text, what follows it and the gap behind it, and whether that gap breaks the
line. -/
def plainBody (inFlow : Bool) (indent : Nat) : (fuel : Nat) → Text → Text × Text × Bool
  | 0, t => ([], t, false)
  | fuel + 1, t =>
    let (read, rest) := plainStretch inFlow t
    let gap := PlainGap.ofText rest
    if gap.goesOn inFlow indent && (plainStretch inFlow gap.rest).1 ≠ [] then
      let (more, rest, isBroken) := plainBody inFlow indent fuel gap.rest
      (read ++ gap.fill ++ more, rest, isBroken)
    else (read, gap.rest, gap.isBroken)

/-- A plain scalar at the start of a text; its further lines are indented by at least `indent`. -/
def plainScalar (inFlow : Bool) (indent : Nat) (t : Text) : Text × Text × Bool :=
  plainBody inFlow indent (t.length + 1) t

end Traceability.Yaml
