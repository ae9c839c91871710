import Traceability.Yaml.Block
import Traceability.Yaml.Plain
import Traceability.Yaml.Quoted
import Traceability.Yaml.Tag

/-!
# Tokens of YAML

A document as a row of tokens, in which indentation has become brackets. What is a key shows only
behind it, so the place of a possible key is kept: when a colon follows it on its line, the token that
announces a key is put in front of it.
-/
namespace Traceability.Yaml

inductive Token where
  | directive (d : Directive)
  | documentStart
  | documentEnd
  | blockSequence
  | blockMapping
  | blockEnd
  | flowSequence
  | flowSequenceEnd
  | flowMapping
  | flowMappingEnd
  | blockEntry
  | flowEntry
  | key
  | value
  | alias (name : Text)
  | anchor (name : Text)
  | tag (t : TagText)
  | scalar (t : Text) (isPlain : Bool)
deriving DecidableEq, Repr

/-- A place in a document: what is left of it, the number of characters before it, and the line and
the column, counted from zero. -/
structure Place where
  rest : Text
  index : Nat := 0
  line : Nat := 0
  column : Nat := 0
deriving Repr

namespace Place

/-- The place behind some characters. A byte order mark takes no column. -/
def skip : Nat → Place → Place
  | n + 1, ⟨c :: t, index, line, column⟩ =>
    if isBreak c && !(c = '\r' && t.head? = some '\n') then skip n ⟨t, index + 1, line + 1, 0⟩
    else if c = '\ufeff' then skip n ⟨t, index + 1, line, column⟩
    else skip n ⟨t, index + 1, line, column + 1⟩
  | _, p => p

def moveTo (p : Place) (rest : Text) : Place := p.skip (p.rest.length - rest.length)

end Place

/-- A scalar or a collection that may be a key: the number of tokens before it, whether it has to be a
key, and its place. -/
structure PossibleKey where
  number : Nat
  isRequired : Bool
  index : Nat
  line : Nat
  column : Nat
deriving DecidableEq, Repr

/-- The tokens read so far, latest first, and what decides about the next: the columns of open blocks,
innermost first, whether a key may start here, the possible key in the present brackets, and those in
the brackets around them. -/
structure Lexer where
  place : Place
  tokens : List Token := []
  indents : List Nat := []
  mayStartKey : Bool := true
  key? : Option PossibleKey := none
  outerKeys : List (Option PossibleKey) := []

namespace Lexer

def inFlow (l : Lexer) : Bool := !l.outerKeys.isEmpty

def emit (token : Token) (l : Lexer) : Lexer := { l with tokens := token :: l.tokens }

def moveTo (rest : Text) (l : Lexer) : Lexer := { l with place := l.place.moveTo rest }

def insert (number : Nat) (token : Token) (l : Lexer) : Lexer :=
  let later := l.tokens.length - number
  { l with tokens := l.tokens.take later ++ token :: l.tokens.drop later }

def closeBlocks (isOpen : Nat → Bool) (l : Lexer) : Lexer :=
  if l.inFlow then l
  else
    let closed := l.indents.takeWhile fun indent => !isOpen indent
    { l with
      indents := l.indents.dropWhile fun indent => !isOpen indent
      tokens := closed.map (fun _ => Token.blockEnd) ++ l.tokens }

def isDeeper (column : Nat) (l : Lexer) : Bool := l.indents.head?.all fun indent => indent < column

def openBlock (column : Nat) (l : Lexer) : Lexer := { l with indents := column :: l.indents }

/-- Gives a possible key up; one that has to be a key is then missing its colon. -/
def refuteKey (key? : Option PossibleKey) : Reading Unit :=
  if key?.any (·.isRequired) then malformed else .ok ()

def forgetKey (l : Lexer) : Reading Lexer := do
  refuteKey l.key?
  pure { l with key? := none }

def noteKey (l : Lexer) : Reading Lexer :=
  if l.mayStartKey then do
    let l ← l.forgetKey
    let p := l.place
    let isRequired := !l.inFlow && l.indents.head? = some p.column
    pure { l with key? := some ⟨l.tokens.length, isRequired, p.index, p.line, p.column⟩ }
  else .ok l

def keyReach : Nat := 1024

def isStale (p : Place) (key : PossibleKey) : Bool :=
  key.line ≠ p.line || keyReach < p.index - key.index

/-- A possible key, unless it is too far back. -/
def refresh (p : Place) (key? : Option PossibleKey) : Reading (Option PossibleKey) :=
  if key?.any (isStale p) then (refuteKey key?).map fun _ => none else .ok key?

def forgetStale (l : Lexer) : Reading Lexer := do
  let key? ← refresh l.place l.key?
  let outerKeys ← l.outerKeys.mapM (refresh l.place)
  pure { l with key?, outerKeys }

def skipGaps : (inComment : Bool) → Text → Text × Bool
  | _, [] => ([], false)
  | true, c :: t => if isBreak c then ((skipGaps false t).1, true) else skipGaps true t
  | false, c :: t =>
    if c = ' ' then skipGaps false t
    else if c = '#' then skipGaps true t
    else if isBreak c then ((skipGaps false t).1, true)
    else (c :: t, false)

def toNext (l : Lexer) : Lexer :=
  let t := match l.place.index, l.place.rest with
    | 0, '\ufeff' :: t => t
    | _, t => t
  let (rest, isBroken) := skipGaps false t
  { l.moveTo rest with mayStartKey := l.mayStartKey || (isBroken && !l.inFlow) }

def readDirective (t : Text) (l : Lexer) : Reading Lexer := do
  let l ← (l.closeBlocks fun _ => false).forgetKey
  let (d, rest) ← Yaml.directive t
  pure ({ l with mayStartKey := false }.moveTo rest |>.emit (.directive d))

def readSeparator (token : Token) (l : Lexer) : Reading Lexer := do
  let l ← (l.closeBlocks fun _ => false).forgetKey
  pure ({ l with mayStartKey := false, place := l.place.skip 3 }.emit token)

def readMark (token : Token) (l : Lexer) : Lexer := { l with place := l.place.skip 1 }.emit token

def openFlow (token : Token) (l : Lexer) : Reading Lexer := do
  let l ← l.noteKey
  pure ({ l with key? := none, outerKeys := l.key? :: l.outerKeys, mayStartKey := true }.readMark
    token)

def closeFlow (token : Token) (l : Lexer) : Reading Lexer := do
  let l ← l.forgetKey
  match l.outerKeys with
  | [] => malformed
  | key? :: outerKeys => pure ({ l with key?, outerKeys, mayStartKey := false }.readMark token)

def readFlowEntry (l : Lexer) : Reading Lexer := do
  let l ← l.forgetKey
  pure ({ l with mayStartKey := true }.readMark .flowEntry)

/-- Opens a block at the present column if it is a new one; outside brackets an entry of a block may
stand only where a key may start. -/
def enterBlock (token : Token) (l : Lexer) : Reading Lexer :=
  if l.inFlow then .ok l
  else if !l.mayStartKey then malformed
  else if l.isDeeper l.place.column then .ok ((l.openBlock l.place.column).emit token)
  else .ok l

def readBlockEntry (l : Lexer) : Reading Lexer := do
  let l ← (← l.enterBlock .blockSequence).forgetKey
  pure ({ l with mayStartKey := true }.readMark .blockEntry)

def readKey (l : Lexer) : Reading Lexer := do
  let l ← (← l.enterBlock .blockMapping).forgetKey
  pure ({ l with mayStartKey := !l.inFlow }.readMark .key)

def readValue (l : Lexer) : Reading Lexer :=
  match l.key? with
  | some key =>
    let l := { l with key? := none, mayStartKey := false }.insert key.number .key
    let l :=
      if !l.inFlow && l.isDeeper key.column then
        (l.openBlock key.column).insert key.number .blockMapping
      else l
    .ok (l.readMark .value)
  | none => do
    let l ← (← l.enterBlock .blockMapping).forgetKey
    pure ({ l with mayStartKey := !l.inFlow }.readMark .value)

def readWord {α : Type} (read : Text → Reading (α × Text)) (token : α → Token) (t : Text)
    (l : Lexer) : Reading Lexer := do
  let l ← l.noteKey
  let (a, rest) ← read t
  pure ({ l with mayStartKey := false }.moveTo rest |>.emit (token a))

/-- The column from which the lines of a scalar in the present block are indented. -/
def innerColumn (l : Lexer) : Nat := l.indents.head?.elim 0 (· + 1)

def readBlockScalar (folded : Bool) (t : Text) (l : Lexer) : Reading Lexer := do
  let l ← l.forgetKey
  let (read, rest) ← blockScalar folded (max 1 l.innerColumn) t
  pure ({ l with mayStartKey := true }.moveTo rest |>.emit (.scalar read false))

def readPlain (l : Lexer) : Reading Lexer := do
  let l ← l.noteKey
  let (read, rest, isBroken) := plainScalar l.inFlow l.innerColumn l.place.rest
  pure ({ l with mayStartKey := isBroken }.moveTo rest |>.emit (.scalar read true))

def indicators : Text := "-?:,[]\x7b\x7d#&*!|>'\"%@\x60"

def startsPlain (inFlow : Bool) (c : Char) (t : Text) : Bool :=
  !(isSpace c || isBreak c || c ∈ indicators) ||
    (!atGap t && (c = '-' || (!inFlow && (c = '?' || c = ':'))))

def readToken (c : Char) (t : Text) (l : Lexer) : Reading Lexer :=
  let atMargin := l.place.column = 0
  if atMargin && c = '%' then l.readDirective t
  else if atMargin && hasMark "---" (c :: t) then l.readSeparator .documentStart
  else if atMargin && hasMark "..." (c :: t) then l.readSeparator .documentEnd
  else if c = '[' then l.openFlow .flowSequence
  else if c = '\x7b' then l.openFlow .flowMapping
  else if c = ']' then l.closeFlow .flowSequenceEnd
  else if c = '\x7d' then l.closeFlow .flowMappingEnd
  else if c = ',' then l.readFlowEntry
  else if c = '-' && atGap t then l.readBlockEntry
  else if c = '?' && (l.inFlow || atGap t) then l.readKey
  else if c = ':' && (l.inFlow || atGap t) then l.readValue
  else if c = '*' then l.readWord anchorName .alias t
  else if c = '&' then l.readWord anchorName .anchor t
  else if c = '!' then l.readWord tagText .tag t
  else if c = '|' && !l.inFlow then l.readBlockScalar false t
  else if c = '>' && !l.inFlow then l.readBlockScalar true t
  else if c = '\'' || c = '"' then l.readWord (quotedScalar c) (.scalar · false) t
  else if startsPlain l.inFlow c t then l.readPlain
  else malformed

def run : (fuel : Nat) → Lexer → Reading (List Token)
  | 0, _ => malformed
  | fuel + 1, l => do
    let l ← l.toNext.forgetStale
    let l := l.closeBlocks fun indent => indent ≤ l.place.column
    match l.place.rest with
    | [] => do
      let l ← (l.closeBlocks fun _ => false).forgetKey
      pure l.tokens.reverse
    | c :: t => run fuel (← l.readToken c t)

end Lexer

def Token.ofText (t : Text) : Reading (List Token) :=
  if t.all isAllowed then Lexer.run (t.length + 2) { place := { rest := t } } else malformed

end Traceability.Yaml
