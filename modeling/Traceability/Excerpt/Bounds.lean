import Traceability.Outline.Fence
import Traceability.Text.Word

/-!
# Bounds of excerpts

Which lines around a given one belong together: in a spec the section under the nearest heading, in
code the block whose opening line is nearest above. Lines of an excerpt are counted from zero, both
ends included; without any lines there is no line to start from, and the bounds show it.
-/
namespace Traceability

structure LineSpan where
  first : Int
  last : Int
deriving DecidableEq, Repr, Inhabited

namespace LineSpan

open Outline

def headingLevels : (inside : Bool) → List Text → List Nat
  | _, [] => []
  | inside, line :: rest =>
    if isFence line then 0 :: headingLevels (!inside) rest
    else if inside then 0 :: headingLevels inside rest
    else ((headingMark? line).elim 0 Prod.fst) :: headingLevels inside rest

/-- The index that a line number stands for in a list of `count` lines; the nearest one if there is
no such line. -/
def anchor (count line : Nat) : Nat := min (line - 1) (count - 1)

def filledLength (lines : List Text) : Nat :=
  (lines.reverse.dropWhile Text.allBlank).length

/-- The section of a spec that holds a line: from the nearest heading above to the next heading of
the same or a higher rank, without final blank lines. -/
def ofSection (lines : List Text) (line : Nat) : LineSpan :=
  if lines = [] then ⟨-1, -1⟩
  else
    let levels := (headingLevels false lines).zipIdx
    let here := anchor lines.length line
    let (level, start) :=
      ((levels.take (here + 1)).reverse.find? fun (level, _) => level ≠ 0).getD (6, here)
    let stop := ((levels.drop (start + 1)).find? fun (l, _) => l ≠ 0 && l ≤ level).elim
      lines.length Prod.snd
    ⟨start, start + filledLength ((lines.take stop).drop (start + 1))⟩

def skipWord (t word : Text) : Text :=
  match Text.dropStem? word t with
  | some (c :: rest) => if Text.isBlank c then Text.trimStart rest else t
  | _ => t

def startsWithKeyword (t word : Text) : Bool :=
  match Text.dropStem? word t with
  | some rest => !rest.head?.any Text.isWord
  | none => false

def startsWithCall (t word : Text) : Bool :=
  match Text.dropStem? word t with
  | some rest => (Text.trimStart rest).startsWith "("
  | none => false

def definitionWords : List Text := ["def", "class", "function"]

def testWords : List Text := ["it", "test", "describe"]

def isOpener (line : Text) : Bool :=
  let body := Text.trimStart line
  let core := skipWord (skipWord (skipWord body "export") "default") "async"
  definitionWords.any (startsWithKeyword core) || testWords.any (startsWithCall body)

def isDecorator (line : Text) : Bool :=
  match Text.trimStart line with
  | '@' :: c :: _ => Text.isWord c || c = '.'
  | _ => false

def openerReach : Nat := 50

def blockReach : Nat := 100

def endsWithColon (line : Text) : Bool := (Text.trimEnd line).endsWith ":"

/-- The depth of braces behind a line, and whether one has been opened so far. -/
def braceDepth (state : Int × Bool) (line : Text) : Int × Bool :=
  line.foldl (fun (depth, opened) c =>
    if c = '\x7b' then (depth + 1, true)
    else if c = '\x7d' then (depth - 1, opened)
    else (depth, opened)) state

def bracedEnd? (state : Int × Bool) : (index : Nat) → List Text → Option Nat
  | _, [] => none
  | index, line :: rest =>
    let state := braceDepth state line
    if state.2 && state.1 ≤ 0 then some index else bracedEnd? state (index + 1) rest

def indentedEnd (indent : Nat) (last : Nat) : (index : Nat) → List Text → Nat
  | _, [] => last
  | index, line :: rest =>
    if Text.allBlank line then indentedEnd indent last (index + 1) rest
    else if Text.indent line ≤ indent then last
    else indentedEnd indent index (index + 1) rest

/-- The index of the last line of a block that starts a list of lines. A brace before any final colon
makes it a block in braces, a final colon one by indentation. -/
def blockEnd? (block : List Text) : Option Nat :=
  match block.findIdx? fun line => line.elem '\x7b' || endsWithColon line with
  | none => none
  | some header =>
    if ((block[header]?).getD []).elem '\x7b' then bracedEnd? (0, false) 0 block
    else some (indentedEnd (Text.indent (block.head?.getD [])) header (header + 1)
      (block.drop (header + 1)))

def openerAbove? (lines : List Text) (marker : Nat) : Option Nat :=
  let lowest := marker - openerReach
  (((lines.take (marker + 1)).zipIdx.drop lowest).reverse.find? fun (line, _) => isOpener line).map
    Prod.snd

def decoratorsAbove (lines : List Text) (index : Nat) : Nat :=
  ((lines.take index).reverse.takeWhile isDecorator).length

/-- The block of code around a marker line that reaches down to it. -/
def blockAround? (lines : List Text) (marker : Nat) : Option LineSpan := do
  let opener ← openerAbove? lines marker
  let size ← blockEnd? ((lines.drop opener).take blockReach)
  if opener + size < marker then none
  else pure ⟨opener - decoratorsAbove lines opener, opener + size⟩

/-- The lines of code around a line: its block, or else some lines before and after it. -/
def ofCode (lines : List Text) (line : Nat) (before after : Int) : LineSpan :=
  if lines = [] then ⟨max 0 (-1 - before), min (-1) (-1 + after)⟩
  else
    let marker := anchor lines.length line
    (blockAround? lines marker).getD
      ⟨max 0 (marker - before), min (lines.length - 1) (marker + after)⟩

end LineSpan

/-- The part of a list between two places; a negative place counts from the end. -/
def sliceBetween {α : Type} (first stop : Int) (xs : List α) : List α :=
  let place (n : Int) : Nat := (if n < 0 then n + xs.length else n).toNat
  (xs.take (place stop)).drop (place first)

end Traceability
