import Traceability.Outline.Basic
import Traceability.Text.Digit

/-!
# Lists, tables and code in a section

What a section holds besides text: the items of its lists, its tables and its fenced blocks. Lines in
fenced blocks are neither items nor rows.
-/
namespace Traceability.Outline

def afterListMark? (t : Text) : Option Text :=
  match t with
  | '-' :: rest | '*' :: rest | '+' :: rest => some rest
  | _ =>
    match t.takeWhile Text.isDigit, t.dropWhile Text.isDigit with
    | [], _ => none
    | _, '.' :: rest | _, ')' :: rest => some rest
    | _, _ => none

def afterBlanks? : Text → Option Text
  | [] => none
  | c :: t => if Text.isBlank c then some (Text.trimStart t) else none

def checkbox? : Text → Option (Char × Text)
  | '[' :: mark :: ']' :: rest =>
    if mark = ' ' || mark = 'x' || mark = 'X' then (afterBlanks? rest).map fun t => (mark, t)
    else none
  | _ => none

def listItem? (line : Text) : Option Text := do
  let body ← afterBlanks? (← afterListMark? (Text.trimStart line))
  match checkbox? body with
  | some (mark, text) => pure ('[' :: mark :: ']' :: ' ' :: text)
  | none => pure body

def unfenced : (inside : Bool) → List Text → List Text
  | _, [] => []
  | inside, line :: rest =>
    if isFence line then unfenced (!inside) rest
    else if inside then unfenced inside rest
    else line :: unfenced inside rest

def itemsIn (content : List Text) : List Text := (unfenced false content).filterMap listItem?

structure Table where
  header : List Text
  rows : List (List Text)
deriving DecidableEq, Repr, Inhabited

/-- Whether a line is a row of a table: it starts and ends with a bar, and these are two. -/
def isRow (line : Text) : Bool :=
  let t := Text.trim line
  2 ≤ t.length && t.head? = some '|' && t.getLast? = some '|'

def cells (line : Text) : List Text :=
  let inner := Text.dropEndWhile (· = '|') ((Text.trim line).dropWhile (· = '|'))
  (Text.splitOn '|' inner).map Text.trim

def isDivider (cell : Text) : Bool :=
  let body := match cell with
    | ':' :: rest => rest
    | rest => rest
  let rest := body.dropWhile (· = '-')
  body.head? = some '-' && (rest = [] || rest = [':'])

/-- Whether a row divides the header from the rows below: its cells are lines, empty ones aside. -/
def isDelimiter (row : List Text) : Bool :=
  let filled := row.filter (· ≠ [])
  filled ≠ [] && filled.all isDivider

def tableOf? : List (List Text) → Option Table
  | [] => none
  | header :: rest => some ⟨header, rest.filter fun row => !isDelimiter row⟩

/-- The tables among some lines; `block` holds the rows read so far of the current table, the last
one first, and `inside` holds in a fenced block. -/
def tablesFrom : (inside : Bool) → (block : List (List Text)) → List Text → List Table
  | _, block, [] => (tableOf? block.reverse).toList
  | inside, block, line :: rest =>
    if isFence line then (tableOf? block.reverse).toList ++ tablesFrom (!inside) [] rest
    else if !inside && isRow line then tablesFrom inside (cells line :: block) rest
    else (tableOf? block.reverse).toList ++ tablesFrom inside [] rest

def tablesIn (content : List Text) : List Table := tablesFrom false [] content

def Section.listItems (s : Section) : List Text := s.walk.flatMap fun n => itemsIn n.content

def Section.tables (s : Section) : List Table := s.walk.flatMap fun n => tablesIn n.content

def Section.hasFence (s : Section) : Bool := s.walk.any fun n => n.content.any isFence

end Traceability.Outline
