import Traceability.Toml.Scalar
import Traceability.Toml.Tree

/-!
# Documents of TOML

A document is a row of statements, one a line: the heading of a section, or a key and its value. A
malformed document has no value. Line breaks are line feeds.
-/
namespace Traceability.Toml

def isNameChar (c : Char) : Bool := Text.isAsciiAlnum c || c = '-' || c = '_'

def name : Reader Text := fun t => Lexeme.run isNameChar t <|> shortText t

def keyFrom : (fuel : Nat) → Key → Reader Key
  | 0, _, _ => none
  | fuel + 1, key, t =>
    match skipSpaces t with
    | '.' :: t => do
      let (n, t) ← name (skipSpaces t)
      keyFrom fuel (key ++ [n]) t
    | t => some (key, t)

def key : Reader Key := fun t => do
  let (n, rest) ← name t
  keyFrom (rest.length + 1) [n] rest

def skipComment (t : Text) : Option Text :=
  match t with
  | '#' :: t =>
    if (t.takeWhile (· ≠ '\n')).any isControl then none else some (t.dropWhile (· ≠ '\n'))
  | t => some t

def skipGaps : (fuel : Nat) → Text → Option Text
  | 0, _ => none
  | fuel + 1, t =>
    match t.dropWhile isGap with
    | '#' :: t => do skipGaps fuel (← skipComment ('#' :: t))
    | t => some t

mutual

def value : (fuel : Nat) → Reader Value
  | 0, _ => none
  | fuel + 1, '[' :: t => do
    match ← skipGaps (t.length + 1) t with
    | ']' :: t => some (.list [], t)
    | t => listItems fuel [] t
  | fuel + 1, '\x7b' :: t =>
    match skipSpaces t with
    | '\x7d' :: t => some (.table [], t)
    | t => inlineEntries fuel {} t
  | _ + 1, t => scalar t

def listItems : (fuel : Nat) → List Value → Reader Value
  | 0, _, _ => none
  | fuel + 1, items, t => do
    let (v, t) ← value fuel t
    let items := items ++ [v]
    match ← skipGaps (t.length + 1) t with
    | ']' :: t => some (.list items, t)
    | ',' :: t =>
      match ← skipGaps (t.length + 1) t with
      | ']' :: t => some (.list items, t)
      | t => listItems fuel items t
    | _ => none

def inlineEntries : (fuel : Nat) → InlineTable → Reader Value
  | 0, _, _ => none
  | fuel + 1, table, t => do
    let ((k, v), t) ← keyValue fuel t
    let table ← table.assign k v
    match skipSpaces t with
    | '\x7d' :: t => some (.table table.entries, t)
    | ',' :: t => inlineEntries fuel table (skipSpaces t)
    | _ => none

def keyValue : (fuel : Nat) → Reader (Key × Value)
  | 0, _ => none
  | fuel + 1, t => do
    let (k, t) ← key t
    match t with
    | '=' :: t => (value fuel (skipSpaces t)).map fun (v, t) => ((k, v), t)
    | _ => none

end

def statement (tree : Tree) : Reader Tree
  | '[' :: '[' :: t => do
    let (k, t) ← key (skipSpaces t)
    pure (← tree.openItem k, ← Text.dropStem? "]]" t)
  | '[' :: t => do
    let (k, t) ← key (skipSpaces t)
    pure (← tree.openTable k, ← Text.dropStem? "]" t)
  | [] => some (tree, [])
  | c :: t =>
    if c = '\n' || c = '#' then some (tree, c :: t)
    else do
      let ((k, v), t) ← keyValue (4 * (t.length + 2)) (c :: t)
      pure (← tree.assign k v, t)

def statements : (fuel : Nat) → Tree → Text → Option Tree
  | 0, _, _ => none
  | fuel + 1, tree, t => do
    let (tree, t) ← statement tree (skipSpaces t)
    match ← skipComment (skipSpaces t) with
    | [] => some tree
    | '\n' :: t => statements fuel tree t
    | _ => none

def read (t : Text) : Option Entries := (statements (t.length + 1) {} t).map (·.entries)

end Traceability.Toml
