import Traceability.Moment

/-!
# Characters of YAML

Which characters a document may hold, which ones separate its parts, and what can be wrong with it.
-/
namespace Traceability.Yaml

/-- Why a document has no value: it is malformed, or one of its scalars spells something that does not
exist. -/
inductive YamlFault where
  | malformed
  | moment (fault : MomentFault)
  | noDigits (base : Nat)
  | noCharacter
deriving DecidableEq, Repr

def YamlFault.message : YamlFault → Text
  | .malformed => []
  | .moment fault => fault.message
  | .noDigits base => "invalid literal for int() with base " ++ Text.ofNat base ++ ": ''"
  | .noCharacter => "chr() arg not in range(0x110000)"

abbrev Reading := Except YamlFault

def malformed {α : Type} : Reading α := .error .malformed

def isAllowed (c : Char) : Bool :=
  let n := c.toNat
  n = 9 || n = 10 || n = 13 || (0x20 ≤ n && n ≤ 0x7E) || n = 0x85 || (0xA0 ≤ n && n ≤ 0xFFFD) ||
    0x10000 ≤ n

def isBreak (c : Char) : Bool :=
  c = '\n' || c = '\r' || c = '\u0085' || c = '\u2028' || c = '\u2029'

def isSpace (c : Char) : Bool := c = ' ' || c = '\t'

def atGap : Text → Bool
  | [] => true
  | c :: _ => isSpace c || isBreak c

def atLineEnd : Text → Bool
  | [] => true
  | c :: _ => isBreak c

def atSpaceOrLineEnd : Text → Bool
  | [] => true
  | c :: _ => c = ' ' || isBreak c

def lineBreak? : Text → Option (Char × Text)
  | '\r' :: '\n' :: t => some ('\n', t)
  | c :: t =>
    if c = '\u2028' || c = '\u2029' then some (c, t)
    else if isBreak c then some ('\n', t)
    else none
  | [] => none

def skipComment (t : Text) : Text :=
  match t.dropWhile (· = ' ') with
  | '#' :: t => t.dropWhile fun c => !isBreak c
  | t => t

def skipLineEnd (t : Text) : Reading Text :=
  match skipComment t with
  | [] => .ok []
  | t =>
    match lineBreak? t with
    | some (_, t) => .ok t
    | none => malformed

def hasMark (mark t : Text) : Bool :=
  match Text.dropStem? mark t with
  | some rest => atGap rest
  | none => false

def atSeparator (t : Text) : Bool := hasMark "---" t || hasMark "..." t

/-- What a line break and the breaks of empty lines behind it count as: a single line feed is a
space. -/
def foldBreaks (first : Char) (others : Text) : Text :=
  if first ≠ '\n' then first :: others
  else if others = [] then [' ']
  else others

end Traceability.Yaml
