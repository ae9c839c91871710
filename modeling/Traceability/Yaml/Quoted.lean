import Traceability.Text.Hex
import Traceability.Yaml.Basic

/-!
# Quoted scalars

The inside of single and double quotes. A line break in it is folded with the spaces around it; in
double quotes a backslash escapes a character or takes a line break away.
-/
namespace Traceability.Yaml

/-- The breaks of empty lines, with the spaces before and after them, and what follows. No line may
start with a separator of documents. -/
def emptyLines : (fuel : Nat) → Text → Reading (Text × Text)
  | 0, _ => malformed
  | fuel + 1, t =>
    if atSeparator t then malformed
    else
      let t := t.dropWhile isSpace
      match lineBreak? t with
      | some (b, t) => do
        let (breaks, t) ← emptyLines fuel t
        pure (b :: breaks, t)
      | none => .ok ([], t)

def escaped? : Char → Option Char
  | '0' => some '\x00'
  | 'a' => some '\x07'
  | 'b' => some '\x08'
  | 't' => some '\t'
  | '\t' => some '\t'
  | 'n' => some '\n'
  | 'v' => some '\x0b'
  | 'f' => some '\x0c'
  | 'r' => some '\r'
  | 'e' => some '\x1b'
  | ' ' => some ' '
  | '"' => some '"'
  | '\\' => some '\\'
  | '/' => some '/'
  | 'N' => some '\u0085'
  | '_' => some '\u00a0'
  | 'L' => some '\u2028'
  | 'P' => some '\u2029'
  | _ => none

def codeLength? : Char → Option Nat
  | 'x' => some 2
  | 'u' => some 4
  | 'U' => some 8
  | _ => none

/-- The character with a code point. Half of a pair has none of its own and counts as the replacement
character. -/
def characterAt (code : Nat) : Reading Char :=
  match Text.scalar? code with
  | some c => .ok c
  | none => if code < 0x110000 then .ok '\ufffd' else .error .noCharacter

def escape : Text → Reading (Text × Text)
  | [] => malformed
  | c :: t =>
    match escaped? c, codeLength? c, lineBreak? (c :: t) with
    | some d, _, _ => .ok ([d], t)
    | none, some n, _ =>
      let digits := t.take n
      if digits.length = n && digits.all Text.isHex then do
        pure ([← characterAt (Text.numberIn 16 digits)], t.drop n)
      else malformed
    | none, none, some (_, rest) => emptyLines (rest.length + 1) rest
    | none, none, none => malformed

def before (first : Text) (r : Reading (Text × Text)) : Reading (Text × Text) :=
  r.map fun (read, rest) => (first ++ read, rest)

def quotedBody (quote : Char) : (fuel : Nat) → Text → Reading (Text × Text)
  | 0, _ => malformed
  | _ + 1, [] => malformed
  | fuel + 1, c :: t =>
    if isSpace c || isBreak c then
      let spaces := (c :: t).takeWhile isSpace
      let rest := (c :: t).dropWhile isSpace
      match lineBreak? rest with
      | some (b, rest) => do
        let (breaks, rest) ← emptyLines (rest.length + 1) rest
        before (foldBreaks b breaks) (quotedBody quote fuel rest)
      | none => before spaces (quotedBody quote fuel rest)
    else if c = quote then
      match quote, t with
      | '\'', '\'' :: t => before ['\''] (quotedBody quote fuel t)
      | _, t => .ok ([], t)
    else if c = '\\' && quote = '"' then do
      let (read, rest) ← escape t
      before read (quotedBody quote fuel rest)
    else before [c] (quotedBody quote fuel t)

def quotedScalar (quote : Char) (t : Text) : Reading (Text × Text) :=
  quotedBody quote (t.length + 1) t

end Traceability.Yaml
