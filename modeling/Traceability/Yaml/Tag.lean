import Traceability.Text.Hex
import Traceability.Text.Utf8
import Traceability.Text.Word
import Traceability.Yaml.Basic

/-!
# Tags, anchors and directives

The short words of YAML: names of anchors, tags with their handles, and the directives in front of a
document.
-/
namespace Traceability.Yaml

def isNameChar (c : Char) : Bool := Text.isAsciiAlnum c || c = '-' || c = '_'

def anchorName (t : Text) : Reading (Text × Text) :=
  let name := t.takeWhile isNameChar
  let rest := t.dropWhile isNameChar
  if name = [] then malformed
  else if atGap rest || rest.head?.any (fun c => c ∈ "?:,]\x7d%@\x60".toList) then .ok (name, rest)
  else malformed

structure TagText where
  handle : Option Text
  suffix : Text
deriving DecidableEq, Repr

def isSuffixChar (c : Char) : Bool :=
  Text.isAsciiAlnum c || c ∈ "-;/?:@&=+$,_.!~*'()[]".toList

def suffixBytes : Text → Reading (List UInt8 × Text)
  | '%' :: a :: b :: t =>
    if Text.isHex a && Text.isHex b then
      (suffixBytes t).map fun (bytes, rest) =>
        (UInt8.ofNat (Text.numberIn 16 [a, b]) :: bytes, rest)
    else malformed
  | '%' :: _ => malformed
  | t => .ok ([], t)

def suffixFrom : (fuel : Nat) → Text → Reading (Text × Text)
  | 0, t => .ok ([], t)
  | fuel + 1, t =>
    let read := t.takeWhile isSuffixChar
    match t.dropWhile isSuffixChar with
    | '%' :: rest => do
      let (bytes, rest) ← suffixBytes ('%' :: rest)
      match Text.Utf8.decode bytes with
      | .error _ => malformed
      | .ok escaped =>
        let (more, rest) ← suffixFrom fuel rest
        pure (read ++ escaped ++ more, rest)
    | rest => .ok (read, rest)

def tagSuffix (t : Text) : Reading (Text × Text) := do
  let (read, rest) ← suffixFrom (t.length + 1) t
  if rest.length = t.length then malformed else pure (read, rest)

def tagHandle (t : Text) : Reading (Text × Text) :=
  match t with
  | '!' :: rest =>
    if rest.head? = some ' ' then .ok (['!'], rest)
    else
      let name := rest.takeWhile isNameChar
      match rest.dropWhile isNameChar with
      | '!' :: rest => .ok ('!' :: name ++ ['!'], rest)
      | _ => malformed
  | _ => malformed

def tagBody (t : Text) : Reading (TagText × Text) :=
  match t with
  | '<' :: t => do
    let (suffix, rest) ← tagSuffix t
    match rest with
    | '>' :: rest => pure (⟨none, suffix⟩, rest)
    | _ => malformed
  | t =>
    if atGap t then .ok (⟨none, ['!']⟩, t)
    else if (t.takeWhile fun c => !(c = ' ' || isBreak c)).elem '!' then do
      let (handle, rest) ← tagHandle ('!' :: t)
      let (suffix, rest) ← tagSuffix rest
      pure (⟨some handle, suffix⟩, rest)
    else do
      let (suffix, rest) ← tagSuffix t
      pure (⟨some ['!'], suffix⟩, rest)

def tagText (t : Text) : Reading (TagText × Text) := do
  let (tag, rest) ← tagBody t
  if atSpaceOrLineEnd rest then pure (tag, rest) else malformed

/-- A directive in front of a document: the number of the version before the point, a handle and what
it stands for, or anything else. -/
inductive Directive where
  | version (major : Nat)
  | handle (name stem : Text)
  | other
deriving DecidableEq, Repr

def versionNumber (t : Text) : Reading (Nat × Text) :=
  let digits := t.takeWhile Char.isDigit
  if digits = [] then malformed else .ok (Text.numberIn 10 digits, t.dropWhile Char.isDigit)

def skipSpaces (t : Text) : Text := t.dropWhile (· = ' ')

def versionDirective (t : Text) : Reading (Directive × Text) := do
  let (major, t) ← versionNumber (skipSpaces t)
  match t with
  | '.' :: t =>
    let (_, t) ← versionNumber t
    if atSpaceOrLineEnd t then pure (.version major, t) else malformed
  | _ => malformed

def handleDirective (t : Text) : Reading (Directive × Text) := do
  let (name, t) ← tagHandle (skipSpaces t)
  if t.head? = some ' ' then
    let (stem, t) ← tagSuffix (skipSpaces t)
    if atSpaceOrLineEnd t then pure (.handle name stem, t) else malformed
  else malformed

def directive (t : Text) : Reading (Directive × Text) := do
  let name := t.takeWhile isNameChar
  let rest := t.dropWhile isNameChar
  if name = [] || !atSpaceOrLineEnd rest then malformed
  else
    let (d, rest) ←
      if name = "YAML" then versionDirective rest
      else if name = "TAG" then handleDirective rest
      else pure (.other, rest.dropWhile fun c => !isBreak c)
    pure (d, ← skipLineEnd rest)

end Traceability.Yaml
