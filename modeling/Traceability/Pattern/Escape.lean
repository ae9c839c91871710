import Traceability.Pattern.CharacterName
import Traceability.Pattern.Reading
import Traceability.Text.Hex
import Traceability.Text.Number

/-!
# Escapes and sets

What an escape stands for, inside a set and outside, and the elements of a set.
-/
namespace Traceability.PatternReader

variable [CharacterNames]

def isOctal (c : Char) : Bool := '0' ≤ c && c ≤ '7'

def isAsciiLetter (c : Char) : Bool := Text.isAsciiAlnum c && !c.isDigit

def control? : Char → Option Nat
  | 'a' => some 7
  | 'b' => some 8
  | 'f' => some 12
  | 'n' => some 10
  | 'r' => some 13
  | 't' => some 9
  | 'v' => some 11
  | '\\' => some 92
  | _ => none

def class? : Char → Option SetItem
  | 'd' => some (.cls .digit false)
  | 'D' => some (.cls .digit true)
  | 's' => some (.cls .blank false)
  | 'S' => some (.cls .blank true)
  | 'w' => some (.cls .word false)
  | 'W' => some (.cls .word true)
  | _ => none

def place? : Char → Option Boundary
  | 'A' => some .textStart
  | 'Z' => some .textEnd
  | 'b' => some .wordEdge
  | 'B' => some .noWordEdge
  | _ => none

def hexEscape (letter : Char) (count : Nat) : PatternReader Nat := do
  let digits ← upTo Text.isHex count
  let escape := '\\' :: letter :: digits
  if digits.length ≠ count then fail (.incompleteEscape escape) escape.length
  else
    let code := Text.numberIn 16 digits
    if 0x10FFFF < code then fail (.badEscape escape) escape.length else pure code

def namedEscape : PatternReader Nat := do
  if ← accept '\x7b' then
    let word ← nameUpTo '\x7d' "character name"
    match CharacterNames.named? word with
    | some c => pure c.toNat
    | none => fail (.unknownCharacterName word) (word.length + 4)
  else fail .missingOpening

def octal (digits : Text) : PatternReader Nat := do
  let code := Text.numberIn 8 digits
  if 0o377 < code then fail (.octalTooLarge ('\\' :: digits)) (digits.length + 1) else pure code

def plainEscape (c : Char) : PatternReader Nat :=
  if isAsciiLetter c || c.isDigit then fail (.badEscape ['\\', c]) 2 else pure c.toNat

def setEscape (c : Char) : PatternReader SetItem := do
  match control? c, class? c with
  | some code, _ => pure (.char code)
  | none, some item => pure item
  | none, none =>
    if c = 'x' then .char <$> hexEscape c 2
    else if c = 'u' then .char <$> hexEscape c 4
    else if c = 'U' then .char <$> hexEscape c 8
    else if c = 'N' then .char <$> namedEscape
    else if isOctal c then do .char <$> octal (c :: (← upTo isOctal 2))
    else .char <$> plainEscape c

/-- Refuses a reference to a group that is still open, or was opened in the same look-behind. -/
def checkLookbehind (index : Nat) : PatternReader Unit := do
  let s ← get
  match s.lookbehind with
  | none => pure ()
  | some outside =>
    if ((s.groups[index - 1]?).join).isNone then fail .openGroupReference
    else if outside < index then fail .lookbehindReference

def reference (flags : PatternFlags) (digits : Text) : PatternReader PatternNode := do
  let index := Text.numberIn 10 digits
  let s ← get
  if index ≤ s.groups.length then
    if ((s.groups[index - 1]?).join).isNone then
      fail .openGroupReference (digits.length + 1)
    else
      checkLookbehind index
      pure (.again index flags)
  else fail (.unknownGroup index) digits.length

def digitEscape (flags : PatternFlags) (c : Char) : PatternReader PatternNode := do
  match ← upTo Char.isDigit 1 with
  | [d] =>
    if isOctal c && isOctal d then
      match ← upTo isOctal 1 with
      | [e] => do pure (.char (← octal [c, d, e]) flags)
      | _ => reference flags [c, d]
    else reference flags [c, d]
  | _ => reference flags [c]

/-- What has been read: a place, which cannot be repeated, a repetition, which cannot either, or
anything else. -/
inductive ItemSort where
  | place
  | repetition
  | other
deriving DecidableEq, Repr

def escape (flags : PatternFlags) (c : Char) : PatternReader (ItemSort × PatternNode) := do
  match class? c, place? c, control? c with
  | some item, _, _ => pure (.other, .set false [item] flags)
  | none, some place, _ => pure (.place, .boundary place flags)
  | none, none, some code => pure (.other, .char code flags)
  | none, none, none =>
    if c = 'x' then do pure (.other, .char (← hexEscape c 2) flags)
    else if c = 'u' then do pure (.other, .char (← hexEscape c 4) flags)
    else if c = 'U' then do pure (.other, .char (← hexEscape c 8) flags)
    else if c = 'N' then do pure (.other, .char (← namedEscape) flags)
    else if c = '0' then do pure (.other, .char (← octal (c :: (← upTo isOctal 2))) flags)
    else if c.isDigit then do pure (.other, ← digitEscape flags c)
    else do pure (.other, .char (← plainEscape c) flags)

/-- The elements of a set up to its end; `start` is the position of the set. -/
def setItems (start : Nat) : (fuel : Nat) → (read : List SetItem) → PatternReader (List SetItem)
  | 0, _ => fail .unexpectedEnd
  | fuel + 1, read => do
    match ← next with
    | none => failAt .unterminatedSet start
    | some this =>
      if this = [']'] && read ≠ [] then pure read
      else
        let low ← setElement this
        if ← accept '-' then
          match ← next with
          | none => failAt .unterminatedSet start
          | some that =>
            if that = [']'] then pure (read ++ [low, .char '-'.toNat])
            else
              let high ← setElement that
              let bad := fail (.badRange (this ++ ['-'] ++ that)) (this.length + 1 + that.length)
              match low, high with
              | .char a, .char b =>
                if b < a then bad else setItems start fuel (read ++ [.range a b])
              | _, _ => bad
        else setItems start fuel (read ++ [low])
where
  setElement (token : Text) : PatternReader SetItem :=
    match token with
    | ['\\', c] => setEscape c
    | c :: _ => pure (.char c.toNat)
    | [] => pure (.char 0)

def readSet (flags : PatternFlags) : PatternReader PatternNode := do
  let start := (← get).position - 1
  let negated ← accept '^'
  let items ← setItems start ((← get).rest.length + 1) []
  pure (.set negated items flags)

end Traceability.PatternReader
