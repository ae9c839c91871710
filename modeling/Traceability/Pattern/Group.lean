import Traceability.Pattern.Escape

/-!
# Groups and their flags

What stands behind an opening parenthesis, the names and numbers of groups, and the flags that a group
sets. The alphabet flags exclude one another.
-/
namespace Traceability.PatternReader

inductive Flag where
  | ignoreCase
  | multiline
  | dotAll
  | verbose
  | ascii
  | wide
  | locale
  | template
deriving DecidableEq, Repr

def flag? : Char → Option Flag
  | 'i' => some .ignoreCase
  | 'L' => some .locale
  | 'm' => some .multiline
  | 's' => some .dotAll
  | 'x' => some .verbose
  | 'a' => some .ascii
  | 't' => some .template
  | 'u' => some .wide
  | _ => none

def tokenFlag? : Text → Option Flag
  | [c] => flag? c
  | _ => none

def Flag.isAlphabet (f : Flag) : Bool := f = .ascii || f = .wide || f = .locale

def Flag.switch (on : Bool) (flags : PatternFlags) : Flag → PatternFlags
  | .ignoreCase => { flags with ignoreCase := on }
  | .multiline => { flags with multiline := on }
  | .dotAll => { flags with dotAll := on }
  | .verbose => { flags with verbose := on }
  | .ascii => { flags with ascii := on }
  | .wide => if on then { flags with ascii := false } else flags
  | .locale | .template => flags

def isLetterToken (token : Text) : Bool :=
  match token with
  | [c] => Text.isWord c && !Text.isDigit c && c ≠ '_'
  | _ => false

def flagsOn : (fuel : Nat) → Flag → List Flag → PatternReader (List Flag × Char)
  | 0, _, _ => fail .unexpectedEnd
  | fuel + 1, flag, read => do
    if flag = .locale then fail .localeFlag
    if flag.isAlphabet && read.any (fun f => f.isAlphabet && f ≠ flag) then
      fail .incompatibleFlags
    match ← next with
    | none => fail .missingFlagEnd
    | some token =>
      if token = [')'] || token = ['-'] || token = [':'] then
        pure (read ++ [flag], token.head?.getD ')')
      else match tokenFlag? token with
        | some flag' => flagsOn fuel flag' (read ++ [flag])
        | none =>
          if isLetterToken token then fail .unknownFlag token.length
          else fail .missingFlagEnd token.length

def flagsOff : (fuel : Nat) → Flag → List Flag → PatternReader (List Flag)
  | 0, _, _ => fail .unexpectedEnd
  | fuel + 1, flag, read => do
    if flag.isAlphabet then fail .alphabetFlagOff
    match ← next with
    | none => fail .missingColon
    | some token =>
      if token = [':'] then pure (read ++ [flag])
      else match tokenFlag? token with
        | some flag' => flagsOff fuel flag' (read ++ [flag])
        | none =>
          if isLetterToken token then fail .unknownFlag token.length
          else fail .missingColon token.length

inductive FlagGroup where
  | whole (on : List Flag)
  | part (on off : List Flag)

def flagGroup (token : Text) : PatternReader FlagGroup := do
  let fuel := (← get).rest.length + 1
  let (on, stop) ← match tokenFlag? token with
    | some flag => flagsOn fuel flag []
    | none => pure ([], '-')
  if stop = ')' then return .whole on
  if on.elem .template then fail .globalFlagOn 1
  let off ← if stop = '-' then do
      match ← next with
      | none => fail .missingFlag
      | some token =>
        match tokenFlag? token with
        | some flag => flagsOff fuel flag []
        | none =>
          if isLetterToken token then fail .unknownFlag token.length
          else fail .missingFlag token.length
    else pure []
  if off.elem .template then fail .globalFlagOff 1
  if on.any off.elem then fail .flagOnAndOff 1
  return .part on off

def isGroupName (t : Text) : Bool :=
  t.all Text.isWord && t.head?.any fun c => !Text.isDigit c

def checkGroupName (word : Text) (offset : Nat) : PatternReader Unit :=
  if isGroupName word then pure () else fail (.badGroupName word) (word.length + offset)

def namedReference (flags : PatternFlags) : PatternReader PatternNode := do
  let word ← nameUpTo ')' "group name"
  checkGroupName word 1
  match (← get).names.lookup word with
  | none => fail (.unknownGroupName word) (word.length + 1)
  | some index =>
    if (((← get).groups[index - 1]?).join).isNone then
      fail .openGroupReference (word.length + 1)
    checkLookbehind index
    pure (.again index flags)

def conditionGroup : PatternReader Nat := do
  let word ← nameUpTo ')' "group name"
  let offset := word.length + 1
  let index ←
    if isGroupName word then
      match (← get).names.lookup word with
      | none => fail (.unknownGroupName word) offset
      | some index => pure index
    else match Text.int? word with
      | some (.ofNat 0) => fail .badGroupNumber offset
      | some (.ofNat n) =>
        if 2147483647 ≤ n then fail (.unknownGroup n) offset
        modify fun s =>
          if s.conditions.any (·.1 = n) then s
          else { s with conditions := s.conditions ++ [(n, s.position - offset)] }
        pure n
      | _ => fail (.badGroupName word) offset
  checkLookbehind index
  pure index

def skipComment (start : Nat) : (fuel : Nat) → PatternReader Unit
  | 0 => fail .unexpectedEnd
  | fuel + 1 => do
    match ← next with
    | none => failAt .unterminatedComment start
    | some token => if token = [')'] then pure () else skipComment start fuel

def skipLine : (fuel : Nat) → PatternReader Unit
  | 0 => pure ()
  | fuel + 1 => do
    match ← next with
    | none => pure ()
    | some token => if token = ['\n'] then pure () else skipLine fuel

def openGroup (word : Option Text) : PatternReader Nat := do
  let s ← get
  let index := s.groups.length + 1
  match word with
  | none => set { s with groups := s.groups ++ [none] }
  | some word =>
    match s.names.lookup word with
    | some earlier => fail (.redefinedGroup word index earlier) (word.length + 1)
    | none => set { s with groups := s.groups ++ [none], names := (word, index) :: s.names }
  pure index

def widthOf (node : PatternNode) : PatternReader PatternWidth := do
  let groups := (← get).groups
  pure (node.width fun index => ((groups[index - 1]?).join).getD .zero)

def closeGroup (index : Nat) (body : PatternNode) : PatternReader Unit := do
  let width ← widthOf body
  modify fun s => { s with groups := s.groups.set (index - 1) (some width) }

def lookbehindNode (negated : Bool) (body : PatternNode) : PatternReader PatternNode := do
  let width ← widthOf body
  let fault : Option PatternFault :=
    if 4294967295 < width.least then some .farLookbehind
    else if width.most ≠ some width.least then some .variableLookbehind
    else none
  modify fun s => { s with late := s.late.or fault }
  pure (.behind negated width.least body)

inductive Opening where
  | capture (word : Option Text)
  | plain (flags : PatternFlags)
  | atomic
  | ahead (negated : Bool)
  | behind (negated : Bool)
  | condition (index : Nat)
  | item (node : PatternNode)
  | nothing
  | wholeFlags (on : List Flag)

def opening (flags : PatternFlags) (start : Nat) : PatternReader Opening := do
  if !(← accept '?') then return .capture none
  match ← next with
  | none => fail .unexpectedEnd
  | some token =>
    if token = ['P'] then
      if ← accept '<' then
        let word ← nameUpTo '>' "group name"
        checkGroupName word 1
        return .capture (some word)
      else if ← accept '=' then return .item (← namedReference flags)
      else match ← next with
        | none => fail .unexpectedEnd
        | some c => fail (.unknownExtension ("?P" ++ c)) (c.length + 2)
    else if token = [':'] then return .plain flags
    else if token = ['#'] then
      skipComment start ((← get).rest.length + 1)
      return .nothing
    else if token = ['='] then return .ahead false
    else if token = ['!'] then return .ahead true
    else if token = ['<'] then
      match ← next with
      | none => fail .unexpectedEnd
      | some c =>
        if c = ['='] then return .behind false
        else if c = ['!'] then return .behind true
        else fail (.unknownExtension ("?<" ++ c)) (c.length + 2)
    else if token = ['('] then return .condition (← conditionGroup)
    else if token = ['>'] then return .atomic
    else if (tokenFlag? token).isSome || token = ['-'] then
      match ← flagGroup token with
      | .whole on => return .wholeFlags on
      | .part on off =>
        return .plain (off.foldl (Flag.switch false) (on.foldl (Flag.switch true) flags))
    else fail (.unknownExtension ("?" ++ token)) (token.length + 1)

def setFlags (on : List Flag) : PatternReader Unit :=
  modify fun s =>
    { s with
      flags := (on.filter (· ≠ .wide)).foldl (Flag.switch true) s.flags
      wide := s.wide || on.elem .wide }

def closing (start : Nat) : PatternReader Unit := do
  if !(← accept ')') then failAt .unterminatedGroup start

end Traceability.PatternReader
