import Traceability.Yaml.Scalar
import Traceability.Yaml.Token

/-!
# Nodes of YAML

A document as a tree of nodes: scalars, sequences and mappings. An alias stands for the node that its
anchor marks; inside that node it stands for nothing.
-/
namespace Traceability.Yaml

inductive Shape where
  | plain
  | foreign
deriving DecidableEq, Repr

inductive Node where
  | scalar (kind : Option ScalarKind) (t : Text)
  | sequence (shape : Shape) (items : List Node)
  | mapping (shape : Shape) (entries : List (Node × Node))
deriving Repr, Inhabited

namespace Node

def none : Node := .scalar (some .null) []

def coreStem : Text := "tag:yaml.org,2002:"

def kindOfTag? (tag : Text) : Option ScalarKind :=
  (Text.dropStem? coreStem tag).bind fun name =>
    if name = "null" then some .null
    else if name = "bool" then some .bool
    else if name = "int" then some .int
    else if name = "float" then some .real
    else if name = "timestamp" then some .moment
    else if name = "str" then some .text
    else Option.none

def shapeOfTag (name : Text) : Option Text → Shape
  | Option.none => .plain
  | some tag => if tag = ['!'] || tag = coreStem ++ name then .plain else .foreign

def ofScalar (tag : Option Text) (isPlain : Bool) (t : Text) : Node :=
  match tag with
  | Option.none => .scalar (some (if isPlain then Scalar.kind t else .text)) t
  | some tag =>
    if tag = ['!'] then .scalar (some (Scalar.kind t)) t else .scalar (kindOfTag? tag) t

/-! ## Reading nodes -/

/-- What is left of the tokens, the nodes that anchors mark, and what the handles of tags stand for.
The anchor of a node that is still being read marks nothing yet. -/
structure State where
  tokens : List Token
  anchors : List (Text × Option Node) := []
  handles : List (Text × Text) := []

abbrev Reader := StateT State Reading

def refuse {α : Type} : Reader α := fun _ => malformed

def peek : Reader (Option Token) := do pure (← get).tokens.head?

def advance : Reader Unit := modify fun s => { s with tokens := s.tokens.drop 1 }

def nextIs (tokens : List Token) : Reader Bool := do
  pure ((← peek).any (· ∈ tokens))

def accept (token : Token) : Reader Bool := do
  if ← nextIs [token] then
    advance
    pure true
  else pure false

def expect (token : Token) : Reader Unit := do
  if ← accept token then pure () else refuse

def marked (name : Text) : Reader Node := do
  match (← get).anchors.lookup name with
  | some node? => pure (node?.getD Node.none)
  | Option.none => refuse

def mark (anchor : Option Text) (node? : Option Node) : Reader Unit :=
  match anchor with
  | Option.none => pure ()
  | some name => modify fun s => { s with anchors := (name, node?) :: s.anchors }

/-- Ends the reading if an anchor is used a second time. -/
def checkNew (anchor : Option Text) : Reader Unit := do
  match anchor with
  | Option.none => pure ()
  | some name => if ((← get).anchors.lookup name).isSome then refuse else pure ()

def expand (t : TagText) : Reader Text := do
  match t.handle with
  | Option.none => pure t.suffix
  | some handle =>
    match (← get).handles.lookup handle with
    | some stem => pure (stem ++ t.suffix)
    | Option.none => refuse

def properties : Reader (Option Text × Option Text) := do
  match ← peek with
  | some (.anchor name) =>
    advance
    match ← peek with
    | some (.tag t) =>
      advance
      pure (some name, some (← expand t))
    | _ => pure (some name, Option.none)
  | some (.tag t) =>
    advance
    match ← peek with
    | some (.anchor name) =>
      advance
      pure (some name, some (← expand t))
    | _ => pure (Option.none, some (← expand t))
  | _ => pure (Option.none, Option.none)

/-- Where a node stands: in brackets, in a block, or behind a key of a block, where the entries of a
sequence need no deeper indentation. -/
inductive Context where
  | flow
  | block
  | behindKey
deriving DecidableEq, Repr

def finish (anchor : Option Text) (node : Node) : Reader Node := do
  mark anchor (some node)
  pure node

def empty (anchor tag : Option Text) : Reader Node :=
  if anchor = Option.none && tag = Option.none then refuse else finish anchor (ofScalar tag true [])

def sequenceOf (anchor tag : Option Text) (items : Reader (List Node)) : Reader Node := do
  mark anchor Option.none
  let items ← items
  finish anchor (.sequence (shapeOfTag "seq" tag) items)

def mappingOf (anchor tag : Option Text) (entries : Reader (List (Node × Node))) : Reader Node := do
  mark anchor Option.none
  let entries ← entries
  finish anchor (.mapping (shapeOfTag "map" tag) entries)

def unlessNext (tokens : List Token) (node : Reader Node) : Reader Node := do
  if ← nextIs tokens then pure Node.none else node

def valueOf (tokens : List Token) (node : Reader Node) : Reader Node := do
  if ← accept .value then unlessNext tokens node else pure Node.none

mutual

def read : (fuel : Nat) → Context → Reader Node
  | 0, _ => refuse
  | fuel + 1, context => do
    match ← peek with
    | some (.alias name) =>
      advance
      marked name
    | _ =>
      let (anchor, tag) ← properties
      checkNew anchor
      let inBlock := context ≠ .flow
      match ← peek with
      | some (.scalar t isPlain) =>
        advance
        finish anchor (ofScalar tag isPlain t)
      | some .flowSequence =>
        advance
        sequenceOf anchor tag (flowItems fuel true)
      | some .flowMapping =>
        advance
        mappingOf anchor tag (flowEntries fuel true)
      | some .blockEntry =>
        if context = .behindKey then sequenceOf anchor tag (looseItems fuel) else empty anchor tag
      | some .blockSequence =>
        if inBlock then
          advance
          sequenceOf anchor tag (blockItems fuel)
        else empty anchor tag
      | some .blockMapping =>
        if inBlock then
          advance
          mappingOf anchor tag (blockEntries fuel)
        else empty anchor tag
      | _ => empty anchor tag

def blockItems : (fuel : Nat) → Reader (List Node)
  | 0 => refuse
  | fuel + 1 => do
    if ← accept .blockEntry then
      let item ← unlessNext [.blockEntry, .blockEnd] (read fuel .block)
      pure (item :: (← blockItems fuel))
    else
      expect .blockEnd
      pure []

def looseItems : (fuel : Nat) → Reader (List Node)
  | 0 => refuse
  | fuel + 1 => do
    if ← accept .blockEntry then
      let item ← unlessNext [.blockEntry, .key, .value, .blockEnd] (read fuel .block)
      pure (item :: (← looseItems fuel))
    else pure []

def blockEntries : (fuel : Nat) → Reader (List (Node × Node))
  | 0 => refuse
  | fuel + 1 => do
    let stops : List Token := [.key, .value, .blockEnd]
    if ← accept .key then
      let key ← unlessNext stops (read fuel .behindKey)
      let value ← valueOf stops (read fuel .behindKey)
      pure ((key, value) :: (← blockEntries fuel))
    else
      expect .blockEnd
      pure []

def flowItems : (fuel : Nat) → (isFirst : Bool) → Reader (List Node)
  | 0, _ => refuse
  | fuel + 1, isFirst => do
    if ← accept .flowSequenceEnd then pure []
    else
      if isFirst then pure () else expect .flowEntry
      let stops : List Token := [.flowEntry, .flowSequenceEnd]
      if ← accept .key then
        let key ← unlessNext (.value :: stops) (read fuel .flow)
        let value ← valueOf stops (read fuel .flow)
        pure (.mapping .plain [(key, value)] :: (← flowItems fuel false))
      else if ← accept .flowSequenceEnd then pure []
      else
        let item ← read fuel .flow
        pure (item :: (← flowItems fuel false))

def flowEntries : (fuel : Nat) → (isFirst : Bool) → Reader (List (Node × Node))
  | 0, _ => refuse
  | fuel + 1, isFirst => do
    if ← accept .flowMappingEnd then pure []
    else
      if isFirst then pure () else expect .flowEntry
      let stops : List Token := [.flowEntry, .flowMappingEnd]
      if ← accept .key then
        let key ← unlessNext (.value :: stops) (read fuel .flow)
        let value ← valueOf stops (read fuel .flow)
        pure ((key, value) :: (← flowEntries fuel false))
      else if ← accept .flowMappingEnd then pure []
      else
        let key ← read fuel .flow
        pure ((key, Node.none) :: (← flowEntries fuel false))

end

/-! ## Reading documents -/

def defaultHandles : List (Text × Text) := [(['!'], ['!']), (['!', '!'], coreStem)]

/-- The directives in front of a document; `hasVersion` tells whether the version was given before. No
directive is given twice, and the version is one. -/
def directives (hasVersion : Bool) (handles : List (Text × Text)) :
    List Token → Reading (List (Text × Text) × List Token)
  | .directive (.version major) :: rest =>
    if hasVersion || major ≠ 1 then malformed else directives true handles rest
  | .directive (.handle name stem) :: rest =>
    if (handles.lookup name).isSome then malformed
    else directives hasVersion ((name, stem) :: handles) rest
  | .directive .other :: rest => directives hasVersion handles rest
  | rest => .ok (handles, rest)

def endsDocument : Token → Bool
  | .directive _ | .documentStart | .documentEnd => true
  | _ => false

def content (tokens : List Token) (handles : List (Text × Text)) : Reading (Node × List Token) :=
  if tokens.head?.all endsDocument then .ok (Node.none, tokens)
  else do
    let (node, s) ← read (3 * tokens.length + 3) .block { tokens, handles }
    pure (node, s.tokens)

def ofTokens? (tokens : List Token) : Reading (Option Node) :=
  match tokens with
  | [] => .ok Option.none
  | .documentEnd :: _ => malformed
  | tokens => do
    let (handles, rest) ← directives false [] tokens
    let rest ← match rest with
      | .documentStart :: rest => pure rest
      | rest => if rest.length = tokens.length then pure rest else malformed
    let (node, rest) ← content rest (handles ++ defaultHandles)
    if rest.dropWhile (· = .documentEnd) = [] then pure (some node) else malformed

def ofText? (t : Text) : Reading (Option Node) := do ofTokens? (← Token.ofText t)

end Node

end Traceability.Yaml
