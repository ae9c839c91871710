import Traceability.Live.Basic
import Traceability.Marker.Directive
import Traceability.Disk
import Traceability.Excerpt.Bounds
import Traceability.Sorted
import Traceability.Text.Line
import Traceability.Uri

/-!
# Features for editors

What an editor is told about the markers in a file: what an identifier means and where it is defined,
which identifiers are not defined, which ones fit at the cursor, how often one is used, and what has
to be changed to rename one. Lines and columns are counted from zero.
-/
namespace Traceability.Editor

structure Span where
  line : Nat
  start : Nat
  stop : Nat
deriving DecidableEq, Repr

def Span.startOf (line : Nat) : Span := ⟨line - 1, 0, 0⟩

def Span.ofMarker (m : Marker) : Span := ⟨m.line - 1, m.start, m.stop⟩

structure Hover where
  text : Text
  span : Span
deriving DecidableEq, Repr

structure Target where
  uri : Text
  span : Span
deriving DecidableEq, Repr

structure Diagnostic where
  span : Span
  message : Text
deriving DecidableEq, Repr

structure Completion where
  label : Text
  detail : Text
  documentation : Text
  sortKey : Text
deriving DecidableEq, Repr

structure Lens where
  span : Span
  title : Text
  id : Text
deriving DecidableEq, Repr

structure Edit where
  span : Span
  newText : Text
deriving DecidableEq, Repr

abbrev Changes := OrderedMap Text (List Edit)

def kindTitle : IdKind → Text
  | .requirement => "Requirement"
  | .criterion => "Acceptance Criterion"
  | .property => "Property"
  | .component => "Design Component"

def counted (n : Nat) (noun : Text) : Text :=
  Text.ofNat n ++ " " ++ noun ++ if n = 1 then [] else ['s']

def implCount (i : LiveIndex) (id : Text) : Nat := (i.placesOf .implementation id).length

def testCount (i : LiveIndex) (id : Text) : Nat := (i.placesOf .test id).length

def usage (i : LiveIndex) (id : Text) (label : Nat → Text → Text) : List Text :=
  [(implCount i id, "impl".toList), (testCount i id, "test".toList)].filterMap fun (n, noun) =>
    if n = 0 then none else some (label n noun)

def placeText (i : LiveIndex) (d : Spec.Definition) : Text :=
  i.relative d.location.path ++ ":" ++ Text.ofNat d.location.line

def underscored (t : Text) : Text := "_" ++ t ++ "_"

def hoverLines (i : LiveIndex) (d : Spec.Definition) : List Text :=
  let body : List Text :=
    ["### " ++ kindTitle d.kind ++ ": `" ++ d.id ++ "`", [],
      if d.text = [] then "_No description found_" else d.text, [],
      "**Feature:** " ++ Identifier.featureCode d.id,
      "**Defined in:** " ++ placeText i d]
  match usage i d.id counted with
  | [] => body
  | uses => body ++ [[], underscored (Text.join " · " uses)]

def hoverText (i : LiveIndex) (id : Text) : Text :=
  match i.definition? id with
  | none => "**" ++ id ++ "** — _ID not found in any spec file_"
  | some d => Text.join ['\n'] (hoverLines i d)

def hover? (i : LiveIndex) (path : Path) (line character : Int) : Option Hover :=
  (i.markerAt? path.toText line character).map fun m => ⟨hoverText i m.id, .ofMarker m⟩

def definition? (i : LiveIndex) (path : Path) (line character : Int) : Option Target := do
  let m ← i.markerAt? path.toText line character
  let d ← i.definition? m.id
  pure ⟨Uri.ofPath d.location.path, .startOf d.location.line⟩

def diagnostics (i : LiveIndex) (path : Path) : List Diagnostic :=
  ((i.markersIn path.toText).filter fun m => (i.definition? m.id).isNone).map fun m =>
    ⟨.ofMarker m, "Orphaned marker: '" ++ m.id ++ "' is not defined in any spec file"⟩

def diagnosticCode : FindingCode := .orphanedMarker

/-! ## Completion -/

def isTyped (c : Char) : Bool := Text.isWord c || c = '.' || c = '-'

/-- Whether a text is a list of identifiers between commas whose last one is not finished. -/
def isOpenList : (fuel : Nat) → Text → Bool
  | 0, _ => false
  | fuel + 1, t =>
    let t := Text.trimStart t
    let rest := t.dropWhile isTyped
    if rest = [] || rest = ['\n'] then true
    else if rest.length = t.length then false
    else match Text.trimStart rest with
      | ',' :: rest => isOpenList fuel rest
      | _ => false

def isTyping (token : Text) : Text → Bool
  | [] => false
  | c :: t =>
    match Text.dropStem? (token ++ ":") (c :: t) with
    | some rest => isOpenList (rest.length + 1) rest || isTyping token t
    | none => isTyping token t

def tokensOf (c : Config) : List Text := (c.markers ++ Marker.defaultTokens).take 3

def fittingKinds (c : Config) (before : Text) : List IdKind :=
  match tokensOf c with
  | [impl, test, component] =>
    if isTyping component before then [.component]
    else if isTyping impl before || isTyping test before then [.criterion, .property]
    else []
  | _ => []

def detailLimit : Nat := 80

def shorten (t : Text) : Text :=
  t.take detailLimit ++ if detailLimit < t.length then ['…'] else []

def completion (i : LiveIndex) (d : Spec.Definition) : Completion :=
  let feature := Identifier.featureCode d.id
  let suffix := match usage i d.id fun n noun => Text.ofNat n ++ " " ++ noun with
    | [] => []
    | uses => " (" ++ Text.join ", " uses ++ ")"
  { label := d.id
    detail := "[" ++ feature ++ "] " ++ shorten d.text
    documentation := Text.join ['\n']
      ["**" ++ d.id ++ "**" ++ suffix, [], d.text, [], underscored (placeText i d)]
    sortKey := feature ++ "-" ++ d.id }

/-- The completions at a column of a line; a negative one counts from the end of the line. -/
def completions (i : LiveIndex) (line : Text) (character : Int) : List Completion :=
  let kinds := fittingKinds i.config (sliceBetween 0 character line)
  sortBy (fun a b => Text.le a.sortKey b.sortKey) ((i.definitionsOf kinds).map (completion i))

/-! ## Renaming -/

def renamable? (i : LiveIndex) (path : Path) (line character : Int) : Option Marker :=
  (i.markerAt? path.toText line character).filter fun m => (i.definition? m.id).isSome

/-- The columns at which a word stands alone in a text: no word character or hyphen touches it. `skip`
characters belong to the last one found, and `isJoined` tells whether the character before the text
would touch. -/
def occurrencesFrom (word : Text) : (skip : Nat) → (isJoined : Bool) → (column : Nat) → Text →
    List Nat
  | _, _, _, [] => []
  | skip + 1, _, column, c :: t =>
    occurrencesFrom word skip (Marker.continuesWord [c]) (column + 1) t
  | 0, isJoined, column, c :: t =>
    if !isJoined && Marker.startsWithWord word (c :: t) then
      column :: occurrencesFrom word (word.length - 1) (Marker.continuesWord [c]) (column + 1) t
    else occurrencesFrom word 0 (Marker.continuesWord [c]) (column + 1) t

def occurrences (word t : Text) : List Nat := occurrencesFrom word 0 false 0 t

def textEdits (old new t : Text) : List Edit :=
  (Text.lines t).zipIdx.flatMap fun (line, number) =>
    (occurrences old line).map fun column => ⟨⟨number, column, column + old.length⟩, new⟩

def markerEdits (old new : Text) (markers : List Marker) : List Edit :=
  (markers.filter (·.id = old)).map fun m => ⟨.ofMarker m, new⟩

def addEdits (changes : Changes) (path : Text) (edits : List Edit) : Changes :=
  let uri := Uri.ofPath path
  if edits = [] then changes
  else changes.insert uri ((changes.get? uri).getD [] ++ edits)

def changesFor (d : Disk) (i : LiveIndex) (old new : Text) : Changes :=
  let changes := i.markerFiles.foldl
    (fun changes (path, markers) => addEdits changes path (markerEdits old new markers)) .empty
  match i.definition? old with
  | none => changes
  | some definition =>
    let path := definition.location.path
    match d.text? (.ofText path) with
    | none => changes
    | some t => addEdits changes path (textEdits old new t)

def rename? (d : Disk) (i : LiveIndex) (path : Path) (line character : Int) (newName : Text) :
    Option Changes := do
  let m ← i.markerAt? path.toText line character
  let new := Text.trim newName
  if new = [] || new = m.id then none
  else
    let changes := changesFor d i m.id new
    if changes.entries = [] then none else pure changes

/-! ## Notes -/

def lensTitle (id : Text) (n : Nat) (noun nouns : Text) : Text :=
  id ++ " — " ++ if n = 0 then "no " ++ nouns else counted n noun

def lens? (i : LiveIndex) (m : Marker) : Option Lens :=
  let note (title : Text) : Option Lens := some ⟨.startOf m.line, title, m.id⟩
  match m.kind with
  | .implementation => note (lensTitle m.id (testCount i m.id) "test" "tests")
  | .test => note (lensTitle m.id (implCount i m.id) "impl" "implementations")
  | .component => none

def lenses (i : LiveIndex) (path : Path) : List Lens :=
  (i.markersIn path.toText).filterMap (lens? i)

def traceCommand : Text := "spectrace.trace"

def diagnosticSource : Text := "spectrace"

end Traceability.Editor
