import Traceability.Marker.Basic
import Traceability.Marker.Directive
import Traceability.Sorted
import Traceability.Text.Line

/-!
# Scanning for markers

A line is a marker line from the first place on where a token, a colon and at least one more
character follow each other. What follows the colon is a list of entries between commas. An entry
starts with an identifier, which may be followed by a remark in parentheses and the end of a comment.
-/
namespace Traceability.Marker

/-- Tokens in the order in which they are tried: longer ones first, so that a token never hides one
that it starts. -/
def tokenOrder (tokens : List Text) : List Text :=
  if tokens = [] then [[]] else sortBy (fun a b => b.length ≤ a.length) tokens

/-- The entries behind a colon, with the number of characters skipped before them. Blanks are
skipped, except for the last character of the line. -/
def entriesBehind? (t : Text) : Option (Nat × Text) :=
  match Text.trimStart t with
  | [] => t.getLast?.map fun c => (t.length - 1, [c])
  | body => some (t.length - body.length, body)

def entriesAt? (t token : Text) : Option (Text × Nat × Text) := do
  let rest ← Text.dropStem? ":" (← Text.dropStem? token t)
  let (skipped, entries) ← entriesBehind? rest
  pure (token, token.length + 1 + skipped, entries)

def entriesFrom? (tokens : List Text) (column : Nat) : Text → Option (Text × Nat × Text)
  | [] => none
  | c :: t =>
    match tokens.findSome? (entriesAt? (c :: t)) with
    | some (token, offset, entries) => some (token, column + offset, entries)
    | none => entriesFrom? tokens (column + 1) t

def entriesOf? (tokens : List Text) (line : Text) : Option (Text × Nat × Text) :=
  entriesFrom? (tokenOrder tokens) 0 line

def dropRemark? (t : Text) : Option Text := do
  let inner ← Text.dropStem? "(" t
  Text.dropStem? ")" (inner.dropWhile fun c => c ≠ '(' && c ≠ ')')

def dropCloser (t closer : Text) : Text :=
  match Text.dropTail? closer t with
  | some rest => Text.trim rest
  | none => t

/-- What stands behind the identifier of an entry and is neither a remark nor the end of a
comment. -/
def trailingText (t : Text) : Text :=
  let rest := Text.trim t
  let rest := ((dropRemark? rest).map Text.trim).getD rest
  dropCloser (dropCloser rest "*/") "-->"

def trailingTextFinding (id trailing path : Text) (line : Nat) : Finding :=
  .about .error .markerTrailingText
    ("Marker '" ++ id ++ "' has unexpected trailing text: '" ++ trailing ++ "'") path line id

def scanEntry (kind : MarkerKind) (path : Text) (line column : Nat) (entry : Text) : MarkerScan :=
  let body := Text.trim entry
  match Identifier.leadingToken? body with
  | none => {}
  | some id =>
    let start := column + Text.indent entry
    let trailing := trailingText (body.drop id.length)
    ⟨[⟨kind, id, path, line, start, start + id.length⟩],
      if trailing = [] then [] else [trailingTextFinding id trailing path line]⟩

def scanEntries (kind : MarkerKind) (path : Text) (line : Nat) : Nat → List Text → MarkerScan
  | _, [] => {}
  | column, entry :: rest =>
    (scanEntry kind path line column entry).append
      (scanEntries kind path line (column + entry.length + 1) rest)

def scanLine (tokens : List Text) (path : Text) : Text × Nat → MarkerScan
  | (line, number) =>
    match entriesOf? tokens line with
    | none => {}
    | some (token, column, entries) =>
      match kindOfToken? tokens token with
      | none => {}
      | some kind => scanEntries kind path number column (Text.splitOn ',' entries)

def scan (tokens : List Text) (path text : Text) : MarkerScan :=
  .merge ((visibleLines (Text.lines text)).map (scanLine tokens path))

/-- The identifiers that the marker lines of a text name, directives and tokens of any place
included. -/
def idsIn (tokens : List Text) (text : Text) : List Text :=
  (Text.lines text).flatMap fun line =>
    match entriesOf? tokens line with
    | none => []
    | some (_, _, entries) =>
      (Text.splitOn ',' entries).filterMap fun entry => Identifier.leadingToken? (Text.trim entry)

example : ((scan defaultTokens "a.py" "# @spec-impl: A-1_AC-1, A-2 (x)").markers.map
    fun m => (m.start, m.stop)) = [(14, 22), (24, 27)] := by
  decide +kernel

end Traceability.Marker
