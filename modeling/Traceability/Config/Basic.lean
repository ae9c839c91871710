import Traceability.Marker.Basic
import Traceability.Text.Case
import Traceability.Text.Blank
import Traceability.Value

/-!
# Configuration

Where specs and code are found, what marks code, and how a check is run. A setting is read from a
section of a configuration file; a setting that is absent or cannot be used keeps its default.
-/
namespace Traceability

inductive ReportFormat where
  | text
  | json
deriving DecidableEq, Repr, Inhabited

def ReportFormat.word : ReportFormat → Text
  | .text => "text"
  | .json => "json"

def ReportFormat.ofWord? (word : Text) : Option ReportFormat :=
  if word = "text" then some .text else if word = "json" then some .json else none

structure Config where
  specGlobs : List Text := [".spectrace/specs/**/*.md"]
  codeGlobs : List Text := ["src/**/*.\x7bpy,ts,js,tsx,jsx,go,rs,java,cs\x7d", "tests/**/*.py"]
  specIgnore : List Text := ["node_modules/**", "dist/**", ".venv/**"]
  codeIgnore : List Text := ["node_modules/**", "dist/**", ".venv/**"]
  ignoreMarkers : List Text := []
  markers : List Text := Marker.defaultTokens
  idPattern : Text :=
    "([A-Z][A-Z0-9]*-\\d+(?:\\.\\d+)?(?:_AC-\\d+)?|[A-Z][A-Z0-9]*_P-\\d+)"
  crossRefKeywords : List Text := ["IMPLEMENTS:", "VALIDATES:"]
  format : ReportFormat := .text
  schemaDir : Text := ".spectrace/schemas"
  schemaEnabled : Bool := true
  allowWarnings : Bool := false
  specOnly : Bool := false
deriving DecidableEq, Repr, Inhabited

structure ConfigOverrides where
  format : Option ReportFormat := none
  allowWarnings : Option Bool := none
  specOnly : Option Bool := none
  specIgnore : List Text := []
  codeIgnore : List Text := []
deriving DecidableEq, Repr, Inhabited

namespace Config

def namesIn (t : Text) : List Text := ((Text.splitOn ',' t).map Text.trim).filter (· ≠ [])

def names : Value → List Text
  | .text t => namesIn t
  | .list items => (items.filterMap Value.text?).flatMap namesIn
  | _ => []

def namesOr (fallback : List Text) (v : Value) : List Text :=
  match names v with
  | [] => fallback
  | found => found

def isFilled (t : Text) : Bool := !Text.allBlank t

/-- Patterns: one text, or a list of texts and nothing else; braces may hold commas, so none is
split. -/
def patternsOr (fallback : List Text) : Value → List Text
  | .text t => if isFilled t then [Text.trim t] else fallback
  | .list [] => fallback
  | .list items =>
    match Value.texts? items with
    | some ts => ts.filter isFilled
    | none => fallback
  | _ => fallback

def yesWords : List Text := ["1", "true", "yes", "on"]

def isOn : Value → Bool
  | .bool b => b
  | .int n => n ≠ 0
  | .text t => Text.lowerAscii (Text.trim t) ∈ yesWords
  | _ => false

def onOr (fallback : Bool) : Value → Bool
  | .null => fallback
  | v => isOn v

def textOr (fallback : Text) : Value → Text
  | .text t => if isFilled t then t else fallback
  | _ => fallback

def formatOf : Value → ReportFormat
  | .text t => if t = "json" then .json else .text
  | _ => .text

def ofEntries (entries : List (Text × Value)) : Config :=
  let d : Config := {}
  let field (name : Text) := Value.field entries name
  { specGlobs := patternsOr d.specGlobs (field "spec-globs")
    codeGlobs := patternsOr d.codeGlobs (field "code-globs")
    specIgnore := patternsOr d.specIgnore (field "spec-ignore")
    codeIgnore := patternsOr d.codeIgnore (field "code-ignore")
    ignoreMarkers := patternsOr d.ignoreMarkers (field "ignore-markers")
    markers := namesOr d.markers (field "markers")
    idPattern := textOr d.idPattern (field "id-pattern")
    crossRefKeywords := namesOr d.crossRefKeywords (field "cross-ref-patterns")
    format := formatOf (field "format")
    schemaDir := textOr d.schemaDir (field "schema-dir")
    schemaEnabled := onOr d.schemaEnabled (field "schema-enabled")
    allowWarnings := onOr d.allowWarnings (field "allow-warnings")
    specOnly := onOr d.specOnly (field "spec-only") }

def entriesOf : Value → List (Text × Value)
  | .table entries => entries
  | _ => []

/-- Settings with those of one run over them. Ignored patterns are added; a switch can only be
turned on. -/
def override (c : Config) (o : ConfigOverrides) : Config :=
  { c with
    specIgnore := c.specIgnore ++ o.specIgnore
    codeIgnore := c.codeIgnore ++ o.codeIgnore
    format := o.format.getD c.format
    allowWarnings := c.allowWarnings || o.allowWarnings = some true
    specOnly := c.specOnly || o.specOnly = some true }

def ofSection (v : Value) (o : ConfigOverrides) : Config := (ofEntries (entriesOf v)).override o

end Config

end Traceability
