import Traceability.Finding
import Traceability.Identifier

/-!
# Markers

A marker is a comment that names an identifier: `# @spec-impl: CFG-1_AC-1, CFG-1_AC-2`. The token in
front of the colon tells by its place in the list of tokens whether the code implements, tests or is
the component.
-/
namespace Traceability

inductive MarkerKind where
  | implementation
  | test
  | component
deriving DecidableEq, Repr, Inhabited

def MarkerKind.word : MarkerKind → Text
  | .implementation => "impl"
  | .test => "test"
  | .component => "component"

/-- An identifier in a comment: its line, counted from one, its first column, counted from zero, and
the column behind it. -/
structure Marker where
  kind : MarkerKind
  id : Text
  path : Text
  line : Nat
  start : Nat
  stop : Nat
deriving DecidableEq, Repr, Inhabited

def Marker.location (m : Marker) : Location := ⟨m.path, m.line⟩

structure MarkerScan where
  markers : List Marker := []
  findings : List Finding := []
deriving DecidableEq, Repr, Inhabited

namespace MarkerScan

def append (a b : MarkerScan) : MarkerScan := ⟨a.markers ++ b.markers, a.findings ++ b.findings⟩

def merge (scans : List MarkerScan) : MarkerScan :=
  ⟨scans.flatMap (·.markers), scans.flatMap (·.findings)⟩

end MarkerScan

namespace Marker

def defaultTokens : List Text := ["@spec-impl", "@spec-test", "@spec-component"]

def kindOrder : List MarkerKind := [.implementation, .test, .component]

/-- The kind of marker that a token announces. Of a token that is listed twice the later place
counts; tokens behind the third announce nothing. -/
def kindOfToken? (tokens : List Text) (token : Text) : Option MarkerKind :=
  ((tokens.zip kindOrder).reverse.find? fun (t, _) => t = token).map (·.2)

end Marker

end Traceability
