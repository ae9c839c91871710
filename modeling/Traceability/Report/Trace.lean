import Traceability.Json
import Traceability.Text.Blank
import Traceability.Trace.Chain
import Traceability.Trace.Source

/-!
# Reports of traces

Chains as a tree for reading, as a list of places, or as one JSON object.
-/
namespace Traceability.Report

def entry (t : Text) : Text := "  │  " ++ t

def title (t : Text) : Text := "  ▼ " ++ t

def block (name : Text) (line : TraceNode → Text) : List TraceNode → List Text
  | [] => []
  | nodes => [] :: title name :: nodes.map fun n => entry (line n)

def specLine (n : TraceNode) : Text := n.id ++ " (" ++ n.location.render ++ ")"

/-- The token of the marker behind a node; missing tokens are the usual ones. -/
def tokenOf (tokens : List Text) (kind : NodeKind) : Text :=
  match tokens ++ Marker.defaultTokens, kind with
  | _ :: test :: _, .test => test
  | _ :: _ :: component :: _, .component => component
  | implementation :: _, _ => implementation
  | [], _ => []

def codeLine (tokens : List Text) (n : TraceNode) : Text :=
  n.location.render ++ "  (" ++ tokenOf tokens n.kind ++ ": " ++ n.id ++ ")"

def requirementLines : Option TraceNode → List Text
  | some n => [[], "  ▲ Requirement", entry (specLine n)]
  | none => []

def chainLines (tokens : List Text) (c : TraceChain) : List Text :=
  [c.query] ++ requirementLines c.requirement ++
    block "Acceptance Criteria" specLine c.criteria ++
    block "Design" specLine c.components ++
    block "Properties" specLine c.properties ++
    block "Implementation" (codeLine tokens) c.implementations ++
    block "Tests" (codeLine tokens) c.tests

def notFoundLine (id : Text) : Text := "✗ " ++ id ++ ": not found"

def traceTree (tokens : List Text) (r : TraceResult) : Text :=
  Text.trimEnd <| Text.join ['\n'] <|
    r.chains.flatMap (fun c => chainLines tokens c ++ [[]]) ++
      r.notFound.map notFoundLine

def traceList (r : TraceResult) : Text :=
  Text.join ['\n'] <| QuerySet.distinct <|
    (r.chains.flatMap (·.nodes)).map fun n => n.location.render

def nodeJson (n : TraceNode) : Json :=
  .object
    [("id".toList, .text n.id), ("filePath".toList, .text n.location.path),
     ("line".toList, .number n.location.line)]

def nodesJson (nodes : List TraceNode) : Json := .array (nodes.map nodeJson)

def chainJson (c : TraceChain) : Json :=
  .object
    [("queryId".toList, .text c.query),
     ("requirement".toList, c.requirement.elim .null nodeJson),
     ("acs".toList, nodesJson c.criteria),
     ("designComponents".toList, nodesJson c.components),
     ("implementations".toList, nodesJson c.implementations),
     ("tests".toList, nodesJson c.tests),
     ("properties".toList, nodesJson c.properties)]

def traceJson (r : TraceResult) : Text :=
  Json.render (.object
    [("chains".toList, .array (r.chains.map chainJson)),
     ("notFound".toList, .array (r.notFound.map .text))])

end Traceability.Report
