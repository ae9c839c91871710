import Traceability.Text.Word

/-!
# Directives

Comments switch the scan of a file off: for the whole file, from a line to another, for the next
line, or for the line itself.
-/
namespace Traceability.Marker

inductive Directive where
  | file
  | nextLine
  | blockStart
  | blockEnd
  | line
deriving DecidableEq, Repr

def Directive.word : Directive → Text
  | .file => "@spec-ignore-file"
  | .nextLine => "@spec-ignore-next-line"
  | .blockStart => "@spec-ignore-start"
  | .blockEnd => "@spec-ignore-end"
  | .line => "@spec-ignore"

def continuesWord (t : Text) : Bool := t.head?.any fun c => Text.isWord c || c = '-'

def startsWithWord (word t : Text) : Bool :=
  match Text.dropStem? word t with
  | some rest => !continuesWord rest
  | none => false

def hasWord (word : Text) : Text → Bool
  | [] => startsWithWord word []
  | c :: t => startsWithWord word (c :: t) || hasWord word t

def Directive.isOn (d : Directive) (line : Text) : Bool := hasWord d.word line

structure Hiding where
  block : Bool := false
  next : Bool := false
deriving DecidableEq, Repr

def Hiding.step (h : Hiding) (line : Text) : Bool × Hiding :=
  if h.block then (false, { h with block := !Directive.blockEnd.isOn line })
  else if Directive.blockStart.isOn line then (false, { h with block := true })
  else if h.next then (false, { h with next := false })
  else if Directive.nextLine.isOn line then (false, { h with next := true })
  else (!Directive.line.isOn line, h)

def Hiding.keep : Hiding → List (Text × Nat) → List (Text × Nat)
  | _, [] => []
  | h, (line, number) :: rest =>
    let (kept, h) := h.step line
    if kept then (line, number) :: keep h rest else keep h rest

def visibleLines (lines : List Text) : List (Text × Nat) :=
  if lines.any Directive.file.isOn then [] else ({} : Hiding).keep (lines.zipIdx 1)

end Traceability.Marker
