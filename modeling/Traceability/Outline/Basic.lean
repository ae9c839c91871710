import Traceability.Outline.Fence
import Traceability.Text.Line

/-!
# Outlines

The sections of a Markdown document, nested by the levels of their headings. The parent of a section
is the nearest section before it with a smaller level. Headings in fenced blocks are content.
-/
namespace Traceability.Outline

structure Section where
  heading : Text
  level : Nat
  line : Nat
  content : List Text
  children : List Section
deriving Repr, Inhabited

structure Document where
  lines : List Text
  preamble : List Text
  sections : List Section
deriving Repr, Inhabited

def dropClosingSigns (t : Text) : Text :=
  Text.trimEnd (Text.dropEndWhile (· = '#') (Text.trimEnd t))

/-- The level and the text of a heading. The first character behind the blanks belongs to the text in
any case; if there is none, the last blank does, unless it is the only one. -/
def heading? (line : Text) : Option (Nat × Text) := do
  let (level, rest) ← headingMark? line
  match Text.trimStart rest with
  | c :: body => pure (level, c :: dropClosingSigns body)
  | [] => if rest.length < 2 then none else pure (level, rest.getLast?.toList)

/-- The lines before the first heading, and the sections from there on, not yet nested; `inside` holds
in a fenced block. -/
def readFrom : (inside : Bool) → List (Text × Nat) → List Text × List Section
  | _, [] => ([], [])
  | inside, (line, number) :: rest =>
    if isFence line then
      let (content, sections) := readFrom (!inside) rest
      (line :: content, sections)
    else
      let (content, sections) := readFrom inside rest
      match if inside then none else heading? line with
      | none => (line :: content, sections)
      | some (level, heading) => ([], ⟨heading, level, number, content, []⟩ :: sections)

/-- Puts a section in front of nested ones; those at its front with a greater level become its
children. -/
def plant (s : Section) (forest : List Section) : List Section :=
  { s with children := forest.takeWhile (s.level < ·.level) } ::
    forest.dropWhile (s.level < ·.level)

def nest (sections : List Section) : List Section := sections.foldr plant []

def Document.read (text : Text) : Document :=
  let lines := Text.lines text
  let (preamble, sections) := readFrom false (lines.zipIdx 1)
  ⟨lines, preamble, nest sections⟩

mutual

def Section.walk : Section → List Section
  | ⟨heading, level, line, content, children⟩ =>
    ⟨heading, level, line, content, children⟩ :: walkAll children

def walkAll : List Section → List Section
  | [] => []
  | s :: rest => s.walk ++ walkAll rest

end

def headingLine (level : Nat) (heading : Text) : Text := List.replicate level '#' ++ ' ' :: heading

def Section.headingLine (s : Section) : Text := Outline.headingLine s.level s.heading

mutual

def Section.fullText : Section → Text
  | ⟨_, _, _, content, children⟩ =>
    Text.join ['\n'] (Text.join ['\n'] content :: childTexts children)

def childTexts : List Section → List Text
  | [] => []
  | ⟨heading, level, line, content, children⟩ :: rest =>
    Outline.headingLine level heading ::
      Section.fullText ⟨heading, level, line, content, children⟩ :: childTexts rest

end

end Traceability.Outline
