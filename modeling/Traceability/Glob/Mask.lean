import Traceability.Glob.Brace
import Traceability.Path

/-!
# Masks

A mask selects paths by a part of their text: it covers a path when some stretch of whole names,
between slashes or the ends, is in the language of the mask. Two stars and a slash stand for any
directories, two stars for anything, a star for anything without a slash, a question mark for one
character that is no slash, and every other character for itself. Two stars do not reach across a
line feed.
-/
namespace Traceability.Glob

inductive MaskPiece where
  | directories
  | anything
  | segment
  | one
  | exactly (c : Char)
deriving DecidableEq, Repr

abbrev Mask := List MaskPiece

def Mask.ofText : Text → Mask
  | [] => []
  | '*' :: '*' :: '/' :: t => .directories :: ofText t
  | '*' :: '*' :: t => .anything :: ofText t
  | '*' :: t => .segment :: ofText t
  | '?' :: t => .one :: ofText t
  | c :: t => .exactly c :: ofText t

def restsBehind (p : Char → Bool) : Text → List Text
  | [] => [[]]
  | c :: t => (c :: t) :: if p c then restsBehind p t else []

/-- What may be left behind a slash that no line feed precedes. -/
def restsBehindSlash : Text → List Text
  | [] => []
  | c :: t => if c = '/' then t :: restsBehindSlash t
    else if c = '\n' then [] else restsBehindSlash t

def MaskPiece.rests : MaskPiece → Text → List Text
  | .directories, t => t :: restsBehindSlash t
  | .anything, t => restsBehind (· ≠ '\n') t
  | .segment, t => restsBehind (· ≠ '/') t
  | .one, c :: t => if c = '/' then [] else [t]
  | .exactly d, c :: t => if c = d then [t] else []
  | _, [] => []

/-- Whether a text is at an end: nothing is left, or a final line feed, or a slash comes next. -/
def atNameEnd : Text → Bool
  | [] => true
  | ['\n'] => true
  | c :: _ => c = '/'

/-- Whether a mask reads a text up to the end of a name. -/
def Mask.reads : Mask → Text → Bool
  | [], t => atNameEnd t
  | piece :: mask, t => (piece.rests t).any (reads mask)

def nameStarts (t : Text) : List Text := t :: behindSlashes t
where
  behindSlashes : Text → List Text
    | [] => []
    | c :: t => if c = '/' then t :: behindSlashes t else behindSlashes t

def coversText (pattern t : Text) : Bool :=
  (expand pattern).any fun mask => (nameStarts t).any (Mask.ofText mask).reads

def covers (patterns : List Text) (p : Path) : Bool :=
  patterns.any fun pattern => coversText pattern p.toText

def ignores (patterns : List Text) (directory p : Path) : Bool :=
  covers patterns (p.relativeOrSelf directory) || covers patterns p

example : covers ["docs/**/*.md"] (.ofText "x/docs/a/b/c.md") = true := by decide +kernel
example : covers ["*.m"] (.ofText "c.md") = false := by decide +kernel

end Traceability.Glob
