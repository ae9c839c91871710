import Traceability.OrderedMap
import Traceability.Path
import Traceability.Text.Line
import Traceability.Text.Utf8

/-!
# Disks

A disk holds files and directories under the names that lead to them from the root. Every directory
on the way to an entry is an entry itself. There are no links: a file has one path without names of two
points, and a directory is never below itself. Relative paths start at the current directory; a name
of two points leads to the directory above.
-/
namespace Traceability

inductive DiskEntry where
  | file (bytes : List UInt8)
  | directory
deriving DecidableEq, Repr, Inhabited

inductive ReadFault where
  | missing
  | isDirectory
  | encoding (error : Text.Utf8Error)
deriving DecidableEq, Repr

/-- Why a path cannot be followed from the root on: no file can have one of its names, or it starts at
a current directory that is gone. -/
inductive ResolveFault where
  | nullCharacter
  | noCurrent
deriving DecidableEq, Repr

def ResolveFault.message : ResolveFault → Text
  | .nullCharacter => "embedded null byte"
  | .noCurrent => "[Errno 2] No such file or directory"

structure Disk where
  entries : OrderedMap (List Text) DiskEntry
  current : List Text
deriving Inhabited

namespace Disk

def above (names : List Text) : List (List Text) :=
  (List.range names.length).map names.take

def makeDirectory (d : Disk) (names : List Text) : Disk :=
  { d with
    entries := (above names ++ [names]).foldl
      (fun entries n => if entries.hasKey n then entries else entries.insert n .directory) d.entries }

def write (d : Disk) (names : List Text) (bytes : List UInt8) : Disk :=
  let d := d.makeDirectory names.dropLast
  { d with entries := d.entries.insert names (.file bytes) }

/-- The disk without an entry and what is under it. -/
def delete (d : Disk) (names : List Text) : Disk :=
  { d with
    entries := ⟨d.entries.entries.filter fun e => (Path.dropLeading? names e.1).isNone⟩ }

def blank (current : List Text) : Disk := makeDirectory ⟨.empty, current⟩ current

def isDirectoryAt (d : Disk) (names : List Text) : Bool :=
  d.entries.get? names = some .directory

/-- One step along a path: into an entry of a directory, or to the directory above. -/
def step? (d : Disk) (names : List Text) (name : Text) : Option (List Text) :=
  if d.isDirectoryAt names then
    if name = ['.', '.'] then some names.dropLast
    else if d.entries.hasKey (names ++ [name]) then some (names ++ [name])
    else none
  else none

def locate? (d : Disk) (p : Path) : Option (List Text) :=
  p.parts.foldlM d.step? (if p.isAbsolute then [] else d.current)

def entry? (d : Disk) (p : Path) : Option DiskEntry := (d.locate? p).bind d.entries.get?

def exists? (d : Disk) (p : Path) : Bool := (d.entry? p).isSome

def isDirectory (d : Disk) (p : Path) : Bool := d.entry? p = some .directory

def isFile (d : Disk) (p : Path) : Bool :=
  match d.entry? p with
  | some (.file _) => true
  | _ => false

def below (d : Disk) (names : List Text) : List (List Text × DiskEntry) :=
  d.entries.entries.filterMap fun (n, e) =>
    match Path.dropLeading? names n with
    | none => none
    | some [] => none
    | some rest => some (rest, e)

/-- The text of a file. Every carriage return, with or without a line feed, is read as a line
feed. -/
def read (d : Disk) (p : Path) : Except ReadFault Text :=
  match d.entry? p with
  | none => .error .missing
  | some .directory => .error .isDirectory
  | some (.file bytes) =>
    match Text.Utf8.decode bytes with
    | .ok t => .ok (Text.unifyBreaks t)
    | .error e => .error (.encoding e)

def text? (d : Disk) (p : Path) : Option Text := (d.read p).toOption

/-- A path without names of two points, from the root on. A name that leads nowhere is kept. -/
def fromRoot (d : Disk) (p : Path) : Path :=
  let start := if p.isAbsolute then [] else d.current
  let anchor := if p.anchor = .doubleRoot then Anchor.doubleRoot else Anchor.root
  ⟨anchor, p.parts.foldl (fun names n => if n = ['.', '.'] then names.dropLast else names ++ [n])
    start⟩

def resolve (d : Disk) (p : Path) : Except ResolveFault Path :=
  if p.parts.any (·.elem '\x00') then .error .nullCharacter
  else if !p.isAbsolute && !d.isDirectoryAt d.current then .error .noCurrent
  else .ok (d.fromRoot p)

end Disk

end Traceability
