import Traceability.Command.Run

/-!
# The command line

Reads the directories and files that a command may look at, runs the command on them, prints what it
says and ends with its exit code.
-/
namespace Traceability.Main

/-- The disk with what is under a name: a file, or a directory and everything in it. Links to
directories below the first one are not followed; what cannot be read is left out. -/
partial def load (d : Disk) (names : List Text) : IO Disk := do
  let place := (← IO.currentDir) / String.ofList (Path.toText ⟨.root, names⟩)
  try
    match (← place.metadata).type with
    | .file => return d.write names (← IO.FS.readBinFile place).toList
    | .dir =>
      let mut d := d.makeDirectory names
      for entry in ← place.readDir do
        let isLink := (← entry.path.symlinkMetadata).type == .symlink
        unless isLink && (← entry.path.isDir) do
          d ← load d (names ++ [entry.fileName.toList])
      return d
    | _ => return d
  catch _ => return d

def snapshot (c : Command) : IO Disk := do
  let current := (Path.ofText (← IO.currentDir).toString.toList).parts
  let blank := Disk.blank current
  c.places.foldlM (fun d place => load d (blank.fromRoot place).parts) blank

def usage : String :=
  "usage: spectrace check [options]\n       spectrace trace [options] [identifiers]"

def run (words : List String) : IO UInt32 := do
  match Command.ofWords? (words.map String.toList) with
  | none =>
    IO.eprintln usage
    return 2
  | some c =>
    let result := c.run (← snapshot c)
    IO.print (String.ofList result.output)
    IO.eprint (String.ofList result.errors)
    return UInt32.ofNat result.exitCode.number

end Traceability.Main

def main (words : List String) : IO UInt32 := Traceability.Main.run words
