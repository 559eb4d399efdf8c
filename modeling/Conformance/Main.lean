import Conformance.Command.Run

/-!
# The program

Reads the files below the current directory, runs the command, and writes back what it changed.  Messages and
tables go to the error output.
-/

namespace Conformance

/-- Adds the files of a directory and those below it.  Hidden entries are left out. -/
partial def readTree (names : List String) (fs : Files) : IO Files := do
  let dir := names.foldl (fun p (n : String) => p / n) (← IO.currentDir)
  let mut files := fs
  for e in ← dir.readDir do
    if e.fileName.startsWith "." then continue
    let here := names ++ [e.fileName]
    if ← e.path.isDir then files ← readTree here (files.addDirectory here)
    else files := files.addFile here (← IO.FS.readBinFile e.path).toList
  return files

/-- Writes the files that are new or different. -/
def writeChanges (before after : Files) : IO Unit := do
  let root ← IO.currentDir
  for (names, content) in Files.changes before after do
    let dir := names.dropLast.foldl (fun p (n : String) => p / n) root
    IO.FS.createDirAll dir
    IO.FS.writeBinFile (dir / names.getLast?.getD "") (ByteArray.mk content.toArray)

/-- The lines that an event is shown as. -/
def Command.Event.lines (e : Command.Event) : List String :=
  match e.record.display with
  | .ok lines => lines
  | .error _ => [e.message]

/-- Runs the program. -/
def runProgram (argv : List String) : IO UInt32 := do
  let files ← readTree [] {}
  let ending := Command.run argv { root := (← IO.currentDir).toString, files }
  let world := ending.world
  writeChanges files world.files
  IO.print world.stdout
  for line in world.events.flatMap Command.Event.lines ++ world.printed do
    IO.eprintln line
  IO.eprint ending.stderr
  match ending.outcome with
  | .ok code => return UInt32.ofNat code
  | .error crash =>
    IO.eprintln crash.message
    return 1

end Conformance

def main (argv : List String) : IO UInt32 := Conformance.runProgram argv
