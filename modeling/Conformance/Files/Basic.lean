import Conformance.Files.Path
import Conformance.Text.Lines
import Conformance.Text.Utf8

/-!
# Files

The files below the current directory.  Every path of an entry consists of names only, and the directories
above an entry are entries themselves.
-/

namespace Conformance

open Text

/-- A file or a directory. -/
inductive Entry where
  | file (content : List UInt8)
  | directory
  deriving DecidableEq, Repr, Inhabited

/-- The files below the current directory. -/
structure Files where
  entries : List (List String × Entry) := []
  deriving Repr, Inhabited

/-- What goes wrong with a path. -/
inductive FileFault where
  | notFound
  | taken
  | notDirectory
  | isDirectory
  deriving DecidableEq, Repr

/-- A path with what is wrong with it. -/
structure FileError where
  fault : FileFault
  path : Path
  deriving DecidableEq, Repr

/-- The number and the wording of a fault. -/
def FileFault.description : FileFault → String
  | notFound => "[Errno 2] No such file or directory"
  | taken => "[Errno 17] File exists"
  | notDirectory => "[Errno 20] Not a directory"
  | isDirectory => "[Errno 21] Is a directory"

/-- What is said about a path that could not be used. -/
def FileError.message (e : FileError) : String :=
  e.fault.description ++ ": " ++ quoted e.path.text

namespace Files

/-- The entry with these names. -/
def lookup? (fs : Files) (parts : List String) : Option Entry :=
  if parts.isEmpty then some .directory
  else (fs.entries.find? fun e => e.1 == parts).map Prod.snd

/-- Follows components from a directory. -/
def follow (fs : Files) (here : List String) : List String → Except FileFault (List String)
  | [] => .ok here
  | p :: ps =>
    match fs.lookup? here with
    | none => .error .notFound
    | some (.file _) => .error .notDirectory
    | some .directory => fs.follow (if p == ".." then here.dropLast else here ++ [p]) ps

/-- The names of the entry at a path.  Nothing is known about files outside the current directory. -/
def locate (fs : Files) (p : Path) : Except FileFault (List String) :=
  if p.absolute then .error .notFound else fs.follow [] p.parts

/-- The entry at a path. -/
def entry? (fs : Files) (p : Path) : Option Entry :=
  match fs.locate p with
  | .ok parts => fs.lookup? parts
  | .error _ => none

def present (fs : Files) (p : Path) : Bool := (fs.entry? p).isSome

def isFile (fs : Files) (p : Path) : Bool :=
  match fs.entry? p with
  | some (.file _) => true
  | _ => false

def isDirectory (fs : Files) (p : Path) : Bool :=
  fs.entry? p == some .directory

/-- Puts an entry at its names, in place of what is there. -/
def put (fs : Files) (parts : List String) (e : Entry) : Files :=
  if (fs.lookup? parts).isSome then
    { entries := fs.entries.map fun x => if x.1 == parts then (parts, e) else x }
  else { entries := fs.entries ++ [(parts, e)] }

/-- Adds a directory and those above it. -/
def addDirectory (fs : Files) (parts : List String) : Files :=
  (List.range parts.length).foldl (fun fs n =>
    let above := parts.take (n + 1)
    if (fs.lookup? above).isSome then fs else fs.put above .directory) fs

/-- Adds a file and the directories above it. -/
def addFile (fs : Files) (parts : List String) (content : List UInt8) : Files :=
  (fs.addDirectory parts.dropLast).put parts (.file content)

/-! ## Reading -/

/-- The bytes of a file. -/
def readBytes (fs : Files) (p : Path) : Except FileError (List UInt8) :=
  match fs.locate p with
  | .error fault => .error ⟨fault, p⟩
  | .ok parts =>
    match fs.lookup? parts with
    | some (.file content) => .ok content
    | some .directory => .error ⟨.isDirectory, p⟩
    | none => .error ⟨.notFound, p⟩

/-- Why a text could not be read. -/
inductive ReadError where
  | file (e : FileError)
  | text (e : Utf8.DecodeError)
  deriving DecidableEq, Repr

def ReadError.message : ReadError → String
  | file e => e.message
  | text e => e.message

/-- The text of a file, with every line break as `\n`. -/
def readText (fs : Files) (p : Path) : Except ReadError String := do
  let bytes ← (fs.readBytes p).mapError ReadError.file
  let s ← (Utf8.decode bytes).mapError ReadError.text
  return String.ofList (unifyBreaks s.toList)

/-- The paths below a directory whose names end like `*.py`, in the order of their components. -/
def sources (fs : Files) (p : Path) : List Path :=
  match fs.locate p with
  | .error _ => []
  | .ok base =>
    let below := fs.entries.filterMap fun e =>
      if base.isPrefixOf e.1 && base.length < e.1.length then some (e.1.drop base.length) else none
    let found := below.filter fun parts => (parts.getLast?.getD "").endsWith ".py"
    (found.mergeSort Path.partsLe).map fun parts => { p with parts := p.parts ++ parts }

/-! ## Writing -/

/-- Makes one directory. -/
def makeDirectory (fs : Files) (p : Path) : Except FileFault Files :=
  match fs.locate p.parent with
  | .error fault => .error fault
  | .ok above =>
    match fs.lookup? above with
    | none => .error .notFound
    | some (.file _) => .error .notDirectory
    | some .directory =>
      if p.parts.isEmpty || p.name == ".." then .error .taken
      else if (fs.lookup? (above ++ [p.name])).isSome then .error .taken
      else .ok (fs.put (above ++ [p.name]) .directory)

/-- Makes one directory, which may be there already. -/
def ensureDirectory (fs : Files) (p : Path) : Except FileError Files :=
  match fs.makeDirectory p with
  | .ok fs => .ok fs
  | .error fault => if fault != .notFound && fs.isDirectory p then .ok fs else .error ⟨fault, p⟩

/-- Makes a directory and those above it that are missing.  `depth` bounds the number of components. -/
def makeDirectories (depth : Nat) (fs : Files) (p : Path) : Except FileError Files :=
  match depth, fs.ensureDirectory p with
  | _, .ok fs => .ok fs
  | 0, .error e => .error e
  | depth + 1, .error e =>
    if e.fault == .notFound && p.parent != p then do
      let fs ← makeDirectories depth fs p.parent
      fs.ensureDirectory p
    else .error e

/-- Writes a text to a file, in place of what is there. -/
def writeText (fs : Files) (p : Path) (s : String) : Except FileError Files :=
  match fs.locate p with
  | .error fault => .error ⟨fault, p⟩
  | .ok parts =>
    match fs.lookup? parts, fs.lookup? parts.dropLast with
    | some .directory, _ => .error ⟨.isDirectory, p⟩
    | _, some .directory => .ok (fs.put parts (.file (Utf8.encode s)))
    | _, some (.file _) => .error ⟨.notDirectory, p⟩
    | _, none => .error ⟨.notFound, p⟩

/-- The files that are new or different after a change. -/
def changes (before after : Files) : List (List String × List UInt8) :=
  after.entries.filterMap fun (parts, e) =>
    match e with
    | .file content => if before.lookup? parts == some e then none else some (parts, content)
    | .directory => none

end Files

end Conformance
