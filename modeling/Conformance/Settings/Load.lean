import Conformance.Files.Basic
import Conformance.Settings.Toml
import Conformance.Settings.Validation

/-!
# Loading of settings

Settings come from the table `tool.tested_trait` of the nearest `pyproject.toml`, in the start directory or the
closest directory above it.  Values that the caller gives take the place of those in the file, which are then
not looked at.
-/

namespace Conformance

open Text

/-- Why no settings could be loaded. -/
inductive SettingsError where
  | invalid (problems : List Problem)
  /-- The file is no TOML. -/
  | malformed (file : String)
  /-- The file is no text. -/
  | undecodable (e : Utf8.DecodeError)
  /-- A whole number in the file has too many digits. -/
  | longNumber (digits : Nat)
  /-- A value of the type stands where a table is looked into. -/
  | noTable (type : String)
  /-- A value of the type stands where entries are expected. -/
  | noEntries (type : String)
  /-- The item with this index is no pair. -/
  | noPair (index : Nat)
  /-- The item with this index has another length than a pair. -/
  | pairLength (index length : Nat)
  /-- The key of an entry is a value of a type that cannot be a key. -/
  | badKey (type : String)
  deriving DecidableEq, Repr

/-- The first line of a report on settings that are not valid. -/
def invalidSummary (count : Nat) : String :=
  count.repr ++ " validation error" ++ (if count == 1 then "" else "s") ++ " for ExpanderConfig"

/-- The place of a problem as text. -/
def Problem.placeText (p : Problem) : String :=
  ".".intercalate (p.place.map fun s =>
    match s with
    | .field name => name
    | .index n => n.repr)

/-- The wording of a failure. -/
def SettingsError.message : SettingsError → String
  | invalid problems =>
    "\n".intercalate (invalidSummary problems.length ::
      problems.flatMap fun p =>
        [p.placeText, "  " ++ p.reason.message ++ " [type=" ++ p.reason.category ++ "]"])
  | malformed file => "Malformed " ++ file ++ ": not a TOML document"
  | undecodable e => e.message
  | longNumber digits =>
    "Exceeds the limit (" ++ Toml.digitLimit.repr ++ " digits) for integer string conversion: value has " ++
      digits.repr ++ " digits; use sys.set_int_max_str_digits() to increase the limit"
  | noTable type => "'" ++ type ++ "' object has no attribute 'get'"
  | noEntries type => "'" ++ type ++ "' object is not iterable"
  | noPair index => "cannot convert dictionary update sequence element #" ++ index.repr ++ " to a sequence"
  | pairLength index length =>
    "dictionary update sequence element #" ++ index.repr ++ " has length " ++ length.repr ++ "; 2 is required"
  | badKey type => "unhashable type: '" ++ type ++ "'"

/-! ## The nearest file -/

/-- The directories from the given one up to the current directory, the closest first. -/
def directoriesAbove (parts : List String) : List (List String) :=
  (List.range (parts.length + 1)).map fun n => parts.take (parts.length - n)

/-- The directory where the search for a file starts. -/
def searchStart (fs : Files) (p : Path) : List String :=
  let parts := Path.normalize p.parts
  match fs.lookup? parts with
  | some (.file _) => parts.dropLast
  | _ => parts

/-- The name of the file with settings. -/
def settingsFile : String := "pyproject.toml"

/-- The closest directory that has a file with settings, and the bytes of that file. -/
def nearestFile? (fs : Files) (start : Path) : Option (List String × List UInt8) :=
  (directoriesAbove (searchStart fs start)).findSome? fun dir =>
    match fs.lookup? (dir ++ [settingsFile]) with
    | some (.file content) => some (dir, content)
    | _ => none

/-! ## The table -/

/-- The members of a value that is taken for a pair. -/
def members? : Datum → Option (List Datum)
  | .text s => some (s.toList.map fun c => .text c.toString)
  | .list items => some items
  | .table es => some (es.map fun e => .text e.1)
  | _ => none

/-- Reads an item as an entry.  A key that is no text belongs to no field. -/
def entryOf (index : Nat) (d : Datum) : Except SettingsError (String × Datum) :=
  match members? d with
  | none => .error (.noPair index)
  | some [k, v] =>
    match k with
    | .text name => .ok (name, v)
    | .list _ => .error (.badKey "list")
    | .table _ => .error (.badKey "dict")
    | _ => .ok ("", v)
  | some ms => .error (.pairLength index ms.length)

/-- The entries of a value: those of a table, or the pairs in a list. -/
def entriesOf : Datum → Except SettingsError (List (String × Datum))
  | .table es => .ok es
  | .list items => items.zipIdx.mapM fun (d, i) => entryOf i d
  | .text s => (s.toList.zipIdx).mapM fun (c, i) => entryOf i (.text c.toString)
  | d => .error (.noEntries d.typeName)

/-- The settings in a document. -/
def settingsIn (document : List (String × Datum)) : Except SettingsError Datum :=
  match (Datum.find? "tool" document).getD (.table []) with
  | .table tools => .ok ((Datum.find? "tested_trait" tools).getD (.table []))
  | d => .error (.noTable d.typeName)

/-- The path of a file below the current directory. -/
def absoluteText (root : String) (parts : List String) : String :=
  "/".intercalate (root :: parts)

/-- The settings in the bytes of a file. -/
def readSettings (file : String) (content : List UInt8) : Except SettingsError Datum := do
  let s ← (Utf8.decode content).mapError .undecodable
  match Toml.parse s with
  | .error .malformed => throw (.malformed file)
  | .error (.longNumber digits) => throw (.longNumber digits)
  | .ok document => settingsIn document

/-- The settings in the nearest file, none if there is no file.  `root` is the path of the current directory. -/
def fileSettings (root : String) (fs : Files) (start : Path) : Except SettingsError Datum :=
  match nearestFile? fs start with
  | none => .ok (.table [])
  | some (dir, content) => readSettings (absoluteText root (dir ++ [settingsFile])) content

/-! ## Settings -/

/-- Values that a caller gives; a value that is not given is `none`. -/
structure Overrides where
  testPrefix : Option Datum := none
  aliases : Option Datum := none
  logLevel : Option Datum := none

/-- The values that are given, by field. -/
def Overrides.entries (o : Overrides) : List (String × Datum) :=
  (o.testPrefix.map fun d => ("test_prefix", d)).toList ++
    (o.aliases.map fun d => ("module_aliases", d)).toList ++
    (o.logLevel.map fun d => ("log_level", d)).toList

/-- Loads the settings for a path. -/
def Settings.load (root : String) (fs : Files) (start : Path) (o : Overrides) :
    Except SettingsError Settings := do
  let entries ← entriesOf (← fileSettings root fs start)
  (Settings.ofEntries (entries ++ o.entries)).mapError .invalid

end Conformance
