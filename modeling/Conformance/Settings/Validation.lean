import Conformance.Settings.Basic
import Conformance.Settings.Datum
import Conformance.Text.Identifier

/-!
# Validation of settings

Each field is checked by itself, in the order of the fields, and all problems are reported together.  Fields
that are not given keep their defaults; keys that are no field are ignored.
-/

namespace Conformance

open Text

/-- What is wrong with a value. -/
inductive Reason where
  | notTable
  | notText
  | notList
  | badPrefix (value : String)
  | badAlias (value : String)
  | unknownLevel (value : String)
  deriving DecidableEq, Repr

/-- A step on the way to a value: a field or the index of an element. -/
inductive PathStep where
  | field (name : String)
  | index (n : Nat)
  deriving DecidableEq, Repr

/-- A value that is wrong. -/
structure Problem where
  place : List PathStep
  reason : Reason
  deriving DecidableEq, Repr

/-- The category of a problem. -/
def Reason.category : Reason → String
  | notTable => "model_type"
  | notText => "string_type"
  | notList => "list_type"
  | badPrefix _ => "value_error"
  | badAlias _ => "value_error"
  | unknownLevel _ => "value_error"

/-- The wording of a problem. -/
def Reason.message : Reason → String
  | notTable => "Input should be a valid dictionary or instance of ExpanderConfig"
  | notText => "Input should be a valid string"
  | notList => "Input should be a valid list"
  | badPrefix v =>
    "Value error, test_prefix must be an identifier prefix starting with 'test', got '" ++ v ++ "'"
  | badAlias v => "Value error, Invalid module alias: '" ++ v ++ "'"
  | unknownLevel v =>
    "Value error, Unknown log level: '" ++ v ++ "'. Expected one of [" ++
      ", ".intercalate (Level.configurable.map fun l => "'" ++ l.name ++ "'") ++ "]"

/-! ## Rules -/

/-- Whether names that start with the text are discovered as tests and can be identifiers. -/
def isTestPrefix (s : String) : Bool :=
  "test".isPrefixOf s && Identifier.isIdentifier (s ++ "x")

/-- Whether the text is a dotted name. -/
def isModuleName (s : String) : Bool :=
  (s.toList.splitOn '.').all Identifier.isName

/-- A character in upper case.  Of the characters beyond ASCII only the dotless `ı` has an upper-case form that
occurs in the name of a level; the others stay as they are. -/
def upperCase (c : Char) : Char :=
  if c == 'ı' then 'I' else c.toUpper

/-- The level that a text names, in any case and with white space around it. -/
def readLevel? (s : String) : Option Level :=
  let name := trim (String.ofList (s.toList.map upperCase))
  Level.configurable.find? fun l => l.name == name

/-! ## Fields -/

/-- Checks the beginning of the names of test functions. -/
def checkPrefix : Datum → Except (List Reason) String
  | .text s => if isTestPrefix s then .ok s else .error [.badPrefix s]
  | _ => .error [.notText]

/-- Checks a level. -/
def checkLevel : Datum → Except (List Reason) Level
  | .text s =>
    match readLevel? s with
    | some l => .ok l
    | none => .error [.unknownLevel s]
  | _ => .error [.notText]

/-- The texts among some values. -/
def textOf? : Datum → Option String
  | .text s => some s
  | _ => none

/-- The indices of the values that are no text. -/
def nonTexts (items : List Datum) : List Nat :=
  (items.zipIdx.filter fun (d, _) => (textOf? d).isNone).map Prod.snd

/-- Checks module names: first that all of them are texts, then the texts. -/
def checkAliases (field : PathStep) : Datum → Except (List Problem) (List String)
  | .list items =>
    match nonTexts items with
    | [] =>
      let names := items.filterMap textOf?
      match names.find? fun n => !isModuleName n with
      | some n => .error [{ place := [field], reason := .badAlias n }]
      | none => .ok names
    | indices => .error (indices.map fun i => { place := [field, .index i], reason := .notText })
  | _ => .error [{ place := [field], reason := .notList }]

/-- Checks a field if it is given, and takes its default if not. -/
def checkField {α : Type} (entries : List (String × Datum)) (name : String) (default : α)
    (check : PathStep → Datum → Except (List Problem) α) : Except (List Problem) α :=
  match Datum.find? name entries with
  | none => .ok default
  | some d => check (.field name) d

/-- A check of a whole field as a check of a value at a place. -/
def placed {α : Type} (check : Datum → Except (List Reason) α) (field : PathStep) (d : Datum) :
    Except (List Problem) α :=
  (check d).mapError fun rs => rs.map fun reason => { place := [field], reason }

/-- The problems of a check. -/
def problemsOf {α : Type} : Except (List Problem) α → List Problem
  | .ok _ => []
  | .error ps => ps

/-- Checks the settings in a table. -/
def Settings.ofEntries (entries : List (String × Datum)) : Except (List Problem) Settings :=
  let defaults : Settings := {}
  let testPrefix := checkField entries "test_prefix" defaults.testPrefix (placed checkPrefix)
  let aliases := checkField entries "module_aliases" defaults.aliases checkAliases
  let logLevel := checkField entries "log_level" defaults.logLevel (placed checkLevel)
  match testPrefix, aliases, logLevel with
  | .ok testPrefix, .ok aliases, .ok logLevel => .ok { testPrefix, aliases, logLevel }
  | _, _, _ => .error (problemsOf testPrefix ++ problemsOf aliases ++ problemsOf logLevel)

/-- Checks settings of any form. -/
def Settings.validate : Datum → Except (List Problem) Settings
  | .table entries => Settings.ofEntries entries
  | _ => .error [{ place := [], reason := .notTable }]

end Conformance
