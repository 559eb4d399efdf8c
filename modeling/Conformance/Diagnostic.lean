/-!
# Diagnostics

A diagnostic is what the user reads about a failure: its kind, a message, where it is, and notes.  A fault is a
diagnostic whose places may still be references to parts of a tree; `Fault.locate` turns references into spans.
A span that is set stays, so the innermost call of `locate` wins.
-/

namespace Conformance

/-- A stretch of a file, counted from line 1 and column 1, to just past its last character. -/
structure Span where
  filename : String := "<string>"
  line : Int
  column : Int
  endLine : Int
  endColumn : Int
  deriving DecidableEq, Repr, Inhabited

/-- A number in decimal, with a minus sign if it is negative. -/
def decimal (n : Int) : String :=
  if n < 0 then "-" ++ n.natAbs.repr else n.natAbs.repr

/-- The place where a span starts. -/
def Span.render (s : Span) : String :=
  s.filename ++ ":" ++ decimal s.line ++ ":" ++ decimal s.column

/-- The categories of failures: the shape of the input first, rules of the domain second. -/
inductive DiagnosticKind where
  | invalidSyntax
  | malformedArguments
  | invalidArguments
  | unexpectedConstruct
  | unsupportedNegativeImpl
  | missingTestBody
  | invalidTestSignature
  | conflictingTestKind
  | duplicateTestName
  | unexpectedConcreteList
  | missingInstantiations
  deriving DecidableEq, Repr, Inhabited

namespace DiagnosticKind

/-- The name of a category in a report. -/
def name : DiagnosticKind → String
  | invalidSyntax => "InvalidSyntax"
  | malformedArguments => "MalformedArguments"
  | invalidArguments => "InvalidArguments"
  | unexpectedConstruct => "UnexpectedConstruct"
  | unsupportedNegativeImpl => "UnsupportedNegativeImpl"
  | missingTestBody => "MissingTestBody"
  | invalidTestSignature => "InvalidTestSignature"
  | conflictingTestKind => "ConflictingTestKind"
  | duplicateTestName => "DuplicateTestName"
  | unexpectedConcreteList => "UnexpectedConcreteList"
  | missingInstantiations => "MissingInstantiations"

/-- All categories. -/
def all : List DiagnosticKind :=
  [invalidSyntax, malformedArguments, invalidArguments, unexpectedConstruct, unsupportedNegativeImpl,
   missingTestBody, invalidTestSignature, conflictingTestKind, duplicateTestName, unexpectedConcreteList,
   missingInstantiations]

/-- The category with a name. -/
def ofName? (s : String) : Option DiagnosticKind :=
  all.find? fun k => k.name == s

end DiagnosticKind

/-- Context beside a message. -/
structure Note where
  message : String
  span : Option Span := none
  deriving DecidableEq, Repr, Inhabited

/-- A failure as it is reported. -/
structure Diagnostic where
  kind : DiagnosticKind
  message : String
  span : Option Span := none
  notes : List Note := []
  deriving DecidableEq, Repr, Inhabited

/-- The line of a note. -/
def Note.render (n : Note) : String :=
  let place := match n.span with
    | some s => " (" ++ s.render ++ ")"
    | none => ""
  "  note" ++ place ++ ": " ++ n.message

/-- The lines of a report: the message with its place, then the notes. -/
def Diagnostic.lines (d : Diagnostic) : List String :=
  let place := match d.span with
    | some s => s.render ++ ": "
    | none => ""
  (place ++ "error[" ++ d.kind.name ++ "]: " ++ d.message) :: d.notes.map Note.render

/-- A report as one text. -/
def Diagnostic.render (d : Diagnostic) : String :=
  "\n".intercalate d.lines

/-! ## Faults -/

/-- A message that may refer to a part `ν` of a tree. -/
structure Remark (ν : Type) where
  message : String
  node : Option ν := none
  span : Option Span := none
  deriving DecidableEq, Repr, Inhabited

/-- A failure with references to parts `ν` of a tree. -/
structure Fault (ν : Type) where
  kind : DiagnosticKind
  main : Remark ν
  notes : List (Remark ν) := []
  deriving DecidableEq, Repr, Inhabited

variable {ν : Type}

/-- Looks up where a remark is, unless that is known. -/
def Remark.locate (find : ν → Option Span) (fallback : Option Span) (r : Remark ν) : Remark ν :=
  { r with span := r.span <|> (r.node.bind find <|> fallback) }

/-- Looks up the places of a fault.  Only the message itself has a fallback. -/
def Fault.locate (find : ν → Option Span) (fallback : Option Span) (f : Fault ν) : Fault ν :=
  { f with main := f.main.locate find fallback, notes := f.notes.map (Remark.locate find none) }

/-- Adds a note. -/
def Fault.withContext (message : String) (node : Option ν) (f : Fault ν) : Fault ν :=
  { f with notes := f.notes ++ [{ message, node }] }

/-- The report of a fault. -/
def Fault.diagnostic (f : Fault ν) : Diagnostic :=
  { kind := f.kind, message := f.main.message, span := f.main.span,
    notes := f.notes.map fun r => { message := r.message, span := r.span } }

end Conformance
