import Conformance.Console.Record

/-!
# The logger

All messages go through one logger.  Of its handlers exactly one belongs to a console; when another console is
installed, that handler is replaced and all others stay.
-/

namespace Conformance

/-- What a logger passes its records to. -/
inductive Handler where
  /-- A console, by its number. -/
  | console (id : Nat)
  /-- A handler that someone else has added. -/
  | foreign (id : Nat)
  deriving DecidableEq, Repr, Inhabited

/-- The console that the handler belongs to. -/
def Handler.console? : Handler → Option Nat
  | console id => some id
  | foreign _ => none

/-- Whether the handler belongs to a console. -/
def Handler.isConsole (h : Handler) : Bool := h.console?.isSome

/-- The logger: its handlers and the level in force. -/
structure Logger where
  handlers : List Handler := [.console 0]
  /-- The handlers of the logger above it. -/
  rootHandlers : List Handler := []
  /-- Whether records also go to the handlers of the logger above it. -/
  propagates : Bool := false
  threshold : Level := .warning
  /-- The console that was installed last. -/
  current : Nat := 0
  deriving DecidableEq, Repr, Inhabited

namespace Logger

/-- The name of the logger. -/
def name : String := "tested_trait"

/-- Whether records for a name come to the logger: the name is its own, or below it. -/
def receives (target : String) : Bool :=
  target == name || (name ++ ".").isPrefixOf target

/-- Takes out a handler. -/
def removeHandler (h : Handler) (l : Logger) : Logger :=
  { l with handlers := l.handlers.erase h }

/-- Adds a handler at the end, unless it is there. -/
def addHandler (h : Handler) (l : Logger) : Logger :=
  if l.handlers.contains h then l else { l with handlers := l.handlers ++ [h] }

/-- Walks over handlers and takes those that belong to consoles out of the logger. -/
def dropConsoles : List Handler → Logger → Logger
  | [], l => l
  | h :: hs, l => dropConsoles hs (if h.isConsole then l.removeHandler h else l)

/-- Installs a console.  The walk is over the handlers as they were before. -/
def install (id : Nat) (l : Logger) : Logger :=
  { (l.dropConsoles l.handlers).addHandler (.console id) with propagates := false, current := id }

/-- The level that a name puts in force.  With no level of its own the logger takes the usual one. -/
def thresholdOf? (level : String) : Option Level :=
  match level with
  | "NOTSET" => some .warning
  | "WARN" => some .warning
  | "FATAL" => some .critical
  | _ => Level.ofName? level

/-- Puts a level in force. -/
def setLevel (level : Level) (l : Logger) : Logger := { l with threshold := level }

/-- The handlers that a record is passed to, one after the other. -/
def reached (l : Logger) : List Handler :=
  l.handlers ++ if l.propagates then l.rootHandlers else []

/-- The consoles a record is printed on: each console among the handlers, if the record passes. -/
def recipients (l : Logger) (r : Record) : List Nat :=
  if r.passes l.threshold then l.reached.filterMap Handler.console? else []

/-- What a record prints: a console and the lines on it, for each console it goes to. -/
def emit (l : Logger) (target : String) (r : Record) : Except Markup.MarkupError (List (Nat × List String)) :=
  if receives target then
    (l.recipients r).mapM fun id => return (id, ← r.display)
  else .ok []

end Logger

end Conformance
