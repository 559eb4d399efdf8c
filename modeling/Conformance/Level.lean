/-!
# Levels of log records
-/

namespace Conformance

/-- How serious a log record is. -/
inductive Level where
  | debug
  | info
  | success
  | warning
  | error
  | critical
  /-- A level without a name, by its rank. -/
  | numbered (rank : Int) (h : rank ∉ [10, 20, 25, 30, 40, 50])
  deriving DecidableEq, Repr, Inhabited

namespace Level

/-- The name of a level. -/
def name : Level → String
  | debug => "DEBUG"
  | info => "INFO"
  | success => "SUCCESS"
  | warning => "WARNING"
  | error => "ERROR"
  | critical => "CRITICAL"
  | numbered rank _ => "Level " ++ toString rank

/-- The levels with names, from the least to the most serious. -/
def all : List Level := [debug, info, success, warning, error, critical]

/-- The levels that the settings can name. -/
def configurable : List Level := [debug, info, warning, error, critical]

/-- The rank of a level: a record is shown if its rank is at least that of the level in force. -/
def rank : Level → Int
  | debug => 10
  | info => 20
  | success => 25
  | warning => 30
  | error => 40
  | critical => 50
  | numbered rank _ => rank

/-- The level with a name. -/
def ofName? (s : String) : Option Level :=
  all.find? fun l => l.name == s

end Level

end Conformance
