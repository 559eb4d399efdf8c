/-!
# Data

Values as they come from a configuration file or from a caller, before they are checked.
-/

namespace Conformance

/-- The forms of a point in time. -/
inductive Moment where
  | dateTime
  | date
  | time
  deriving DecidableEq, Repr, Inhabited

/-- A value of any type. -/
inductive Datum where
  | null
  | boolean (value : Bool)
  | integer (value : Int)
  | real
  | text (value : String)
  | moment (form : Moment)
  | list (items : List Datum)
  | table (entries : List (String × Datum))
  deriving Repr, Inhabited

namespace Datum

/-- The name of the type of a value, as error messages give it. -/
def typeName : Datum → String
  | null => "NoneType"
  | boolean _ => "bool"
  | integer _ => "int"
  | real => "float"
  | text _ => "str"
  | moment .dateTime => "datetime.datetime"
  | moment .date => "datetime.date"
  | moment .time => "datetime.time"
  | list _ => "list"
  | table _ => "dict"

/-- The value of a key.  The last entry of a key counts. -/
def find? (key : String) (entries : List (String × Datum)) : Option Datum :=
  (entries.reverse.find? fun e => e.1 == key).map Prod.snd

end Datum

end Conformance
