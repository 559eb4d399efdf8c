import Conformance.Text.Quoted
import Conformance.Value.Basic

/-!
# Values as text

`Value.shown` writes a value the way a program would, `Value.plain` the way it is printed: text itself rather
than text between quotes, and errors by their message.
-/

namespace Conformance

/-- A byte as it is written between quotes `q`. -/
def escapedByte (q : Char) (b : UInt8) : String :=
  let c := Char.ofNat b.toNat
  if c == q || c == '\\' then String.ofList ['\\', c]
  else if c == '\n' then "\\n"
  else if c == '\r' then "\\r"
  else if c == '\t' then "\\t"
  else if 0x20 ≤ b.toNat && b.toNat < 0x7F then c.toString
  else "\\x" ++ Text.hex 2 b.toNat

/-- Bytes between quotes. -/
def quotedBytes (bs : List UInt8) : String :=
  let q := Text.quoteFor (bs.map fun b => Char.ofNat b.toNat)
  "b" ++ q.toString ++ String.join (bs.map (escapedByte q)) ++ q.toString

/-- The full name of a class; a built-in one has no module before it. -/
def ClassRef.path (c : ClassRef) : String :=
  match c.home with
  | some m => m ++ "." ++ c.qualname
  | none => c.qualname

/-- A class as it is written. -/
def ClassRef.shown (c : ClassRef) : String := "<class '" ++ c.path ++ "'>"

/-- Words with a comma between them. -/
def listed (words : List String) : String := ", ".intercalate words

/-- Members of a tuple: one alone is followed by a comma. -/
def tupleText : List String → String
  | [w] => "(" ++ w ++ ",)"
  | ws => "(" ++ listed ws ++ ")"

/-- The name of a value's class in place of a value that is not written otherwise. -/
def anonymous (typeName : String) : String := "<" ++ typeName ++ " instance>"

namespace Value

/-- Whether the value is a class that is not built in. -/
def isUserClass : Value → Bool
  | type c => c.home.isSome
  | _ => false

/-- A value, otherwise written as `written`, where it stands as an argument of a generic class: classes are
given by their full name.  Classes that are not built in convert the arguments that are no types. -/
def asArgument (converted : Bool) (v : Value) (written : String) : String :=
  match v with
  | type c => c.path
  | ellipsis => "..."
  | function code _ _ => code.signature.name
  | nothing => if converted then "NoneType" else written
  | text _ => if converted then "ForwardRef(" ++ written ++ ")" else written
  | _ => written

mutual

/-- The value as it is written in a program. -/
def shown : Value → String
  | nothing => "None"
  | ellipsis => "Ellipsis"
  | bool b => if b then "True" else "False"
  | int i => i.repr
  | text s | textOf _ s => Text.quoted s
  | bytes bs => quotedBytes bs
  | list items => "[" ++ listed (shownAll items) ++ "]"
  | tuple items => tupleText (shownAll items)
  | dict entries => "\x7b" ++ listed (shownEntries entries) ++ "\x7d"
  | ok v => "Ok(value=" ++ v.shown ++ ")"
  | err e => "Err(error=" ++ e.shown ++ ")"
  | type c => c.shown
  | applied origin args =>
    asArgument false origin origin.shown ++ "[" ++ listed (shownArguments origin.isUserClass args) ++ "]"
  | typeVariable n => "~" ++ n
  | form home n => home ++ "." ++ n
  | concrete => "Concrete"
  | error k args => k.name ++ "(" ++ listed (shownAll args) ++ ")"
  | instanceOf c => anonymous c.name
  | object t _ => anonymous t
  | function code _ _ => "<function " ++ code.qualname ++ ">"
  | wrapped _ f => f.shown
  | bound f _ => f.shown
  | native _ => "<function>"
  | callable label _ => label
  | library path => "<module '" ++ ".".intercalate path ++ "'>"

def shownAll : List Value → List String
  | [] => []
  | v :: vs => v.shown :: shownAll vs

def shownArguments (converted : Bool) : List Value → List String
  | [] => []
  | v :: vs => asArgument converted v v.shown :: shownArguments converted vs

def shownEntries : List (Value × Value) → List String
  | [] => []
  | (k, v) :: es => (k.shown ++ ": " ++ v.shown) :: shownEntries es

end

/-- The value as it is printed. -/
def plain : Value → String
  | text s | textOf _ s => s
  | error k args => errorText k args
  | v => v.shown
where
  /-- The message of an error: nothing, what its one argument says, or all its arguments. -/
  errorText (k : ErrorKind) : List Value → String
    | [] => ""
    | [a] => if k.derivesFrom .key then a.shown else a.plain
    | args => tupleText (shownAll args)

/-- How a type or requirement is called: a class by its name. -/
def label : Value → String
  | type c => c.qualname
  | v => v.shown

end Value

/-- The message of an error. -/
def Raised.message (r : Raised) : String := Value.plain.errorText r.kind r.args

end Conformance
