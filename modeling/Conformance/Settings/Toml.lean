import Conformance.Settings.Datum
import Conformance.Source.Literal

/-!
# TOML

Reads a TOML document into a table.  Each function takes the characters that are left and gives back a value
with the characters after it, or nothing if the document is malformed.  Besides the grammar there are rules
against defining a table twice or changing one that is complete; `Guard` keeps track of them.  A whole number of
too many digits ends the reading in a way of its own.
-/

namespace Conformance.Toml

open Source (hexDigit?)

/-- A value, and the characters after it. -/
abbrev Reader (α : Type) := List Char → Option (α × List Char)

/-- The segments of a dotted key. -/
abbrev Key := List String

/-- Why a document cannot be read. -/
inductive Fault where
  | malformed
  /-- A whole number in base ten has more digits than are converted. -/
  | longNumber (digits : Nat)
  deriving DecidableEq, Repr

/-- What is missing makes a document malformed. -/
def required {α : Type} : Option α → Except Fault α
  | some a => .ok a
  | none => .error .malformed

/-- A value or a fault, and the characters after a value. -/
abbrev Parser (α : Type) := List Char → Except Fault (α × List Char)

/-! ## Characters -/

/-- White space inside a line. -/
def isWhite (c : Char) : Bool := c == ' ' || c == '\t'

def skipWhite (cs : List Char) : List Char := cs.dropWhile isWhite

/-- A control character other than the tab. -/
def isControl (c : Char) : Bool := (c.toNat < 32 && c != '\t') || c.toNat == 127

/-- A character of a key without quotes. -/
def isBare (c : Char) : Bool := c.isAlphanum || c == '-' || c == '_'

/-- Skips a comment, which may not hold control characters. -/
def skipComment : List Char → Option (List Char)
  | '#' :: cs =>
    let body := cs.takeWhile (· != '\n')
    if body.any isControl then none else some (cs.dropWhile (· != '\n'))
  | cs => some cs

/-- Skips white space, line breaks and comments. -/
def skipGaps : Nat → List Char → Option (List Char)
  | 0, cs => some cs
  | fuel + 1, cs => do
    let next := cs.dropWhile fun c => isWhite c || c == '\n'
    match next with
    | '#' :: _ => skipGaps fuel (← skipComment next)
    | _ => some next

/-- The line breaks `\r\n` as `\n`. -/
def unifyBreaks : List Char → List Char
  | '\r' :: '\n' :: cs => '\n' :: unifyBreaks cs
  | c :: cs => c :: unifyBreaks cs
  | [] => []

/-! ## Strings -/

/-- The character with a hexadecimal number of the given length. -/
def hexChar (n : Nat) : Reader Char := fun cs => do
  let digits := cs.take n
  if digits.length != n then none
  else
    let values ← digits.mapM hexDigit?
    let value := values.foldl (fun v d => v * 16 + d) 0
    if value < 0xD800 || (0xDFFF < value && value ≤ 0x10FFFF) then some (Char.ofNat value, cs.drop n) else none

/-- The character that an escape of one letter stands for. -/
def simpleEscape? : Char → Option Char
  | 'b' => some '\x08'
  | 't' => some '\t'
  | 'n' => some '\n'
  | 'f' => some '\x0c'
  | 'r' => some '\r'
  | '"' => some '"'
  | '\\' => some '\\'
  | _ => none

/-- What follows a backslash.  In a string over several lines a backslash at the end of a line swallows the
white space up to the next character. -/
def escape (multiline : Bool) : Reader (List Char) := fun cs =>
  match cs with
  | [] => none
  | c :: rest =>
    if multiline && (isWhite c || c == '\n') then
      match cs.dropWhile isWhite with
      | [] => some ([], [])
      | '\n' :: after => some ([], after.dropWhile fun c => isWhite c || c == '\n')
      | _ => none
    else if c == 'u' then (hexChar 4 rest).map fun (x, rest) => ([x], rest)
    else if c == 'U' then (hexChar 8 rest).map fun (x, rest) => ([x], rest)
    else (simpleEscape? c).map fun x => ([x], rest)

/-- The rest of a string in double quotes. -/
def basicString (multiline : Bool) : Nat → Reader (List Char)
  | 0, _ => none
  | fuel + 1, cs =>
    match cs with
    | [] => none
    | '\\' :: rest => do
      let (front, rest) ← escape multiline rest
      let (back, rest) ← basicString multiline fuel rest
      return (front ++ back, rest)
    | '"' :: rest =>
      if !multiline then some ([], rest)
      else
        match rest with
        | '"' :: '"' :: rest => some ([], rest)
        | _ => (basicString multiline fuel rest).map fun (s, rest) => ('"' :: s, rest)
    | c :: rest =>
      if isControl c && !(multiline && c == '\n') then none
      else (basicString multiline fuel rest).map fun (s, rest) => (c :: s, rest)

/-- The rest of a string in single quotes. -/
def literalString : Reader (List Char) := fun cs =>
  let body := cs.takeWhile (· != '\'')
  match cs.dropWhile (· != '\'') with
  | '\'' :: rest => if body.any isControl then none else some (body, rest)
  | _ => none

/-- The rest of a string in three single quotes. -/
def literalBlock : Reader (List Char)
  | '\'' :: '\'' :: '\'' :: rest => some ([], rest)
  | c :: rest =>
    if isControl c && c != '\n' then none
    else (literalBlock rest).map fun (s, rest) => (c :: s, rest)
  | [] => none

/-- Up to two more quotes right after the end of a string over several lines belong to it. -/
def extraQuotes (q : Char) (s rest : List Char) : List Char × List Char :=
  match rest with
  | a :: b :: more =>
    if a == q && b == q then (s ++ [q, q], more) else if a == q then (s ++ [q], b :: more) else (s, rest)
  | [a] => if a == q then (s ++ [q], []) else (s, rest)
  | [] => (s, [])

/-- The characters after a line break at the front. -/
def dropBreak : List Char → List Char
  | '\n' :: cs => cs
  | cs => cs

/-! ## Keys -/

/-- One segment of a key. -/
def keyPart : Reader String := fun cs =>
  match cs with
  | '\'' :: rest => (literalString rest).map fun (s, rest) => (String.ofList s, rest)
  | '"' :: rest => (basicString false (rest.length + 1) rest).map fun (s, rest) => (String.ofList s, rest)
  | _ =>
    let part := cs.takeWhile isBare
    if part.isEmpty then none else some (String.ofList part, cs.dropWhile isBare)

/-- A dotted key and the white space after it. -/
def key : Nat → Reader Key
  | 0, _ => none
  | fuel + 1, cs => do
    let (part, rest) ← keyPart cs
    match skipWhite rest with
    | '.' :: rest =>
      let (parts, rest) ← key fuel (skipWhite rest)
      return (part :: parts, rest)
    | rest => return ([part], rest)

/-! ## Numbers, dates and times -/

/-- Digits, with single underscores between them. -/
def digits (isDigit : Char → Bool) : List Char → List Char × List Char
  | c :: cs =>
    if isDigit c then
      let (ds, rest) := digits isDigit cs
      (c :: ds, rest)
    else if c == '_' then
      match cs with
      | d :: _ =>
        if isDigit d then digits isDigit cs else ([], c :: cs)
      | [] => ([], c :: cs)
    else ([], c :: cs)
  | [] => ([], [])

/-- Digits that start with a digit. -/
def someDigits (isDigit : Char → Bool) (cs : List Char) : Option (List Char × List Char) :=
  match cs with
  | c :: _ => if isDigit c then some (digits isDigit cs) else none
  | [] => none

/-- The value of digits. -/
def valueOf (base : Nat) (ds : List Char) : Nat :=
  ds.foldl (fun v d => v * base + (hexDigit? d).getD 0) 0

/-- A whole number in another base than ten. -/
def basedInteger : Reader Datum
  | '0' :: 'x' :: cs => (someDigits (fun c => (hexDigit? c).isSome) cs).map fun (ds, rest) =>
      (.integer (valueOf 16 ds), rest)
  | '0' :: 'b' :: cs => (someDigits (fun c => c == '0' || c == '1') cs).map fun (ds, rest) =>
      (.integer (valueOf 2 ds), rest)
  | '0' :: 'o' :: cs => (someDigits (fun c => '0' ≤ c && c ≤ '7') cs).map fun (ds, rest) =>
      (.integer (valueOf 8 ds), rest)
  | _ => none

/-- The digits of a decimal number, which has no zeros in front. -/
def wholePart (cs : List Char) : Option (List Char × List Char) :=
  match cs with
  | '0' :: rest => some (['0'], rest)
  | _ => someDigits Char.isDigit cs

/-- The fractional part of a number, if there is one. -/
def skipFraction (cs : List Char) : Option (List Char) :=
  match cs with
  | '.' :: rest => (someDigits Char.isDigit rest).map Prod.snd
  | _ => none

/-- The exponent of a number, if there is one. -/
def skipExponent (cs : List Char) : Option (List Char) :=
  match cs with
  | e :: rest =>
    if e == 'e' || e == 'E' then
      let rest := match rest with
        | '+' :: rest => rest
        | '-' :: rest => rest
        | _ => rest
      (someDigits Char.isDigit rest).map Prod.snd
    else none
  | [] => none

/-- The most digits of a whole number in base ten that are converted. -/
def digitLimit : Nat := 4300

/-- A number in base ten. -/
def decimalNumber : Reader (Except Fault Datum) := fun cs => do
  let (negative, body) := match cs with
    | '+' :: rest => (false, rest)
    | '-' :: rest => (true, rest)
    | _ => (false, cs)
  let (ds, rest) ← wholePart body
  let afterFraction := skipFraction rest
  let afterExponent := skipExponent (afterFraction.getD rest)
  match afterFraction, afterExponent with
  | none, none =>
    if digitLimit < ds.length then return (.error (.longNumber ds.length), rest)
    let value : Int := valueOf 10 ds
    return (.ok (.integer (if negative then -value else value)), rest)
  | some rest, none => return (.ok .real, rest)
  | _, some rest => return (.ok .real, rest)

/-- A number of exactly `n` digits. -/
def fixed (n : Nat) : Reader Nat := fun cs =>
  let ds := cs.take n
  if ds.length == n && ds.all Char.isDigit then some (valueOf 10 ds, cs.drop n) else none

/-- A number of two digits between two bounds. -/
def bounded (low high : Nat) : Reader Nat := fun cs => do
  let (v, rest) ← fixed 2 cs
  if low ≤ v && v ≤ high then some (v, rest) else none

/-- The rest after a character. -/
def expect (c : Char) : List Char → Option (List Char)
  | d :: cs => if c == d then some cs else none
  | [] => none

/-- A time of day. -/
def timeOfDay (cs : List Char) : Option (List Char) := do
  let (_, cs) ← bounded 0 23 cs
  let (_, cs) ← bounded 0 59 (← expect ':' cs)
  let (_, cs) ← bounded 0 59 (← expect ':' cs)
  match cs with
  | '.' :: rest => if rest.head?.any Char.isDigit then some (rest.dropWhile Char.isDigit) else some cs
  | _ => some cs

/-- The distance from the standard time, if there is one. -/
def skipOffset (cs : List Char) : List Char :=
  match cs with
  | 'Z' :: rest => rest
  | 'z' :: rest => rest
  | c :: rest =>
    if c == '+' || c == '-' then
      let offset : Option (List Char) := do
        let (_, cs) ← bounded 0 23 rest
        let (_, cs) ← bounded 0 59 (← expect ':' cs)
        return cs
      offset.getD cs
    else cs
  | [] => []

/-- The number of days in a month. -/
def daysIn (year month : Nat) : Nat :=
  if month == 2 then
    if (year % 4 == 0 && year % 100 != 0) || year % 400 == 0 then 29 else 28
  else if [4, 6, 9, 11].contains month then 30
  else 31

/-- A date: its year, month and day as they are written. -/
def dateParts (cs : List Char) : Option ((Nat × Nat × Nat) × List Char) := do
  let (year, cs) ← fixed 4 cs
  let (month, cs) ← bounded 1 12 (← expect '-' cs)
  let (day, cs) ← bounded 1 31 (← expect '-' cs)
  return ((year, month, day), cs)

/-- A date, perhaps with a time. -/
def dateOrTime (cs : List Char) : Option (Option (Datum × List Char)) :=
  match dateParts cs with
  | none => (timeOfDay cs).map fun rest => some (.moment .time, rest)
  | some ((year, month, day), rest) =>
    if year == 0 || daysIn year month < day then some none
    else
      match rest with
      | c :: more =>
        if c == 'T' || c == 't' || c == ' ' then
          match timeOfDay more with
          | some after => some (some (.moment .dateTime, skipOffset after))
          | none => some (some (.moment .date, rest))
        else some (some (.moment .date, rest))
      | [] => some (some (.moment .date, []))

/-- The rest after a word, if it stands at the front. -/
def word? (w : String) (cs : List Char) : Option (List Char) :=
  Source.stripFront? w.toList cs

/-- A number that is no ordinary one. -/
def specialNumber : Reader Datum := fun cs =>
  ["inf", "nan", "-inf", "+inf", "-nan", "+nan"].findSome? fun w => (word? w cs).map fun rest => (.real, rest)

/-- A date, a time or a number. -/
def scalar : Parser Datum := fun cs =>
  match dateOrTime cs with
  | some found => required found
  | none =>
    match basedInteger cs with
    | some found => .ok found
    | none =>
      match decimalNumber cs with
      | some (number, rest) => number.map fun d => (d, rest)
      | none => required (specialNumber cs)

/-! ## Tables -/

/-- Changes the table at a key, which is made if it is missing.  Behind a list of tables stands its last one, if
lists may be entered. -/
def within (lists : Bool) (f : List (String × Datum) → Option (List (String × Datum))) :
    Key → List (String × Datum) → Option (List (String × Datum))
  | [], es => f es
  | k :: ks, es =>
    let replaced (d : Datum) : List (String × Datum) := es.map fun e => if e.1 == k then (k, d) else e
    match Datum.find? k es with
    | none => (within lists f ks []).map fun inner => es ++ [(k, .table inner)]
    | some (.table inner) => (within lists f ks inner).map fun inner => replaced (.table inner)
    | some (.list items) =>
      match lists, items.getLast? with
      | true, some (.table inner) =>
        (within lists f ks inner).map fun inner => replaced (.list (items.dropLast ++ [.table inner]))
      | _, _ => none
    | some _ => none

/-- Adds an entry whose key is not there. -/
def addEntry (k : String) (d : Datum) (es : List (String × Datum)) : Option (List (String × Datum)) :=
  if (Datum.find? k es).isSome then none else some (es ++ [(k, d)])

/-- Adds a table to the list of tables behind a key. -/
def addTable (k : String) (es : List (String × Datum)) : Option (List (String × Datum)) :=
  match Datum.find? k es with
  | none => some (es ++ [(k, .list [.table []])])
  | some (.list items) => some (es.map fun e => if e.1 == k then (k, .list (items ++ [.table []])) else e)
  | some _ => none

/-- Whether a value is a table or list, which is complete where it is written. -/
def isComplete : Datum → Bool
  | .table _ => true
  | .list _ => true
  | _ => false

mutual

/-- A value. -/
def value : Nat → Parser Datum
  | 0, _ => .error .malformed
  | fuel + 1, cs =>
    match cs with
    | '"' :: '"' :: '"' :: rest => do
      let (s, rest) ← required (basicString true (rest.length + 1) (dropBreak rest))
      let (s, rest) := extraQuotes '"' s rest
      return (.text (String.ofList s), rest)
    | '"' :: rest => do
      let (s, rest) ← required (basicString false (rest.length + 1) rest)
      return (.text (String.ofList s), rest)
    | '\'' :: '\'' :: '\'' :: rest => do
      let (s, rest) ← required (literalBlock (dropBreak rest))
      let (s, rest) := extraQuotes '\'' s rest
      return (.text (String.ofList s), rest)
    | '\'' :: rest => do
      let (s, rest) ← required (literalString rest)
      return (.text (String.ofList s), rest)
    | '[' :: rest => do
      let (items, rest) ← listItems fuel (← required (skipGaps (rest.length + 1) rest))
      return (.list items, rest)
    | '{' :: rest =>
      match skipWhite rest with
      | '}' :: rest => .ok (.table [], rest)
      | rest => do
        let (es, rest) ← tableEntries fuel [] [] rest
        return (.table es, rest)
    | _ =>
      match word? "true" cs, word? "false" cs with
      | some rest, _ => .ok (.boolean true, rest)
      | _, some rest => .ok (.boolean false, rest)
      | none, none => scalar cs

/-- The items of a list up to its closing bracket. -/
def listItems : Nat → Parser (List Datum)
  | 0, _ => .error .malformed
  | fuel + 1, cs =>
    match cs with
    | ']' :: rest => .ok ([], rest)
    | _ => do
      let (d, rest) ← value fuel cs
      match ← required (skipGaps (rest.length + 1) rest) with
      | ']' :: rest => return ([d], rest)
      | ',' :: rest =>
        let (ds, rest) ← listItems fuel (← required (skipGaps (rest.length + 1) rest))
        return (d :: ds, rest)
      | _ => throw .malformed

/-- The entries of a table in braces up to the closing one.  `complete` are the keys of complete values. -/
def tableEntries : Nat → List Key → List (String × Datum) → Parser (List (String × Datum))
  | 0, _, _, _ => .error .malformed
  | fuel + 1, complete, es, cs => do
    let (k, rest) ← required (key (cs.length + 1) cs)
    let (d, rest) ← value fuel (skipWhite (← required (expect '=' rest)))
    if complete.any fun c => c.isPrefixOf k then throw .malformed
    else
      let es ← required (within false (addEntry (k.getLast?.getD "") d) k.dropLast es)
      match skipWhite rest with
      | '}' :: rest => return (es, rest)
      | ',' :: rest => tableEntries fuel (if isComplete d then k :: complete else complete) es (skipWhite rest)
      | _ => throw .malformed

end

/-! ## Documents -/

/-- Which tables may no longer be changed. -/
structure Guard where
  /-- Tables that cannot be opened again. -/
  closed : List Key := []
  /-- Values that are complete, with everything below them. -/
  complete : List Key := []
  /-- Tables that are closed once the current section ends. -/
  closing : List Key := []

/-- Whether a key is a complete value or below one. -/
def Guard.isComplete (g : Guard) (k : Key) : Bool := g.complete.any fun c => c.isPrefixOf k

/-- Ends a section. -/
def Guard.endSection (g : Guard) : Guard := { g with closed := g.closed ++ g.closing, closing := [] }

/-- Forgets everything about a key and what is below it. -/
def Guard.forget (g : Guard) (k : Key) : Guard :=
  { g with closed := g.closed.filter fun c => !k.isPrefixOf c,
           complete := g.complete.filter fun c => !k.isPrefixOf c }

/-- A document as far as it has been read. -/
structure Draft where
  table : List (String × Datum) := []
  guard : Guard := {}
  /-- The key of the current section. -/
  header : Key := []

/-- The proper non-empty beginnings of a key. -/
def beginnings (k : Key) : List Key :=
  (List.range (k.length - 1)).map fun n => k.take (n + 1)

/-- Takes in `key = value`. -/
def Draft.assign (d : Draft) (k : Key) (v : Datum) : Option Draft := do
  let inner := (beginnings k).map (d.header ++ ·)
  if inner.any d.guard.closed.contains then none
  else
    let above := d.header ++ k.dropLast
    if d.guard.isComplete above then none
    else
      let table ← within true (addEntry (k.getLast?.getD "") v) above d.table
      let complete := if isComplete v then d.guard.complete ++ [d.header ++ k] else d.guard.complete
      return { d with table, guard := { d.guard with complete, closing := d.guard.closing ++ inner } }

/-- Opens the table of a section. -/
def Draft.openTable (d : Draft) (k : Key) : Option Draft := do
  if d.guard.closed.contains k || d.guard.isComplete k then none
  else
    let table ← within true some k d.table
    return { table, guard := { d.guard with closed := d.guard.closed ++ [k] }, header := k }

/-- Opens a new table in a list of tables. -/
def Draft.openItem (d : Draft) (k : Key) : Option Draft := do
  if d.guard.isComplete k then none
  else
    let guard := d.guard.forget k
    let table ← within true (addTable (k.getLast?.getD "")) k.dropLast d.table
    return { table, guard := { guard with closed := guard.closed ++ [k] }, header := k }

/-- Reads one statement. -/
def statement (d : Draft) : Parser Draft := fun cs =>
  match cs with
  | '[' :: '[' :: rest => do
    let (k, rest) ← required (key (rest.length + 1) (skipWhite rest))
    let d ← required ({ d with guard := d.guard.endSection }.openItem k)
    let rest ← required (expect ']' rest)
    return (d, skipWhite (← required (expect ']' rest)))
  | '[' :: rest => do
    let (k, rest) ← required (key (rest.length + 1) (skipWhite rest))
    let d ← required ({ d with guard := d.guard.endSection }.openTable k)
    return (d, skipWhite (← required (expect ']' rest)))
  | '#' :: _ => .ok (d, cs)
  | _ => do
    let (k, rest) ← required (key (cs.length + 1) cs)
    let (v, rest) ← value (cs.length + 1) (skipWhite (← required (expect '=' rest)))
    return (← required (d.assign k v), skipWhite rest)

/-- Reads the statements of a document, one on a line. -/
def statements : Nat → Draft → List Char → Except Fault Draft
  | 0, d, _ => .ok d
  | fuel + 1, d, cs =>
    match skipWhite cs with
    | [] => .ok d
    | '\n' :: rest => statements fuel d rest
    | cs => do
      let (d, rest) ← statement d cs
      match ← required (skipComment rest) with
      | [] => return d
      | '\n' :: rest => statements fuel d rest
      | _ => throw .malformed

/-- Reads a document. -/
def parse (source : String) : Except Fault (List (String × Datum)) := do
  let cs := unifyBreaks source.toList
  let d ← statements (cs.length + 1) {} cs
  return d.table

end Conformance.Toml
