/-!
# Paths

A path is a list of components.  Empty components and `.` are dropped when a path is read; `..` is kept, since
what it means depends on the files.
-/

namespace Conformance

/-- Where a path starts: at the current directory, or at the root, which two slashes and no more write in a way of its
own. -/
inductive Anchor where
  | here
  | root
  | doubleRoot
  deriving DecidableEq, Repr, Inhabited

/-- An anchor as text before the components. -/
def Anchor.text : Anchor → String
  | here => ""
  | root => "/"
  | doubleRoot => "//"

/-- The anchor of characters. -/
def Anchor.ofChars : List Char → Anchor
  | '/' :: '/' :: '/' :: _ => .root
  | '/' :: '/' :: _ => .doubleRoot
  | '/' :: _ => .root
  | _ => .here

/-- A path, from the root or from the current directory. -/
structure Path where
  anchor : Anchor := .here
  parts : List String := []
  deriving DecidableEq, Repr, Inhabited

namespace Path

/-- Whether a path starts at the root. -/
def absolute (p : Path) : Bool := p.anchor != .here

/-- Reads a path. -/
def ofText (s : String) : Path :=
  { anchor := .ofChars s.toList,
    parts := ((s.toList.splitOn '/').map String.ofList).filter fun p => p != "" && p != "." }

/-- A path as text; the current directory is `.`. -/
def text (p : Path) : String :=
  if !p.absolute && p.parts.isEmpty then "." else p.anchor.text ++ "/".intercalate p.parts

/-- A path below another one. -/
def join (p q : Path) : Path :=
  if q.absolute then q else { p with parts := p.parts ++ q.parts }

/-- The path without its last component. -/
def parent (p : Path) : Path := { p with parts := p.parts.dropLast }

/-- The last component. -/
def name (p : Path) : String := p.parts.getLast?.getD ""

/-- The last component without its extension.  A dot at either end starts no extension. -/
def stem (p : Path) : String :=
  let reversed := p.name.toList.reverse
  let extension := reversed.takeWhile (· != '.')
  let front := (reversed.drop (extension.length + 1)).reverse
  if extension.isEmpty || front.isEmpty then p.name else String.ofList front

/-- Whether a path comes before another one or is the same: components are compared one after the other. -/
def partsLe : List String → List String → Bool
  | [], _ => true
  | _ :: _, [] => false
  | a :: as, b :: bs => if a == b then partsLe as bs else decide (a ≤ b)

/-- The components that are left once every `..` has taken back the one before it. -/
def normalize (parts : List String) : List String :=
  (parts.foldl (fun acc p => if p == ".." then acc.tail else p :: acc) []).reverse

end Path

end Conformance
