import Conformance.Text.Blank

/-!
# Lines of a text
-/

namespace Conformance.Text

/-- Line breaks of any form as `\n`. -/
def unifyBreaks : List Char → List Char
  | '\r' :: '\n' :: cs => '\n' :: unifyBreaks cs
  | c :: cs => (if c = '\r' then '\n' else c) :: unifyBreaks cs
  | [] => []

/-- A character that ends a line in a text of any origin. -/
def endsLine (c : Char) : Bool :=
  let n := c.toNat
  (0x0a ≤ n && n ≤ 0x0d) || (0x1c ≤ n && n ≤ 0x1e) || n == 0x85 || n == 0x2028 || n == 0x2029

/-- Cuts characters into lines; `current` is the line so far, read backwards.  A line break at the end starts no
further line. -/
def cutLines (current : List Char) : List Char → List (List Char)
  | [] => if current.isEmpty then [] else [current.reverse]
  | '\r' :: '\n' :: cs => current.reverse :: cutLines [] cs
  | c :: cs => if endsLine c then current.reverse :: cutLines [] cs else cutLines (c :: current) cs

/-- The lines of a text, whatever characters end them. -/
def lines (s : String) : List String :=
  (cutLines [] s.toList).map String.ofList

end Conformance.Text
