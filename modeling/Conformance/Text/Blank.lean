/-!
# Blank characters and line breaks

Blanks inside a line are the space, the tab and the form feed.  A line ends at `\n`, `\r\n` or a
lone `\r`.  Text is trimmed of a wider set, every character that Unicode counts as white space.
-/

namespace Conformance.Text

/-- A blank inside a line. -/
def isBlank (c : Char) : Bool :=
  c == ' ' || c == '\t' || c == '\x0c'

/-- A character that ends a line. -/
def isNewline (c : Char) : Bool :=
  c == '\n' || c == '\r'

/-- White space of any kind: what trimming removes. -/
def isSpace (c : Char) : Bool :=
  let n := c.toNat
  (0x09 ≤ n && n ≤ 0x0d) || (0x1c ≤ n && n ≤ 0x20) || n == 0x85 || n == 0xa0 || n == 0x1680 ||
    (0x2000 ≤ n && n ≤ 0x200a) || n == 0x2028 || n == 0x2029 || n == 0x202f || n == 0x205f ||
    n == 0x3000

/-- Text without the white space at its two ends. -/
def trim (s : String) : String :=
  let front := s.toList.dropWhile isSpace
  String.ofList (front.reverse.dropWhile isSpace).reverse

/-- Text without the white space at its end. -/
def trimRight (s : String) : String :=
  String.ofList (s.toList.reverse.dropWhile isSpace).reverse

/-- The line break at the front of the characters, if there is one. -/
def lineBreak? : List Char → Option (List Char × List Char)
  | '\r' :: '\n' :: rest => some (['\r', '\n'], rest)
  | '\r' :: rest => some (['\r'], rest)
  | '\n' :: rest => some (['\n'], rest)
  | _ => none

theorem lineBreak?_append {cs nl rest : List Char} (h : lineBreak? cs = some (nl, rest)) :
    nl ++ rest = cs := by
  unfold lineBreak? at h
  split at h
  · cases h; rfl
  · cases h; rfl
  · cases h; rfl
  · cases h

/-- The first line break of a text. -/
def firstLineBreak? : List Char → Option String
  | [] => none
  | c :: cs =>
    match lineBreak? (c :: cs) with
    | some (nl, _) => some (String.ofList nl)
    | none => firstLineBreak? cs

end Conformance.Text
