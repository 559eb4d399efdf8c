/-!
# Width of text on a grid

A character takes one cell, two if it is a wide one of the East Asian scripts or a pictograph, and none if it
combines with the character before it.
-/

namespace Conformance.Text

/-- Ranges of characters that take two cells. -/
def wideRanges : List (Nat × Nat) :=
  [(0x1100, 0x115f), (0x2e80, 0x303e), (0x3041, 0x4dbf), (0x4e00, 0xa4cf), (0xa960, 0xa97c), (0xac00, 0xd7a3),
   (0xf900, 0xfaff), (0xfe10, 0xfe19), (0xfe30, 0xfe6f), (0xff01, 0xff60), (0xffe0, 0xffe6), (0x16fe0, 0x18aff),
   (0x1b000, 0x1b2fb), (0x1f300, 0x1f64f), (0x1f680, 0x1f6ff), (0x1f900, 0x1f9ff), (0x20000, 0x3fffd)]

/-- Ranges of characters that take no cell. -/
def combiningRanges : List (Nat × Nat) :=
  [(0x300, 0x36f), (0x483, 0x489), (0x591, 0x5bd), (0x610, 0x61a), (0x64b, 0x65f), (0x200b, 0x200f),
   (0x20d0, 0x20f0), (0xfe00, 0xfe0f), (0xfe20, 0xfe2f)]

/-- The number of cells a character takes. -/
def charWidth (c : Char) : Nat :=
  let within (r : Nat × Nat) : Bool := r.1 ≤ c.toNat && c.toNat ≤ r.2
  if c.toNat < 0x300 then 1
  else if combiningRanges.any within then 0
  else if wideRanges.any within then 2
  else 1

/-- The number of cells a text takes. -/
def width (s : String) : Nat :=
  s.toList.foldl (fun n c => n + charWidth c) 0

/-- Some number of spaces. -/
def spaces (n : Nat) : String := String.ofList (List.replicate n ' ')

/-- Text with spaces after it, up to a width. -/
def padRight (n : Nat) (s : String) : String := s ++ spaces (n - width s)

/-- Text with spaces before it, up to a width. -/
def padLeft (n : Nat) (s : String) : String := spaces (n - width s) ++ s

/-- Characters from a column on, with every tab as the spaces up to the next multiple of eight. -/
def expandTabs (column : Nat) : List Char → List Char
  | [] => []
  | c :: cs =>
    if c == '\t' then
      let n := 8 - column % 8
      List.replicate n ' ' ++ expandTabs (column + n) cs
    else c :: expandTabs (column + charWidth c) cs

end Conformance.Text
