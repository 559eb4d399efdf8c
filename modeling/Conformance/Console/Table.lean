import Conformance.Console.Markup
import Conformance.Text.Width

/-!
# Tables

A table with a title, a heading and rows, drawn with lines.  The cells of a column are as wide as the widest of
them, and the title stands in the middle above.
-/

namespace Conformance

open Text

/-- How the cells of a column are aligned. -/
inductive Alignment where
  | left
  | right
  deriving DecidableEq, Repr

/-- A column: its heading and how its cells are aligned. -/
structure Column where
  heading : String
  alignment : Alignment := .left
  deriving DecidableEq, Repr

/-- A table whose cells are shown as they stand. -/
structure Table where
  title : String
  columns : List Column
  rows : List (List String)
  deriving DecidableEq, Repr

namespace Table

/-- The widths of the columns. -/
def widths (t : Table) : List Nat :=
  t.columns.zipIdx.map fun (c, i) =>
    (t.rows.map fun r => width (r.getD i "")).foldl max (width c.heading)

/-- A cell, padded to a width. -/
def cell (n : Nat) (a : Alignment) (s : String) : String :=
  match a with
  | .left => padRight n s
  | .right => padLeft n s

/-- A horizontal line. -/
def rule (left fill joint right : String) (widths : List Nat) : String :=
  left ++ joint.intercalate (widths.map fun n => String.join (List.replicate (n + 2) fill)) ++ right

/-- A row of cells between vertical lines. -/
def row (bar : String) (widths : List Nat) (cells : List (Alignment × String)) : String :=
  bar ++ bar.intercalate (List.zipWith (fun n c => " " ++ cell n c.1 c.2 ++ " ") widths cells) ++ bar

/-- The lines of a table. -/
def lines (t : Table) : List String :=
  let ws := t.widths
  let total := ws.foldl (fun n w => n + w + 3) 1
  let aligned (cells : List String) : List (Alignment × String) := (t.columns.map Column.alignment).zip cells
  [spaces ((total - width t.title) / 2) ++ t.title,
   rule "┏" "━" "┳" "┓" ws,
   row "┃" ws (aligned (t.columns.map Column.heading)),
   rule "┡" "━" "╇" "┩" ws] ++
  t.rows.map (fun r => row "│" ws (aligned r)) ++
  [rule "└" "─" "┴" "┘" ws]

end Table

end Conformance
