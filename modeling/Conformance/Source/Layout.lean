import Conformance.Source.LogicalLine

/-!
# Layout

Indentation nests logical lines into rows.  A row is a logical line, possibly with the block that is
indented under it.  The lines without tokens that follow a block are divided among the blocks that end
there: an inner block keeps them up to the last one that is indented as deep as the block, and the rest
goes outwards.

Widths are measured twice, with tab stops at eight columns and at one, and the two measures must agree on
which line is deeper: a text whose nesting depends on the width of a tab is refused.
-/

namespace Conformance.Source

/-- A logical line with the block under it, if there is one.  The indentation of a block is relative to
that of the block around it. -/
inductive Row where
  | plain (line : LogicalLine)
  | opening (line : LogicalLine) (indent : String) (body : List Row) (footer : List Line)
  deriving Repr, Inhabited

/-- How wide the blanks at the start of a line are. -/
structure Width where
  column : Nat := 0
  /-- The width if a tab took one column. -/
  narrow : Nat := 0
  deriving DecidableEq, Repr, Inhabited

/-- The width after one more blank.  A form feed starts over. -/
def Width.next (w : Width) (c : Char) : Width :=
  if c = '\t' then ⟨(w.column / 8 + 1) * 8, w.narrow + 1⟩
  else if c = '\x0c' then {}
  else ⟨w.column + 1, w.narrow + 1⟩

/-- The width of some blanks. -/
def Width.of (blank : String) : Width :=
  blank.toList.foldl Width.next {}

/-- A block that is still open. -/
structure OpenBlock where
  /-- The indentation of its lines. -/
  indent : String := ""
  /-- The same without that of the block around it. -/
  relative : String := ""
  width : Width := {}
  /-- Its rows so far, the latest first. -/
  rows : List Row := []
  deriving Repr, Inhabited

/-- The blocks open at a point of the text, and the number of the next line. -/
structure Layout where
  inner : OpenBlock := {}
  /-- The blocks around the innermost one, from the inside out. -/
  outer : List OpenBlock := []
  line : Nat := 1
  deriving Repr, Inhabited

/-- The most blocks that may be open. -/
def Layout.maxDepth : Nat := 99

/-- Whether a line that was read with all its blanks starts with the indentation. -/
def Line.under (indent : String) (l : Line) : Bool :=
  (stripFront? indent.toList l.blank.toList).isSome

/-- Divides the lines after a block into its footer and the rest. -/
def splitFooter (indent : String) (lines : List Line) : List Line × List Line :=
  let rest := (lines.reverse.takeWhile fun l => !l.under indent).reverse
  (lines.take (lines.length - rest.length), rest)

/-- Puts a block under the last row of the block around it. -/
def OpenBlock.attach (outer inner : OpenBlock) (footer : List Line) : Option OpenBlock :=
  match outer.rows with
  | .plain line :: rows =>
    some { outer with rows := .opening line inner.relative inner.rows.reverse footer :: rows }
  | _ => none

/-- Ends the innermost block and the blocks around it while they are wider than the next line.  The lines
before that line are divided among them; what is left belongs to the line. -/
def closeBlocks (style : Style) (column : Nat) : OpenBlock → List OpenBlock → List Line →
    Option (OpenBlock × List OpenBlock × List Line)
  | inner, [], lead => some (inner, [], lead)
  | inner, outer :: blocks, lead =>
    if column < inner.width.column then do
      let (footer, lead) := splitFooter inner.indent lead
      let outer ← outer.attach inner (footer.map (Line.settle style inner.indent))
      closeBlocks style column outer blocks lead
    else some (inner, outer :: blocks, lead)

/-- Adds a logical line to the innermost block. -/
def Layout.push (style : Style) (layout : Layout) (lead : List Line) (l : LogicalLine) : Layout :=
  let indent := layout.inner.indent
  let before := String.join (l.lead.flatMap (Line.chunks style "")) ++ indent
  let (tokens, last) := placeTokens style indent (Position.past ⟨layout.line, 1⟩ before)
    (l.tokens.map (Token.settle style indent))
  let settled : LogicalLine :=
    { l with lead := lead.map (Line.settle style indent), tokens, stop := l.stop.settle style }
  { layout with
    inner := { layout.inner with rows := .plain settled :: layout.inner.rows }
    line := last.line + 1 }

/-- Takes in the next logical line: it starts a block, goes on with the innermost one or ends some. -/
def Layout.step (style : Style) (layout : Layout) (l : LogicalLine) : Option Layout :=
  match l.margin with
  | none => some (layout.push style l.lead l)
  | some blank => do
    let width := Width.of blank
    let (inner, outer, lead) ← closeBlocks style width.column layout.inner layout.outer l.lead
    if width.column = inner.width.column then
      if width.narrow = inner.width.narrow then
        return ({ layout with inner, outer }).push style lead l
      else none
    else if outer.length = layout.outer.length ∧ inner.width.column < width.column ∧
        inner.width.narrow < width.narrow ∧ outer.length < Layout.maxDepth ∧ inner.rows ≠ [] then
      let relative ← stripFront? inner.indent.toList blank.toList
      let block : OpenBlock := { indent := blank, relative := String.ofList relative, width }
      return ({ layout with inner := block, outer := inner :: outer }).push style lead l
    else none

/-- The rows of a text and the lines after them. -/
structure Outline where
  rows : List Row
  footer : List Line
  deriving Repr, Inhabited

/-- Ends all blocks at the end of the text. -/
def closeAll (style : Style) : OpenBlock → List OpenBlock → List Line → Option Outline
  | inner, [], lead => some ⟨inner.rows.reverse, lead.map (Line.settle style "")⟩
  | inner, outer :: blocks, lead => do
    let (footer, lead) := splitFooter inner.indent lead
    let outer ← outer.attach inner (footer.map (Line.settle style inner.indent))
    closeAll style outer blocks lead

/-- The rows of a text; `none` if its tokens or its indentation are malformed. -/
def outline (style : Style) (cs : List Char) : Option Outline := do
  let (lines, last) ← scan cs
  let layout ← lines.foldlM (Layout.step style) ({} : Layout)
  closeAll style layout.inner layout.outer last

/-- The indentation of the first block in a list of rows. -/
def firstIndent? : List Row → Option String
  | [] => none
  | .plain _ :: rows => firstIndent? rows
  | .opening _ indent _ _ :: _ => some indent

end Conformance.Source
