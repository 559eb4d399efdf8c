/-!
# Tokens and the white space they own

A token owns the white space that follows it, up to the next token of the same logical line.  Inside
brackets that white space may run over several physical lines and hold comments (`Trivia.breaks`).
Lines that hold no token are `Line`s of their own and belong to the statement after them or to the
foot of a block.

Two things are kept relative, so that a statement can be moved: a line break that is the usual one of
its text is `Newline.usual`, and the part of a line that repeats the indentation of the enclosing block
is `margin`.  Rendering fills them in from a `Style` and the current indentation.
-/

namespace Conformance.Source

/-- The two habits of a text that generated lines follow. -/
structure Style where
  /-- What one level of indentation is written as. -/
  indent : String := "    "
  /-- What ends a line. -/
  newline : String := "\n"
  deriving DecidableEq, Repr, Inhabited

/-- A line break: the usual one of the text, or one written out. -/
inductive Newline where
  | usual
  | own (text : String)
  deriving DecidableEq, Repr, Inhabited

/-- The characters of a line break. -/
def Newline.text (style : Style) : Newline → String
  | usual => style.newline
  | own s => s

/-- Makes a line break relative to a style.  The break that is missing at the end of a text counts as
the usual one. -/
def Newline.settle (style : Style) : Newline → Newline
  | usual => usual
  | own s => if s = "" ∨ s = style.newline then usual else own s

/-- The end of a logical line: an optional comment (empty if there is none) and the line break. -/
structure LineEnd where
  comment : String := ""
  newline : Newline := .usual
  deriving DecidableEq, Repr, Inhabited

/-- A line without tokens. -/
structure Line where
  /-- Whether the line starts with the indentation of its block. -/
  margin : Bool := true
  /-- The blanks after the margin. -/
  blank : String := ""
  /-- The comment with its sharp sign, empty if there is none. -/
  comment : String := ""
  newline : Newline := .usual
  deriving DecidableEq, Repr, Inhabited

/-- The empty line that separates generated definitions. -/
def Line.empty : Line := { margin := false }

/-- One line break inside white space, with the comment before it and the blanks after it. -/
structure Break where
  comment : String := ""
  newline : Newline := .usual
  margin : Bool := false
  blank : String := ""
  deriving DecidableEq, Repr, Inhabited

/-- The white space after a token. -/
structure Trivia where
  blank : String := ""
  breaks : List Break := []
  deriving DecidableEq, Repr, Inhabited

/-- A place in a text, counted in code points from line 1 and column 1. -/
structure Position where
  line : Nat
  column : Nat
  deriving DecidableEq, Repr, Inhabited

/-- A stretch of text: from its first character to just past its last one. -/
structure Extent where
  start : Position
  stop : Position
  deriving DecidableEq, Repr, Inhabited

/-- What a token is.  Keywords are names; the grammar tells them apart by their text. -/
inductive TokenKind where
  | name
  | number
  | string
  /-- The opening of a string with replacement fields: its letters and quotes. -/
  | templateStart
  /-- A run of literal text inside such a string. -/
  | templateText
  /-- The closing quotes of such a string. -/
  | templateEnd
  | operator
  deriving DecidableEq, Repr, Inhabited

/-- A token, the white space after it and, if it was read from a text, where it starts there. -/
structure Token where
  kind : TokenKind
  text : String
  after : Trivia := {}
  place : Option Position := none
  deriving DecidableEq, Repr, Inhabited

/-! ## Rendering

Text is rendered as a list of chunks in which every line break is a chunk of its own, so that the last
line break of a text can be taken back.  Empty chunks are left out. -/

/-- One chunk, or none if the text is empty. -/
def chunk (s : String) : List String :=
  if s = "" then [] else [s]

def LineEnd.chunks (style : Style) (e : LineEnd) : List String :=
  chunk e.comment ++ [e.newline.text style]

def Line.chunks (style : Style) (indent : String) (l : Line) : List String :=
  (if l.margin then chunk indent else []) ++ chunk l.blank ++ chunk l.comment ++ [l.newline.text style]

def Break.chunks (style : Style) (indent : String) (b : Break) : List String :=
  chunk b.comment ++ [b.newline.text style] ++ (if b.margin then chunk indent else []) ++ chunk b.blank

def Trivia.chunks (style : Style) (indent : String) (t : Trivia) : List String :=
  chunk t.blank ++ t.breaks.flatMap (Break.chunks style indent)

def Token.chunks (style : Style) (indent : String) (t : Token) : List String :=
  chunk t.text ++ t.after.chunks style indent

/-! ## Settling -/

/-- The rest of the characters after an expected beginning. -/
def stripFront? : List Char → List Char → Option (List Char)
  | [], cs => some cs
  | _ :: _, [] => none
  | p :: ps, c :: cs => if p = c then stripFront? ps cs else none

/-- Splits off the indentation a blank starts with. -/
def splitMargin (indent blank : String) : Bool × String :=
  match stripFront? indent.toList blank.toList with
  | some rest => (true, String.ofList rest)
  | none => (false, blank)

/-- Makes a line that was read with all its blanks relative to its block. -/
def Line.settle (style : Style) (indent : String) (l : Line) : Line :=
  let (margin, blank) := splitMargin indent l.blank
  { l with margin, blank, newline := l.newline.settle style }

/-- Makes a line break that was read with all its blanks relative to its block. -/
def Break.settle (style : Style) (indent : String) (b : Break) : Break :=
  let (margin, blank) := splitMargin indent b.blank
  { b with margin, blank, newline := b.newline.settle style }

def Trivia.settle (style : Style) (indent : String) (t : Trivia) : Trivia :=
  { t with breaks := t.breaks.map (Break.settle style indent) }

def Token.settle (style : Style) (indent : String) (t : Token) : Token :=
  { t with after := t.after.settle style indent }

def LineEnd.settle (style : Style) (e : LineEnd) : LineEnd :=
  { e with newline := e.newline.settle style }

/-! ## Places -/

/-- The position after some characters. -/
def Position.after : Position → List Char → Position
  | p, [] => p
  | p, '\r' :: '\n' :: cs => after ⟨p.line + 1, 1⟩ cs
  | p, c :: cs => if c = '\n' ∨ c = '\r' then after ⟨p.line + 1, 1⟩ cs else after ⟨p.line, p.column + 1⟩ cs

/-- The position after a text. -/
def Position.past (p : Position) (s : String) : Position :=
  p.after s.toList

/-- The stretch of text a token covers, without the white space after it. -/
def Token.extent? (t : Token) : Option Extent :=
  t.place.map fun p => ⟨p, p.past t.text⟩

/-- Gives each token the position it has when the first one starts at `p`. -/
def placeTokens (style : Style) (indent : String) : Position → List Token → List Token × Position
  | p, [] => ([], p)
  | p, t :: ts =>
    let next := p.past (String.join (t.chunks style indent))
    let (placed, last) := placeTokens style indent next ts
    ({ t with place := some p } :: placed, last)

end Conformance.Source
