import Conformance.Source.Lexeme

/-!
# Logical lines

A logical line is a run of tokens that a line break outside brackets ends.  The lines without tokens
before it are its lead.  `scan` cuts a text into its logical lines and the lines that follow the last
of them.
-/

namespace Conformance.Source

open Conformance.Text

/-- A logical line. -/
structure LogicalLine where
  /-- The lines without tokens before it. -/
  lead : List Line := []
  /-- The blanks it starts with; `none` if a backslash stands among them, and then the line takes the
  indentation of the lines around it. -/
  margin : Option String
  tokens : List Token
  stop : LineEnd
  deriving DecidableEq, Repr, Inhabited

/-- The tokens up to the end of the logical line, and the characters from there on.  What is open at the
start is given; nothing may be open at the end. -/
def scanTokens : Nat → List Frame → List Char → Option (List Token × List Char)
  | 0, _, _ => none
  | n + 1, stack, cs =>
    if stack.isEmpty && (cs.isEmpty || cs.head?.any fun c => isNewline c || c == '#') then some ([], cs)
    else do
      let lex ← lexeme stack cs
      let (after, rest) ← trivia lex.stack lex.rest
      let (more, rest) ← scanTokens n lex.stack rest
      return ({ kind := lex.kind, text := String.ofList lex.text, after } :: more, rest)

/-- The comment and the line break that end a line.  The end of the text counts as a line break without
characters. -/
def lineEnd? (cs : List Char) : Option (LineEnd × List Char) :=
  let (note, rest) := comment cs
  let finish (nl : List Char) : LineEnd := { comment := String.ofList note, newline := .own (String.ofList nl) }
  match lineBreak? rest with
  | some (nl, rest) => some (finish nl, rest)
  | none => if rest.isEmpty then some (finish [], []) else none

/-- The logical lines of a text and the lines after the last of them.  `lead` are the lines read since the
last logical line, the latest first. -/
def scanLines : Nat → (lead : List Line) → List Char → Option (List LogicalLine × List Line)
  | 0, _, _ => none
  | n + 1, lead, cs =>
    if cs.isEmpty then some ([], lead.reverse)
    else do
      let (blank, rest) ← blanks cs
      match lineEnd? rest with
      | some (stop, rest) =>
        let line : Line := { blank := String.ofList blank, comment := stop.comment, newline := stop.newline }
        scanLines n (line :: lead) rest
      | none =>
        let (tokens, rest) ← scanTokens (rest.length + 1) [] rest
        let (stop, rest) ← lineEnd? rest
        let (more, last) ← scanLines n [] rest
        let margin := if blank.contains '\\' then none else some (String.ofList blank)
        return ({ lead := lead.reverse, margin, tokens, stop } :: more, last)

/-- The logical lines of a text and the lines after the last of them; `none` if the text is malformed. -/
def scan (cs : List Char) : Option (List LogicalLine × List Line) :=
  scanLines (cs.length + 1) [] cs

end Conformance.Source
