import Conformance.Source.Layout
import Conformance.Source.Grammar.Line
import Conformance.Source.Statement

/-!
# From text to statements

A text is cut into rows by its layout, each row is read by the grammar, and the rows of a block are put
together: decorators go with the definition after them, and clauses that continue a compound statement must
follow one that they can continue.
-/

namespace Conformance.Source

open Grammar

/-- What a row is by itself. -/
inductive Item where
  | decorator (d : Decorator)
  | statement (kind : Kind) (s : Statement)

/-- A head with its suite. -/
def Item.compound (lead : List Line) (head : SyntaxTree) (body : Suite) : Option Item :=
  match head with
  | .node .classHead (.leaf word :: .leaf name :: rest) =>
    some (.statement .classHead (.ofClass { lead } { word, name, rest } body))
  | .node .functionHead (.leaf async :: .leaf word :: .leaf name :: rest) =>
    some (.statement .functionHead (.ofFunction { lead } { async := some async, word, name, rest } body))
  | .node .functionHead (.leaf word :: .leaf name :: rest) =>
    some (.statement .functionHead (.ofFunction { lead } { word, name, rest } body))
  | .node .decorator _ => none
  | .node .simple _ => none
  | .node k children => some (.statement k (.clause lead (.node k children) body))
  | .leaf _ => none

/-- The compound statement that the next clause could continue. -/
inductive Awaiting where
  | nothing
  /-- After `if` or `elif`. -/
  | branch
  /-- After the body of a loop. -/
  | loop
  /-- After the body of a `try`, which must go on. -/
  | handler
  /-- After a handler. -/
  | handlers
  /-- After a handler for groups. -/
  | groupHandlers
  /-- After the `else` of a `try`. -/
  | finish
  deriving DecidableEq, Repr

/-- Takes in a clause: what it may be continued by, or `none` if it cannot stand here. -/
def Awaiting.next (a : Awaiting) (k : Kind) : Option Awaiting :=
  match k, a with
  | .elifHead, branch => some branch
  | .elifHead, _ => none
  | .elseHead, branch => some nothing
  | .elseHead, loop => some nothing
  | .elseHead, handlers => some finish
  | .elseHead, groupHandlers => some finish
  | .elseHead, _ => none
  | .exceptHead, handler => some handlers
  | .exceptHead, handlers => some handlers
  | .exceptHead, _ => none
  | .exceptStarHead, handler => some groupHandlers
  | .exceptStarHead, groupHandlers => some groupHandlers
  | .exceptStarHead, _ => none
  | .finallyHead, handler => some nothing
  | .finallyHead, handlers => some nothing
  | .finallyHead, groupHandlers => some nothing
  | .finallyHead, finish => some nothing
  | .finallyHead, _ => none
  | _, handler => none
  | .ifHead, _ => some branch
  | .whileHead, _ => some loop
  | .forHead, _ => some loop
  | .tryHead, _ => some handler
  | _, _ => some nothing

/-- Puts decorators on a definition. -/
def Prelude.decorate (decorators : List Decorator) (p : Prelude) : Prelude :=
  match decorators with
  | [] => p
  | first :: more => { lead := first.lead, decorators := { first with lead := [] } :: more, gap := p.lead }

/-- Puts the rows of a block together.  `waiting` are the decorators since the last statement, the latest
first. -/
def assemble (a : Awaiting) (waiting : List Decorator) : List Item → Option (List Statement)
  | [] => if a = .handler ∨ !waiting.isEmpty then none else some []
  | .decorator d :: items => if a = .handler then none else assemble .nothing (d :: waiting) items
  | .statement k s :: items => do
    let next ← a.next k
    let more ← assemble next [] items
    match waiting, s with
    | [], _ => return s :: more
    | _, .ofClass prelude head body => return .ofClass (prelude.decorate waiting.reverse) head body :: more
    | _, .ofFunction prelude head body =>
      return .ofFunction (prelude.decorate waiting.reverse) head body :: more
    | _, _ => none

mutual

/-- Reads one row.  The rows of a `match` are its cases. -/
def readRow (style : Style) (cases : Bool) : Row → Option Item
  | .plain line => do
    match ← readLine? (if cases then .caseLine else .line) line.tokens with
    | [.node .decorator [.leaf sign, expression]] =>
      return .decorator { lead := line.lead, sign, expression, stop := line.stop }
    | [.node .simple children] =>
      return .statement .simple (.simple line.lead (.node .simple children) line.stop)
    | [head, body] => Item.compound line.lead head (.inline body line.stop)
    | _ => none
  | .opening line indent body footer => do
    match ← readLine? (if cases then .caseLine else .line) line.tokens with
    | [head] =>
      let items ← readRows style (head.is .matchHead) body
      let statements ← assemble .nothing [] items
      let own := if indent = style.indent then none else some indent
      Item.compound line.lead head (.block line.stop own statements footer)
    | _ => none

/-- Reads the rows of a block. -/
def readRows (style : Style) (cases : Bool) : List Row → Option (List Item)
  | [] => some []
  | row :: rows => do
    let item ← readRow style cases row
    let items ← readRows style cases rows
    return item :: items

end

/-- The style of a text: its first indentation and its first line break. -/
def newlineOf (cs : List Char) : String :=
  (Text.firstLineBreak? cs).getD "\n"

/-- Reads a whole text; `none` if it is not well formed.  A byte order mark in front is dropped. -/
def Module.parse? (source : String) : Option Module := do
  let cs := match source.toList with
    | '\uFEFF' :: cs => cs
    | cs => cs
  let newline := newlineOf cs
  let out ← outline { newline } cs
  let style : Style := { newline, indent := (firstIndent? out.rows).getD "    " }
  let items ← readRows style false out.rows
  let body ← assemble .nothing [] items
  return { style, body, footer := out.footer, ended := cs.getLast? == some '\n' }

/-- Whether a statement goes on with the compound statement before it. -/
def Statement.continues : Statement → Bool
  | .clause _ head _ =>
    head.is .elifHead || head.is .elseHead || head.is .exceptHead || head.is .exceptStarHead ||
      head.is .finallyHead
  | _ => false

/-- Reads a text that is one statement; of a compound one the first clause is given.  Lines after it are
dropped. -/
def parseStatement? (source : String) : Option Statement := do
  let cs := source.toList
  let newline := newlineOf cs
  let out ← outline { newline } cs
  let style : Style := { newline, indent := (firstIndent? out.rows).getD "    " }
  let items ← readRows style false out.rows
  match ← assemble .nothing [] items with
  | s :: clauses => if clauses.all Statement.continues then some s else none
  | [] => none

/-- Reads a text that is one expression. -/
def parseExpression? (source : String) : Option SyntaxTree := do
  let cs := source.toList
  let out ← outline { newline := newlineOf cs } cs
  match out.rows with
  | [.plain line] =>
    match ← readLine? .starExpressions line.tokens with
    | [tree] => some tree
    | _ => none
  | _ => none

end Conformance.Source
