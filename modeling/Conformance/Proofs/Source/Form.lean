import Conformance.Source.Parse

/-!
# The form of statements

A text that is put together from statements can be read back only if each of its lines can, and if the statements of
a block may follow each other.  A `Form` says what is asked of the parts: of the trees of a logical line, of the lines
without tokens, of line ends and of indentations.  `Statement.Meets` asks it of every part of a statement.
-/

namespace Conformance.Source

/-- What is asked of the parts of a statement. -/
structure Form where
  /-- Of the trees of a logical line.  The lines directly under `match` are cases. -/
  line : (cases : Bool) → List SyntaxTree → Prop
  /-- Of a line without tokens. -/
  empty : Line → Prop
  /-- Of the end of a logical line. -/
  stop : LineEnd → Prop
  /-- Of the indentation of a block. -/
  indent : Option String → Prop

/-! ## Heads -/

/-- The tree of a decorator. -/
def Decorator.tree (d : Decorator) : SyntaxTree := .node .decorator [.leaf d.sign, d.expression]

/-- The tree of the head of a class. -/
def ClassHead.tree (h : ClassHead) : SyntaxTree := .node .classHead (.leaf h.word :: .leaf h.name :: h.rest)

/-- The tree of the head of a function. -/
def FunctionHead.tree (h : FunctionHead) : SyntaxTree :=
  .node .functionHead (h.async.toList.map .leaf ++ .leaf h.word :: .leaf h.name :: h.rest)

/-- Whether nothing in the head of a function could be taken for `async`. -/
def FunctionHead.definite (h : FunctionHead) : Bool :=
  match h.async, h.rest with
  | none, .leaf _ :: _ => false
  | _, _ => true

/-- Whether a head is that of a clause, and of no definition. -/
def SyntaxTree.isClause : SyntaxTree → Bool
  | .node .classHead (.leaf _ :: .leaf _ :: _) => false
  | .node .functionHead (.leaf _ :: .leaf _ :: _) => false
  | .node .decorator _ => false
  | .node .simple _ => false
  | .node _ _ => true
  | .leaf _ => false

/-- What the row of a statement is. -/
def Statement.kind : Statement → Kind
  | .simple .. => .simple
  | .clause _ (.node k _) _ => k
  | .clause _ (.leaf _) _ => .simple
  | .ofClass .. => .classHead
  | .ofFunction .. => .functionHead

/-! ## Sequences -/

/-- Whether statements may stand one after the other, where a compound statement may have to be continued. -/
def follows : Awaiting → List Statement → Bool
  | a, [] => a != .handler
  | a, s :: ss => (a.next s.kind).any fun next => follows next ss

theorem follows_cons {a : Awaiting} {s : Statement} {ss : List Statement} :
    follows a (s :: ss) = true ↔ ∃ next, a.next s.kind = some next ∧ follows next ss = true := by
  rw [follows]
  cases a.next s.kind <;> simp

theorem Awaiting.next_of_nothing {a next : Awaiting} {k : Kind} (ha : a ≠ .handler) (h : Awaiting.nothing.next k = some next) :
    a.next k = some next := by
  rw [← h]
  cases a <;> first | exact absurd rfl ha | cases k <;> first | rfl | cases h

/-- Where nothing has to be continued, what may start there may follow anything. -/
theorem follows_of_nothing {a : Awaiting} (ha : a ≠ .handler) {ss : List Statement} (h : follows .nothing ss = true) :
    follows a ss = true := by
  cases ss with
  | nil => simpa [follows] using ha
  | cons s ss =>
    obtain ⟨next, hnext, hmore⟩ := follows_cons.mp h
    exact follows_cons.mpr ⟨next, Awaiting.next_of_nothing ha hnext, hmore⟩

/-! ## Statements -/

variable (f : Form)

/-- What stands before the head of a definition has the form. -/
structure Prelude.Meets (p : Prelude) : Prop where
  lead : ∀ l ∈ p.lead, f.empty l
  decorators : ∀ d ∈ p.decorators, (∀ l ∈ d.lead, f.empty l) ∧ f.line false [d.tree] ∧ f.stop d.stop
  gap : ∀ l ∈ p.gap, f.empty l

mutual

/-- A statement of which all parts have the form. -/
def Statement.Meets (cases : Bool) : Statement → Prop
  | .simple lead body stop => (∀ l ∈ lead, f.empty l) ∧ body.is .simple = true ∧ f.line cases [body] ∧ f.stop stop
  | .clause lead head body => (∀ l ∈ lead, f.empty l) ∧ head.isClause = true ∧ body.Meets cases head
  | .ofClass prelude head body => cases = false ∧ prelude.Meets f ∧ body.Meets cases head.tree
  | .ofFunction prelude head body =>
    cases = false ∧ prelude.Meets f ∧ head.definite = true ∧ body.Meets cases head.tree

/-- A suite under a head of which all parts have the form. -/
def Suite.Meets (cases : Bool) (head : SyntaxTree) : Suite → Prop
  | .inline body stop => f.line cases [head, body] ∧ f.stop stop
  | .block opening indent body footer =>
    f.line cases [head] ∧ f.stop opening ∧ f.indent indent ∧ body ≠ [] ∧
      statementsMeet (head.is .matchHead) body ∧ follows .nothing body = true ∧ ∀ l ∈ footer, f.empty l

/-- Statements of which all parts have the form. -/
def statementsMeet (cases : Bool) : List Statement → Prop
  | [] => True
  | s :: ss => s.Meets cases ∧ statementsMeet cases ss

end

theorem statementsMeet_iff {cases : Bool} {ss : List Statement} :
    statementsMeet f cases ss ↔ ∀ s ∈ ss, s.Meets f cases := by
  induction ss with
  | nil => simp [statementsMeet]
  | cons s ss ih => simp [statementsMeet, ih]

end Conformance.Source
