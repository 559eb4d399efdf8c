import Conformance.Source.Generated

/-!
# Places do not matter

A token that was read from a text knows its place there, and no function on trees looks at it but those that say where
something is.  `unplaced` takes the places away, and everything else commutes with it or does not see it: `t.unplaced`
has the same text, the same names and the same arguments, and what is built from it is what is built from `t`, without
places.
-/

namespace Conformance.Source

/-- The token without its place. -/
def Token.unplaced (t : Token) : Token := { t with place := none }

namespace SyntaxTree

mutual

/-- The tree without places. -/
def unplaced : SyntaxTree → SyntaxTree
  | leaf t => leaf t.unplaced
  | node k children => node k (unplacedAll children)

def unplacedAll : List SyntaxTree → List SyntaxTree
  | [] => []
  | t :: ts => t.unplaced :: unplacedAll ts

end

theorem unplacedAll_eq_map (ts : List SyntaxTree) : unplacedAll ts = ts.map unplaced := by
  induction ts with
  | nil => rfl
  | cons t ts ih => rw [unplacedAll, ih, List.map_cons]

@[simp] theorem unplaced_leaf (t : Token) : (leaf t).unplaced = leaf t.unplaced := rfl

@[simp] theorem unplaced_node (k : Kind) (ts : List SyntaxTree) : (node k ts).unplaced = node k (ts.map unplaced) := by
  rw [unplaced, unplacedAll_eq_map]

@[simp] theorem is_unplaced (k : Kind) (t : SyntaxTree) : t.unplaced.is k = t.is k := by
  cases t <;> rfl

@[simp] theorem isOperator_unplaced (s : String) (t : SyntaxTree) : t.unplaced.isOperator s = t.isOperator s := by
  cases t <;> rfl

@[simp] theorem children_unplaced (t : SyntaxTree) : t.unplaced.children = t.children.map unplaced := by
  cases t with
  | leaf t => rfl
  | node k ts => simp [children]

mutual

theorem leaves_unplaced : ∀ t : SyntaxTree, t.unplaced.leaves = t.leaves.map Token.unplaced
  | leaf _ => rfl
  | node _ children => leavesAll_unplaced children

theorem leavesAll_unplaced : ∀ ts : List SyntaxTree, leavesAll (unplacedAll ts) = (leavesAll ts).map Token.unplaced
  | [] => rfl
  | t :: ts => by
    rw [unplacedAll, leavesAll, leavesAll, List.map_append, leaves_unplaced t, leavesAll_unplaced ts]

end

mutual

theorem mapLast_unplaced {f : Token → Token} (hf : ∀ t, f t.unplaced = (f t).unplaced) :
    ∀ t : SyntaxTree, t.unplaced.mapLast f = (t.mapLast f).unplaced
  | leaf t => congrArg leaf (hf t)
  | node k children => congrArg (node k) (mapLastAll_unplaced hf children)

theorem mapLastAll_unplaced {f : Token → Token} (hf : ∀ t, f t.unplaced = (f t).unplaced) :
    ∀ ts : List SyntaxTree, mapLastAll f (unplacedAll ts) = unplacedAll (mapLastAll f ts)
  | [] => rfl
  | [t] => congrArg (fun u => [u]) (mapLast_unplaced hf t)
  | t :: u :: ts => congrArg (t.unplaced :: ·) (mapLastAll_unplaced hf (u :: ts))

end

@[simp] theorem bare_unplaced (t : SyntaxTree) : t.unplaced.bare = t.bare.unplaced := by
  unfold bare
  apply mapLast_unplaced
  exact fun _ => rfl

@[simp] theorem trailing_unplaced (blank : String) (t : SyntaxTree) :
    t.unplaced.trailing blank = (t.trailing blank).unplaced := by
  unfold trailing
  apply mapLast_unplaced
  exact fun _ => rfl

@[simp] theorem chunks_unplaced (style : Style) (indent : String) (t : SyntaxTree) :
    t.unplaced.chunks style indent = t.chunks style indent := by
  rw [chunks, leaves_unplaced, List.flatMap_map]
  rfl

@[simp] theorem code_unplaced (t : SyntaxTree) : t.unplaced.code = t.code := by
  rw [code, code, text, text, bare_unplaced, chunks_unplaced]

@[simp] theorem core_unplaced : ∀ t : SyntaxTree, t.unplaced.core = t.core.unplaced
  | leaf _ => rfl
  | node k ts => by
    cases k with
    | paren =>
      match ts with
      | [_, inner, _] => exact core_unplaced inner
      | [] => rfl
      | [_] => rfl
      | [_, _] => rfl
      | _ :: _ :: _ :: _ :: _ => rfl
    | _ => rfl

theorem name?_unplaced (t : SyntaxTree) : t.unplaced.name? = t.name?.map Token.unplaced := by
  unfold name?
  rw [core_unplaced]
  cases t.core with
  | leaf tok =>
    by_cases h : tok.kind = .name
    · simp [Token.unplaced, h]
    · simp [Token.unplaced, h]
  | node k ts => simp

@[simp] theorem items_unplaced (t : SyntaxTree) : t.unplaced.items = t.items.map unplaced := by
  simp [items, List.filter_map, Function.comp_def]

@[simp] theorem segments?_unplaced : ∀ t : SyntaxTree, t.unplaced.segments? = t.segments?
  | leaf _ => rfl
  | node k ts => by
    cases k with
    | paren =>
      match ts with
      | [_, inner, _] => exact segments?_unplaced inner
      | [] => rfl
      | [_] => rfl
      | [_, _] => rfl
      | _ :: _ :: _ :: _ :: _ => rfl
    | member =>
      match ts with
      | [value, _, leaf t] => exact congrArg (Option.map (· ++ [t.text])) (segments?_unplaced value)
      | [_, _, node _ _] => rfl
      | [] => rfl
      | [_] => rfl
      | [_, _] => rfl
      | _ :: _ :: leaf _ :: _ :: _ => rfl
      | _ :: _ :: node _ _ :: _ :: _ => rfl
    | _ => rfl

/-- Parentheses do not matter for the segments of a name. -/
theorem segments?_core : ∀ t : SyntaxTree, t.core.segments? = t.segments?
  | leaf _ => rfl
  | node k ts => by
    cases k with
    | paren =>
      match ts with
      | [_, inner, _] => exact segments?_core inner
      | [] => rfl
      | [_] => rfl
      | [_, _] => rfl
      | _ :: _ :: _ :: _ :: _ => rfl
    | _ => rfl

/-- What passes from a node to its children passes to the expression inside parentheses. -/
theorem holds_core {P : SyntaxTree → Prop} (hP : ∀ k ts c, P (node k ts) → c ∈ ts → P c) :
    ∀ t : SyntaxTree, P t → P t.core
  | leaf _, h => h
  | node k ts, h => by
    cases k with
    | paren =>
      match ts with
      | [_, inner, _] => exact holds_core hP inner (hP _ _ inner h (by simp))
      | [] => exact h
      | [_] => exact h
      | [_, _] => exact h
      | _ :: _ :: _ :: _ :: _ => exact h
    | _ => exact h

@[simp] theorem lastSegment?_unplaced : ∀ t : SyntaxTree, t.unplaced.lastSegment? = t.lastSegment?
  | leaf _ => rfl
  | node k ts => by
    cases k with
    | paren =>
      match ts with
      | [_, inner, _] => exact lastSegment?_unplaced inner
      | [] => rfl
      | [_] => rfl
      | [_, _] => rfl
      | _ :: _ :: _ :: _ :: _ => rfl
    | member =>
      match ts with
      | [_, _, leaf _] => rfl
      | [_, _, node _ _] => rfl
      | [] => rfl
      | [_] => rfl
      | [_, _] => rfl
      | _ :: _ :: leaf _ :: _ :: _ => rfl
      | _ :: _ :: node _ _ :: _ :: _ => rfl
    | subscript =>
      match ts with
      | [] => rfl
      | value :: _ => exact lastSegment?_unplaced value
    | call =>
      match ts with
      | [] => rfl
      | callee :: _ => exact lastSegment?_unplaced callee
    | _ => rfl

@[simp] theorem dotted?_unplaced (t : SyntaxTree) : t.unplaced.dotted? = t.dotted? := by
  rw [dotted?, segments?_unplaced, dotted?]

mutual

theorem names_unplaced : ∀ t : SyntaxTree, t.unplaced.names = t.names
  | leaf _ => rfl
  | node k ts => by
    cases k
    case conversion => rfl
    all_goals exact namesAll_unplaced ts

theorem namesAll_unplaced : ∀ ts : List SyntaxTree, namesAll (unplacedAll ts) = namesAll ts
  | [] => rfl
  | t :: ts => by rw [unplacedAll, namesAll, namesAll, names_unplaced t, namesAll_unplaced ts]

end

end SyntaxTree

/-! ## Calls -/

/-- The argument without places. -/
def Argument.unplaced : Argument → Argument
  | positional value => positional value.unplaced
  | keyword name value => keyword name.unplaced value.unplaced
  | starred value => starred value.unplaced
  | doubleStarred value => doubleStarred value.unplaced

namespace SyntaxTree

theorem argument?_unplaced (t : SyntaxTree) : t.unplaced.argument? = t.argument?.map Argument.unplaced := by
  cases t with
  | leaf t => rfl
  | node k ts =>
    rw [unplaced_node]
    cases k with
    | arg => cases ts <;> rfl
    | keywordArg =>
      match ts with
      | [] => rfl
      | [.leaf _] => rfl
      | [.node _ _] => rfl
      | [.leaf _, _] => rfl
      | [.node _ _, _] => rfl
      | .leaf _ :: _ :: _ :: _ => rfl
      | .node _ _ :: _ :: _ :: _ => rfl
    | starArg =>
      match ts with
      | [] => rfl
      | [_] => rfl
      | _ :: _ :: _ => rfl
    | doubleStarArg =>
      match ts with
      | [] => rfl
      | [_] => rfl
      | _ :: _ :: _ => rfl
    | _ => rfl

@[simp] theorem isCall_unplaced (t : SyntaxTree) : t.unplaced.isCall = t.isCall := by
  rw [isCall, core_unplaced, is_unplaced, isCall]

@[simp] theorem callee_unplaced (t : SyntaxTree) : t.unplaced.callee = t.callee.unplaced := by
  unfold callee
  rw [core_unplaced]
  cases t.core with
  | leaf _ => rfl
  | node k ts =>
    rw [unplaced_node]
    cases k with
    | call => cases ts <;> rfl
    | _ => rfl

@[simp] theorem arguments_unplaced (t : SyntaxTree) : t.unplaced.arguments = t.arguments.map unplaced := by
  unfold arguments
  rw [core_unplaced]
  cases t.core with
  | leaf _ => rfl
  | node k ts =>
    rw [unplaced_node]
    cases k with
    | call =>
      cases ts with
      | nil => rfl
      | cons f rest => simp [List.filter_map, Function.comp_def, argument?_unplaced]
    | _ => rfl

/-! ## Generated trees -/

@[simp] theorem dot_unplaced (value : SyntaxTree) (name : String) :
    value.unplaced.dot name = (value.dot name).unplaced := by
  rw [dot, bare_unplaced, dot, unplaced_node]
  rfl

theorem ofArguments_unplaced : ∀ args : List SyntaxTree,
    ofArguments (args.map unplaced) = (ofArguments args).map unplaced
  | [] => rfl
  | [e] => by simp [ofArguments]
  | e :: f :: es => by
    have ih := ofArguments_unplaced (f :: es)
    rw [List.map_cons] at ih
    simp only [List.map_cons, ofArguments, ih, bare_unplaced, unplaced_node, List.map_nil]
    rfl

@[simp] theorem apply_unplaced (f : SyntaxTree) (args : List SyntaxTree) :
    f.unplaced.apply (args.map unplaced) = (f.apply args).unplaced := by
  rw [apply, apply, unplaced_node, ofArguments_unplaced, bare_unplaced, List.map_append, List.map_append]
  rfl

@[simp] theorem guarded_unplaced (e : SyntaxTree) : e.unplaced.guarded = e.guarded.unplaced := by
  cases e with
  | leaf t =>
    by_cases h : (t.kind == .name) = true
    · simp [guarded, Token.unplaced, h]
    · simp only [guarded, Token.unplaced, h, unplaced_leaf]
      rfl
  | node k ts =>
    rw [unplaced_node, guarded, guarded]
    have hhead : (ts.map unplaced).head?.any (isOperator "(") = ts.head?.any (isOperator "(") := by
      cases ts <;> simp
    rw [hhead]
    split
    · rw [unplaced_node]
    · rw [← unplaced_node, bare_unplaced, unplaced_node]
      rfl

end SyntaxTree

/-! ## Definitions -/

theorem childOf?_unplaced (k : Kind) (ts : List SyntaxTree) :
    childOf? k (ts.map SyntaxTree.unplaced) = (childOf? k ts).map SyntaxTree.unplaced := by
  rw [childOf?, childOf?, List.find?_map]
  exact congrArg (fun p => (ts.find? p).map SyntaxTree.unplaced) (funext (SyntaxTree.is_unplaced k))

theorem SyntaxTree.smallStatements_unplaced (line : SyntaxTree) :
    line.unplaced.smallStatements = line.smallStatements.map unplaced := by
  simp [smallStatements, List.filter_map, Function.comp_def]

/-- The head of a class without places. -/
def ClassHead.unplaced (h : ClassHead) : ClassHead :=
  { word := h.word.unplaced, name := h.name.unplaced, rest := h.rest.map SyntaxTree.unplaced }

/-- The head of a function without places. -/
def FunctionHead.unplaced (h : FunctionHead) : FunctionHead :=
  { async := h.async.map Token.unplaced, word := h.word.unplaced, name := h.name.unplaced,
    rest := h.rest.map SyntaxTree.unplaced }

theorem ClassHead.bases_unplaced (h : ClassHead) : h.unplaced.bases = h.bases.map Argument.unplaced := by
  unfold bases unplaced
  rw [childOf?_unplaced]
  cases childOf? .bases h.rest with
  | none => rfl
  | some list =>
    simp only [Option.map_some, SyntaxTree.children_unplaced, List.filterMap_map, List.map_filterMap]
    exact congrArg (List.filterMap · list.children) (funext SyntaxTree.argument?_unplaced)

theorem ClassHead.typeParameters_unplaced (h : ClassHead) : h.unplaced.typeParameters = h.typeParameters := by
  have hname : ∀ p : SyntaxTree, ((p.children.map SyntaxTree.unplaced).findSome? fun c => c.name?).map Token.text =
      (p.children.findSome? fun c => c.name?).map Token.text := by
    intro p
    induction p.children with
    | nil => rfl
    | cons c cs ih =>
      rw [List.map_cons, List.findSome?_cons, List.findSome?_cons, SyntaxTree.name?_unplaced]
      cases c.name? with
      | none => exact ih
      | some t => rfl
  unfold typeParameters unplaced
  rw [childOf?_unplaced]
  cases childOf? .typeParameters h.rest with
  | none => rfl
  | some list =>
    simp only [Option.map_some, SyntaxTree.children_unplaced, List.filter_map, List.filterMap_map, Function.comp_def,
      SyntaxTree.is_unplaced]
    exact congrArg (List.filterMap · _) (funext hname)

theorem FunctionHead.parameters_unplaced (h : FunctionHead) :
    h.unplaced.parameters = h.parameters.map SyntaxTree.unplaced := by
  unfold parameters unplaced
  rw [childOf?_unplaced]
  cases childOf? .parameters h.rest with
  | none => rfl
  | some list => exact list.children_unplaced

theorem FunctionHead.returns?_unplaced (h : FunctionHead) :
    h.unplaced.returns? = h.returns?.map SyntaxTree.unplaced := by
  unfold returns? unplaced
  rw [childOf?_unplaced]
  cases childOf? .returns h.rest with
  | none => rfl
  | some t =>
    cases t with
    | leaf t => rfl
    | node k ts =>
      match ts with
      | [] => rfl
      | [_] => rfl
      | [_, _] => rfl
      | _ :: _ :: _ :: _ => rfl

/-- The decorator without places. -/
def Decorator.unplaced (d : Decorator) : Decorator :=
  { d with sign := d.sign.unplaced, expression := d.expression.unplaced }

/-- What stands before a head, without places. -/
def Prelude.unplaced (p : Prelude) : Prelude :=
  { p with decorators := p.decorators.map Decorator.unplaced }

mutual

/-- The statement without places. -/
def Statement.unplaced : Statement → Statement
  | .simple lead body stop => .simple lead body.unplaced stop
  | .clause lead head body => .clause lead head.unplaced body.unplaced
  | .ofClass prelude head body => .ofClass prelude.unplaced head.unplaced body.unplaced
  | .ofFunction prelude head body => .ofFunction prelude.unplaced head.unplaced body.unplaced

/-- The suite without places. -/
def Suite.unplaced : Suite → Suite
  | .inline body stop => .inline body.unplaced stop
  | .block opening indent body footer => .block opening indent (statementsUnplaced body) footer

def statementsUnplaced : List Statement → List Statement
  | [] => []
  | s :: ss => s.unplaced :: statementsUnplaced ss

end

theorem statementsUnplaced_eq_map (ss : List Statement) : statementsUnplaced ss = ss.map Statement.unplaced := by
  induction ss with
  | nil => rfl
  | cons s ss ih => rw [statementsUnplaced, ih, List.map_cons]

/-- The module without places. -/
def Module.unplaced (m : Module) : Module := { m with body := m.body.map Statement.unplaced }

/-! ## Text -/

@[simp] theorem treesChunks_unplaced (style : Style) (indent : String) (ts : List SyntaxTree) :
    treesChunks style indent (ts.map SyntaxTree.unplaced) = treesChunks style indent ts := by
  rw [treesChunks, List.flatMap_map]
  exact congrArg (List.flatMap · ts) (funext (SyntaxTree.chunks_unplaced style indent))

@[simp] theorem Prelude.chunks_unplaced (style : Style) (indent : String) (p : Prelude) :
    p.unplaced.chunks style indent = p.chunks style indent := by
  have hdecorator : ∀ d : Decorator, d.unplaced.chunks style indent = d.chunks style indent := by
    intro d
    simp only [Decorator.chunks, Decorator.unplaced, SyntaxTree.chunks_unplaced]
    rfl
  simp only [chunks, unplaced, List.flatMap_map, hdecorator]

@[simp] theorem ClassHead.chunks_unplaced (style : Style) (indent : String) (h : ClassHead) :
    h.unplaced.chunks style indent = h.chunks style indent := by
  simp only [chunks, unplaced, treesChunks_unplaced]
  rfl

@[simp] theorem FunctionHead.chunks_unplaced (style : Style) (indent : String) (h : FunctionHead) :
    h.unplaced.chunks style indent = h.chunks style indent := by
  simp only [chunks, unplaced, treesChunks_unplaced]
  cases h.async <;> rfl

mutual

theorem Statement.chunks_unplaced (style : Style) (indent : String) : ∀ s : Statement,
    s.unplaced.chunks style indent = s.chunks style indent
  | .simple lead body stop => by simp only [Statement.unplaced, Statement.chunks, SyntaxTree.chunks_unplaced]
  | .clause lead head body => by
    simp only [Statement.unplaced, Statement.chunks, SyntaxTree.chunks_unplaced,
      Suite.chunks_unplaced style indent body]
  | .ofClass prelude head body => by
    simp only [Statement.unplaced, Statement.chunks, Prelude.chunks_unplaced, ClassHead.chunks_unplaced,
      Suite.chunks_unplaced style indent body]
  | .ofFunction prelude head body => by
    simp only [Statement.unplaced, Statement.chunks, Prelude.chunks_unplaced, FunctionHead.chunks_unplaced,
      Suite.chunks_unplaced style indent body]

theorem Suite.chunks_unplaced (style : Style) (indent : String) : ∀ b : Suite,
    b.unplaced.chunks style indent = b.chunks style indent
  | .inline body stop => by simp only [Suite.unplaced, Suite.chunks, SyntaxTree.chunks_unplaced]
  | .block opening own body footer => by
    simp only [Suite.unplaced, Suite.chunks, statementsChunks_unplaced style _ body]

theorem statementsChunks_unplaced (style : Style) (indent : String) : ∀ ss : List Statement,
    statementsChunks style indent (statementsUnplaced ss) = statementsChunks style indent ss
  | [] => rfl
  | s :: ss => by
    rw [statementsUnplaced, statementsChunks, statementsChunks, Statement.chunks_unplaced style indent s,
      statementsChunks_unplaced style indent ss]

end

/-- The text of a module does not depend on where its tokens were read. -/
theorem Module.render_unplaced (m : Module) : m.unplaced.render = m.render := by
  simp only [render, unplaced, ← statementsUnplaced_eq_map, statementsChunks_unplaced]

/-! ## Generated statements -/

namespace Statement

@[simp] theorem ofExpression_unplaced (e : SyntaxTree) : ofExpression e.unplaced = (ofExpression e).unplaced := by
  simp [ofExpression, line, unplaced]

@[simp] theorem withLead_unplaced (lead : List Line) (s : Statement) :
    s.unplaced.withLead lead = (s.withLead lead).unplaced := by
  cases s <;> rfl

/-- A generated function has no places but those of its body. -/
theorem function_unplaced (decorators : List String) (name : String) (parameters : List String)
    (body : List Statement) :
    function decorators name parameters (body.map unplaced) = (function decorators name parameters body).unplaced := by
  rw [← statementsUnplaced_eq_map]
  simp only [function, unplaced, Suite.unplaced, Prelude.unplaced, FunctionHead.unplaced, List.map_map,
    Function.comp_def, Decorator.unplaced, List.map_append, SyntaxTree.unplaced_node, List.map_cons, List.map_nil]
  rfl

end Statement

end Conformance.Source
