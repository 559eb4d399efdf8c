import Conformance.Proofs.Text.Quoted
import Conformance.Interface.Runner

/-!
# Programs of generated code

White space plays no part in what a tree is read as, and generated trees are read as what they were generated for:

    Expr.ofTree t.bare = Expr.ofTree t                                          (ofTree_bare)
    Expr.ofTree (f.apply args) = .call (Expr.ofTree f) (args.map Expr.ofTree) []   (ofTree_apply)
    Expr.ofTree (.ofText s) = .constant (.text s)                               (ofTree_ofText)
-/

namespace Conformance

open Source

/-! ## White space -/

namespace Part

/-- The part without the white space after its token. -/
def bare : Part → Part
  | token t => token { t with after := {} }
  | p => p

@[simp] theorem bare_token (t : Token) : (token t).bare = token { t with after := {} } := rfl

@[simp] theorem bare_expression (e : Expr) : (expression e).bare = expression e := rfl

@[simp] theorem expr_expression (e : Expr) : (expression e).expr = e := rfl

@[simp] theorem expr_bare (p : Part) : p.bare.expr = p.expr := by
  cases p <;> rfl

@[simp] theorem isWord_bare (s : String) (p : Part) : p.bare.isWord s = p.isWord s := by
  cases p <;> rfl

theorem items_bare (ps : List Part) : items (ps.map bare) = items ps := by
  simp [items, List.filter_map, Function.comp_def]

theorem positionals_bare (ps : List Part) : positionals (ps.map bare) = positionals ps := by
  rw [positionals, List.filterMap_map]
  congr 1
  funext p
  cases p <;> rfl

theorem keywords_bare (ps : List Part) : keywords (ps.map bare) = keywords ps := by
  rw [keywords, List.filterMap_map]
  congr 1
  funext p
  cases p <;> rfl

theorem comparison?_bare (ps : List Part) : comparison? (ps.map bare) = comparison? ps := by
  unfold comparison?
  match ps with
  | [] => rfl
  | [v] => simp
  | [v, w] => simp
  | _ :: _ :: _ :: _ => rfl

theorem comparing_bare (ps : List Part) : comparing (ps.map bare) = comparing ps := by
  cases ps with
  | nil => rfl
  | cons left rest =>
    have hlast : (rest.map bare).getLast? = rest.getLast?.map bare := List.getLast?_map
    have hinit : (rest.map bare).dropLast = rest.dropLast.map bare := List.map_dropLast.symm
    rw [List.map_cons, comparing, comparing, hlast, hinit, comparison?_bare, expr_bare]
    cases rest.getLast? with
    | none => rfl
    | some right =>
      cases left.expr <;> cases comparison? rest.dropLast <;> simp

theorem all_bare {g : Part → Bool} (hg : ∀ p, g p.bare = g p) (ps : List Part) :
    (ps.map bare).all g = ps.all g := by
  simp [List.all_map, Function.comp_def, hg]

/-- White space in the parts of a node plays no part in what they form. -/
theorem build_bare (k : Kind) (ps : List Part) : build k (ps.map bare) = build k ps := by
  cases k with
  | arg =>
    cases ps with
    | nil => rfl
    | cons p ps => simp [build]
  | keywordArg =>
    match ps with
    | [] => rfl
    | [p] => cases p <;> rfl
    | [p, q] => cases p <;> rfl
    | p :: q :: r :: rest =>
      cases p with
      | token t => simp [build]
      | _ => rfl
  | paren =>
    match ps with
    | [] => rfl
    | [_] => rfl
    | [_, _] => rfl
    | [_, p, _] => simp [build]
    | _ :: _ :: _ :: _ :: _ => rfl
  | member =>
    match ps with
    | [] => rfl
    | [_] => rfl
    | [_, _] => rfl
    | [value, _, p] =>
      cases p with
      | token t => simp [build]
      | _ => rfl
    | _ :: _ :: p :: _ :: _ => cases p <;> rfl
  | call =>
    cases ps with
    | nil => rfl
    | cons callee rest =>
      simp only [List.map_cons, build, expr_bare, positionals_bare, keywords_bare]
      rw [all_bare fun p => by cases p <;> rfl]
  | index =>
    match ps with
    | [] => rfl
    | [p] => simp [build]
    | _ :: _ :: _ => rfl
  | subscript =>
    cases ps with
    | nil => rfl
    | cons value rest =>
      have hany : (rest.map bare).any (isWord ",") = rest.any (isWord ",") := by
        simp [List.any_map, Function.comp_def]
      simp only [List.map_cons, build, items_bare, hany, expr_bare]
  | tuple => simp only [build, items_bare]
  | list => simp only [build, items_bare]
  | dict => simp [build, List.filter_map, Function.comp_def]
  | unary =>
    match ps with
    | [] => rfl
    | [_] => rfl
    | [sign, p] => simp [build]
    | _ :: _ :: _ :: _ => rfl
  | comparison => simp only [build, comparing_bare]
  | strings =>
    match ps with
    | [] => rfl
    | [_] => rfl
    | [a, b] => simp [build]
    | _ :: _ :: _ :: _ => rfl
  | _ => rfl

theorem ofTrees_eq_map (ts : List SyntaxTree) : ofTrees ts = ts.map ofTree := by
  induction ts with
  | nil => rfl
  | cons t ts ih => rw [ofTrees, ih, List.map_cons]

end Part

/-- Whether a change of tokens changes at most the white space after them. -/
def KeepsWords (f : Token → Token) : Prop := ∀ t, { f t with after := {} } = { t with after := {} }

mutual

theorem Part.ofTree_mapLast {f : Token → Token} (hf : KeepsWords f) :
    ∀ t : SyntaxTree, (Part.ofTree (t.mapLast f)).bare = (Part.ofTree t).bare
  | .leaf t => congrArg Part.token (hf t)
  | .node k cs => by
    rw [SyntaxTree.mapLast, Part.ofTree, Part.ofTree, ← Part.build_bare, ← Part.build_bare k (Part.ofTrees cs),
      Part.ofTrees_mapLastAll hf cs]

theorem Part.ofTrees_mapLastAll {f : Token → Token} (hf : KeepsWords f) :
    ∀ ts : List SyntaxTree, (Part.ofTrees (SyntaxTree.mapLastAll f ts)).map Part.bare = (Part.ofTrees ts).map Part.bare
  | [] => rfl
  | [t] => by
    simp only [SyntaxTree.mapLastAll, Part.ofTrees, List.map_cons, List.map_nil, Part.ofTree_mapLast hf t]
  | t :: u :: ts => by
    rw [SyntaxTree.mapLastAll, Part.ofTrees, List.map_cons, Part.ofTrees_mapLastAll hf (u :: ts)]
    rfl

end

theorem ofTree_mapLast {f : Token → Token} (hf : KeepsWords f) (t : SyntaxTree) :
    Expr.ofTree (t.mapLast f) = Expr.ofTree t := by
  rw [Expr.ofTree, ← Part.expr_bare, Part.ofTree_mapLast hf, Part.expr_bare, Expr.ofTree]

@[simp] theorem ofTree_bare (t : SyntaxTree) : Expr.ofTree t.bare = Expr.ofTree t :=
  ofTree_mapLast (f := fun tok => { tok with after := {} }) (fun _ => rfl) t

@[simp] theorem ofTree_trailing (blank : String) (t : SyntaxTree) :
    Expr.ofTree (t.trailing blank) = Expr.ofTree t :=
  ofTree_mapLast (f := fun tok => { tok with after := { blank } }) (fun _ => rfl) t

/-! ## Expressions -/

@[simp] theorem ofTree_ofText (s : String) : Expr.ofTree (.ofText s) = .constant (.text s) := by
  show Expr.ofToken { kind := .string, text := Text.quoted s } = _
  simp only [Expr.ofToken, stringConstant?_quoted]

/-- Whether a name is read as a name and not as a constant. -/
def isPlainName (s : String) : Bool := ! (["None", "True", "False"].contains s)

theorem ofTree_ofName {s : String} (h : isPlainName s = true) : Expr.ofTree (.ofName s) = .name s := by
  obtain ⟨hnone, htrue, hfalse⟩ : s ≠ "None" ∧ s ≠ "True" ∧ s ≠ "False" := by simpa [isPlainName] using h
  show Expr.ofToken { kind := .name, text := s } = _
  simp [Expr.ofToken, hnone, htrue, hfalse]

@[simp] theorem ofTree_dot (value : SyntaxTree) (name : String) :
    Expr.ofTree (value.dot name) = .member (Expr.ofTree value) name := by
  show Expr.member (Expr.ofTree value.bare) name = _
  rw [ofTree_bare]

theorem ofTrees_ofArguments (args : List SyntaxTree) :
    Part.ofTrees (SyntaxTree.ofArguments args) = args.map fun e => .positional (Expr.ofTree e) := by
  match args with
  | [] => rfl
  | [e] =>
    show [Part.positional (Expr.ofTree e.bare)] = _
    rw [ofTree_bare, List.map_cons, List.map_nil]
  | e :: f :: es =>
    show Part.positional (Expr.ofTree e.bare) :: Part.ofTrees (SyntaxTree.ofArguments (f :: es)) = _
    rw [ofTree_bare, ofTrees_ofArguments (f :: es)]
    rfl

@[simp] theorem ofTree_apply (f : SyntaxTree) (args : List SyntaxTree) :
    Expr.ofTree (f.apply args) = .call (Expr.ofTree f) (args.map Expr.ofTree) [] := by
  have hparts : Part.ofTrees ([f.bare, .ofOperator "("] ++ SyntaxTree.ofArguments args ++ [.ofOperator ")"]) =
      Part.ofTree f.bare :: .token { kind := .operator, text := "(" } ::
        ((args.map fun e => .positional (Expr.ofTree e)) ++ [.token { kind := .operator, text := ")" }]) := by
    rw [← ofTrees_ofArguments]
    simp [Part.ofTrees_eq_map, SyntaxTree.ofOperator, Part.ofTree]
  have hcallee : (Part.ofTree f.bare).expr = Expr.ofTree f := ofTree_bare f
  rw [SyntaxTree.apply, Expr.ofTree, Part.ofTree, hparts]
  simp [Part.build, hcallee, Part.positionals, Part.keywords, List.filterMap_map, Function.comp_def]

/-! ## Statements -/

@[simp] theorem ofStatement_ofExpression (e : SyntaxTree) :
    Stmt.ofStatement (.ofExpression e) = [.eval (Expr.ofTree e)] := rfl

/-- The lines before a statement are not part of its program. -/
@[simp] theorem ofStatement_withLead (lead : List Line) (s : Statement) :
    Stmt.ofStatement (s.withLead lead) = Stmt.ofStatement s := by
  cases s <;> simp only [Statement.withLead, Stmt.ofStatement]

/-- A helper of the generated code. -/
def helperNamed (name : String) : Expr := .member (.name Naming.helpers) name

/-- A line that prints a text. -/
def prints (text : String) : Stmt := .eval (.call (.name "print") [.constant (.text text)] [])

/-- What is printed before some tests are run. -/
def announcement (interface : String) (count : Nat) : String :=
  "running " ++ count.repr ++ (if count = 1 then " test" else " tests") ++ " for implementation of " ++ interface

namespace Runner

@[simp] theorem ofTree_helper (name : String) : Expr.ofTree (helper name) = helperNamed name := by
  rw [helper, ofTree_dot, ofTree_ofName (by decide)]
  rfl

@[simp] theorem ofTree_implementer : Expr.ofTree implementer = .name Naming.implementer :=
  ofTree_ofName (by decide)

theorem ofStatement_importHelpers :
    Stmt.ofStatement importHelpers = [.importing ["tested_trait", "runtime"] (some Naming.helpers)] := rfl

theorem ofStatement_printing (s : String) : Stmt.ofStatement (printing s) = [prints s] := by
  rw [printing, ofStatement_ofExpression, ofTree_apply, ofTree_ofName (by decide), List.map_singleton, ofTree_ofText]
  rfl

theorem summary_eq (interface : String) (count : Nat) :
    summary interface count = announcement interface count := by
  have hplural : "running " ++ count.repr ++ " test" ++ "s" = "running " ++ count.repr ++ " tests" := by
    rw [String.append_assoc]
    rfl
  unfold summary announcement
  by_cases h : count = 1
  · simp [h]
  · rw [if_neg (by simpa using h), if_neg h, hplural]

/-- What the function of a test is called with. -/
def givenTo (t : AssociatedTest) : List Expr :=
  if t.takesType then [.name Naming.implementer] else []

theorem map_typeArguments (t : AssociatedTest) : (typeArguments t).map Expr.ofTree = givenTo t := by
  unfold typeArguments givenTo
  cases t.takesType with
  | false => rfl
  | true => rw [if_pos rfl, if_pos rfl, List.map_singleton, ofTree_implementer]

/-- The call of the function of a test. -/
theorem ofTree_called (t : AssociatedTest) :
    Expr.ofTree ((SyntaxTree.ofName t.name).apply (typeArguments t)) =
      .call (.ofTree (.ofName t.name)) (givenTo t) [] := by
  rw [ofTree_apply, map_typeArguments]

/-- The lines that run a test, as a program. -/
def ran (t : AssociatedTest) : List Stmt :=
  let called : Expr := .call (.ofTree (.ofName t.name)) (givenTo t) []
  match t.kind with
  | .standard => [.eval (.call (helperNamed "expect_unit") [called, .constant (.text t.name)] [])]
  | .returnsResult output =>
    [.annotate Naming.result (.ofTree output) (some called),
      .eval (.call (helperNamed "unwrap") [.name Naming.result] [])]
  | .shouldPanic expected =>
    [.eval (.call (helperNamed "expect_panic")
      (.call (helperNamed "catch_unwind") (.ofTree (.ofName t.name) :: givenTo t) [] ::
        expected.toList.map Expr.ofTree) [])]

/-- Each line that runs a test is read as one statement. -/
theorem map_ofStatement_run (t : AssociatedTest) : (run t).map Stmt.ofStatement = (ran t).map fun s => [s] := by
  have hresult : Expr.ofTree (.ofName Naming.result) = .name Naming.result := ofTree_ofName (by decide)
  unfold run ran
  cases t.kind with
  | standard =>
    simp only [List.map_cons, List.map_nil, ofStatement_ofExpression, ofTree_apply (helper _), ofTree_called,
      ofTree_helper, ofTree_ofText]
  | returnsResult output =>
    have hline : ∀ called : SyntaxTree, Stmt.ofStatement (.line (.node .annotated
        [.ofName Naming.result, .ofSpaced ":", output.trailing " ", .ofSpaced "=", called])) =
        [.annotate Naming.result (.ofTree (output.trailing " ")) (some (.ofTree called))] := fun _ => rfl
    simp only [List.map_cons, List.map_nil, ofStatement_ofExpression, ofTree_apply (helper _), ofTree_called,
      ofTree_helper, hline, hresult, ofTree_trailing]
  | shouldPanic expected =>
    simp only [List.map_cons, List.map_nil, ofStatement_ofExpression, ofTree_apply (helper _), ofTree_helper,
      map_typeArguments]

/-- How the hidden method is declared. -/
def declared : Signature := { name := Naming.hiddenMethod, parameters := [{ name := Naming.implementer }] }

end Runner

end Conformance
