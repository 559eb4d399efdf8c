import Conformance.Evaluation.Construction
import Conformance.Value.Equality

/-!
# Evaluation

Expressions and statements are evaluated for a given way of calling values.  A function runs its body in a scope
of its own; how deep calls may nest is bounded.
-/

namespace Conformance

/-! ## Expressions -/

/-- What a name stands for. -/
def lookupName (name : String) : Run Value := do
  let w ← get
  if w.awaits name then
    raising .unboundLocal
      ("cannot access local variable '" ++ name ++ "' where it is not associated with a value")
  else
    match w.lookup? name <|> Library.builtIn? name with
    | some v => return v
    | none => raising .name_ ("name '" ++ name ++ "' is not defined")

/-- Whether two values are one and the same, as far as it can be told. -/
def isSame : Value → Value → Bool
  | .bool a, .bool b => a == b
  | .bool _, _ => false
  | .nothing, .nothing => true
  | .ellipsis, .ellipsis => true
  | .concrete, .concrete => true
  | .type a, .type b => a == b
  | _, _ => false

/-- The result of a comparison. -/
def Comparison.decide (c : Comparison) (a b : Value) : Bool :=
  match c with
  | equal => a.equal b
  | different => !a.equal b
  | same => isSame a b
  | other => !isSame a b

/-- The arguments that stand between brackets. -/
def subscripts : Value → List Value
  | .tuple vs => vs
  | v => [v]

/-- The negative of a number. -/
def negate : Value → Run Value
  | .int i => return .int (-i)
  | .bool b => return .int (if b then -1 else 0)
  | v => raising .type ("bad operand type for unary -: '" ++ v.typeName ++ "'")

mutual

/-- The value of an expression. -/
def evaluate (call : Call) : Expr → Run Value
  | .constant c => return .ofConstant c
  | .name n => lookupName n
  | .member e n => do getAttribute (← evaluate call e) n
  | .index e k => do
    let origin ← evaluate call e
    let key ← evaluate call k
    fromClasses (fun h => h.apply origin (subscripts key)) ApplicationError.message
  | .call f args named => do
    let f ← evaluate call f
    let args ← evaluateAll call args
    let named ← evaluateNamed call named
    call f args named
  | .tuple items => return .tuple (← evaluateAll call items)
  | .list items => return .list (← evaluateAll call items)
  | .dict entries => return .dictOf (← evaluateEntries call entries)
  | .negative e => do negate (← evaluate call e)
  | .not e => return .bool !(← evaluate call e).truth
  | .compare c l r => do
    let a ← evaluate call l
    let b ← evaluate call r
    return .bool (c.decide a b)
  | .unsupported => unsupported "an expression"

/-- The values of expressions, from left to right. -/
def evaluateAll (call : Call) : List Expr → Run (List Value)
  | [] => return []
  | e :: es => do
    let v ← evaluate call e
    let vs ← evaluateAll call es
    return v :: vs

/-- The values of keyword arguments. -/
def evaluateNamed (call : Call) : List (String × Expr) → Run Namespace
  | [] => return []
  | (n, e) :: es => do
    let v ← evaluate call e
    let vs ← evaluateNamed call es
    return (n, v) :: vs

/-- The entries of a dictionary. -/
def evaluateEntries (call : Call) : List (Expr × Expr) → Run (List (Value × Value))
  | [] => return []
  | (k, e) :: es => do
    let key ← evaluate call k
    let v ← evaluate call e
    let vs ← evaluateEntries call es
    return (key, v) :: vs

end

/-- The value of an expression that may be missing. -/
def evaluate? (call : Call) : Option Expr → Run (Option Value)
  | some e => return some (← evaluate call e)
  | none => return none

/-! ## Statements -/

/-- Binds a name in the innermost scope. -/
def bindName (name : String) (v : Value) : Run Unit := modify (World.bind name v)

/-- Applies decorators, the one closest to the definition first. -/
def decorate (call : Call) (v : Value) : List Value → Run Value
  | [] => return v
  | d :: ds => do call d [← decorate call v ds] []

/-- Imports a module. -/
def importModule (path : List String) (name : Option String) : Run Unit :=
  match Library.contents? path, name with
  | some _, some n => bindName n (.library path)
  | some _, none => bindName (path.head?.getD "") (.library (path.take 1))
  | none, _ =>
    let shortest := (List.range path.length).map fun n => path.take (n + 1)
    let unknown := shortest.find? fun p => (Library.contents? p).isNone
    raising .moduleNotFound ("No module named '" ++ ".".intercalate (unknown.getD path) ++ "'")

/-- Imports names of a module. -/
def importNames (path : List String) (names : Namespace) : List (String × String) → Run Unit
  | [] => return
  | (n, target) :: rest => do
    match names.lookup n with
    | some v =>
      bindName target v
      importNames path names rest
    | none => raising .importing ("cannot import name '" ++ n ++ "' from '" ++ ".".intercalate path ++ "'")

/-- Imports from a module. -/
def importFrom (path : List String) (names : List (String × String)) : Run Unit :=
  match Library.contents? path with
  | some contents => importNames path contents names
  | none => importModule path none

/-- Raises the error that a value is or stands for. -/
def raiseValue (call : Call) (v : Value) : Run Unit := do
  match v with
  | .error kind args => throw { kind, args }
  | .type _ =>
    match ← call v [] [] with
    | .error kind args => throw { kind, args }
    | _ => raising .type "exceptions must derive from BaseException"
  | _ => raising .type "exceptions must derive from BaseException"

/-- Evaluates the default and the hint of every parameter, the defaults first. -/
def evaluateParameters (call : Call) (s : Signature) : Run Namespace := do
  let defaults ← s.parameters.filterMapM fun p => do
    return (← evaluate? call p.default).map fun v => (p.name, v)
  s.parameters.forM fun p => discard (evaluate? call p.hint)
  discard (evaluate? call s.returns)
  return defaults

/-- Notes that the innermost scope annotates a name. -/
def noteHint (name : String) : Run Unit :=
  modify fun w => { w with scope := w.scope.map fun s => { s with hints := s.hints ++ [name] } }

/-- Whether the innermost scope is that of a function, where hints are not evaluated. -/
def inFunction : Run Bool := do return (← get).scope.any fun s => !s.ofClass

/-- Makes a class from the scope its body left behind. -/
def makeClass (name : String) (bases : List Value) (named : Namespace) (s : Scope) : Run Value := do
  let w ← get
  let tracksAbstract := (named.lookup "metaclass").any (Value.equal (.form "abc" "ABCMeta"))
  let (classes, ref) ← fromClasses (fun h => h.create
    { name, qualname := w.qualify name, home := w.home, bases, body := s.names, hints := s.hints,
      tracksAbstract }) ClassError.message
  modify fun w => { w with classes }
  return .type ref

mutual

/-- Carries out a statement; a value is returned from the function it stands in. -/
def execute (call : Call) : Stmt → Run (Option Value)
  | .pass => return none
  | .eval e => do
    discard (evaluate call e)
    return none
  | .assign names e => do
    let v ← evaluate call e
    names.forM fun n => bindName n v
    return none
  | .annotate n hint value => do
    if let some v ← evaluate? call value then bindName n v
    if !(← inFunction) then
      discard (evaluate call hint)
      noteHint n
    return none
  | .importing path name => do
    importModule path name
    return none
  | .importingFrom path names => do
    importFrom path names
    return none
  | .returning value => return some ((← evaluate? call value).getD .nothing)
  | .raising none => raising .runtime "No active exception to reraise"
  | .raising (some e) => do
    raiseValue call (← evaluate call e)
    return none
  | .asserting test message => do
    if (← evaluate call test).truth then return none
    else throw { kind := .assertion, args := (← evaluate? call message).toList }
  | .define decorators signature body => do
    let ds ← evaluateAll call decorators
    let defaults ← evaluateParameters call signature
    let w ← get
    let f := Value.function { signature, body, qualname := w.qualify signature.name } defaults w.visible
    bindName signature.name (← decorate call f ds)
    return none
  | .defineClass decorators name bases named body => do
    let ds ← evaluateAll call decorators
    let bases ← evaluateAll call bases
    let named ← evaluateNamed call named
    let w ← get
    let ((), s) ← inScope { enclosing := w.visible, ofClass := true, path := w.qualify name ++ "." } do
      discard (executeAll call body)
    let v ← makeClass name bases named s
    bindName name (← decorate call v ds)
    return none
  | .unsupported => unsupported "a statement"

/-- Carries out statements up to the first that returns. -/
def executeAll (call : Call) : List Stmt → Run (Option Value)
  | [] => return none
  | s :: ss => do
    match ← execute call s with
    | some v => return some v
    | none => executeAll call ss

end

/-! ## Calls -/

/-- The parameters of a function with the values of their defaults. -/
def Code.formals (c : Code) (defaults : Namespace) : Formals :=
  let ofKind (k : ParameterKind) := c.signature.parameters.filter fun p => p.kind == k
  let withDefaults (ps : List Parameter) := ps.map fun p => (p.name, defaults.lookup p.name)
  { plain := withDefaults (ofKind .plain),
    keywordOnly := withDefaults (ofKind .keywordOnly),
    rest := (ofKind .rest).head?.map Parameter.name,
    restNamed := (ofKind .restNamed).head?.map Parameter.name }

/-- The names that a statement binds in the scope it stands in. -/
def Stmt.bound : Stmt → List String
  | .assign names _ => names
  | .annotate n _ _ => [n]
  | .importing path none => path.take 1
  | .importing _ (some n) => [n]
  | .importingFrom _ names => names.map Prod.snd
  | .define _ signature _ => [signature.name]
  | .defineClass _ name _ _ _ => [name]
  | _ => []

/-- Runs the body of a function. -/
def runFunction (call : Call) (c : Code) (defaults captured : Namespace) (args : List Value)
    (named : Namespace) : Run Value := do
  let bound ← bindArguments c.qualname (c.formals defaults) args named
  let scope : Scope :=
    { names := bound, enclosing := captured, own := c.body.flatMap Stmt.bound, path := c.qualname ++ ".<locals>." }
  let (result, _) ← inScope scope (executeAll call c.body)
  return result.getD .nothing

/-- Keyword arguments as pairs, sorted by name. -/
def sortedPairs (named : Namespace) : List Value :=
  (named.mergeSort fun a b => a.1 ≤ b.1).map fun (n, v) => .tuple [.text n, v]

/-- What a callable does with its arguments. -/
def Behaviour.act (b : Behaviour) (args : List Value) (named : Namespace) : Run Value :=
  match b with
  | returns v => return v
  | raises kind es => do throw (← makeError kind es [])
  | echoes => return .list [.list args, .list (sortedPairs named)]
  | has name => do
    let h := (← get).classes
    return .bool (args.head?.any fun v => h.has v name)
  | isApplied => return .bool (args.head?.any fun v => match v with
    | .applied .. => true
    | _ => false)

/-- Calls a value, where calls inside it are made by `call`. -/
def applyValue (call : Call) (f : Value) (args : List Value) (named : Namespace) : Run Value :=
  match f with
  | .function c defaults captured => runFunction call c defaults captured args named
  | .bound g self => call g (self :: args) named
  | .wrapped .static g | .wrapped .isAbstract g => call g args named
  | .native n => n.call call args named
  | .callable _ b => b.act args named
  | .type c => construct call c args named
  | .applied (.type c) _ => construct call c args named
  | v => raising .type ("'" ++ v.typeName ++ "' object is not callable")

/-- Calls a value, with calls nested at most `depth` deep. -/
def callAt : Nat → Call
  | 0 => fun _ _ _ => raising .recursion "maximum recursion depth exceeded"
  | depth + 1 => applyValue (callAt depth)

/-- How deep calls nest. -/
def maxDepth : Nat := 1000

/-- Calls a value. -/
def callValue : Call := callAt maxDepth

end Conformance
