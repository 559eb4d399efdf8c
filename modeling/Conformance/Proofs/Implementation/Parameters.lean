import Conformance.Proofs.Implementation.References
import Conformance.Proofs.Source.Places
import Conformance.Implementation.Basic

/-!
# The type parameters of an implementation

The bases of a class are gone through one by one.  `Ancestry.ofHead_eq` says what comes of it: a negated base ends it,
and otherwise the interface is the first base that does more than declare type parameters, and the type parameters are

    h.typeParameters ++ those of the bases, each once, in the order of the text      (`parametersBy namesAll`)

A base such as `Reader[T]` makes its class generic over `T`.  What counts is any name in the brackets that is the name
of a type variable, also one that does not refer to it, as in `Reader[config.T]` (`mem_parametersIn_namesAll`).
-/

namespace Conformance

open Source

/-! ## Bases -/

namespace Source

/-- The value of an argument without a keyword and without a star. -/
def Argument.positional? : Argument → Option SyntaxTree
  | .positional value => some value
  | _ => none

/-- The bases that are expressions: those without a keyword and without a star. -/
def ClassHead.positionalBases (h : ClassHead) : List SyntaxTree := h.bases.filterMap Argument.positional?

namespace SyntaxTree

/-- Whether the expression is another one behind a tilde. -/
def isNegated (t : SyntaxTree) : Bool :=
  match t.core with
  | node .unary (leaf sign :: _) => sign.text == "~"
  | _ => false

/-- What a subscript is taken of, and its indices. -/
def subscript? (t : SyntaxTree) : Option (SyntaxTree × List SyntaxTree) :=
  match t.core with
  | node .subscript (value :: rest) => some (value, (node .subscript rest).items)
  | _ => none

/-- Whether a base only declares type parameters, with or without a subscript. -/
def declaresOnly (t : SyntaxTree) : Bool :=
  isGenericBase ((t.subscript?.map Prod.fst).getD t)

end SyntaxTree

end Source

/-- The type parameters that a base brings.  The indices of a base that only declares are type parameters as they
stand; in those of another base, they are the type variables among the names that `found` finds. -/
def parametersIn (found : List SyntaxTree → List String) (typeVariables : List String) (base : SyntaxTree) :
    List String :=
  base.subscript?.elim [] fun s =>
    if isGenericBase s.1 then s.2.filterMap fun i => (indexValue? i).map SyntaxTree.code
    else (found s.2).filter typeVariables.contains

/-- The type parameters of a class: those its head declares, and then those its bases bring, each once. -/
def Source.ClassHead.parametersBy (found : List SyntaxTree → List String) (typeVariables : List String)
    (h : ClassHead) : List String :=
  h.typeParameters ++
    ((h.positionalBases.flatMap (parametersIn found typeVariables)).filter (· ∉ h.typeParameters)).eraseDups

/-- The first base that does more than declare type parameters. -/
def Source.ClassHead.interface? (h : ClassHead) : Option SyntaxTree :=
  h.positionalBases.find? (!·.declaresOnly)

/-! ## Going through the bases -/

/-- Adding names one by one appends those that are new, each at its first occurrence. -/
theorem foldl_addNew (names more : List String) :
    more.foldl addNew names = names ++ (more.filter (· ∉ names)).eraseDups := by
  induction more generalizing names with
  | nil => simp
  | cons n more ih =>
    rw [List.foldl_cons, ih]
    by_cases hn : n ∈ names
    · simp [addNew, hn]
    · have hfilter : more.filter (· ∉ names ++ [n]) = (more.filter (· ∉ names)).filter (!· == n) := by
        rw [List.filter_filter]
        exact List.filter_congr fun x _ => by by_cases hx : x = n <;> simp [hx]
      rw [addNew, if_neg (by simpa using hn), hfilter, List.filter_cons_of_pos (by simpa using hn),
        List.eraseDups_cons, List.append_assoc, List.singleton_append]

section
variable {typeVariables : List String}

/-- A negated expression is no dotted name. -/
theorem isGenericBase_unary {base : SyntaxTree} {children : List SyntaxTree}
    (hcore : base.core = .node .unary children) : isGenericBase base = false := by
  have hsegments : base.segments? = none := by
    rw [← SyntaxTree.segments?_core, hcore]
    rfl
  rw [isGenericBase, SyntaxTree.dotted?, hsegments]
  rfl

/-- What one base adds. -/
theorem Ancestry.add_eq (a : Ancestry) (base : SyntaxTree) :
    Ancestry.add typeVariables a base =
      if base.isNegated then violated .negativeImplementation base.core.extent?
      else .ok { interface := a.interface <|> (if base.declaresOnly then none else some base)
                 parameters := (parametersIn SyntaxTree.namesAll typeVariables base).foldl addNew a.parameters } := by
  rcases a with ⟨interface, parameters⟩
  -- A base that is neither negated nor a subscript.
  have hplain : (if isGenericBase base then Except.ok ⟨interface, parameters⟩
      else .ok ⟨interface <|> some base, parameters⟩) =
      (.ok ⟨interface <|> (if isGenericBase base then none else some base), parameters⟩ : Except Failure Ancestry) := by
    cases isGenericBase base <;> cases interface <;> rfl
  unfold Ancestry.add SyntaxTree.isNegated parametersIn SyntaxTree.declaresOnly SyntaxTree.subscript?
  cases hcore : base.core with
  | leaf t => exact hplain
  | node k children =>
    cases k with
    | unary =>
      cases children with
      | nil => exact hplain
      | cons sign operand =>
        cases sign with
        | node => exact hplain
        | leaf sign =>
          rw [if_neg (by simp [isGenericBase_unary hcore])] at hplain
          exact if_congr Iff.rfl rfl hplain
    | subscript =>
      cases children with
      | nil => exact hplain
      | cons value rest =>
        by_cases hgeneric : isGenericBase value = true <;> cases interface <;> simp [hgeneric]
    | _ => exact hplain

/-- What all bases add. -/
theorem Ancestry.foldlM_add (bases : List SyntaxTree) (a : Ancestry) :
    bases.foldlM (Ancestry.add typeVariables) a =
      (bases.find? SyntaxTree.isNegated).elim
        (.ok { interface := a.interface <|> bases.find? (!·.declaresOnly)
               parameters :=
                (bases.flatMap (parametersIn SyntaxTree.namesAll typeVariables)).foldl addNew a.parameters })
        fun base => violated .negativeImplementation base.core.extent? := by
  induction bases generalizing a with
  | nil => simp [pure, Except.pure]
  | cons base bases ih =>
    rw [List.foldlM_cons, Ancestry.add_eq]
    cases hneg : base.isNegated with
    | true => simp [hneg, violated, bind, Except.bind]
    | false =>
      change bases.foldlM _ _ = _
      rw [ih]
      cases hdecl : base.declaresOnly <;> cases a.interface <;> simp [hneg, hdecl, List.foldl_append]

/-- What the bases of a class say. -/
theorem Ancestry.ofHead_eq (h : ClassHead) :
    Ancestry.ofHead typeVariables h =
      (h.positionalBases.find? SyntaxTree.isNegated).elim
        (.ok { interface := h.interface?, parameters := h.parametersBy SyntaxTree.namesAll typeVariables })
        fun base => violated .negativeImplementation base.core.extent? := by
  have hloop : Ancestry.ofHead typeVariables h =
      h.positionalBases.foldlM (Ancestry.add typeVariables) { parameters := h.typeParameters } := by
    refine congrArg (List.foldlM _ _) (List.filterMap_congr fun b _ => ?_)
    cases b <;> rfl
  rw [hloop, Ancestry.foldlM_add, foldl_addNew]
  rfl

end

/-! ## Names and references -/

theorem mem_parametersBy {found : List SyntaxTree → List String} {typeVariables : List String} {h : ClassHead}
    {p : String} : p ∈ h.parametersBy found typeVariables ↔
      p ∈ h.typeParameters ∨ ∃ base ∈ h.positionalBases, p ∈ parametersIn found typeVariables base := by
  by_cases hp : p ∈ h.typeParameters <;> simp [ClassHead.parametersBy, hp]

/-- The name stands in the indices of a base that does more than declare type parameters, but it is no reference
there. -/
structure Source.SyntaxTree.OnlyMentions (base : SyntaxTree) (p : String) (value : SyntaxTree)
    (indices : List SyntaxTree) : Prop where
  subscript : base.subscript? = some (value, indices)
  notGeneric : isGenericBase value = false
  name : p ∈ SyntaxTree.namesAll indices
  noReference : p ∉ SyntaxTree.referencesAll [] indices

/-- By its names, a base brings the type parameters that it brings by its references, and the type variables that it
only mentions. -/
theorem mem_parametersIn_namesAll {typeVariables : List String} {base : SyntaxTree} {p : String} :
    p ∈ parametersIn SyntaxTree.namesAll typeVariables base ↔
      p ∈ parametersIn (SyntaxTree.referencesAll []) typeVariables base ∨
        p ∈ typeVariables ∧ ∃ value indices, base.OnlyMentions p value indices := by
  unfold parametersIn
  cases hsubscript : base.subscript? with
  | none =>
    refine ⟨fun h => absurd h List.not_mem_nil, ?_⟩
    rintro (h | ⟨-, value, indices, hmentions⟩)
    · cases h
    · cases hsubscript.symm.trans hmentions.subscript
  | some s =>
    obtain ⟨value, indices⟩ := s
    rw [Option.elim_some, Option.elim_some]
    by_cases hgeneric : isGenericBase value = true
    · rw [if_pos hgeneric, if_pos hgeneric]
      refine ⟨.inl, ?_⟩
      rintro (h | ⟨-, value', indices', hmentions⟩)
      · exact h
      · cases hsubscript.symm.trans hmentions.subscript
        cases hgeneric.symm.trans hmentions.notGeneric
    · rw [if_neg hgeneric, if_neg hgeneric, List.mem_filter, List.mem_filter, List.contains_iff_mem]
      constructor
      · rintro ⟨hname, hvariable⟩
        by_cases href : p ∈ SyntaxTree.referencesAll [] indices
        · exact .inl ⟨href, hvariable⟩
        · exact .inr ⟨hvariable, value, indices, hsubscript, by simpa using hgeneric, hname, href⟩
      · rintro (⟨href, hvariable⟩ | ⟨hvariable, value', indices', hmentions⟩)
        · exact ⟨(SyntaxTree.referencesAll_sublist_names [] indices).subset href, hvariable⟩
        · cases hsubscript.symm.trans hmentions.subscript
          exact ⟨hmentions.name, hvariable⟩

/-- The type parameters of a class are those that its head declares and its bases bring, and a base brings every type
variable that is named in its brackets.  These are the type variables that the brackets refer to, and besides any whose
name only stands there, as that of an attribute does.  If every such name is a reference, none is added and the order
is that of the references. -/
theorem ofHead_parameters_exceed_references (typeVariables : List String) (h : ClassHead)
    (hpositive : ∀ base ∈ h.positionalBases, base.isNegated = false) :
    ∃ a, Ancestry.ofHead typeVariables h = .ok a ∧
      a.parameters = h.parametersBy SyntaxTree.namesAll typeVariables ∧
      (∀ p, p ∈ a.parameters ↔ p ∈ h.parametersBy (SyntaxTree.referencesAll []) typeVariables ∨
        p ∈ typeVariables ∧ ∃ base ∈ h.positionalBases, ∃ value indices, base.OnlyMentions p value indices) ∧
      ((∀ base ∈ h.positionalBases, parametersIn SyntaxTree.namesAll typeVariables base =
          parametersIn (SyntaxTree.referencesAll []) typeVariables base) →
        a.parameters = h.parametersBy (SyntaxTree.referencesAll []) typeVariables) := by
  have hnone : h.positionalBases.find? SyntaxTree.isNegated = none := by simpa using hpositive
  refine ⟨_, by rw [Ancestry.ofHead_eq, hnone]; rfl, rfl, fun p => ?_, fun hsame => ?_⟩
  · simp only [mem_parametersBy, mem_parametersIn_namesAll]
    grind
  · rw [ClassHead.parametersBy, ClassHead.parametersBy, List.flatMap_congr hsame]

/-! ## Examples -/

/-- A subscript with plain indices. -/
def subscriptOf (value : SyntaxTree) (indices : List SyntaxTree) : SyntaxTree :=
  .node .subscript ([value, .ofOperator "["] ++
    (indices.map fun i => SyntaxTree.node .index [i]).intersperse (.ofSpaced ",") ++ [.ofOperator "]"])

/-- An empty class with type parameters and bases. -/
def genericClass (name : String) (parameters : List String) (bases : List SyntaxTree) : Class :=
  { prelude := {}
    head := { word := { kind := .name, text := "class", after := spaced }
              name := { kind := .name, text := name }
              rest := (if parameters.isEmpty then [] else [.node .typeParameters ([.ofOperator "["] ++
                  (parameters.map fun p => SyntaxTree.node .typeParameter [.ofName p]).intersperse (.ofSpaced ",") ++
                  [.ofOperator "]"])]) ++
                [.node .bases ([.ofOperator "("] ++ SyntaxTree.ofArguments bases ++ [.ofOperator ")"]),
                  .ofOperator ":"] }
    body := .inline (.node .simple [.node .statement [.ofName "pass"]]) {} }

/-- The base `Reader[config.T]`, where `T` is an attribute. -/
def configuredReader : SyntaxTree :=
  subscriptOf (.ofName "Reader") [(SyntaxTree.ofName "config").dot "T"]

/-- The class `Store[K](Generic[S], Reader[config.T], Writer[K, S, V])`: its head declares `K`, and of the type
variables `S`, `T` and `V` its bases refer to `S` and `V`. -/
def storeClass : Class :=
  genericClass "Store" ["K"]
    [subscriptOf (.ofName "Generic") [.ofName "S"], configuredReader,
      subscriptOf (.ofName "Writer") [.ofName "K", .ofName "S", .ofName "V"]]

theorem ofHead_parameters_exceed_references_store :
    (∀ base ∈ storeClass.head.positionalBases, base.isNegated = false) ∧
      storeClass.head.parametersBy (SyntaxTree.referencesAll []) ["S", "T", "V"] = ["K", "S", "V"] ∧
      ∃ a, Ancestry.ofHead ["S", "T", "V"] storeClass.head = .ok a ∧ a.parameters = ["K", "S", "T", "V"] := by
  have hpositive : ∀ base ∈ storeClass.head.positionalBases, base.isNegated = false := by decide
  obtain ⟨a, hread, hparameters, -⟩ := ofHead_parameters_exceed_references ["S", "T", "V"] storeClass.head hpositive
  exact ⟨hpositive, by rfl, a, hread, hparameters⟩

/-- The class `Loader(Reader[config.T])` refers to no type variable and yet is taken as generic over `T`. -/
theorem loader_taken_as_generic :
    (genericClass "Loader" [] [configuredReader]).head.parametersBy (SyntaxTree.referencesAll []) ["T"] = [] ∧
      Ancestry.ofHead ["T"] (genericClass "Loader" [] [configuredReader]).head =
        .ok { interface := some configuredReader, parameters := ["T"] } ∧
      Implementation.read [] ["T"] [] (genericClass "Loader" [] [configuredReader]).statement =
        violated (.missingPairs "Loader" ["T"] configuredReader.code) none
          [("associated tests for this generic implementation can only be instantiated for concrete types", none)] :=
  ⟨rfl, rfl, rfl⟩

end Conformance
