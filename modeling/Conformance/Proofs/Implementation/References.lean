import Mathlib.Data.List.Basic
import Conformance.Source.Reference

/-!
# References to variables

Not every name in an expression is a reference to a variable around it.  A name after a dot says which attribute is
meant, a name before an equals sign which argument; a lambda binds its parameters, a comprehension its targets, and an
assignment expression its name.  `references` leaves all of these out, and of the names it leaves the order is that
of the text (`references_sublist_names`).
-/

namespace Conformance.Source

namespace SyntaxTree

/-- The name that a parameter of a lambda binds. -/
def parameterName? : SyntaxTree → Option String
  | node .parameter (leaf t :: _) => some t.text
  | node .starParameter (_ :: leaf t :: _) => some t.text
  | node .doubleStarParameter (_ :: leaf t :: _) => some t.text
  | _ => none

mutual

/-- The names that a value is bound to by assigning it to a place. -/
def targetNames : SyntaxTree → List String
  | leaf t => if Match.name.accepts t then [t.text] else []
  | node k children =>
    match k with
    | .member | .subscript => []
    | _ => targetNamesAll children

def targetNamesAll : List SyntaxTree → List String
  | [] => []
  | t :: ts => t.targetNames ++ targetNamesAll ts

end

/-- The names that a `for` of a comprehension binds: those of what stands before its `in`. -/
def comprehensionNames : SyntaxTree → List String
  | node .compFor children => targetNamesAll (children.takeWhile fun c => c.leaves.map Token.text != ["in"])
  | _ => []

mutual

/-- The names that an expression refers to as variables around it, from left to right, where the names in `bound` are
bound by expressions that it stands in. -/
def references (bound : List String) : SyntaxTree → List String
  | leaf t => if Match.name.accepts t && !bound.contains t.text then [t.text] else []
  | node k children =>
    match k, children with
    | .conversion, _ => []
    | .member, value :: _ => value.references bound
    | .keywordArg, _ :: rest => referencesAll bound rest
    | .walrus, _ :: rest => referencesAll bound rest
    | .parameter, _ :: rest => referencesAll bound rest
    | .starParameter, _ => []
    | .doubleStarParameter, _ => []
    | .lambda, children => lambdaReferences bound (bound ++ children.filterMap parameterName?) children
    | .listComp, children | .setComp, children | .dictComp, children | .generator, children =>
      comprehensionReferences bound (bound ++ children.flatMap comprehensionNames) children
    | _, children => referencesAll bound children

def referencesAll (bound : List String) : List SyntaxTree → List String
  | [] => []
  | t :: ts => t.references bound ++ referencesAll bound ts

/-- The defaults of the parameters are evaluated outside of a lambda, only its body, which comes last, inside. -/
def lambdaReferences (bound inner : List String) : List SyntaxTree → List String
  | [] => []
  | [body] => body.references inner
  | t :: u :: ts => t.references bound ++ lambdaReferences bound inner (u :: ts)

/-- Of a comprehension, only what the first `for` goes through is evaluated outside. -/
def comprehensionReferences (bound inner : List String) : List SyntaxTree → List String
  | [] => []
  | node .compFor children :: ts => sourceReferences bound inner children ++ referencesAll inner ts
  | t :: ts => t.references inner ++ comprehensionReferences bound inner ts

/-- The first `for` of a comprehension: its source follows its `in`. -/
def sourceReferences (bound inner : List String) : List SyntaxTree → List String
  | [] => []
  | [t] => t.references inner
  | t :: source :: ts =>
    if t.leaves.map Token.text == ["in"] then source.references bound ++ referencesAll inner ts
    else t.references inner ++ sourceReferences bound inner (source :: ts)

end

mutual

/-- The references are among the names, in the order of the text. -/
theorem references_sublist_names (bound : List String) : ∀ t : SyntaxTree, (t.references bound).Sublist t.names
  | leaf t => by
    rw [references, names]
    split_ifs with href hname
    · exact .refl _
    · simp_all [Match.accepts]
    · exact List.nil_sublist _
    · exact .refl _
  | node k children => by
    have hall := referencesAll_sublist_names bound children
    have hcomprehension (inner : List String) := comprehensionReferences_sublist_names bound inner children
    cases k with
    | conversion => exact List.nil_sublist _
    | member =>
      cases children with
      | nil => exact hall
      | cons value rest => exact (references_sublist_names bound value).trans (List.sublist_append_left _ _)
    | keywordArg | walrus | parameter =>
      cases children with
      | nil => exact hall
      | cons name rest => exact (referencesAll_sublist_names bound rest).trans (List.sublist_append_right _ _)
    | starParameter | doubleStarParameter => exact List.nil_sublist _
    | lambda => exact lambdaReferences_sublist_names bound _ children
    | listComp | setComp | dictComp | generator => exact hcomprehension _
    | _ => exact hall

theorem referencesAll_sublist_names (bound : List String) :
    ∀ ts : List SyntaxTree, (referencesAll bound ts).Sublist (namesAll ts)
  | [] => .slnil
  | t :: ts => (references_sublist_names bound t).append (referencesAll_sublist_names bound ts)

theorem lambdaReferences_sublist_names (bound inner : List String) :
    ∀ ts : List SyntaxTree, (lambdaReferences bound inner ts).Sublist (namesAll ts)
  | [] => .slnil
  | [body] => by
    rw [lambdaReferences, namesAll, namesAll, List.append_nil]
    exact references_sublist_names inner body
  | t :: u :: ts => (references_sublist_names bound t).append (lambdaReferences_sublist_names bound inner (u :: ts))

theorem comprehensionReferences_sublist_names (bound inner : List String) :
    ∀ ts : List SyntaxTree, (comprehensionReferences bound inner ts).Sublist (namesAll ts)
  | [] => .slnil
  | leaf t :: ts => (references_sublist_names inner (leaf t)).append
      (comprehensionReferences_sublist_names bound inner ts)
  | node k children :: ts => by
    by_cases hk : k = .compFor
    · subst hk
      exact (sourceReferences_sublist_names bound inner children).append (referencesAll_sublist_names inner ts)
    · have hhead := (references_sublist_names inner (node k children)).append
        (comprehensionReferences_sublist_names bound inner ts)
      rwa [comprehensionReferences, namesAll]
      simpa using hk

theorem sourceReferences_sublist_names (bound inner : List String) :
    ∀ ts : List SyntaxTree, (sourceReferences bound inner ts).Sublist (namesAll ts)
  | [] => .slnil
  | [t] => by
    rw [sourceReferences, namesAll, namesAll, List.append_nil]
    exact references_sublist_names inner t
  | t :: source :: ts => by
    rw [sourceReferences, namesAll]
    split_ifs
    · refine List.Sublist.trans ?_ (List.sublist_append_right _ _)
      exact (references_sublist_names bound source).append (referencesAll_sublist_names inner ts)
    · exact (references_sublist_names inner t).append (sourceReferences_sublist_names bound inner (source :: ts))

end

end SyntaxTree

end Conformance.Source
