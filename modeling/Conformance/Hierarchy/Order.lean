import Conformance.Value.Basic

/-!
# Merging orders

The order of a class keeps the order of each of its bases and the order in which the bases are named.  It is
built from the front: the next class is the first head of the lists that stands in the tail of none of them.  If
there is no such head, the lists contradict each other.
-/

namespace Conformance.Hierarchy

/-- Whether a class stands behind the head of one of the lists. -/
def standsBehind (c : ClassRef) (lists : List (List ClassRef)) : Bool :=
  lists.any fun l => l.tail.contains c

/-- The first head that stands behind no other. -/
def nextClass? (lists : List (List ClassRef)) : Option ClassRef :=
  (lists.filterMap List.head?).find? fun c => !standsBehind c lists

/-- The lists without a class at their front. -/
def dropHead (c : ClassRef) (lists : List (List ClassRef)) : List (List ClassRef) :=
  lists.map fun l => if l.head? = some c then l.tail else l

/-- Merges at most `fuel` classes. -/
def mergeFrom : Nat → List (List ClassRef) → Option (List ClassRef)
  | 0, lists => if lists.all List.isEmpty then some [] else none
  | fuel + 1, lists =>
    if lists.all List.isEmpty then some []
    else
      match nextClass? lists with
      | none => none
      | some c => (mergeFrom fuel (dropHead c lists)).map (c :: ·)

/-- One order that agrees with all of the lists. -/
def mergeOrders (lists : List (List ClassRef)) : Option (List ClassRef) :=
  mergeFrom lists.flatten.length lists

end Conformance.Hierarchy
