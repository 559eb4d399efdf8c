import Conformance.Value.Basic

/-!
# Equality of values

Values are compared by content: truth values count as numbers, texts of different classes are equal if they
read the same, and dictionaries do not depend on the order of their entries.  Functions and objects are equal
to nothing, because two of them are never the same.
-/

namespace Conformance.Value

mutual

/-- Whether two values are equal. -/
def equal : Value → Value → Bool
  | nothing, b => (b matches .nothing)
  | ellipsis, b => (b matches .ellipsis)
  | bool x, b => match b with
    | bool y => x == y
    | int y => (if x then 1 else 0) == y
    | _ => false
  | int x, b => match b with
    | bool y => x == (if y then 1 else 0)
    | int y => x == y
    | _ => false
  | text x, b => b.text?.any (x == ·)
  | textOf _ x, b => b.text?.any (x == ·)
  | bytes x, b => match b with
    | bytes y => x == y
    | _ => false
  | list xs, b => match b with
    | list ys => equalAll xs ys
    | _ => false
  | tuple xs, b => match b with
    | tuple ys => equalAll xs ys
    | _ => false
  | dict xs, b => match b with
    | dict ys => xs.length == ys.length && within xs ys
    | _ => false
  | ok x, b => match b with
    | ok y => equal x y
    | _ => false
  | err x, b => match b with
    | err y => equal x y
    | _ => false
  | type c, b => match b with
    | type d => c.index == d.index
    | _ => false
  | applied f xs, b => match b with
    | applied g ys => equal f g && equalAll xs ys
    | _ => false
  | typeVariable n, b => match b with
    | typeVariable m => n == m
    | _ => false
  | form h n, b => match b with
    | form k m => h == k && n == m
    | _ => false
  | concrete, b => (b matches .concrete)
  | native f, b => match b with
    | native g => f == g
    | _ => false
  | library p, b => match b with
    | library q => p == q
    | _ => false
  | _, _ => false

/-- Whether two lists have equal members. -/
def equalAll : List Value → List Value → Bool
  | [], ys => ys.isEmpty
  | x :: xs, ys => match ys with
    | y :: ys => equal x y && equalAll xs ys
    | [] => false

/-- Whether every entry has an equal one among the others. -/
def within : List (Value × Value) → List (Value × Value) → Bool
  | [], _ => true
  | (k, v) :: es, ys => (ys.any fun (l, w) => equal k l && equal v w) && within es ys

end

/-- Sets the entry for a key, keeping the key that is already there. -/
def setEntry (k v : Value) : List (Value × Value) → List (Value × Value)
  | [] => [(k, v)]
  | (l, w) :: es => if equal l k then (l, v) :: es else (l, w) :: setEntry k v es

/-- A dictionary from entries, of which a later one replaces an earlier one with the same key. -/
def dictOf (entries : List (Value × Value)) : Value :=
  dict (entries.foldl (fun es (k, v) => setEntry k v es) [])

end Conformance.Value
