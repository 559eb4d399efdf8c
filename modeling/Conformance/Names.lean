/-!
# Names

Tests on names, and lists of names without repetition, which keep the order of first appearance.
-/

namespace Conformance

/-- Whether a name starts with a text. -/
def begins (start name : String) : Bool := start.toList.isPrefixOf name.toList

/-- Whether a name starts and ends with two underscores. -/
def isSpecial (name : String) : Bool :=
  let cs := name.toList
  ['_', '_'].isPrefixOf cs && ['_', '_'].isPrefixOf cs.reverse

/-- Adds a name unless it is there. -/
def addNew (names : List String) (n : String) : List String :=
  if names.contains n then names else names ++ [n]

/-- Adds the names that are not there. -/
def addAbsent (names more : List String) : List String :=
  more.foldl addNew names

end Conformance
