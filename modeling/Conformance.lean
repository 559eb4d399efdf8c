import Conformance.Console.Logger
import Conformance.Loading
import Conformance.Main
import Conformance.Source.Grammar.Lossless
import Conformance.Proofs.Expansion.FirstFailure
import Conformance.Proofs.Expansion.Locality
import Conformance.Proofs.Expansion.Numbering
import Conformance.Proofs.Expansion.Idempotence
import Conformance.Proofs.Expansion.Unmarked
import Conformance.Proofs.Expansion.TwoRuns
import Conformance.Proofs.Expansion.Wording
import Conformance.Proofs.Expansion.Places
import Conformance.Proofs.Expansion.Respelling
import Conformance.Proofs.Expansion.Spelling
import Conformance.Proofs.Expansion.Counter
import Conformance.Proofs.Expansion.Reporting
import Conformance.Proofs.Expansion.Blame
import Conformance.Proofs.Expansion.Located
import Conformance.Proofs.Expansion.Readback
import Conformance.Proofs.Program.Reading
import Conformance.Proofs.Grammar.Settled
import Conformance.Proofs.Grammar.Spelling
import Conformance.Proofs.Grammar.Nesting
import Conformance.Proofs.Source.Lexeme
import Conformance.Proofs.Source.LogicalLine
import Conformance.Proofs.Source.Layout
import Conformance.Proofs.Source.Rendering
import Conformance.Proofs.Interface.Preservation
import Conformance.Proofs.Evaluation.Scope
import Conformance.Proofs.Evaluation.Step
import Conformance.Proofs.Interface.Verdict
import Conformance.Proofs.Interface.Semantics
import Conformance.Proofs.Interface.Hygiene
import Conformance.Proofs.Grammar.Context
import Conformance.Proofs.Grammar.First
import Conformance.Proofs.Grammar.Levels
import Conformance.Proofs.Grammar.Arguments
import Conformance.Proofs.Grammar.Origin
import Conformance.Proofs.Grammar.Generated
import Conformance.Proofs.Grammar.Lines
import Conformance.Proofs.Grammar.Solid
import Conformance.Proofs.Source.Form
import Conformance.Proofs.Source.Rows
import Conformance.Proofs.Source.Places
import Conformance.Proofs.Source.Positions
import Conformance.Proofs.Source.Standing
import Conformance.Proofs.Source.Parsed
import Conformance.Proofs.Files.Tree
import Conformance.Proofs.Files.Writing
import Conformance.Proofs.Command.Batch
import Conformance.Proofs.Command.Targets
import Conformance.Proofs.Command.Requests
import Conformance.Proofs.Command.Agreement
import Conformance.Proofs.Command.Mirror
import Conformance.Proofs.Command.Isolation
import Conformance.Proofs.Interface.Acceptance
import Conformance.Proofs.Implementation.References
import Conformance.Proofs.Implementation.Decision
import Conformance.Proofs.Implementation.Shape
import Conformance.Proofs.Diagnostic
import Conformance.Proofs.Implementation.Names
import Conformance.Proofs.Interface.Requirements
import Conformance.Proofs.Marker.Recognition
import Conformance.Proofs.Hierarchy.Coherence
import Conformance.Proofs.Hierarchy.Protocols
import Conformance.Proofs.Settings.Nearest
import Conformance.Proofs.Settings.Precedence
import Conformance.Proofs.Settings.Failures
import Conformance.Console.Session
import Conformance.Proofs.Console.Markup
import Conformance.Proofs.Console.Session
import Conformance.Proofs.Console.Shown
import Conformance.Proofs.Console.Verbatim
import Conformance.Proofs.Loading
import Conformance.Proofs.Settings.Validation
import Conformance.Proofs.Command.Announcements
