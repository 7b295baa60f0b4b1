import ModularLexer.Session
import ModularLexer.Text.Listing
import ModularLexer.Proofs.Effects
import ModularLexer.Proofs.Stream.Trace
import ModularLexer.Proofs.Stream.Conservation
import ModularLexer.Proofs.Stream.Calls
import ModularLexer.Proofs.Frame
import ModularLexer.Proofs.Stream.Ending
import ModularLexer.Proofs.Segmentation.Matching
import ModularLexer.Proofs.Segmentation.Rounds
import ModularLexer.Proofs.Segmentation.Capturing
import ModularLexer.Proofs.Segmentation.Dropping
import ModularLexer.Proofs.Runs.Sights
import ModularLexer.Proofs.Stream.Completion
import ModularLexer.Proofs.Runs.Invariants
import ModularLexer.Proofs.Runs.Conducts
import ModularLexer.Proofs.Runs.Cursor
import ModularLexer.Proofs.Runs.Evaluation
import ModularLexer.Proofs.Segmentation.Drawing
import ModularLexer.Proofs.Segmentation.Peeking
import ModularLexer.Proofs.Coupling.Drivers
import ModularLexer.Proofs.Coupling.Programs
import ModularLexer.Proofs.Coupling.Watching
import ModularLexer.Proofs.Coupling.Listening
import ModularLexer.Proofs.Coupling.Shifting
import ModularLexer.Proofs.Regex.Characters
import ModularLexer.Proofs.Regex.Size
import ModularLexer.Proofs.Nesting.Balance
import ModularLexer.Proofs.Nesting.Grammar
import ModularLexer.Proofs.Nesting.Lexing
import ModularLexer.Proofs.Nesting.Deciding
import ModularLexer.Proofs.Runs.Growth
import ModularLexer.Proofs.Runs.Room
import ModularLexer.Proofs.Slices.Cutting
import ModularLexer.Proofs.Slices.Provenance
import ModularLexer.Proofs.Slices.Bounds
import ModularLexer.Proofs.Progress.Payment
import ModularLexer.Proofs.Progress.Settling
import ModularLexer.Proofs.Progress.Patterns
import ModularLexer.Proofs.Order.Spans
import ModularLexer.Proofs.Order.Rounds
import ModularLexer.Proofs.Order.Listing
import ModularLexer.Proofs.Stream.Lookahead
import ModularLexer.Proofs.Stream.Skipping
import ModularLexer.Proofs.Slices.Taking
import ModularLexer.Proofs.Progress.Reporting
import ModularLexer.Proofs.Handling
import ModularLexer.Proofs.Patterns.Deriving
import ModularLexer.Proofs.Patterns.Reading
import ModularLexer.Proofs.Patterns.Failing
import ModularLexer.Proofs.Patterns.Observing
import ModularLexer.Proofs.Segmentation.Rearranging
import ModularLexer.Proofs.Slices.Pieces
import ModularLexer.Proofs.Segmentation.Characters
import ModularLexer.Proofs.Order.Places
import ModularLexer.Proofs.Registering.Histories
import ModularLexer.Proofs.Registering.Licences
import ModularLexer.Proofs.Slices.Gaps
import ModularLexer.Proofs.Runs.Stashes
