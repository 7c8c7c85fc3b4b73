import LiveSheet.Command.Directory
import LiveSheet.Formula.Bindings
import LiveSheet.Formula.Grammar
import LiveSheet.Main
import LiveSheet.Sheet.Session
import LiveSheet.Proofs.Sheet.Pass
import LiveSheet.Proofs.Sheet.Relink
import LiveSheet.Proofs.Sheet.Index
import LiveSheet.Proofs.Formula.Building
import LiveSheet.Proofs.Sheet.Sound
import LiveSheet.Proofs.Sheet.Apply
import LiveSheet.Proofs.Sheet.Operations
import LiveSheet.Proofs.Sheet.Runs
import LiveSheet.Proofs.Sheet.Ordering
import LiveSheet.Proofs.Sheet.Apart
import LiveSheet.Proofs.Sheet.Applied
import LiveSheet.Proofs.Formula.Naming
import LiveSheet.Proofs.Formula.Relexing
import LiveSheet.Proofs.Formula.Scopes
import LiveSheet.Proofs.Formula.Renaming
import LiveSheet.Proofs.Formula.Spans
import LiveSheet.Proofs.Formula.Spacing
import LiveSheet.Proofs.Formula.Replacement
import LiveSheet.Proofs.Sheet.Phrased
import LiveSheet.Proofs.Sheet.Agreement
import LiveSheet.Proofs.Formula.Resolving
import LiveSheet.Proofs.Sheet.LateBinding
import LiveSheet.Proofs.Sheet.Telling
import LiveSheet.Proofs.Sheet.Glitchless
import LiveSheet.Proofs.Sheet.RenameBindings
import LiveSheet.Proofs.Formula.Failing
import LiveSheet.Proofs.Sheet.Pristine
import LiveSheet.Proofs.Storage.Reload
import LiveSheet.Proofs.Storage.Restored
import LiveSheet.Proofs.Storage.Cycles
import LiveSheet.Proofs.Storage.Confluence
import LiveSheet.Proofs.Storage.Replay
import LiveSheet.Proofs.Storage.RoundTrip
import LiveSheet.Proofs.Storage.Referable
import LiveSheet.Proofs.Formula.Descent
import LiveSheet.Proofs.Formula.Shunting
import LiveSheet.Proofs.Formula.Parsing
import LiveSheet.Proofs.Formula.Acceptance
import LiveSheet.Proofs.Formula.Flattening
import LiveSheet.Proofs.Formula.Conservation
import LiveSheet.Proofs.Formula.Arity
import LiveSheet.Proofs.Formula.Coverage
import LiveSheet.Proofs.Sheet.Watching
import LiveSheet.Proofs.Sheet.Enrolment
import LiveSheet.Proofs.Plane
import LiveSheet.Proofs.Sheet.Atomicity
import LiveSheet.Proofs.Sheet.Circularity
import LiveSheet.Proofs.Sheet.Breakage
import LiveSheet.Proofs.Sheet.Recovery
import LiveSheet.Proofs.Sheet.Recreation
import LiveSheet.Proofs.Sheet.Reapplying
import LiveSheet.Proofs.Sheet.Locality
import LiveSheet.Proofs.Formula.FirstFailure
import LiveSheet.Proofs.Number.Exact
import LiveSheet.Proofs.Number.Order
import LiveSheet.Proofs.Number.Range
import LiveSheet.Proofs.Formula.Extrema
import LiveSheet.Proofs.Command.Evaluating
import LiveSheet.Proofs.Sheet.Phases
import LiveSheet.Proofs.Formula.Nameable
import LiveSheet.Proofs.Sheet.Subscribing
import LiveSheet.Proofs.Command.Filing
import LiveSheet.Proofs.Number.Readback
import LiveSheet.Proofs.Formula.Equality
import LiveSheet.Proofs.Sheet.Downstream
import LiveSheet.Proofs.Sheet.Generating
