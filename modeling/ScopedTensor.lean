import ScopedTensor.CommandLine.Execution
import ScopedTensor.Main
import ScopedTensor.Proofs.Action
import ScopedTensor.Proofs.Ownership.Account
import ScopedTensor.Proofs.Ownership.Soundness
import ScopedTensor.Proofs.Ownership.Updates
import ScopedTensor.Proofs.Ownership.Lifetimes
import ScopedTensor.Proofs.Ownership.Steps
import ScopedTensor.Proofs.Ownership.Tree
import ScopedTensor.Proofs.Ownership.Scopes
import ScopedTensor.Proofs.Ownership.Arrays
import ScopedTensor.Proofs.Ownership.Outputs
import ScopedTensor.Session.Operation
import ScopedTensor.Proofs.Ownership.Runs
import ScopedTensor.Proofs.Ownership.Ledger
import ScopedTensor.Proofs.Ownership.Audit
import ScopedTensor.Proofs.Ownership.Handles
import ScopedTensor.Proofs.Ownership.Reachability
import ScopedTensor.Proofs.Ownership.Freeing
import ScopedTensor.Proofs.Ownership.Closing
import ScopedTensor.Proofs.Ownership.Endings
import ScopedTensor.Proofs.Ownership.Likeness
import ScopedTensor.Proofs.Ownership.Untouched
import ScopedTensor.Proofs.Ownership.Failures
import ScopedTensor.Proofs.Ownership.Offerings
import ScopedTensor.Proofs.Ownership.Atomicity
import ScopedTensor.Library.Call
import ScopedTensor.Proofs.Deferral.Tasks
import ScopedTensor.Proofs.Deferral.Queue
import ScopedTensor.Proofs.Deferral.Simulation
import ScopedTensor.Proofs.Deferral.Runs
import ScopedTensor.Proofs.Adjoint.Equations
import ScopedTensor.Proofs.Adjoint.Contributions
import ScopedTensor.Proofs.Adjoint.Recording
import ScopedTensor.Proofs.Adjoint.Passes
import ScopedTensor.Proofs.Adjoint.DataFlow
import ScopedTensor.Proofs.Adjoint.Frames
import ScopedTensor.Proofs.Adjoint.Operands
import ScopedTensor.Proofs.Adjoint.Recorded
import ScopedTensor.Proofs.Calls
import ScopedTensor.Proofs.Store.Changes
import ScopedTensor.Proofs.Store.Bounds
import ScopedTensor.Proofs.Store.Narrowing
import ScopedTensor.Proofs.Store.Checked
import ScopedTensor.Proofs.Store.Handles
import ScopedTensor.Proofs.Store.Aliasing
import ScopedTensor.Proofs.Store.Refusals
import ScopedTensor.Proofs.Recording.Sections
import ScopedTensor.Proofs.Recording.Nesting
import ScopedTensor.Proofs.Recording.Marking
import ScopedTensor.Proofs.Isolation.Custody
import ScopedTensor.Proofs.Isolation.Tending
import ScopedTensor.Proofs.Isolation.Conduct
import ScopedTensor.Proofs.Isolation.Programs
import ScopedTensor.Proofs.Isolation.Provenance
import ScopedTensor.Proofs.Isolation.References
import ScopedTensor.Proofs.Isolation.Crossings
import ScopedTensor.Proofs.Operations.Moves
import ScopedTensor.Proofs.Operations.Work
import ScopedTensor.Proofs.Delivery.Deliveries
import ScopedTensor.Proofs.Delivery.Sizes
import ScopedTensor.Proofs.Delivery.Measures
import ScopedTensor.Proofs.Delivery.Guides
import ScopedTensor.Proofs.Delivery.Marks
import ScopedTensor.Proofs.Delivery.Attachments
import ScopedTensor.Proofs.Delivery.Backward
import ScopedTensor.Proofs.Passes.Routes
import ScopedTensor.Proofs.Passes.Failures
import ScopedTensor.Proofs.Passes.Exact
import ScopedTensor.Proofs.Passes.Lengths
import ScopedTensor.Proofs.Passes.Repetition
import ScopedTensor.Proofs.Store.Reshaping
import ScopedTensor.Proofs.Element.Rounding
import ScopedTensor.Proofs.Element.Widening
import ScopedTensor.Proofs.Element.Casting
import ScopedTensor.Proofs.Kernels.Lanes
import ScopedTensor.Proofs.Kernels.Sorting
import ScopedTensor.Proofs.Kernels.Naturals
import ScopedTensor.Proofs.Kernels.Orders
import ScopedTensor.Proofs.Kernels.Sweeps
import ScopedTensor.Proofs.Kernels.Evaluations
import ScopedTensor.Proofs.Kernels.Fulfilment
import ScopedTensor.Proofs.Kernels.Chunks
import ScopedTensor.Proofs.Foreign.Protocol
import ScopedTensor.Proofs.Foreign.Widths
import ScopedTensor.Proofs.Foreign.Counts
import ScopedTensor.Proofs.Knowledge.Answers
import ScopedTensor.Proofs.Knowledge.Faithful
import ScopedTensor.Proofs.Knowledge.Histories
import ScopedTensor.Proofs.Knowledge.Fidelity
import ScopedTensor.Proofs.Agreement.Upkeep
import ScopedTensor.Proofs.Agreement.Reached
import ScopedTensor.Proofs.Agreement.Acceptance
import ScopedTensor.Proofs.Agreement.Checks
import ScopedTensor.Proofs.Agreement.Contents
import ScopedTensor.Proofs.Agreement.Readings
import ScopedTensor.Proofs.Agreement.Operators
import ScopedTensor.Proofs.Agreement.Operations
import ScopedTensor.Proofs.Agreement.Buffers
import ScopedTensor.Proofs.Agreement.Reports
import ScopedTensor.Proofs.Agreement.Verdicts
import ScopedTensor.Proofs.Conversions.Contents
import ScopedTensor.Proofs.Conversions.Copies
import ScopedTensor.Proofs.Conversions.Reproduction
import ScopedTensor.Proofs.Rendering.Text
import ScopedTensor.Proofs.Rendering.Translations
import ScopedTensor.Proofs.Rendering.Views
import ScopedTensor.Proofs.Rendering.Dumps
import ScopedTensor.Proofs.Knowledge.Conditions
import ScopedTensor.Proofs.Rendering.Shown
import ScopedTensor.Proofs.Kernels.Reductions
import ScopedTensor.Proofs.Element.HostBuffers
import ScopedTensor.Proofs.Parameters.Numerals
import ScopedTensor.Proofs.Parameters.Entries
import ScopedTensor.Proofs.Parameters.Texts
