import DisjointTraps.Body
import DisjointTraps.Body.Generator
import DisjointTraps.Body.Samples
import DisjointTraps.Command.Run
import DisjointTraps.Main
import DisjointTraps.Split
import DisjointTraps.Table
import DisjointTraps.Text.Statement
import DisjointTraps.World
import DisjointTraps.Proofs.Blocks
import DisjointTraps.Proofs.Changes
import DisjointTraps.Proofs.Cut
import DisjointTraps.Proofs.Placement
import DisjointTraps.Proofs.Dispatch
import DisjointTraps.Proofs.Timeline
import DisjointTraps.Proofs.Pieces
import DisjointTraps.Proofs.Runs
import DisjointTraps.Proofs.Audit
import DisjointTraps.Proofs.Outcome
import DisjointTraps.Proofs.Split
import DisjointTraps.Proofs.Partition
import DisjointTraps.Proofs.Comparison
import DisjointTraps.Proofs.Flattening
import DisjointTraps.Proofs.Veto
import DisjointTraps.Proofs.Validity
import DisjointTraps.Proofs.Grammar
import DisjointTraps.Proofs.Lexing
import DisjointTraps.Proofs.Reading
import DisjointTraps.Proofs.Assembly
import DisjointTraps.Proofs.Printing
import DisjointTraps.Proofs.RoundTrip
import DisjointTraps.Proofs.Binary
import DisjointTraps.Proofs.Batch
import DisjointTraps.Proofs.Command
import DisjointTraps.Proofs.Output
import DisjointTraps.Proofs.Seams
import DisjointTraps.Proofs.Boundaries
import DisjointTraps.Proofs.Sweep
import DisjointTraps.Proofs.Guarded.Basic
import DisjointTraps.Proofs.Guarded.Sweep
import DisjointTraps.Proofs.Guarded.Runs
import DisjointTraps.Proofs.Guarded.Audit
import DisjointTraps.Proofs.Guarded.Safety
import DisjointTraps.Proofs.Merging
import DisjointTraps.Proofs.FirstMatch
import DisjointTraps.Proofs.WholeBody
import DisjointTraps.Proofs.Structure
import DisjointTraps.Proofs.Report
import DisjointTraps.Proofs.Search
import DisjointTraps.Proofs.Size
import DisjointTraps.Proofs.Generated
import DisjointTraps.Proofs.Guarded.Generator
import DisjointTraps.Proofs.Interning
import DisjointTraps.Proofs.Lines
import DisjointTraps.Proofs.Faults
import DisjointTraps.Proofs.Numbers
import DisjointTraps.Proofs.Header
import DisjointTraps.Proofs.Lookup
