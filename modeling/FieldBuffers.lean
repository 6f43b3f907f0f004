import FieldBuffers.Session
import FieldBuffers.Catalog.Sample
import FieldBuffers.Command.Run
import FieldBuffers.Main
import FieldBuffers.Proofs.Item
import FieldBuffers.Proofs.Region
import FieldBuffers.Proofs.ValueBytes
import FieldBuffers.Proofs.Storage
import FieldBuffers.Proofs.Lookup
import FieldBuffers.Proofs.Occurrence
import FieldBuffers.Proofs.Writing
import FieldBuffers.Proofs.Compacting
import FieldBuffers.Proofs.Growth
import FieldBuffers.Proofs.Standalone
import FieldBuffers.Proofs.Editing
import FieldBuffers.Proofs.Reachable
import FieldBuffers.Proofs.Reading
import FieldBuffers.Proofs.Offers
import FieldBuffers.Proofs.WellFormed
import FieldBuffers.Proofs.Same
import FieldBuffers.Proofs.Multimap
import FieldBuffers.Proofs.Simulation
import FieldBuffers.Proofs.Matching
import FieldBuffers.Proofs.Atomic
import FieldBuffers.Proofs.Lockstep
import FieldBuffers.Proofs.Transparent
import FieldBuffers.Proofs.Transport
import FieldBuffers.Proofs.Merging
import FieldBuffers.Proofs.Canonical
import FieldBuffers.Proofs.Importing
import FieldBuffers.Proofs.Rereading
import FieldBuffers.Proofs.Logical
import FieldBuffers.Proofs.Loading
import FieldBuffers.Proofs.Algebra
import FieldBuffers.Proofs.Reexporting
import FieldBuffers.Proofs.Rebuilding
import FieldBuffers.Proofs.Combinations
import FieldBuffers.Proofs.Quantifying
import FieldBuffers.Proofs.Scanning
import FieldBuffers.Proofs.Grammar
import FieldBuffers.Proofs.Recognising
import FieldBuffers.Proofs.Deriving
import FieldBuffers.Proofs.Confined
import FieldBuffers.Proofs.Demand
import FieldBuffers.Proofs.Equality
import FieldBuffers.Proofs.Nested
import FieldBuffers.Proofs.Congruence
import FieldBuffers.Proofs.Fingerprint
import FieldBuffers.Proofs.Naming
import FieldBuffers.Proofs.Reloading
import FieldBuffers.Proofs.Books
import FieldBuffers.Proofs.Fitted
import FieldBuffers.Proofs.Settling
import FieldBuffers.Proofs.Custody
import FieldBuffers.Proofs.Spans
import FieldBuffers.Proofs.Terms
import FieldBuffers.Proofs.Prolonged
import FieldBuffers.Proofs.Classes
import FieldBuffers.Proofs.Enclosed
import FieldBuffers.Proofs.Anchored
import FieldBuffers.Proofs.Covering
import FieldBuffers.Proofs.Seeking
import FieldBuffers.Proofs.Coding
import FieldBuffers.Proofs.Partition
import FieldBuffers.Proofs.Faults
import FieldBuffers.Proofs.Descent
import FieldBuffers.Proofs.Depth
import FieldBuffers.Proofs.Outline
import FieldBuffers.Proofs.Limits
import FieldBuffers.Proofs.Escapes
import FieldBuffers.Proofs.Literals
import FieldBuffers.Proofs.Twins
import FieldBuffers.Proofs.Deeds
import FieldBuffers.Proofs.Levels
import FieldBuffers.Proofs.Blocks
import FieldBuffers.Proofs.Installments
import FieldBuffers.Proofs.Walks
import FieldBuffers.Proofs.Classic
import FieldBuffers.Proofs.Layers
import FieldBuffers.Proofs.Nesting
import FieldBuffers.Proofs.Offending
import FieldBuffers.Proofs.Refused
import FieldBuffers.Proofs.Sizing
import FieldBuffers.Proofs.Clearing
import FieldBuffers.Proofs.Stacking
import FieldBuffers.Proofs.Entering
import FieldBuffers.Proofs.Packing
