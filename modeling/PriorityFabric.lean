import PriorityFabric.Lib.LittleEndian
import PriorityFabric.Lib.ByteReader
import PriorityFabric.Lib.KeyedTable
import PriorityFabric.Lib.GroupIndex
import PriorityFabric.Basics
import PriorityFabric.Ident
import PriorityFabric.Hashing
import PriorityFabric.Model
import PriorityFabric.Codec
import PriorityFabric.ModelCodec
import PriorityFabric.State
import PriorityFabric.Evaluate
import PriorityFabric.Validate
import PriorityFabric.StateCodec
import PriorityFabric.Apply
import PriorityFabric.Durability
import PriorityFabric.JournalScan
import PriorityFabric.Store
import PriorityFabric.Runtime
import PriorityFabric.Readable
import PriorityFabric.DerivedIndex
import PriorityFabric.ApplyFacts
import PriorityFabric.Bounds
import PriorityFabric.StoreFiles
import PriorityFabric.Replaying
import PriorityFabric.StateDirectory
import PriorityFabric.Committing
import PriorityFabric.Serving
import PriorityFabric.Unfinished
import PriorityFabric.CommitRuns
import PriorityFabric.Reopening
import PriorityFabric.Crashes
import PriorityFabric.Calls
import PriorityFabric.UsableEvidence
import PriorityFabric.Decisions
import PriorityFabric.Lifetimes
import PriorityFabric.Authority
import PriorityFabric.ReadBack
import PriorityFabric.Registry
import PriorityFabric.Lib.Walks
import PriorityFabric.Inheritance
import PriorityFabric.Ancestry
import PriorityFabric.LongestPaths
import PriorityFabric.Depths
import PriorityFabric.Holdings
import PriorityFabric.Contradictions
import PriorityFabric.Immunity
import PriorityFabric.Semantics
import PriorityFabric.Tiers
import PriorityFabric.Refinement
import PriorityFabric.StateRoundTrip
import PriorityFabric.LiveIndex
import PriorityFabric.Lib.ReaderResults
import PriorityFabric.Lib.Rewriting
import PriorityFabric.Lib.SortedTables
import PriorityFabric.Decoded
import PriorityFabric.Checkpoints
import PriorityFabric.Lib.Versions
import PriorityFabric.Generations
import PriorityFabric.QueryCodec
import PriorityFabric.Populations
import PriorityFabric.Wire
import PriorityFabric.Node
import PriorityFabric.Guarding
import PriorityFabric.Connections
import PriorityFabric.Views
import PriorityFabric.Isolation
import PriorityFabric.Fading
import PriorityFabric.Commuting
import PriorityFabric.Rewritten
import PriorityFabric.Canonical
import PriorityFabric.DecisionCodec
import PriorityFabric.Measured
import PriorityFabric.Delivered
import PriorityFabric.WireBounds
import PriorityFabric.Refusals
import PriorityFabric.Planning
import PriorityFabric.PolicyBinding
import PriorityFabric.Exceptions
import PriorityFabric.Inspection
import PriorityFabric.Takeovers
import PriorityFabric.Granting
import PriorityFabric.Admissions
import PriorityFabric.Containment
import PriorityFabric.Spellings
import PriorityFabric.Texts
import PriorityFabric.Accounting
import PriorityFabric.AncestorLists
import PriorityFabric.Implications
import PriorityFabric.Outcomes
import PriorityFabric.Republication
import PriorityFabric.Rendering
import PriorityFabric.SegmentNaming
import PriorityFabric.Truncation
import PriorityFabric.Digests
import PriorityFabric.Checksums
import PriorityFabric.StateEncoding
import PriorityFabric.Snapshots
import PriorityFabric.Selection
import PriorityFabric.CheckpointCrashes
import PriorityFabric.IntegrityReports
import PriorityFabric.AlteredJournals
import PriorityFabric.Lib.RelatedTables
import PriorityFabric.Restarts
import PriorityFabric.Histories
import PriorityFabric.Lib.Exchanges
import PriorityFabric.Replies
import PriorityFabric.Streams
import PriorityFabric.Clients
import PriorityFabric.RemoteCalls
import PriorityFabric.Dialogues
import PriorityFabric.Fencing
import PriorityFabric.Lib.Tallied
import PriorityFabric.Lib.Rings
import PriorityFabric.Trails
import PriorityFabric.Metering
