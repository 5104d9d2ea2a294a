import LiminalDB.Foundations.Cbor
import LiminalDB.Foundations.Clamped
import LiminalDB.Foundations.Consecutive
import LiminalDB.Foundations.Crash
import LiminalDB.Foundations.Decimals
import LiminalDB.Foundations.EdgeBooks
import LiminalDB.Foundations.Floats
import LiminalDB.Foundations.Gossip
import LiminalDB.Foundations.Greatest
import LiminalDB.Foundations.HashChain
import LiminalDB.Foundations.Interleaving
import LiminalDB.Foundations.KeyedFold
import LiminalDB.Foundations.Leading
import LiminalDB.Foundations.LittleEndian
import LiminalDB.Foundations.MapSum
import LiminalDB.Foundations.Narration
import LiminalDB.Foundations.OrderedEntries
import LiminalDB.Foundations.Purge
import LiminalDB.Foundations.Reachability
import LiminalDB.Foundations.Separators
import LiminalDB.Foundations.Sha256
import LiminalDB.Foundations.StateResult
import LiminalDB.Foundations.Text
import LiminalDB.Foundations.TopOf
import LiminalDB.Foundations.Words
import LiminalDB.Wal.Store
import LiminalDB.Wal.Stream
import LiminalDB.Wal.Frames
import LiminalDB.Wal.Image
import LiminalDB.Wal.Writer
import LiminalDB.Wal.Crc32
import LiminalDB.Wal.Runs
import LiminalDB.Wal.Prefix
import LiminalDB.Wal.Misread
import LiminalDB.Wal.Repair
import LiminalDB.Wal.Gc
import LiminalDB.Sal.Wal
import LiminalDB.Sal.Paging
import LiminalDB.Security.TokenBucket
import LiminalDB.Security.Access
import LiminalDB.Ledger.Types
import LiminalDB.Ledger.Validate
import LiminalDB.Ledger.Apply
import LiminalDB.Ledger.Linked
import LiminalDB.Ledger.History
import LiminalDB.Ledger.Invariants
import LiminalDB.Ledger.Evidence
import LiminalDB.Ledger.Ledger
import LiminalDB.Ledger.SnapshotReplace
import LiminalDB.Ledger.Isolation
import LiminalDB.Ledger.Recovery
import LiminalDB.Ledger.FailedAppend
import LiminalDB.Ledger.Unfailing
import LiminalDB.Checkpoint.Types
import LiminalDB.Checkpoint.Verify
import LiminalDB.Checkpoint.Linked
import LiminalDB.Checkpoint.AntiRollback
import LiminalDB.Checkpoint.Material
import LiminalDB.Checkpoint.Completeness
import LiminalDB.Checkpoint.KeySlots
import LiminalDB.Checkpoint.AnchorClasses
import LiminalDB.Governance.Types
import LiminalDB.Governance.Bridge
import LiminalDB.Governance.Chain
import LiminalDB.Governance.Retry
import LiminalDB.ProofPath.Types
import LiminalDB.ProofPath.Ledger
import LiminalDB.ProofPath.Replay
import LiminalDB.ProofPath.Runs
import LiminalDB.Noetic.Crdt
import LiminalDB.Noetic.State
import LiminalDB.Noetic.Convergence
import LiminalDB.Noetic.Summary
import LiminalDB.Noetic.Restore
import LiminalDB.Noetic.Consensus
import LiminalDB.Noetic.VoteTally
import LiminalDB.Noetic.Clock
import LiminalDB.Noetic.PnCounter
import LiminalDB.Noetic.Runtime
import LiminalDB.Bridge.Outbox
import LiminalDB.Bridge.StreamCodec
import LiminalDB.Bridge.Handshake
import LiminalDB.Bridge.Peers
import LiminalDB.Field.Cell
import LiminalDB.Field.Delta
import LiminalDB.Field.ClusterField
import LiminalDB.Field.Route
import LiminalDB.Field.Tick
import LiminalDB.Field.Dream
import LiminalDB.Field.Runs
import LiminalDB.Field.Replica
import LiminalDB.Field.Trace
import LiminalDB.Field.Chains
import LiminalDB.Field.TickChains
import LiminalDB.Field.TrimChains
import LiminalDB.Field.DreamChains
import LiminalDB.Field.CallChains
import LiminalDB.Field.Topology
import LiminalDB.Field.Memory
import LiminalDB.Field.Links
import LiminalDB.Field.Snapshot
import LiminalDB.Field.SnapshotTail
import LiminalDB.Field.Startup
import LiminalDB.Field.Population
import LiminalDB.Field.TokenIndex
import LiminalDB.Field.LinkBooks
import LiminalDB.Field.LinkCalls
import LiminalDB.Field.LinkDreams
import LiminalDB.Field.LinkTicks
import LiminalDB.Field.LinkTracking
import LiminalDB.Field.Epochs
import LiminalDB.Field.Seeds
import LiminalDB.Field.Notes
import LiminalDB.Field.Retention
import LiminalDB.Field.Hits
import LiminalDB.Field.Lql
import LiminalDB.Field.Reflexes
import LiminalDB.Field.DreamFrame
import LiminalDB.Field.DreamBudget
import LiminalDB.Field.Feedback
import LiminalDB.Field.Cooldowns
import LiminalDB.Field.Synchrony
import LiminalDB.Field.Views
import LiminalDB.Field.Variants
import LiminalDB.Field.Queries
import LiminalDB.Field.ViewRuns
import LiminalDB.Field.Commitments
import LiminalDB.Field.Undisturbed
import LiminalDB.Field.Lasting
import LiminalDB.Field.Vitals
import LiminalDB.Field.Harmony
import LiminalDB.Journal.DiskJournal
import LiminalDB.Journal.Envelope
import LiminalDB.Journal.SnapshotCrash
import LiminalDB.Lql.Parser
import LiminalDB.Lql.Grammar
import LiminalDB.Lql.Rendering
import LiminalDB.Lql.Leftovers
import LiminalDB.Life.Controller
import LiminalDB.Life.Loop
import LiminalDB.Life.Clockwork
import LiminalDB.Life.Schedule
import LiminalDB.Life.Groups
import LiminalDB.Bridge.Events
import LiminalDB.Bridge.Census
import LiminalDB.Bridge.Hints
