import Modelark.Library.Sorting
import Modelark.Library.Dict
import Modelark.Library.Doubles
import Modelark.Library.DepthFirst
import Modelark.Library.DepthFirstRules
import Modelark.Placement.Types
import Modelark.Placement.Partial
import Modelark.Placement.Structural
import Modelark.Placement.GateB
import Modelark.Placement.Nodes
import Modelark.Placement.Validity
import Modelark.Placement.Guarantees
import Modelark.Placement.Completeness
import Modelark.Placement.Optimality
import Modelark.Placement.Order
import Modelark.Archive.Digest
import Modelark.Planning.Budgets
import Modelark.Planning.Candidates
import Modelark.Placement.Construction
import Modelark.Placement.Capacity
import Modelark.Proposal.Rows
import Modelark.Proposal.Approval
import Modelark.Placement.Projection
import Modelark.Execution.Catalog
import Modelark.Execution.Connections
import Modelark.Execution.Moves
import Modelark.Execution.Terminal
import Modelark.Execution.Binding
import Modelark.Execution.DriveMutation
import Modelark.Execution.Ownership
import Modelark.Library.Table
import Modelark.Revision.Catalog
import Modelark.Revision.Writers
import Modelark.Revision.Evidence
import Modelark.Revision.Discipline
import Modelark.Planning.Deposits
import Modelark.Planning.Convergence
import Modelark.Capacity.Evidence
import Modelark.Placement.Ledger
import Modelark.Placement.Independence
import Modelark.Library.Json
import Modelark.Proposal.Assembly
import Modelark.Proposal.Stored
import Modelark.Proposal.Hashing
import Modelark.Fill.Projection
import Modelark.Fill.Approved
import Modelark.Fill.Completion
import Modelark.Library.Immediate
import Modelark.Proposal.Authority
import Modelark.Proposal.Standing
import Modelark.Revision.Exclusion
import Modelark.Library.Journal
import Modelark.Revision.DriveRuns
import Modelark.Revision.Generations
import Modelark.Fill.Catalog
import Modelark.Fill.Placed
import Modelark.Fill.Current
import Modelark.Fill.Execution
import Modelark.Slice.Plans
import Modelark.Slice.Store
import Modelark.Slice.Calls
import Modelark.Slice.Fences
import Modelark.Slice.Stops
import Modelark.Library.Streams
import Modelark.StreamZnn.Container
import Modelark.StreamZnn.OutputCap
import Modelark.Admission.Facts
import Modelark.Library.Locks
import Modelark.Admission.Snapshots
import Modelark.Admission.Kept
import Modelark.Admission.Grounded
import Modelark.Conversion.Archive
import Modelark.Conversion.Plan
import Modelark.Library.Interruptions
import Modelark.Conversion.Convert
import Modelark.Conversion.Phases
import Modelark.Conversion.Steps
import Modelark.Conversion.Resume
import Modelark.Conversion.Annex
import Modelark.Conversion.Interrupted
import Modelark.Admission.Identities
import Modelark.Library.LastWins
import Modelark.Publication.LocationLog
import Modelark.Publication.Annotations
import Modelark.Publication.MapPolicy
import Modelark.Publication.Candidates
import Modelark.Library.Sha256
import Modelark.Library.Scalars
import Modelark.Slice.Domain
import Modelark.Slice.Seals
import Modelark.Library.JsonRecords
import Modelark.Slice.Contracts
import Modelark.Slice.StoredPlans
import Modelark.Slice.PlanCodec
import Modelark.Publication.Records
import Modelark.Publication.Scopes
import Modelark.Publication.Actions
import Modelark.Publication.Store
import Modelark.Publication.Writes
import Modelark.Publication.Journaled
import Modelark.Library.Raising
import Modelark.Revision.WriteContext
import Modelark.Placement.Refusals
import Modelark.Archive.Evidence
import Modelark.Revision.ReplicaHeal
import Modelark.Execution.FenceKeys
import Modelark.Admission.Observed
import Modelark.Library.Reading
import Modelark.StreamZnn.Readers
import Modelark.StreamZnn.Iterating
import Modelark.StreamZnn.Defaults
import Modelark.Library.PurePaths
import Modelark.Library.Sha1
import Modelark.Revision.CommittedBlob
import Modelark.Revision.DigestFills
import Modelark.Revision.HashRepair
import Modelark.Restore.Copies
import Modelark.Restore.Restoring
import Modelark.Restore.Recovery
import Modelark.Library.NewestCells
import Modelark.Publication.AnnotationOrder
import Modelark.Publication.PayloadPaths
import Modelark.Library.LeafTrees
import Modelark.Library.Md5
import Modelark.Publication.MetadataTree
import Modelark.Slice.Fat32Namespace
import Modelark.Publication.MetadataLeaves
import Modelark.Planning.Acquisition
import Modelark.Library.JsonDecoding
import Modelark.Library.Tilings
import Modelark.Verification.Safetensors
import Modelark.Verification.Shards
import Modelark.Verification.Unindexed
import Modelark.Library.JsonSizes
import Modelark.Slice.Reserves
import Modelark.Slice.Estimates
import Modelark.Library.HashChains
import Modelark.Slice.Journal
import Modelark.Placement.Incremental
import Modelark.Library.ParentChains
import Modelark.Slice.BlockInventory
import Modelark.Slice.Hardware
import Modelark.Slice.Allocation
import Modelark.Library.ChunkReaders
import Modelark.Originals.Frames
import Modelark.Originals.Workers
import Modelark.Originals.Streamed
import Modelark.Originals.Zstd
import Modelark.Originals.OriginalStreams
import Modelark.Publication.MapFiles.Ledger
import Modelark.Publication.MapFiles.Survey
import Modelark.Publication.MapFiles.Candidate
import Modelark.Publication.MapFiles.Kept
import Modelark.Publication.MapFiles.Laws
import Modelark.Publication.MapFiles.Resumed
import Modelark.Publication.MapFiles.Carried
import Modelark.Publication.MapFiles.Continued
import Modelark.Publication.MapFiles.Completed
import Modelark.Publication.MapFiles.Native
import Modelark.Publication.MapFiles.StagedFiles
import Modelark.Publication.Accepted
import Modelark.Publication.JournaledRuns
import Modelark.Publication.Retained
