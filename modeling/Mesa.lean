import Mesa.Foundation.Table
import Mesa.Foundation.Run
import Mesa.Foundation.Result
import Mesa.Foundation.UnionFind
import Mesa.Ledger.State
import Mesa.Ledger.Transition
import Mesa.Ledger.Catalog
import Mesa.Ledger.Outbox
import Mesa.Ledger.Artifacts
import Mesa.Ledger.Rollback
import Mesa.Ledger.Identity
import Mesa.Ledger.Entities
import Mesa.Ledger.Exec
import Mesa.Ledger.Moves
import Mesa.Ledger.Advance
import Mesa.Ledger.Effects
import Mesa.Ledger.Footprint
import Mesa.Ledger.Progress
import Mesa.Ledger.Commit
import Mesa.Ledger.Registry
import Mesa.Ledger.Replay
import Mesa.Ledger.Heads
import Mesa.Ledger.Restore
import Mesa.Ledger.Drafts
import Mesa.Ledger.Activation
import Mesa.Ledger.Inverse
import Mesa.Ledger.Aggregate
import Mesa.Ledger.Links
import Mesa.Ledger.Subjects
import Mesa.Ledger.Resolution
import Mesa.Ledger.Components
import Mesa.Ledger.Lanes
import Mesa.Ledger.Retry
import Mesa.Ledger.Persistence
import Mesa.Ledger.Intake
import Mesa.Ledger.Admission
import Mesa.Ledger.Dispatch
import Mesa.Ledger.QueueSafety
import Mesa.Ledger.Capacity
import Mesa.Ledger.ExactlyOnce
import Mesa.Ledger.Manifests
import Mesa.Operations.Repository
import Mesa.Operations.Moves
import Mesa.Operations.Invariants
import Mesa.Operations.Budget
import Mesa.Wal.Moves
import Mesa.Wal.Stranding
import Mesa.Purge.Journal
import Mesa.Purge.Safety
import Mesa.Foundation.Program
import Mesa.Foundation.Rounding
import Mesa.Foundation.Trails
import Mesa.Foundation.Texts
import Mesa.Foundation.Trim
import Mesa.Foundation.Spans
import Mesa.Foundation.Durable
import Mesa.Foundation.Ordering
import Mesa.Foundation.Redo
import Mesa.Retrieval.Rows
import Mesa.Retrieval.Environment
import Mesa.Retrieval.Scope
import Mesa.Retrieval.Lanes
import Mesa.Retrieval.Graph
import Mesa.Retrieval.Search
import Mesa.Retrieval.Cache
import Mesa.Retrieval.Contracts
import Mesa.Retrieval.Confinement
import Mesa.Retrieval.Determinacy
import Mesa.Retrieval.Transparency
import Mesa.Retrieval.AuthorisedGraph
import Mesa.Retrieval.SimplePaths
import Mesa.Retrieval.Traversal
import Mesa.Provider.Graph
import Mesa.Provider.Tasks
import Mesa.Provider.Isolation
import Mesa.Provider.Coherence
import Mesa.Rebuild.Payload
import Mesa.Rebuild.Snapshot
import Mesa.Rebuild.Replay
import Mesa.Rebuild.Content
import Mesa.Rebuild.Batches
import Mesa.Rebuild.Parity
import Mesa.Rebuild.Gate
import Mesa.Foundation.InForce
import Mesa.Security.AccessControl
import Mesa.Security.Authority
import Mesa.Security.PolicyMigration
import Mesa.Security.PolicyUpgrade
import Mesa.Security.ApiKeys
import Mesa.Security.KeyLifecycle
import Mesa.Gateway.Breaker
import Mesa.Gateway.BoundedCache
import Mesa.Gateway.Sessions
import Mesa.Gateway.RecallFreshness
import Mesa.Gateway.SessionIsolation
import Mesa.Operations.Cutover
import Mesa.Consolidation.Coverage
import Mesa.Consolidation.Delivery
import Mesa.Consolidation.Finalization
import Mesa.Consolidation.FinalizationLimit
import Mesa.Gateway.WayForward
import Mesa.Vectors.Alignment
import Mesa.Gateway.SpoolSafety
import Mesa.Ledger.Upgrades
import Mesa.Foundation.Optional
import Mesa.Foundation.Scan
import Mesa.Documents.Chunking
import Mesa.Documents.Slices
import Mesa.Documents.Undisturbed
import Mesa.Documents.Ingestion
import Mesa.Documents.Admitted
import Mesa.Foundation.Rewriting
import Mesa.Security.Sanitizer
import Mesa.Security.UntrustedMemory
import Mesa.Foundation.Joining
import Mesa.Ledger.IdentityTexts
import Mesa.Consolidation.Extraction
import Mesa.Consolidation.FactExtraction
import Mesa.Consolidation.Truncation
import Mesa.Rebuild.Adoption
import Mesa.Documents.Listing
import Mesa.Gateway.Improve
import Mesa.Foundation.JsonTree
import Mesa.Control.Credentials
import Mesa.Control.CredentialLifecycle
import Mesa.Migration.Coordinator
import Mesa.Migration.Safety
import Mesa.Migration.SchemaMigration
import Mesa.Migration.Recovery
import Mesa.Migration.GraphStore
import Mesa.Migration.Fidelity
import Mesa.Vectors.AlignmentSafety
import Mesa.Foundation.Ranking
import Mesa.Retrieval.Fusion
import Mesa.Retrieval.Adaptive
import Mesa.Retrieval.AdaptiveEvidence
import Mesa.Foundation.PrefixCode
import Mesa.Legal.NumberWords
import Mesa.Client.Retry
import Mesa.Workers.Supervision
import Mesa.Gateway.LockRegistry
import Mesa.Documents.Loops
import Mesa.Documents.ArticleIdentity
import Mesa.Foundation.Packing
import Mesa.Retrieval.ContextPacking
import Mesa.Retrieval.ContextAccounting
import Mesa.Foundation.Sweep
import Mesa.Foundation.Regex
import Mesa.Foundation.Buckets
import Mesa.Foundation.Pieces
import Mesa.Legal.SpanEnds
import Mesa.Legal.Subsumption
import Mesa.Legal.LawNames
import Mesa.Legal.NameIndex
import Mesa.Legal.NameScan
import Mesa.Legal.SourceSpans
import Mesa.Legal.Statutes
import Mesa.Legal.TrustedIdentity
import Mesa.Consolidation.ObjectKinds
import Mesa.Documents.Exactness
import Mesa.Legal.RuleSpans
import Mesa.Recovery.Backups
import Mesa.Recovery.Restores
import Mesa.Recovery.Snapshot
import Mesa.Recovery.Meaning
import Mesa.Recovery.Validated
import Mesa.Recovery.Copying
import Mesa.Recovery.Success
import Mesa.Recovery.RoundTrip
import Mesa.Rebuild.Attempts
