import EventIndex.Main
import EventIndex.Sql.Scripted
import EventIndex.Store.Faulty
import EventIndex.Proofs.Replay.Completeness
import EventIndex.Proofs.Delivery.ExactlyOnce
import EventIndex.Proofs.Delivery.Maxima
import EventIndex.Proofs.Projection.PerEntity
import EventIndex.Proofs.Projection.Ahead
import EventIndex.Proofs.Indexer.Coherence
import EventIndex.Proofs.Replay.Rebuild
import EventIndex.Proofs.Projection.GrantConservation
import EventIndex.Proofs.Projection.ProposalLifecycle
import EventIndex.Proofs.Projection.RewardClaim
import EventIndex.Proofs.Indexer.Retries
import EventIndex.Proofs.Store.Isolation
import EventIndex.Proofs.Batch.Cut
import EventIndex.Proofs.Delivery.Chunks
import EventIndex.Proofs.Worker.Surroundings
import EventIndex.Proofs.Worker.Attempts
import EventIndex.Proofs.Batch.Reach
import EventIndex.Proofs.Worker.Round
import EventIndex.Proofs.Worker.Report
import EventIndex.Proofs.Source.Selection
import EventIndex.Proofs.Worker.Drain
import EventIndex.Proofs.Indexer.Crew
import EventIndex.Proofs.Indexer.Independence
import EventIndex.Proofs.Replay.Comparison
import EventIndex.Proofs.Source.Lines
import EventIndex.Proofs.Sql.Snapshot
import EventIndex.Proofs.Sql.Redelivery
import EventIndex.Proofs.Delivery.Accounting
import EventIndex.Proofs.Source.Pages
import EventIndex.Proofs.Worker.Paging
import EventIndex.Proofs.Projection.Again
import EventIndex.Proofs.Replay.Order
import EventIndex.Proofs.Indexer.Use
import EventIndex.Proofs.Json.Integer
import EventIndex.Proofs.Payload.Decoding
import EventIndex.Proofs.Metrics.Reconciled
import EventIndex.Proofs.Retry.Trials
import EventIndex.Proofs.Sql.LogOrder
