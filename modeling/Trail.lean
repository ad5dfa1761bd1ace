import Trail.Library.Machine
import Trail.Library.Channel
import Trail.Library.Interaction
import Trail.Library.Threads
import Trail.Library.Lines
import Trail.Library.Separators
import Trail.Library.StoredGzip
import Trail.Library.Table
import Trail.Library.Groups
import Trail.Library.Paging
import Trail.Library.Patterns
import Trail.Library.Rows
import Trail.Core.Text
import Trail.Core.Identifier
import Trail.Core.Event
import Trail.Runtime.Machine
import Trail.Runtime.Steps
import Trail.Runtime.Invariant
import Trail.Runtime.Delivery
import Trail.Runtime.Accounting
import Trail.Runtime.Shutdown
import Trail.Payload.Ref
import Trail.Payload.Store
import Trail.Wire.Envelope
import Trail.Wire.Decimal
import Trail.Sink.Nats
import Mathlib.Data.List.Count
import Mathlib.Data.List.Nodup
import Mathlib.Data.List.Perm.Subperm
import Trail.Storage.Record
import Trail.Storage.Normalize
import Trail.Storage.EventMeaning
import Trail.Archive.Bundle
import Trail.Archive.Verification
import Trail.Archive.Depot
import Trail.Archive.ReadBack
import Trail.Archive.RoundTrip
import Trail.Archive.TamperEvidence
import Trail.Retention.Types
import Trail.Payload.S3
import Trail.Retention.Engine
import Trail.Retention.ArchiveFirst
import Trail.Postgres.Store
import Trail.Postgres.Reports
import Trail.Postgres.Invariant
import Trail.Postgres.LiveOrArchived
import Trail.Ingestor.Engine
import Trail.Ingestor.Rounds
import Trail.Ingestor.AckSafety
import Trail.Ingestor.Groups
import Trail.Ingestor.Isolation
import Trail.Ingestor.Redelivery
import Trail.ClickHouse.Events
import Trail.ClickHouse.Tokens
import Trail.Storage.Columns
import Trail.Postgres.Columns
import Trail.ClickHouse.Columns
import Trail.Storage.ReadBack
import Trail.Storage.References
import Trail.Retention.Scan
import Trail.Retention.Progress
import Trail.Postgres.Prediction
import Trail.Retention.ScanRows
import Trail.Archive.FailedCapture
import Trail.Library.Aggregates
import Trail.ClickHouse.Summaries
import Trail.ClickHouse.Retention
import Trail.ClickHouse.Rebuild
import Trail.Retention.Policies
import Trail.Library.Pools
import Trail.Retention.Collection
import Trail.Retention.Budget
import Trail.Retention.Failures
import Trail.Library.Agreement
import Trail.Retention.Schedules
import Trail.ClickHouse.ReferenceStreams
import Trail.Postgres.ReferenceCheck
import Trail.Library.Statements
import Trail.Storage.Queries
import Trail.Postgres.Queries
import Trail.Postgres.Clauses
import Trail.Storage.Listings
import Trail.ClickHouse.Listings
import Trail.ClickHouse.Ingested
import Trail.ClickHouse.Finalised
import Trail.ClickHouse.FlowPaging
import Trail.ClickHouse.VisibleRows
import Trail.Postgres.Listings
import Trail.Postgres.Summaries
import Trail.Postgres.GroupedPaging
import Trail.Stores.FlowDetail
import Trail.Stores.FlowListing
import Trail.Stores.EntitySearch
import Trail.Stores.RetryChains
import Trail.Explorer.Server
import Trail.Explorer.ScopedDetail
import Trail.Explorer.Cursors
import Trail.Explorer.EventPages
import Mathlib.Data.List.Forall2
import Trail.Storage.PayloadFields
import Trail.Library.Histories
import Trail.Storage.Promotion
import Trail.Storage.Domains
import Trail.Library.Paths
import Trail.Payload.Filesystem
import Trail.Explorer.PayloadResponses
import Trail.Sink.Stdout
import Trail.Sink.Correlation
import Trail.Sink.SharedBatch
import Trail.Http.Capture
import Trail.Http.Transport
import Trail.Http.Redaction
