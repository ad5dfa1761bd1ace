/-
**The tables of the ClickHouse store.**

* `Tables.insertEvents` is a block of events with what the materialized views add to the other tables.
* `Move` is what happens to the tables: blocks of events are inserted and ClickHouse merges parts.
* An identifier names one event (`names`): what is ingested under it is that event, whatever batch
  and delivery brought it.
-/

import Trail.ClickHouse.Summaries
import Trail.Library.Threads
import Trail.Library.Table
import Trail.Postgres.Store

namespace Trail.Warehouse

open Library Payload Storage Archive
open ClickHouse (SummaryKey FlowState ExecutionState flowSingle executionSingle viewParts)
open Postgres (decodeIDs)
open Retention (DeleteRequest DeleteResult EventPayload Times Candidate)

/-! ### Rows -/

/-- The values of the column `kind` of `trail_retention_summary_rebuilds`. -/
inductive Kind
  | flow
  | execution
  deriving DecidableEq, Repr

/-- A row of `trail_retention_summary_rebuilds`, without its version. -/
structure Task where
  kind : Kind
  identity : GoString
  deriving DecidableEq, Repr

/-- A row of `trail_payload_gc_candidates`. -/
structure CandidateRow where
  store : GoString
  objectKey : GoString
  refJSON : GoString
  eligibleAt : Time
  candidateAt : Time
  retryAfter : Time
  attempts : UInt32
  lastError : GoString
  archiveID : GoString
  version : Time
  deriving DecidableEq, Repr

/-- A row of `trail_event_archives`. -/
structure EventArchiveRow where
  eventID : GoString
  archiveID : GoString
  archivedAt : Time
  version : Time
  deriving DecidableEq, Repr

/-- A row of `trail_archives`. -/
structure ArchiveRow where
  receipt : Receipt
  version : Time
  deriving DecidableEq, Repr

/-- A row of `trail_flow_terminals`. -/
structure TerminalRow where
  flowID : FlowID
  eventTime : Time
  service : GoString
  environment : GoString
  entityType : GoString
  entityID : GoString
  executionID : ExecutionID
  status : GoString
  deriving DecidableEq, Repr

/-! ### Tables -/

structure Tables where
  events : List EventRecord := []
  flowSummaries : List (SummaryKey × FlowState) := []
  executionSummaries : List (SummaryKey × ExecutionState) := []
  flowTerminals : List TerminalRow := []
  rebuilds : List Task := []
  candidates : List CandidateRow := []
  archives : List ArchiveRow := []
  eventArchives : List EventArchiveRow := []

/-- The statuses of `trail_flow_terminals`. -/
def terminalStatuses : List GoString := [ascii "succeeded", ascii "failed", ascii "cancelled"]

/-- The rows of `trail_flow_terminals` for events. -/
def terminalRows (rows : List EventRecord) : List TerminalRow :=
  (rows.filter fun e => e.flowStatus ∈ terminalStatuses).map fun e =>
    ⟨e.flowID, e.timestamp, e.metadata.service, e.metadata.environment, e.entityType, e.entityID,
      e.executionID, e.flowStatus⟩

namespace Tables

/-- A block of events inserted into `trail_events`, with what the views add. -/
def insertEvents (tables : Tables) (block : List EventRecord) : Tables := { tables with
  events := tables.events ++ block
  flowSummaries := tables.flowSummaries ++ viewParts EventRecord.flowID flowSingle block
  executionSummaries := tables.executionSummaries ++
    viewParts EventRecord.executionID executionSingle block
  flowTerminals := tables.flowTerminals ++
    terminalRows (block.filter fun e => e.flowID ≠ Bytes.zero 16) }

end Tables

/-! ### The store of one retention runner -/

/-- What others do to the tables. -/
inductive Move
  /-- A block of events is ingested, or restored. -/
  | ingest (block : List EventRecord)
  /-- Parts of `trail_events` are merged: the rows that are left. -/
  | mergeEvents (rows : List EventRecord)
  /-- Two parts of a summary table are merged. -/
  | mergeFlows (first second : Nat)
  | mergeExecutions (first second : Nat)

section Names

variable (names : EventID → EventRecord)

/-- The record is the event of its identifier, from some batch and delivery. -/
def Names (e : EventRecord) : Prop :=
  e = { names e.id with id := e.id, batchID := e.batchID, delivery := e.delivery }

instance (e : EventRecord) : Decidable (Names names e) := by
  unfold Names
  infer_instance

/-- A merge drops rows of identifiers that have another row. -/
def MergesEvents (before after : List EventRecord) : Prop :=
  (∀ e ∈ after, e ∈ before) ∧ ∀ e ∈ before, ∃ kept ∈ after, kept.id = e.id

instance (before after : List EventRecord) : Decidable (MergesEvents before after) := by
  unfold MergesEvents
  infer_instance

/-- The effect of a move, if it is one. -/
def move (tables : Tables) : Move → Option Tables
  | .ingest block => if ∀ e ∈ block, Names names e then some (tables.insertEvents block) else none
  | .mergeEvents rows =>
    if MergesEvents tables.events rows then some { tables with events := rows } else none
  | .mergeFlows first second => (mergeParts tables.flowSummaries first second).map fun parts =>
    { tables with flowSummaries := parts }
  | .mergeExecutions first second =>
    (mergeParts tables.executionSummaries first second).map fun parts =>
      { tables with executionSummaries := parts }

end Names

end Trail.Warehouse
