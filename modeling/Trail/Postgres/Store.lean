/-
**The PostgreSQL adapter, statement by statement.**

Each method of `Store` that writes is a program over the statements it sends: a run of the retention
engine against this store is `Engine.run` with its store calls carried out by these programs. The
database is the service the programs share. A statement sees the committed tables and the writes
of its own transaction; what a transaction has written is pending until `COMMIT` publishes it at
once, and is lost when the transaction is rolled back or its process crashes.

* `Statement` is the SQL the adapter executes for its effect, `Tables.exec` that effect, with every
  `ON CONFLICT` clause as written.
* `carryOut` is the adapter: one program for each call of the engine. The scan, the listings of
  candidates, the archiver, the payload stores and the clock answer as they please.
* `World` has two history variables: the identifiers ever committed, and what the archive catalogue
  said of an event when its row was deleted.
-/

import Mathlib.Data.List.Sort
import Trail.Library.Table
import Trail.Library.Threads
import Trail.Retention.Engine

namespace Trail.Postgres

open Library Payload Storage Archive
open Retention (DeleteRequest DeleteResult EventPayload Times)

/-! ### Statements -/

/-- A value of type `bytea`. -/
abbrev ByteA := List UInt8

/-- The statements the adapter executes for their effect. -/
inductive Statement
  /-- `insertEventSQL`. -/
  | insertEvent (e : EventRecord)
  /-- `INSERT INTO trail_archives … ON CONFLICT(archive_id) DO NOTHING`. -/
  | insertArchive (receipt : Receipt)
  /-- `INSERT INTO trail_event_archives … ON CONFLICT(event_id) DO UPDATE`. -/
  | insertEventArchive (id : ByteA) (archiveID : GoString)
  /-- `INSERT INTO trail_payload_gc_candidates … ON CONFLICT(store,object_key) DO UPDATE`. -/
  | insertCandidate (ref : Ref) (eligibleAt : Time) (archiveID : GoString)
  /-- `DELETE FROM trail_events WHERE event_id=ANY($1)`. -/
  | deleteEvents (ids : List ByteA)
  /-- `DELETE FROM trail_payload_gc_candidates`. -/
  | deleteCandidate (ref : Ref)
  /-- `UPDATE trail_payload_gc_candidates`. -/
  | retryCandidate (ref : Ref) (failure : GoString)

/-- What the adapter sends, and what it leaves to others. -/
inductive Call
  | beginTx
  | commit
  | rollback
  /-- `Exec`, within the open transaction if there is one. -/
  | exec (statement : Statement)
  /-- `SELECT count(*) FROM trail_event_archives WHERE archive_id=$1 AND event_id=ANY($2)`. -/
  | countEventArchives (archiveID : GoString) (ids : List ByteA)
  /-- `eventSelect` with `WHERE event_id=ANY($1) ORDER BY event_time,event_id`. -/
  | selectEvents (ids : List ByteA)
  /-- A call of the engine that no statement above answers. -/
  | outside (op : Retention.Call)

/-- `Exec` returns the number of rows affected. -/
def Call.Reply : Call → Type
  | .beginTx | .commit => Option GoError
  | .rollback => Unit
  | .exec _ | .countEventArchives _ _ => Except GoError Nat
  | .selectEvents _ => Except GoError (List EventRecord)
  | .outside op => op.Reply

abbrev signature : Signature := ⟨Call, Call.Reply⟩

/-! ### The methods of the store -/

/-- The error of `json.Marshal`, if any, on each type the adapter marshals. -/
structure Json where
  ref : Ref → Option GoError
  manifest : Manifest → Option GoError
  fields : List Wire.Field → Option GoError
  payloads : List PayloadLink → Option GoError

/-- The deferred `tx.Rollback` of a method that returns early. -/
def giveUp {α : Type} (value : α) : Prog signature α := .call .rollback fun _ => .pure value

/-- Statements in order, up to the first that fails. -/
def execAll : List Statement → Prog signature (Option GoError)
  | [] => .pure none
  | statement :: statements =>
    .call (.exec statement) fun
      | .error error => .pure (some error)
      | .ok _ => execAll statements

/-- The decoded identifiers of the events of a request. -/
def decodeIDs : List Retention.Event → Except GoError (List ByteA)
  | [] => .ok []
  | e :: events =>
    match Hex.decodeString e.id with
    | none => .error (Hex.decodeError e.id)
    | some id =>
      match decodeIDs events with
      | .error error => .error error
      | .ok ids => .ok (id :: ids)

/-- `LoadArchiveEvents`. -/
def loadArchiveEvents (events : List Retention.Event) :
    Prog signature (Except GoError (List EventRecord)) :=
  match decodeIDs events with
  | .error error => .pure (.error error)
  | .ok ids => .call (.selectEvents ids) .pure

/-- `CompletePayloadCandidate`. -/
def completePayloadCandidate (ref : Ref) (failure : GoString) : Prog signature (Option GoError) :=
  if failure = [] ∨ failure = ascii "referenced" then execAll [.deleteCandidate ref]
  else execAll [.retryCandidate ref failure]

section Methods

variable (json : Json)

/-- `WriteBatches`. -/
def writeBatches (batches : List Storage.Batch) : Prog signature (Option GoError) :=
  if batches = [] then .pure none
  else
    .call .beginTx fun
      | some error => .pure (some error)
      | none =>
        let events := batches.flatMap (·.events)
        match events.findSome? fun e => json.fields e.fields <|> json.payloads e.payloads with
        | some error => giveUp (some error)
        | none =>
          (execAll (events.map .insertEvent)).bind fun
            | some error => giveUp (some error)
            | none => .call .commit .pure

/-- `RestoreArchiveEvents`; the archive it is told to restore from is not used. -/
def restoreArchiveEvents (_archiveID : GoString) (events : List EventRecord) :
    Prog signature (Except GoError Nat) :=
  if events = [] then .pure (.ok 0)
  else
    (writeBatches json [⟨Bytes.zero 16, ⟨[], [], []⟩, {}, events⟩]).bind fun
      | some error => .pure (.error error)
      | none => .pure (.ok events.length)

/-- The loop of `RecordArchive` over the identifiers of the manifest. -/
def recordEvents (archiveID : GoString) : List GoString → Prog signature (Option GoError)
  | [] => .pure none
  | id :: ids =>
    match parseEventID id with
    | .error error => .pure (some error)
    | .ok parsed =>
      .call (.exec (.insertEventArchive parsed.1 archiveID)) fun
        | .error error => .pure (some error)
        | .ok _ => recordEvents archiveID ids

/-- `RecordArchive`. -/
def recordArchive (receipt : Receipt) : Prog signature (Option GoError) :=
  match json.manifest receipt.manifest <|> json.ref receipt.manifestRef with
  | some error => .pure (some error)
  | none =>
    .call .beginTx fun
      | some error => .pure (some error)
      | none =>
        .call (.exec (.insertArchive receipt)) fun
          | .error error => giveUp (some error)
          | .ok _ =>
            (recordEvents receipt.manifest.id receipt.manifest.eventIDs).bind fun
              | some error => giveUp (some error)
              | none => .call .commit .pure

/-- The loop of `DeleteRetentionEvents` over the payloads of the events: the number of candidates
staged so far, and the error it stopped at. -/
def stagePayloads (archiveID : GoString) (times : Times) :
    List EventPayload → Finset GoString → UInt64 → Prog signature (UInt64 × Option GoError)
  | [], _, staged => .pure (staged, none)
  | p :: payloads, seen, staged =>
    match times.lookup (payloadKey p.ref) with
    | none => stagePayloads archiveID times payloads seen staged
    | some eligibleAt =>
      if payloadKey p.ref ∈ seen ∨ p.ref.store = [] ∨ p.ref.key = [] then
        stagePayloads archiveID times payloads seen staged
      else
        match json.ref p.ref with
        | some error => .pure (staged, some error)
        | none =>
          .call (.exec (.insertCandidate p.ref eligibleAt archiveID)) fun
            | .error error => .pure (staged, some error)
            | .ok _ =>
              stagePayloads archiveID times payloads (insert (payloadKey p.ref) seen)
                (staged + 1)

/-- `DeleteRetentionEvents` after the candidates are staged. -/
def deleteCovered (request : DeleteRequest) (staged : UInt64) :
    Prog signature (DeleteResult × Option GoError) :=
  match decodeIDs request.events with
  | .error error => giveUp (⟨0, staged⟩, some error)
  | .ok ids =>
    .call (.countEventArchives request.archiveID ids) fun
      | .error error => giveUp (⟨0, staged⟩, some error)
      | .ok archived =>
        if archived ≠ ids.length then
          giveUp (⟨0, staged⟩,
            some (errorsNew "trail/postgres: archive receipt does not cover deletion batch"))
        else
          .call (.exec (.deleteEvents ids)) fun
            | .error error => giveUp (⟨0, staged⟩, some error)
            | .ok rows =>
              .call .commit fun
                | some error => .pure (⟨0, 0⟩, some error)
                | none => .pure (⟨UInt64.ofNat rows, staged⟩, none)

/-- `DeleteRetentionEvents`. -/
def deleteRetentionEvents (request : DeleteRequest) :
    Prog signature (DeleteResult × Option GoError) :=
  if request.events = [] then .pure (⟨0, 0⟩, none)
  else if request.dryRun then .pure (⟨0, 0⟩, none)
  else if request.archiveID = [] then
    .pure (⟨0, 0⟩, some (errorsNew "trail/postgres: archive receipt is required"))
  else
    .call .beginTx fun
      | some error => .pure (⟨0, 0⟩, some error)
      | none =>
        (stagePayloads json request.archiveID request.payloadEligibleAt
          (request.events.flatMap (·.payloads)) ∅ 0).bind fun
          | (staged, some error) => giveUp (⟨0, staged⟩, some error)
          | (staged, none) => deleteCovered request staged

/-- **The adapter**: how each call of the engine is carried out. -/
def carryOut : (op : Retention.Call) → Prog signature op.Reply
  | .reconcileRetention => .pure (none : Option GoError)
  | .loadArchiveEvents events => loadArchiveEvents events
  | .recordArchive receipt => recordArchive json receipt
  | .deleteRetentionEvents request => deleteRetentionEvents json request
  | .completePayloadCandidate ref failure => completePayloadCandidate ref failure
  | op => .call (.outside op) .pure

/-- What the processes of a deployment do. -/
inductive Job
  | ingest (batches : List Storage.Batch)
  | restore (archiveID : GoString) (events : List EventRecord)
  | retain (engine : Retention.Engine) (dryRun : Bool)

def Job.program : Job → Prog signature Unit
  | .ingest batches => (writeBatches json batches).bind fun _ => .pure ()
  | .restore archiveID events => (restoreArchiveEvents json archiveID events).bind fun _ => .pure ()
  | .retain engine dryRun => ((engine.run dryRun).through (carryOut json)).bind fun _ => .pure ()

end Methods

/-! ### Tables -/

/-- A row of `trail_payload_gc_candidates`. -/
structure CandidateRow where
  ref : Ref
  eligibleAt : Time
  candidateAt : Time
  retryAfter : Time
  attempts : Nat := 0
  lastError : GoString := []
  archiveID : GoString
  deriving DecidableEq, Repr

/-- The tables, each row with what the adapter wrote in it. -/
structure Tables where
  /-- `trail_events`, by `event_id`. -/
  events : Table ByteA EventRecord := ∅
  /-- `trail_archives`, by `archive_id`. -/
  archives : Table GoString Receipt := ∅
  /-- `trail_event_archives`, by `event_id`. -/
  eventArchives : Table ByteA GoString := ∅
  /-- `trail_payload_gc_candidates`, by `store` and `object_key`. -/
  candidates : Table (GoString × GoString) CandidateRow := ∅

/-- The candidate row an insertion leaves. -/
def stageCandidate (now : Time) (ref : Ref) (eligibleAt : Time) (archiveID : GoString) :
    Option CandidateRow → CandidateRow
  | none => { ref, eligibleAt, candidateAt := now, retryAfter := now, archiveID }
  | some row => { row with ref, eligibleAt := max row.eligibleAt eligibleAt, archiveID }

/-- The effect of a statement when `now()` is the given time. -/
def Tables.exec (tables : Tables) (now : Time) : Statement → Tables
  | .insertEvent e => { tables with events := Table.insertNew tables.events e.id.1 e }
  | .insertArchive receipt =>
    { tables with archives := Table.insertNew tables.archives receipt.manifest.id receipt }
  | .insertEventArchive id archiveID =>
    { tables with eventArchives := tables.eventArchives.insert id archiveID }
  | .insertCandidate ref eligibleAt archiveID =>
    let key := (ref.store, ref.key)
    let row := stageCandidate now ref eligibleAt archiveID (tables.candidates.lookup key)
    { tables with candidates := tables.candidates.insert key row }
  | .deleteEvents ids =>
    { tables with events := ids.foldl (fun rows id => rows.erase id) tables.events }
  | .deleteCandidate ref =>
    { tables with candidates := tables.candidates.erase (ref.store, ref.key) }
  | .retryCandidate ref failure =>
    match tables.candidates.lookup (ref.store, ref.key) with
    | none => tables
    | some row =>
      let row := { row with
        attempts := row.attempts + 1, lastError := failure, retryAfter := now + Retention.hour }
      { tables with candidates := tables.candidates.insert (ref.store, ref.key) row }

/-- The rows a statement affects. -/
def Tables.affected (tables : Tables) : Statement → Nat
  | .insertEvent e => if e.id.1 ∈ tables.events then 0 else 1
  | .insertArchive receipt => if receipt.manifest.id ∈ tables.archives then 0 else 1
  | .insertEventArchive _ _ | .insertCandidate _ _ _ => 1
  | .deleteEvents ids => (ids.dedup.filter (· ∈ tables.events)).length
  | .deleteCandidate ref | .retryCandidate ref _ =>
    if (ref.store, ref.key) ∈ tables.candidates then 1 else 0

/-- A statement fixed to the rows it sees: a deletion removes no row that appears later. -/
def Tables.fix (tables : Tables) : Statement → Statement
  | .deleteEvents ids => .deleteEvents (ids.dedup.filter (· ∈ tables.events))
  | statement => statement

/-- Whether the first event comes before the second in `ORDER BY event_time,event_id`. -/
def EventOrder (first second : EventRecord) : Prop :=
  first.timestamp < second.timestamp ∨
    (first.timestamp = second.timestamp ∧ first.id.1 ≤ second.id.1)

instance : DecidableRel EventOrder := fun first second => by
  unfold EventOrder
  infer_instance

def Tables.select (tables : Tables) (ids : List ByteA) : List EventRecord :=
  (ids.dedup.filterMap tables.events.lookup).insertionSort EventOrder

def Tables.count (tables : Tables) (archiveID : GoString) (ids : List ByteA) : Nat :=
  (ids.dedup.filter fun id => tables.eventArchives.lookup id = some archiveID).length

/-! ### The database and the archive store -/

/-- The writes of an open transaction, with the time each took for `now()`. -/
abbrev Pending := List (Time × Statement)

def Tables.execAll (tables : Tables) (pending : Pending) : Tables :=
  pending.foldl (fun tables write => tables.exec write.1 write.2) tables

/-- What the threads share. -/
structure World where
  tables : Tables := {}
  /-- The event objects of the archive store, by store and key. -/
  objects : Table GoString (List EventRecord) := ∅
  /-- History: the identifiers that were ever in the committed `trail_events`. -/
  committed : Finset ByteA := ∅
  /-- History: what `trail_event_archives` said of an event when its row was last deleted. -/
  deletedUnder : ByteA → Option GoString := fun _ => none

/-- `COMMIT`. -/
def World.publish (world : World) (pending : Pending) : World :=
  let tables := world.tables.execAll pending
  { world with
    tables
    committed := world.committed ∪ tables.events.keys.toFinset
    deletedUnder := fun id =>
      if id ∈ world.tables.events ∧ id ∉ tables.events then tables.eventArchives.lookup id
      else world.deletedUnder id }

/-- The archive store after the event object of a receipt was written. -/
def World.store (world : World) (receipt : Receipt) (records : List EventRecord) : World :=
  { world with objects := world.objects.insert (payloadKey receipt.manifest.events) records }

/-- What an archiver may return a receipt for: the manifest is named by the digest of its events and
lists them, nothing else is stored under the key of its event object, and no other stored content
has that digest. -/
def Writes (digest : List EventRecord → GoString) (objects : Table GoString (List EventRecord))
    (records : List EventRecord) (receipt : Receipt) : Prop :=
  receipt.manifest.id = digest records ∧
  receipt.manifest.eventIDs = records.map (fun record => encodeID record.id) ∧
  (∀ stored, objects.lookup (payloadKey receipt.manifest.events) = some stored → stored = records) ∧
  ∀ object ∈ objects.entries, digest object.2 = digest records → object.2 = records

instance (digest : List EventRecord → GoString) (objects : Table GoString (List EventRecord))
    (records : List EventRecord) (receipt : Receipt) :
    Decidable (Writes digest objects records receipt) := by
  unfold Writes
  infer_instance

/-- What the environment decides about a call. -/
inductive Choice
  /-- It is carried out, with the given time for `now()`. -/
  | done (now : Time)
  /-- It fails without effect. -/
  | failed (error : GoError)
  /-- It is carried out, but its caller gets an error. -/
  | lost (now : Time) (error : GoError)
  /-- The reply to a call that is not a statement. -/
  | answered (reply : (op : Retention.Call) → op.Reply)

section Respond

variable (digest : List EventRecord → GoString)

/-- A call that is not a statement gets any reply; a receipt means that its objects are stored. -/
def respondOutside (world : World) (own : Option Pending) :
    (op : Retention.Call) → op.Reply → Option (World × Option Pending × op.Reply)
  | .write records, .ok receipt =>
    if Writes digest world.objects records receipt then
      some (world.store receipt records, own, .ok receipt)
    else none
  | _, reply => some (world, own, reply)

/-- How the database answers; a statement outside a transaction commits by itself. -/
def respond (world : World) (own : Option Pending) :
    (op : Call) → Choice → Option (World × Option Pending × op.Reply)
  | .beginTx, .done _ => some (world, some [], (none : Option GoError))
  | .beginTx, .failed error => some (world, own, some error)
  | .commit, .done _ => own.map fun pending => (world.publish pending, none, (none : Option GoError))
  | .commit, .lost _ error => own.map fun pending => (world.publish pending, none, some error)
  | .commit, .failed error => some (world, none, some error)
  | .rollback, _ => some (world, none, ())
  | .exec statement, .done now =>
    match own with
    | some pending =>
      let view := world.tables.execAll pending
      some (world, some (pending ++ [(now, view.fix statement)]), .ok (view.affected statement))
    | none =>
      some (world.publish [(now, statement)], none, .ok (world.tables.affected statement))
  | .exec statement, .lost now error =>
    match own with
    | some _ => none
    | none => some (world.publish [(now, statement)], none, .error error)
  | .exec _, .failed error => some (world, own, .error error)
  | .countEventArchives archiveID ids, .done _ =>
    some (world, own, .ok ((world.tables.execAll (own.getD [])).count archiveID ids))
  | .countEventArchives _ _, .failed error => some (world, own, .error error)
  | .selectEvents ids, .done _ =>
    some (world, own, .ok ((world.tables.execAll (own.getD [])).select ids))
  | .selectEvents _, .failed error => some (world, own, .error error)
  | .outside op, .answered reply => respondOutside digest world own op (reply op)
  | _, _ => none

/-- **The database as the service that all processes share.** -/
def service : Service signature where
  World := World
  Own := Option Pending
  Choice := Choice
  world := {}
  own := none
  respond := respond digest

end Respond

end Trail.Postgres
