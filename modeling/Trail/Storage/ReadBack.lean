/-
**Reading back what was written.**

For both adapters: batches that `Normalize` made are written into an empty table, and `GetEvent` returns
each of their records again, its retention class apart, for which there is no column.

The databases return each column as they keep it: PostgreSQL times with microseconds and signed
integers, ClickHouse the reception with microseconds and the status code in sixteen bits. So the
numbers and times of a record have to be within these, and JSON has to invert itself.
-/

import Trail.ClickHouse.Columns
import Trail.Postgres.Columns
import Trail.Retention.ArchiveFirst
import Trail.Storage.EventMeaning

namespace Trail.Storage

open Library Payload

/-! ### Records of `Normalize` -/

theorem parseLevel_known (text : GoString) : (parseLevel text).Known := by
  unfold parseLevel
  split
  · exact .inl rfl
  split
  · exact .inr (.inr (.inl rfl))
  split
  · exact .inr (.inr (.inr rfl))
  · exact .inr (.inl rfl)

/-- The record `normalizeEvent` makes of an event. -/
def recordOf (event : Wire.Event) (metadata : Metadata) (batchID : EventID) (delivery : Delivery) :
    EventRecord :=
  let (record, links) := event.fields.foldl applyField (newRecord event metadata batchID delivery, ∅)
  { record with payloads := payloadsOf links }

theorem normalizeEvents_eq (metadata : Metadata) (batchID : EventID) (delivery : Delivery)
    (events : List Wire.Event) (index : Nat) :
    normalizeEvents metadata batchID delivery index events =
      .ok (events.map fun event => recordOf event metadata batchID delivery) := by
  induction events generalizing index with
  | nil => rfl
  | cons event events ih =>
    rw [normalizeEvents, show normalizeEvent event metadata batchID delivery =
      .ok (recordOf event metadata batchID delivery) from rfl]
    dsimp only
    rw [ih]
    rfl

/-- The batch of a valid envelope. -/
def batchOf (envelope : Wire.Envelope) (delivery : Delivery) : Batch :=
  ⟨parsedID envelope.batchID, envelope.metadata, delivery, envelope.events.map fun event =>
    recordOf event envelope.metadata (parsedID envelope.batchID) delivery⟩

/-- **`Normalize` makes the records of the events of a valid envelope**, one by one. -/
theorem normalize_eq {envelope : Wire.Envelope} {delivery : Delivery} {batch : Batch} :
    normalize envelope delivery = .ok batch ↔
      Wire.validate envelope = .ok () ∧ batch = batchOf envelope delivery := by
  unfold normalize
  cases Wire.validate envelope with
  | error error =>
    constructor
    · intro made
      cases made
    · intro made
      cases made.1
  | ok _ =>
    dsimp only
    rw [normalizeEvents_eq]
    exact ⟨fun made => ⟨rfl, (Except.ok.inj made).symm⟩, fun made => congrArg _ made.2.symm⟩

theorem recordOf_level (event : Wire.Event) (metadata : Metadata) (batchID : EventID)
    (delivery : Delivery) : (recordOf event metadata batchID delivery).level.Known := by
  obtain ⟨record, made, base⟩ := normalizeEvent_base event metadata batchID delivery
  cases made
  have level : (recordOf event metadata batchID delivery).level = parseLevel event.level :=
    congrArg EventRecord.level base
  rw [level]
  exact parseLevel_known _

/-- A batch that `Normalize` made. -/
def Normalized (batch : Batch) : Prop :=
  ∃ envelope delivery, normalize envelope delivery = .ok batch

/-- A record of `Normalize` has one of the four levels. -/
theorem Normalized.level {batch : Batch} (normalized : Normalized batch) {e : EventRecord}
    (member : e ∈ batch.events) : e.level.Known := by
  obtain ⟨envelope, delivery, made⟩ := normalized
  rw [(normalize_eq.mp made).2] at member
  obtain ⟨event, _, rfl⟩ := List.mem_map.mp member
  exact recordOf_level _ _ _ _

/-! ### The round trip -/

/-- What PostgreSQL keeps of a record: numbers within the signed columns and times on
whole microseconds. -/
structure Signed (e : EventRecord) : Prop where
  streamSequence : e.delivery.streamSequence.toNat < 2 ^ 63
  consumerSequence : e.delivery.consumerSequence.toNat < 2 ^ 63
  delivered : e.delivery.delivered.toNat < 2 ^ 63
  executionAttempt : e.executionAttempt.toNat < 2 ^ 31
  timestamp : e.timestamp % 1000 = 0

section RoundTrip

variable (driver : Driver) {batches : List Batch}

/-- **A record is read back as it was written**, its retention class apart: by the PostgreSQL adapter
when its numbers are within the signed columns and its time is on a whole microsecond, and by the
ClickHouse adapter. -/
theorem stored_round_trip (others : (op : Postgres.Call) → op.Reply) (sha256 : List UInt8 → Bytes 32)
    (normalized : ∀ batch ∈ batches, Normalized batch)
    (distinct : ((batches.flatMap (·.events)).map (·.id)).Nodup)
    (inverts : ∀ e ∈ batches.flatMap (·.events), driver.Inverts e)
    (status : ∀ e ∈ batches.flatMap (·.events),
      0 ≤ e.http.statusCode.toInt ∧ e.http.statusCode.toInt ≤ 65535)
    (received : ∀ e ∈ batches.flatMap (·.events), e.delivery.receivedAt % 1000 = 0) :
    ((∀ e ∈ batches.flatMap (·.events), Signed e) →
      let ran := (Postgres.writeBatches (Postgres.json driver) batches).execute
        (Postgres.EventsTable.answer driver others) {}
      ran.2.2 = none ∧ ∀ e ∈ batches.flatMap (·.events),
        Postgres.getEvent driver ran.2.1.rows e.id = .ok { e with retentionClass := [] }) ∧
    let ran := (ClickHouse.writeBatches sha256 (ClickHouse.marshal driver) batches).execute
      (ClickHouse.EventsTable.answer driver) {}
    ran.2.2 = none ∧ ∀ e ∈ batches.flatMap (·.events),
      ClickHouse.getEvent driver ran.2.1.rows e.id = .ok { e with retentionClass := [] } := by
  have known : ∀ e ∈ batches.flatMap (·.events), e.level.Known := by
    intro e member
    obtain ⟨batch, inside, among⟩ := List.mem_flatMap.mp member
    exact (normalized batch inside).level among
  constructor
  · intro signed ran
    have fits : ∀ e ∈ batches.flatMap (·.events), Postgres.Fits e := by
      intro e member
      obtain ⟨one, two, three, four, _⟩ := signed e member
      obtain ⟨low, high⟩ := status e member
      exact ⟨one, two, three, four, by omega, by omega⟩
    obtain ⟨rows, matched, wrote⟩ := @Postgres.EventsTable.writeBatches_execute driver others
      batches fits inverts distinct
    have result : ran.2 = ({ rows := rows }, none) := wrote
    refine ⟨by rw [result], fun e member => ?_⟩
    rw [result, Postgres.getEvent_of_rows matched distinct member (known e member)]
    unfold Postgres.kept
    rw [microseconds_of_whole (signed e member).timestamp, microseconds_of_whole (received e member)]
  · intro ran
    obtain ⟨rows, matched, wrote⟩ := ClickHouse.EventsTable.writeBatches_execute sha256 known inverts
    have result : ran.2 = ({ rows := rows }, none) := wrote
    refine ⟨by rw [result], fun e member => ?_⟩
    obtain ⟨low, high⟩ := status e member
    rw [result, ClickHouse.getEvent_of_rows matched distinct member (known e member)]
    unfold ClickHouse.kept
    rw [microseconds_of_whole (received e member), ClickHouse.narrowStatus_of_range low high]

end RoundTrip

/-! ### A record with a negative number and a repeated key -/

def orderBatch : Batch := batchOf orderEnvelope {}

def orderRecord : EventRecord :=
  recordOf (Wire.fromEvent orderCall.event) orderMetadata orderBatch.batchID {}

/-- JSON at the fields and the payload links of the record, kept by the server as it was written. -/
def orderDriver : Driver where
  fields := Wire.Codec.table [(orderRecord.fields, octets
    "[\x7b\"key\":\"delta\",\"type\":\"int64\",\"num\":18446744073709551615\x7d,\x7b\"key\":\"delta\"\x7d]")]
  payloads := Wire.Codec.table [(orderRecord.payloads, octets "null")]
  jsonb := some
  refused := errorsNew "value is out of range"
  mismatch := errorsNew "cannot scan"

theorem orderDriver_inverts : orderDriver.Inverts orderRecord := by
  obtain ⟨fields, first, second⟩ := Wire.Codec.single_inverts orderRecord.fields (octets
    "[\x7b\"key\":\"delta\",\"type\":\"int64\",\"num\":18446744073709551615\x7d,\x7b\"key\":\"delta\"\x7d]")
  obtain ⟨payloads, third, fourth⟩ := Wire.Codec.single_inverts orderRecord.payloads (octets "null")
  exact ⟨⟨fields, fields, first, rfl, second⟩, payloads, payloads, third, rfl, fourth, fourth⟩

/-- Answers to the calls that `WriteBatches` does not make. -/
def idle : (op : Postgres.Call) → op.Reply
  | .beginTx | .commit => (none : Option GoError)
  | .rollback => ()
  | .exec _ | .countEventArchives _ _ => .ok (0 : Nat)
  | .selectEvents _ => .ok []
  | .outside op => Retention.obliging op

theorem stored_round_trip_order :
    let postgres := (Postgres.writeBatches (Postgres.json orderDriver) [orderBatch]).execute
      (Postgres.EventsTable.answer orderDriver idle) {}
    let clickhouse := (ClickHouse.writeBatches (fun _ => Bytes.zero 32) (ClickHouse.marshal orderDriver)
      [orderBatch]).execute (ClickHouse.EventsTable.answer orderDriver) {}
    Postgres.getEvent orderDriver postgres.2.1.rows orderRecord.id = .ok orderRecord ∧
      ClickHouse.getEvent orderDriver clickhouse.2.1.rows orderRecord.id = .ok orderRecord := by
  have valid : Wire.validate orderEnvelope = .ok () := by decide
  have single : ∀ {property : EventRecord → Prop}, property orderRecord →
      ∀ e ∈ [orderBatch].flatMap (·.events), property e := by
    intro property holds e member
    rw [List.mem_singleton.mp member]
    exact holds
  have normalized : ∀ batch ∈ [orderBatch], Normalized batch := by
    intro batch member
    rw [List.mem_singleton.mp member]
    exact ⟨orderEnvelope, {}, normalize_eq.mpr ⟨valid, rfl⟩⟩
  obtain ⟨first, second⟩ := stored_round_trip orderDriver idle (fun _ => Bytes.zero 32) normalized
    (List.nodup_singleton _) (single orderDriver_inverts) (single (by decide))
    (single (by decide))
  have signed : Signed orderRecord :=
    ⟨by decide, by decide, by decide, by decide, by decide⟩
  have here : orderRecord ∈ [orderBatch].flatMap (·.events) := List.mem_singleton.mpr rfl
  exact ⟨(first (single signed)).2 orderRecord here, second.2 orderRecord here⟩

end Trail.Storage
