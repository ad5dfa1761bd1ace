/-
**The PostgreSQL adapter: the columns of an event.**

The column list of the insertion, the values it is given, the select list and the targets of the scan,
each as the source writes it. `keep` is what a column of the schema keeps of a value.

`IsRow.scan`: the record that is read back from the row of a record is that record, with its times
cut to microseconds and without its retention class.
-/

import Trail.Postgres.Store
import Trail.Storage.Columns

namespace Trail.Postgres

open Library Payload Storage

/-! ### Writing -/

/-- The column list of `insertEventSQL`. -/
def insertColumns : List Column :=
  [.eventTime, .eventID, .batchID, .jetstreamStream, .jetstreamStreamSeq, .jetstreamConsumer,
    .jetstreamConsumerSeq, .jetstreamDelivered, .receivedAt, .service, .environment, .version,
    .kind, .level, .flowID, .executionID, .parentExecutionID, .retryOfExecutionID,
    .executionAttempt, .executionSource, .scopeType, .scopeID, .entityType, .entityID,
    .parentEventID, .flowStatus, .executionStatus, .executionKind, .provider, .hasError, .fields,
    .httpMethod, .httpScheme, .httpHost, .httpPath, .httpStatusCode, .httpDurationNs,
    .httpSuccess, .httpRequestSize, .httpResponseSize, .httpRequestPreview, .httpResponsePreview,
    .payloadRefs]

/-- `nullableID`. -/
def nullableID (id : Bytes 16) : Value := if id = Bytes.zero 16 then .null else .bytes id.1

/-- `eventValues`. -/
def eventValues (e : EventRecord) (fields payloads : List UInt8) : List Value :=
  [.time e.timestamp, .bytes e.id.1, .bytes e.batchID.1, .text e.delivery.stream,
    .int e.delivery.streamSequence.toNat, .text e.delivery.consumer,
    .int e.delivery.consumerSequence.toNat, .int e.delivery.delivered.toNat,
    .time e.delivery.receivedAt, .text e.metadata.service, .text e.metadata.environment,
    .text e.metadata.version, .text e.kind, .text (Level.text e.level), nullableID e.flowID,
    nullableID e.executionID, nullableID e.parentExecutionID, nullableID e.retryOfExecutionID,
    .int e.executionAttempt.toNat, .text e.executionSource, .text e.scope.type, .text e.scope.id,
    .text e.entityType, .text e.entityID, nullableID e.parentID, .text e.flowStatus,
    .text e.executionStatus, .text e.executionKind, .text e.provider, .flag e.hasError,
    .bytes fields, .text e.http.method, .text e.http.scheme, .text e.http.host, .text e.http.path,
    .int e.http.statusCode.toInt, .int e.http.duration.toInt, .flag e.http.success,
    .int e.http.requestSize.toInt, .int e.http.responseSize.toInt, .text e.http.requestPreview,
    .text e.http.responsePreview, .bytes payloads]

/-- The types of the columns. -/
inductive ColumnType
  | timestamptz
  /-- `bytea` of sixteen bytes. -/
  | bytea (nullable : Bool)
  | text
  | bigint
  | integer
  | boolean
  | jsonb
  deriving DecidableEq, Repr

/-- `createEventsTable`. -/
def columnType : Column → ColumnType
  | .eventTime | .receivedAt => .timestamptz
  | .eventID | .batchID => .bytea false
  | .flowID | .executionID | .parentExecutionID | .retryOfExecutionID | .parentEventID => .bytea true
  | .jetstreamStreamSeq | .jetstreamConsumerSeq | .jetstreamDelivered | .httpDurationNs
  | .httpRequestSize | .httpResponseSize => .bigint
  | .executionAttempt | .httpStatusCode => .integer
  | .hasError | .httpSuccess => .boolean
  | .fields | .payloadRefs => .jsonb
  | _ => .text

/-- A number of a signed type of so many bits. -/
def keepInteger (bits : Nat) (number : Int) : Option Value :=
  if -2 ^ (bits - 1) ≤ number ∧ number < 2 ^ (bits - 1) then some (.int number) else none

/-- What a column of a type keeps of a value. -/
def ColumnType.keep (driver : Driver) : ColumnType → Value → Option Value
  | .timestamptz, .time t => some (.time (microseconds t))
  | .bytea _, .bytes content => if content.length = 16 then some (.bytes content) else none
  | .bytea nullable, .null => if nullable then some .null else none
  | .text, .text content => some (.text content)
  | .bigint, .int number => keepInteger 64 number
  | .integer, .int number => keepInteger 32 number
  | .boolean, .flag content => some (.flag content)
  | .jsonb, .bytes content => (driver.jsonb content).map .bytes
  | _, _ => none

/-- The row `insertEventSQL` makes of an event. -/
def eventRow (driver : Driver) (e : EventRecord) : Except GoError (Row Column Value) :=
  match driver.fields.marshal e.fields with
  | .error error => .error error
  | .ok fields =>
    match driver.payloads.marshal e.payloads with
    | .error error => .error error
    | .ok payloads =>
      match keepAll (fun column => (columnType column).keep driver) insertColumns
          (eventValues e fields payloads) with
      | none => .error driver.refused
      | some values => .ok (insertColumns.zip values)

/-! ### Reading -/

/-- `eventSelect`. -/
def eventSelect : List Column :=
  [.eventTime, .eventID, .batchID, .jetstreamStream, .jetstreamStreamSeq, .jetstreamConsumer,
    .jetstreamConsumerSeq, .jetstreamDelivered, .receivedAt, .service, .environment, .version,
    .kind, .level, .flowID, .executionID, .parentExecutionID, .retryOfExecutionID,
    .executionAttempt, .executionSource, .scopeType, .scopeID, .entityType, .entityID,
    .parentEventID, .flowStatus, .executionStatus, .executionKind, .provider, .hasError, .fields,
    .httpMethod, .httpScheme, .httpHost, .httpPath, .httpStatusCode, .httpDurationNs,
    .httpSuccess, .httpRequestSize, .httpResponseSize, .httpRequestPreview, .httpResponsePreview,
    .payloadRefs]

/-- A `[]byte` target that is copied to an identifier. -/
def readID (value : Value) : Option (Bytes 16) := (Value.readBytes value).map copyID

/-! The targets of `scanEvent` in their order, a few at a time. -/

def scanDelivery (v : EventRecord) : Scan Value EventRecord := do
  let timestamp ← scanNext Value.readTime
  let id ← scanNext readID
  let batch ← scanNext readID
  let stream ← scanNext Value.readText
  let streamSequence ← scanNext Value.readUInt64
  let consumer ← scanNext Value.readText
  let consumerSequence ← scanNext Value.readUInt64
  let delivered ← scanNext Value.readUInt64
  let receivedAt ← scanNext Value.readTime
  return { v with
    timestamp := timestamp, id := id, batchID := batch
    delivery := ⟨stream, consumer, streamSequence, consumerSequence, delivered, receivedAt⟩ }

def scanOrigin (v : EventRecord) : Scan Value EventRecord := do
  let service ← scanNext Value.readText
  let environment ← scanNext Value.readText
  let version ← scanNext Value.readText
  let kind ← scanNext Value.readText
  let level ← scanNext Value.readText
  return { v with
    metadata := ⟨service, environment, version⟩, kind := kind, level := parseLevel level }

def scanIDs (v : EventRecord) : Scan Value EventRecord := do
  let flow ← scanNext readID
  let exec ← scanNext readID
  let parentExec ← scanNext readID
  let retry ← scanNext readID
  let executionAttempt ← scanNext Value.readUInt32
  let source ← scanNext Value.readText
  return { v with
    flowID := flow, executionID := exec, parentExecutionID := parentExec
    retryOfExecutionID := retry, executionAttempt := executionAttempt, executionSource := source }

def scanSubject (v : EventRecord) : Scan Value EventRecord := do
  let scopeType ← scanNext Value.readText
  let scopeID ← scanNext Value.readText
  let entityType ← scanNext Value.readText
  let entityID ← scanNext Value.readText
  let parent ← scanNext readID
  return { v with
    scope := ⟨scopeType, scopeID⟩, entityType := entityType, entityID := entityID
    parentID := parent }

def scanOutcome (v : EventRecord) : Scan Value EventRecord := do
  let flowStatus ← scanNext Value.readText
  let executionStatus ← scanNext Value.readText
  let executionKind ← scanNext Value.readText
  let provider ← scanNext Value.readText
  let hasError ← scanNext Value.readFlag
  return { v with
    flowStatus := flowStatus, executionStatus := executionStatus, executionKind := executionKind
    provider := provider, hasError := hasError }

def scanHTTP (v : EventRecord) : Scan Value EventRecord := do
  let method ← scanNext Value.readText
  let scheme ← scanNext Value.readText
  let host ← scanNext Value.readText
  let path ← scanNext Value.readText
  let statusCode ← scanNext Value.readInt64
  let duration ← scanNext Value.readInt64
  let success ← scanNext Value.readFlag
  let requestSize ← scanNext Value.readInt64
  let responseSize ← scanNext Value.readInt64
  let requestPreview ← scanNext Value.readText
  let responsePreview ← scanNext Value.readText
  return { v with http := ⟨method, scheme, host, path, statusCode, duration, success, requestSize,
    responseSize, requestPreview, responsePreview⟩ }

/-- The targets of `scanEvent`, with the texts of the two JSON columns. -/
def scanTargets : Scan Value (EventRecord × List UInt8 × List UInt8) := do
  let v ← scanDelivery emptyRecord
  let v ← scanOrigin v
  let v ← scanIDs v
  let v ← scanSubject v
  let v ← scanOutcome v
  let fields ← scanNext Value.readBytes
  let v ← scanHTTP v
  let payloads ← scanNext Value.readBytes
  return (v, fields, payloads)

/-- `scanEvent`. -/
def scanEvent (driver : Driver) (values : List Value) : Except GoError EventRecord :=
  match scanAll scanTargets values with
  | none => .error driver.mismatch
  | some (v, fields, payloads) =>
    match driver.fields.unmarshal fields with
    | .error error => .error error
    | .ok fields =>
      match driver.payloads.unmarshal payloads with
      | .error error => .error error
      | .ok payloads => .ok { v with fields := fields, payloads := payloads }

/-- `GetEvent`, on the rows of `trail_events`. -/
def getEvent (driver : Driver) (rows : List (Row Column Value)) (id : EventID) :
    Except GoError EventRecord :=
  match getRow rows (.bytes id.1) eventSelect with
  | none => .error Storage.errNotFound
  | some none => .error driver.mismatch
  | some (some values) => scanEvent driver values

/-! ### Round trip -/

theorem readID_bytes (id : Bytes 16) : readID (.bytes id.1) = some id :=
  congrArg some (copyID_self id)

theorem readID_nullableID (id : Bytes 16) : readID (nullableID id) = some id := by
  unfold nullableID
  split
  · rename_i zero
    rw [zero]
    rfl
  · exact readID_bytes id

section Blocks

variable {β : Type} (next : EventRecord → Scan Value β) (v e : EventRecord) (rest : List Value)

theorem scanDelivery_bind :
    (scanDelivery v >>= next) (.time e.timestamp :: .bytes e.id.1 :: .bytes e.batchID.1 ::
      .text e.delivery.stream :: .int e.delivery.streamSequence.toNat :: .text e.delivery.consumer ::
      .int e.delivery.consumerSequence.toNat :: .int e.delivery.delivered.toNat ::
      .time e.delivery.receivedAt :: rest) =
      next { v with timestamp := e.timestamp, id := e.id, batchID := e.batchID,
                    delivery := e.delivery } rest := by
  simp only [scanDelivery, bind_assoc, pure_bind, scan_bind, Value.readTime, Value.readText,
    readID_bytes, Value.readUInt64_toNat, Option.bind_some]

theorem scanOrigin_bind (known : e.level.Known) :
    (scanOrigin v >>= next) (.text e.metadata.service :: .text e.metadata.environment ::
      .text e.metadata.version :: .text e.kind :: .text (Level.text e.level) :: rest) =
      next { v with metadata := e.metadata, kind := e.kind, level := e.level } rest := by
  simp only [scanOrigin, bind_assoc, pure_bind, scan_bind, Value.readText, Option.bind_some,
    parseLevel_text known]

theorem scanIDs_bind :
    (scanIDs v >>= next) (nullableID e.flowID :: nullableID e.executionID ::
      nullableID e.parentExecutionID :: nullableID e.retryOfExecutionID ::
      .int e.executionAttempt.toNat :: .text e.executionSource :: rest) =
      next { v with flowID := e.flowID, executionID := e.executionID,
                    parentExecutionID := e.parentExecutionID,
                    retryOfExecutionID := e.retryOfExecutionID,
                    executionAttempt := e.executionAttempt,
                    executionSource := e.executionSource } rest := by
  simp only [scanIDs, bind_assoc, pure_bind, scan_bind, Value.readText, readID_nullableID,
    Value.readUInt32_toNat, Option.bind_some]

theorem scanSubject_bind :
    (scanSubject v >>= next) (.text e.scope.type :: .text e.scope.id :: .text e.entityType ::
      .text e.entityID :: nullableID e.parentID :: rest) =
      next { v with scope := e.scope, entityType := e.entityType, entityID := e.entityID,
                    parentID := e.parentID } rest := by
  simp only [scanSubject, bind_assoc, pure_bind, scan_bind, Value.readText, readID_nullableID,
    Option.bind_some]

theorem scanOutcome_bind :
    (scanOutcome v >>= next) (.text e.flowStatus :: .text e.executionStatus ::
      .text e.executionKind :: .text e.provider :: .flag e.hasError :: rest) =
      next { v with flowStatus := e.flowStatus, executionStatus := e.executionStatus,
                    executionKind := e.executionKind, provider := e.provider,
                    hasError := e.hasError } rest := by
  simp only [scanOutcome, bind_assoc, pure_bind, scan_bind, Value.readText, Value.readFlag,
    Option.bind_some]

theorem scanHTTP_bind :
    (scanHTTP v >>= next) (.text e.http.method :: .text e.http.scheme :: .text e.http.host ::
      .text e.http.path :: .int e.http.statusCode.toInt :: .int e.http.duration.toInt ::
      .flag e.http.success :: .int e.http.requestSize.toInt :: .int e.http.responseSize.toInt ::
      .text e.http.requestPreview :: .text e.http.responsePreview :: rest) =
      next { v with http := e.http } rest := by
  simp only [scanHTTP, bind_assoc, pure_bind, scan_bind, Value.readText, Value.readFlag,
    Value.readInt64_toInt, Option.bind_some]

end Blocks

/-- **The values of an event are read back into its attributes**, position by position. -/
theorem scanTargets_eventValues {e : EventRecord} (known : e.level.Known)
    (fields payloads : List UInt8) :
    scanAll scanTargets (eventValues e fields payloads) =
      some ({ e with retentionClass := [], fields := [], payloads := [] }, fields, payloads) := by
  unfold scanAll scanTargets eventValues
  rw [scanDelivery_bind, scanOrigin_bind _ _ _ _ known, scanIDs_bind, scanSubject_bind,
    scanOutcome_bind, scan_bind]
  dsimp only [Value.readBytes, Option.bind_some]
  rw [scanHTTP_bind, scan_bind]
  rfl

/-- The numbers of a record are within the signed columns they go to. -/
structure Fits (e : EventRecord) : Prop where
  streamSequence : e.delivery.streamSequence.toNat < 2 ^ 63
  consumerSequence : e.delivery.consumerSequence.toNat < 2 ^ 63
  delivered : e.delivery.delivered.toNat < 2 ^ 63
  executionAttempt : e.executionAttempt.toNat < 2 ^ 31
  statusCode : -2 ^ 31 ≤ e.http.statusCode.toInt ∧ e.http.statusCode.toInt < 2 ^ 31

/-- What the columns keep of a record: times have microseconds, and no column has the retention
class. -/
def kept (e : EventRecord) : EventRecord :=
  { e with
    timestamp := microseconds e.timestamp
    delivery := { e.delivery with receivedAt := microseconds e.delivery.receivedAt }
    retentionClass := [] }

section Keep

variable {driver : Driver} {e : EventRecord}

theorem keep_bytes (nullable : Bool) (id : Bytes 16) :
    (ColumnType.bytea nullable).keep driver (.bytes id.1) = some (.bytes id.1) :=
  if_pos id.2

theorem keep_nullableID (id : Bytes 16) :
    (ColumnType.bytea true).keep driver (nullableID id) = some (nullableID id) := by
  unfold nullableID
  split
  · rfl
  · exact keep_bytes true id

theorem keep_int64 (number : Int64) :
    ColumnType.bigint.keep driver (.int number.toInt) = some (.int number.toInt) :=
  if_pos ⟨number.le_toInt, number.toInt_lt⟩

theorem keep_unsigned {bits number : Nat} (small : number < 2 ^ (bits - 1)) :
    keepInteger bits number = some (.int number) := by
  refine if_pos ⟨?_, by exact_mod_cast small⟩
  have positive : (0 : Int) ≤ 2 ^ (bits - 1) := Int.pow_nonneg (by decide)
  omega

/-- **The columns keep the values of a record whose numbers fit.** -/
theorem keepAll_eventValues (fits : Fits e) {fields payloads fields' payloads' : List UInt8}
    (first : driver.jsonb fields = some fields') (second : driver.jsonb payloads = some payloads') :
    keepAll (fun column => (columnType column).keep driver) insertColumns
      (eventValues e fields payloads) = some (eventValues (kept e) fields' payloads') := by
  have json : ∀ {text text' : List UInt8}, driver.jsonb text = some text' →
      ColumnType.jsonb.keep driver (.bytes text) = some (.bytes text') := fun same => by
    show (driver.jsonb _).map _ = _
    rw [same]
    rfl
  -- one position after the other, each kept by the type of its column
  refine keepAll_cons rfl <| keepAll_cons (keep_bytes _ _) <| keepAll_cons (keep_bytes _ _) <|
    keepAll_cons rfl <| keepAll_cons (keep_unsigned fits.streamSequence) <| keepAll_cons rfl <|
    keepAll_cons (keep_unsigned fits.consumerSequence) <|
    keepAll_cons (keep_unsigned fits.delivered) <| keepAll_cons rfl <| keepAll_cons rfl <|
    keepAll_cons rfl <| keepAll_cons rfl <| keepAll_cons rfl <| keepAll_cons rfl <|
    keepAll_cons (keep_nullableID _) <| keepAll_cons (keep_nullableID _) <|
    keepAll_cons (keep_nullableID _) <| keepAll_cons (keep_nullableID _) <|
    keepAll_cons (keep_unsigned fits.executionAttempt) <| keepAll_cons rfl <| keepAll_cons rfl <|
    keepAll_cons rfl <| keepAll_cons rfl <| keepAll_cons rfl <|
    keepAll_cons (keep_nullableID _) <| keepAll_cons rfl <| keepAll_cons rfl <|
    keepAll_cons rfl <| keepAll_cons rfl <| keepAll_cons rfl <| keepAll_cons (json first) <|
    keepAll_cons rfl <| keepAll_cons rfl <| keepAll_cons rfl <| keepAll_cons rfl <|
    keepAll_cons (if_pos fits.statusCode) <| keepAll_cons (keep_int64 _) <| keepAll_cons rfl <|
    keepAll_cons (keep_int64 _) <| keepAll_cons (keep_int64 _) <| keepAll_cons rfl <|
    keepAll_cons rfl <| keepAll_cons (json second) <| ?_
  rfl

end Keep

/-! ### Rows -/

section Rows

variable {driver : Driver} {e : EventRecord} {row : Row Column Value}

/-- A row has the values of what the columns keep. -/
def IsRow (driver : Driver) (e : EventRecord) (row : Row Column Value) : Prop :=
  ∃ fields payloads, row = insertColumns.zip (eventValues (kept e) fields payloads) ∧
    driver.fields.unmarshal fields = .ok e.fields ∧ driver.payloads.unmarshal payloads = .ok e.payloads

theorem eventRow_of_fits (fits : Fits e) (inverts : driver.Inverts e) :
    ∃ row, eventRow driver e = .ok row ∧ IsRow driver e row := by
  obtain ⟨fields, fields', first, second, third⟩ := inverts.fields
  obtain ⟨payloads, payloads', fourth, fifth, _, sixth⟩ := inverts.payloads
  refine ⟨_, ?_, fields', payloads', rfl, third, sixth⟩
  unfold eventRow
  rw [first]
  dsimp only
  rw [fourth]
  dsimp only
  rw [keepAll_eventValues fits second fifth]

theorem fits_of_eventRow (stored : eventRow driver e = .ok row) : Fits e := by
  unfold eventRow at stored
  split at stored
  · cases stored
  rename_i fields _
  split at stored
  · cases stored
  rename_i payloads _
  have refused : ∀ {index : Nat} {column : Column} {value : Value},
      insertColumns[index]? = some column →
      (eventValues e fields payloads)[index]? = some value →
      (columnType column).keep driver value ≠ none := by
    intro index column value here there none
    rw [keepAll_refused here there none] at stored
    cases stored
  have within : ∀ {bits : Nat} {number : Int}, keepInteger bits number ≠ none →
      -2 ^ (bits - 1) ≤ number ∧ number < 2 ^ (bits - 1) := by
    intro bits number kept
    by_contra outside
    exact kept (if_neg outside)
  refine ⟨?_, ?_, ?_, ?_, within (@refused 35 .httpStatusCode _ rfl rfl)⟩
  · exact_mod_cast (within (@refused 4 .jetstreamStreamSeq _ rfl rfl)).2
  · exact_mod_cast (within (@refused 6 .jetstreamConsumerSeq _ rfl rfl)).2
  · exact_mod_cast (within (@refused 7 .jetstreamDelivered _ rfl rfl)).2
  · exact_mod_cast (within (@refused 18 .executionAttempt _ rfl rfl)).2

theorem eventRow_inv (stored : eventRow driver e = .ok row) (inverts : driver.Inverts e) :
    IsRow driver e row := by
  obtain ⟨other, same, isRow⟩ := eventRow_of_fits (fits_of_eventRow stored) inverts
  rw [stored] at same
  cases same
  exact isRow

theorem insertColumns_nodup : insertColumns.Nodup := by decide

theorem IsRow.select (isRow : IsRow driver e row) : ∃ fields payloads,
    selectRow row eventSelect = some (eventValues (kept e) fields payloads) ∧
      driver.fields.unmarshal fields = .ok e.fields ∧
      driver.payloads.unmarshal payloads = .ok e.payloads := by
  obtain ⟨fields, payloads, rfl, first, second⟩ := isRow
  exact ⟨fields, payloads, selectRow_zip insertColumns_nodup rfl, first, second⟩

theorem IsRow.eventID (isRow : IsRow driver e row) : row.get .eventID = some (.bytes e.id.1) := by
  obtain ⟨fields, payloads, rfl, _⟩ := isRow
  rfl

theorem scanEvent_of {values : List Value} {v : EventRecord} {fields payloads : List UInt8}
    {links : List PayloadLink} {list : List Wire.Field}
    (scanned : scanAll scanTargets values = some (v, fields, payloads))
    (first : driver.fields.unmarshal fields = .ok list)
    (second : driver.payloads.unmarshal payloads = .ok links) :
    scanEvent driver values = .ok { v with fields := list, payloads := links } := by
  unfold scanEvent
  rw [scanned]
  dsimp only
  rw [first]
  dsimp only
  rw [second]

/-- **What is read back from the row of a record.** -/
theorem IsRow.scan (isRow : IsRow driver e row) (known : e.level.Known) :
    ∃ values, selectRow row eventSelect = some values ∧ scanEvent driver values = .ok (kept e) := by
  obtain ⟨fields, payloads, selected, first, second⟩ := isRow.select
  have level : (kept e).level.Known := known
  exact ⟨_, selected, scanEvent_of (scanTargets_eventValues level _ _) first second⟩

end Rows

/-! ### Writing batches -/

/-- The rows of `trail_events`, and those of the open transaction. -/
structure EventsTable where
  rows : List (Row Column Value) := []
  pending : List (Row Column Value) := []

/-- `json.Marshal` as `WriteBatches` sees it. -/
def json (driver : Driver) : Json where
  ref _ := none
  manifest _ := none
  fields := fun list => failure (driver.fields.marshal list)
  payloads := fun links => failure (driver.payloads.marshal links)

namespace EventsTable

/-- `ON CONFLICT (event_id) DO NOTHING`. -/
def insert (table : EventsTable) (row : Row Column Value) : EventsTable :=
  if (table.rows ++ table.pending).any fun other => other.get .eventID = row.get .eventID then table
  else { table with pending := table.pending ++ [row] }

/-- How the database answers `WriteBatches`; `others` are its answers to other calls. -/
def answer (driver : Driver) (others : (op : Call) → op.Reply) (table : EventsTable) :
    (op : Call) → EventsTable × op.Reply
  | .beginTx => ({ table with pending := [] }, (none : Option GoError))
  | .commit => ({ rows := table.rows ++ table.pending }, (none : Option GoError))
  | .rollback => ({ table with pending := [] }, ())
  | .exec (.insertEvent e) =>
    match eventRow driver e with
    | .error error => (table, .error error)
    | .ok row => (table.insert row, .ok ((table.insert row).pending.length - table.pending.length))
  | op => (table, others op)

variable {driver : Driver} {others : (op : Call) → op.Reply} {events : List EventRecord}

theorem answer_refused {e : EventRecord} {error : GoError} (table : EventsTable)
    (stored : eventRow driver e = .error error) :
    answer driver others table (.exec (.insertEvent e)) = (table, .error error) := by
  show (match eventRow driver e with | .error _ => _ | .ok _ => _) = _
  rw [stored]

theorem answer_stored {e : EventRecord} {row : Row Column Value} (table : EventsTable)
    (stored : eventRow driver e = .ok row) :
    answer driver others table (.exec (.insertEvent e)) =
      (table.insert row, .ok ((table.insert row).pending.length - table.pending.length)) := by
  show (match eventRow driver e with | .error _ => _ | .ok _ => _) = _
  rw [stored]

theorem insert_fresh {table : EventsTable} {e : EventRecord} {row : Row Column Value}
    (isRow : IsRow driver e row)
    (fresh : ∀ other ∈ table.rows ++ table.pending, other.get .eventID ≠ some (.bytes e.id.1)) :
    table.insert row = { table with pending := table.pending ++ [row] } := by
  unfold insert
  rw [if_neg]
  intro conflict
  obtain ⟨other, member, same⟩ := List.any_eq_true.mp conflict
  exact fresh other member ((of_decide_eq_true same).trans isRow.eventID)

/-- **The insertions of a transaction**: each event gets its row. -/
theorem execAll_execute (table : EventsTable) (fits : ∀ e ∈ events, Fits e)
    (inverts : ∀ e ∈ events, driver.Inverts e) (distinct : (events.map (·.id)).Nodup)
    (fresh : ∀ e ∈ events, ∀ other ∈ table.rows ++ table.pending,
      other.get .eventID ≠ some (.bytes e.id.1)) :
    ∃ rows, List.Forall₂ (IsRow driver) events rows ∧
      ((execAll (events.map .insertEvent)).execute (answer driver others) table).2 =
        ({ table with pending := table.pending ++ rows }, none) := by
  induction events generalizing table with
  | nil => exact ⟨[], .nil, by rw [List.append_nil]; rfl⟩
  | cons e events ih =>
    obtain ⟨absent, distinct⟩ := List.nodup_cons.mp distinct
    obtain ⟨row, stored, isRow⟩ := eventRow_of_fits (fits e List.mem_cons_self)
      (inverts e List.mem_cons_self)
    have inserted := insert_fresh isRow (fresh e List.mem_cons_self)
    have later : ∀ other ∈ events, ∀ there ∈ table.rows ++ (table.pending ++ [row]),
        there.get .eventID ≠ some (.bytes other.id.1) := by
      intro other among there member same
      rw [← List.append_assoc, List.mem_append, List.mem_singleton] at member
      rcases member with old | rfl
      · exact fresh other (List.mem_cons_of_mem _ among) there old same
      · rw [isRow.eventID] at same
        injection same with same
        injection same with same
        refine absent (List.mem_map.mpr ⟨other, among, ?_⟩)
        exact Subtype.ext same.symm
    obtain ⟨rows, matched, ran⟩ := ih { table with pending := table.pending ++ [row] }
      (fun other member => fits other (List.mem_cons_of_mem _ member))
      (fun other member => inverts other (List.mem_cons_of_mem _ member)) distinct later
    refine ⟨row :: rows, .cons isRow matched, ?_⟩
    have answered : answer driver others table (.exec (.insertEvent e)) =
        ({ table with pending := table.pending ++ [row] },
          .ok ((table.insert row).pending.length - table.pending.length)) := by
      rw [answer_stored table stored]
      exact Prod.ext inserted rfl
    rw [List.map_cons, execAll, Prog.execute_call answered]
    dsimp only
    rw [ran, List.append_assoc, List.singleton_append]

/-- **`WriteBatches` into an empty table** gives every event its row. -/
theorem writeBatches_execute {batches : List Storage.Batch}
    (fits : ∀ e ∈ batches.flatMap (·.events), Fits e)
    (inverts : ∀ e ∈ batches.flatMap (·.events), driver.Inverts e)
    (distinct : ((batches.flatMap (·.events)).map (·.id)).Nodup) :
    ∃ rows, List.Forall₂ (IsRow driver) (batches.flatMap (·.events)) rows ∧
      ((writeBatches (json driver) batches).execute (answer driver others) {}).2 =
        ({ rows := rows }, none) := by
  by_cases empty : batches = []
  · subst empty
    exact ⟨[], .nil, rfl⟩
  · obtain ⟨rows, matched, ran⟩ := @execAll_execute driver others _ {} fits inverts distinct
      fun _ _ _ member => (List.not_mem_nil member).elim
    refine ⟨rows, matched, ?_⟩
    have marshals : (batches.flatMap (·.events)).findSome? (fun e =>
        (json driver).fields e.fields <|> (json driver).payloads e.payloads) = none := by
      refine List.findSome?_eq_none_iff.mpr fun e member => ?_
      obtain ⟨_, _, first, _⟩ := (inverts e member).fields
      obtain ⟨_, _, second, _⟩ := (inverts e member).payloads
      show (failure (driver.fields.marshal e.fields) <|> failure (driver.payloads.marshal e.payloads)) = _
      rw [first, second]
      rfl
    unfold writeBatches
    rw [if_neg empty]
    rw [Prog.execute_call (show answer driver others {} .beginTx = ({}, none) from rfl)]
    dsimp only
    rw [marshals]
    dsimp only
    rw [Prog.execute_bind_snd ran]
    rfl

end EventsTable

theorem getEvent_of_rows {driver : Driver} {events : List EventRecord}
    {rows : List (Row Column Value)} (matched : List.Forall₂ (IsRow driver) events rows)
    (distinct : (events.map (·.id)).Nodup) {e : EventRecord} (member : e ∈ events)
    (known : e.level.Known) : getEvent driver rows e.id = .ok (kept e) := by
  have injective : Function.Injective fun id : EventID => Value.bytes id.1 :=
    fun _ _ same => Subtype.ext (Value.bytes.inj same)
  obtain ⟨row, here, isRow⟩ := find_row injective (fun _ _ isRow => isRow.eventID) matched distinct
    member
  obtain ⟨values, selected, scanned⟩ := isRow.scan known
  unfold getEvent getRow
  rw [here, Option.map_some, selected]
  exact scanned

end Trail.Postgres
