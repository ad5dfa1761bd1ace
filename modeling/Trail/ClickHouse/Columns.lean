/-
**The ClickHouse adapter: the columns of an event.**

The column list of `insertEvents`, the values `appendEvent` gives it, the select list of `eventRows`
and the targets of `scanCHEvent`, each as the source writes it. The fields of an event are four arrays,
flags are bytes, the duration is unsigned and the status code has sixteen bits.

`IsRow.scan`: the record that is read back from the row of a record is that record, with its reception
cut to microseconds, its status code to sixteen bits, and without its retention class.
-/

import Trail.ClickHouse.Events
import Trail.Storage.Columns

namespace Trail.ClickHouse

open Library Payload Storage

/-! ### Writing -/

/-- The column list of `insertEvents`. -/
def insertColumns : List Column :=
  [.eventTime, .eventID, .batchID, .jetstreamStream, .jetstreamStreamSeq, .jetstreamConsumer,
    .jetstreamConsumerSeq, .jetstreamDelivered, .receivedAt, .service, .environment, .version,
    .kind, .level, .flowID, .executionID, .parentExecutionID, .retryOfExecutionID,
    .executionAttempt, .executionSource, .scopeType, .scopeID, .entityType, .entityID,
    .parentEventID, .flowStatus, .executionStatus, .executionKind, .provider, .hasError,
    .fieldKeys, .fieldTypes, .fieldText, .fieldNum, .httpMethod, .httpScheme, .httpHost,
    .httpPath, .httpStatusCode, .httpDurationNs, .httpSuccess, .httpRequestSize,
    .httpResponseSize, .httpRequestPreview, .httpResponsePreview, .payloadRefsJSON]

/-- `boolByte`. -/
def boolByte (value : Bool) : Value := .int (if value then 1 else 0)

/-- The values `appendEvent` appends. -/
def appendValues (event : EventRecord) (payloadJSON : GoString) : List Value :=
  [.time event.timestamp, .text event.id.1, .text event.batchID.1, .text event.delivery.stream,
    .int event.delivery.streamSequence.toNat, .text event.delivery.consumer,
    .int event.delivery.consumerSequence.toNat, .int event.delivery.delivered.toNat,
    .time event.delivery.receivedAt, .text event.metadata.service, .text event.metadata.environment,
    .text event.metadata.version, .text event.kind, .text (Level.text event.level),
    .text event.flowID.1, .text event.executionID.1, .text event.parentExecutionID.1,
    .text event.retryOfExecutionID.1, .int event.executionAttempt.toNat, .text event.executionSource,
    .text event.scope.type, .text event.scope.id, .text event.entityType, .text event.entityID,
    .text event.parentID.1, .text event.flowStatus, .text event.executionStatus,
    .text event.executionKind, .text event.provider, boolByte event.hasError,
    .texts (event.fields.map (·.key)), .texts (event.fields.map (·.type)),
    .texts (event.fields.map (·.text)), .nums (event.fields.map (·.num)), .text event.http.method,
    .text event.http.scheme, .text event.http.host, .text event.http.path,
    .int event.http.statusCode.toInt16.toUInt16.toNat, .int event.http.duration.toUInt64.toNat,
    boolByte event.http.success, .int event.http.requestSize.toInt,
    .int event.http.responseSize.toInt, .text event.http.requestPreview,
    .text event.http.responsePreview, .text payloadJSON]

/-- The types of the columns. -/
inductive ColumnType
  /-- `DateTime64` with so many decimals. -/
  | dateTime64 (decimals : Nat)
  /-- `FixedString(16)`. -/
  | fixedString
  | string
  | unsigned (bits : Nat)
  | int64
  /-- `Enum8` of the level names. -/
  | level
  | strings
  | nums
  deriving DecidableEq, Repr

/-- `createEventsTable`. -/
def columnType : Column → ColumnType
  | .eventTime => .dateTime64 9
  | .receivedAt => .dateTime64 6
  | .eventID | .batchID | .flowID | .executionID | .parentExecutionID | .retryOfExecutionID
  | .parentEventID => .fixedString
  | .jetstreamStreamSeq | .jetstreamConsumerSeq | .jetstreamDelivered | .httpDurationNs =>
    .unsigned 64
  | .executionAttempt => .unsigned 32
  | .httpStatusCode => .unsigned 16
  | .hasError | .httpSuccess => .unsigned 8
  | .httpRequestSize | .httpResponseSize => .int64
  | .level => .level
  | .fieldKeys | .fieldTypes | .fieldText => .strings
  | .fieldNum => .nums
  | _ => .string

/-- What a column of a type keeps of a value. -/
def ColumnType.keep : ColumnType → Value → Option Value
  | .dateTime64 decimals, .time t => some (.time (t - t % 10 ^ (9 - decimals)))
  | .fixedString, .text content => if content.length = 16 then some (.text content) else none
  | .string, .text content => some (.text content)
  | .unsigned bits, .int number =>
    if 0 ≤ number ∧ number < 2 ^ bits then some (.int number) else none
  | .int64, .int number =>
    if -2 ^ 63 ≤ number ∧ number < 2 ^ 63 then some (.int number) else none
  | .level, .text content =>
    if content ∈ [ascii "debug", ascii "info", ascii "warn", ascii "error"] then
      some (.text content)
    else none
  | .strings, .texts content => some (.texts content)
  | .nums, .nums content => some (.nums content)
  | _, _ => none

/-- The row `appendEvent` makes of an event. -/
def eventRow (driver : Driver) (event : EventRecord) : Except GoError (Row Column Value) :=
  match driver.payloads.marshal event.payloads with
  | .error error => .error error
  | .ok payloadJSON =>
    match keepAll (fun column => (columnType column).keep) insertColumns
        (appendValues event payloadJSON) with
    | none => .error driver.refused
    | some values => .ok (insertColumns.zip values)

/-! ### Reading -/

/-- The columns of `eventRows`; the level comes as its name. -/
def eventRows : List Column :=
  [.eventTime, .eventID, .batchID, .jetstreamStream, .jetstreamStreamSeq, .jetstreamConsumer,
    .jetstreamConsumerSeq, .jetstreamDelivered, .receivedAt, .service, .environment, .version,
    .kind, .level, .flowID, .executionID, .parentExecutionID, .retryOfExecutionID,
    .executionAttempt, .executionSource, .scopeType, .scopeID, .entityType, .entityID,
    .parentEventID, .flowStatus, .executionStatus, .executionKind, .provider, .hasError,
    .fieldKeys, .fieldTypes, .fieldText, .fieldNum, .httpMethod, .httpScheme, .httpHost,
    .httpPath, .httpStatusCode, .httpDurationNs, .httpSuccess, .httpRequestSize,
    .httpResponseSize, .httpRequestPreview, .httpResponsePreview, .payloadRefsJSON]

/-- A `string` target that is copied to an identifier. -/
def readID (value : Value) : Option (Bytes 16) := (Value.readText value).map copyID

/-- The loop that puts the four arrays together; an array that is too short is a panic. -/
def zipFields : List GoString → List GoString → List GoString → List UInt64 → Option (List Wire.Field)
  | [], _, _, _ => some []
  | key :: keys, type :: types, text :: texts, num :: nums =>
    (zipFields keys types texts nums).map fun fields => ⟨key, type, text, num⟩ :: fields
  | _, _, _, _ => none

/-! The targets of `scanCHEvent` in their order, a few at a time. -/

def scanDelivery (v : EventRecord) : Scan Value EventRecord := do
  let timestamp ← scanNext Value.readTime
  let id ← scanNext readID
  let batch ← scanNext readID
  let stream ← scanNext Value.readText
  let streamSequence ← scanNext Value.readUInt64
  let consumer ← scanNext Value.readText
  let consumerSequence ← scanNext Value.readUInt64
  let delivered ← scanNext Value.readUInt64
  let receivedAt ← scanNext Value.readTime
  return { v with
    timestamp := timestamp, id := id, batchID := batch
    delivery := ⟨stream, consumer, streamSequence, consumerSequence, delivered, receivedAt⟩ }

def scanOrigin (v : EventRecord) : Scan Value EventRecord := do
  let service ← scanNext Value.readText
  let environment ← scanNext Value.readText
  let version ← scanNext Value.readText
  let kind ← scanNext Value.readText
  let level ← scanNext Value.readText
  return { v with
    metadata := ⟨service, environment, version⟩, kind := kind, level := parseLevel level }

def scanIDs (v : EventRecord) : Scan Value EventRecord := do
  let flow ← scanNext readID
  let execution ← scanNext readID
  let parentExecution ← scanNext readID
  let retry ← scanNext readID
  let executionAttempt ← scanNext Value.readUInt32
  let source ← scanNext Value.readText
  return { v with
    flowID := flow, executionID := execution, parentExecutionID := parentExecution
    retryOfExecutionID := retry, executionAttempt := executionAttempt, executionSource := source }

def scanSubject (v : EventRecord) : Scan Value EventRecord := do
  let scopeType ← scanNext Value.readText
  let scopeID ← scanNext Value.readText
  let entityType ← scanNext Value.readText
  let entityID ← scanNext Value.readText
  let parent ← scanNext readID
  return { v with
    scope := ⟨scopeType, scopeID⟩, entityType := entityType, entityID := entityID
    parentID := parent }

def scanOutcome (v : EventRecord) : Scan Value EventRecord := do
  let flowStatus ← scanNext Value.readText
  let executionStatus ← scanNext Value.readText
  let executionKind ← scanNext Value.readText
  let provider ← scanNext Value.readText
  let hasError ← scanNext Value.readByteFlag
  return { v with
    flowStatus := flowStatus, executionStatus := executionStatus, executionKind := executionKind
    provider := provider, hasError := hasError }

/-- The four arrays of the fields. -/
def scanFields : Scan Value (List GoString × List GoString × List GoString × List UInt64) := do
  let keys ← scanNext Value.readTexts
  let types ← scanNext Value.readTexts
  let texts ← scanNext Value.readTexts
  let nums ← scanNext Value.readNums
  return (keys, types, texts, nums)

def scanHTTP (v : EventRecord) : Scan Value EventRecord := do
  let method ← scanNext Value.readText
  let scheme ← scanNext Value.readText
  let host ← scanNext Value.readText
  let path ← scanNext Value.readText
  let status ← scanNext Value.readUInt16
  let duration ← scanNext Value.readUInt64
  let success ← scanNext Value.readByteFlag
  let requestSize ← scanNext Value.readInt64
  let responseSize ← scanNext Value.readInt64
  let requestPreview ← scanNext Value.readText
  let responsePreview ← scanNext Value.readText
  return { v with http := ⟨method, scheme, host, path, .ofNat status.toNat, duration.toInt64,
    success, requestSize, responseSize, requestPreview, responsePreview⟩ }

/-- The targets of `scanCHEvent`, with the arrays of the fields and the text of the payloads. -/
def scanTargets : Scan Value (EventRecord ×
    (List GoString × List GoString × List GoString × List UInt64) × GoString) := do
  let v ← scanDelivery emptyRecord
  let v ← scanOrigin v
  let v ← scanIDs v
  let v ← scanSubject v
  let v ← scanOutcome v
  let fields ← scanFields
  let v ← scanHTTP v
  let payloadJSON ← scanNext Value.readText
  return (v, fields, payloadJSON)

/-- `scanCHEvent`. -/
def scanCHEvent (driver : Driver) (values : List Value) : Except GoError EventRecord :=
  match scanAll scanTargets values with
  | none => .error driver.mismatch
  | some (v, (keys, types, texts, nums), payloadJSON) =>
    match zipFields keys types texts nums with
    | none => .error driver.mismatch
    | some fields =>
      match driver.payloads.unmarshal payloadJSON with
      | .error error => .error error
      | .ok payloads => .ok { v with fields := fields, payloads := payloads }

/-- `GetEvent`, on the rows of `trail_events`. -/
def getEvent (driver : Driver) (rows : List (Row Column Value)) (id : EventID) :
    Except GoError EventRecord :=
  match getRow rows (.text id.1) eventRows with
  | none => .error Storage.errNotFound
  | some none => .error driver.mismatch
  | some (some values) => scanCHEvent driver values

/-! ### Round trip -/

theorem readID_text (id : Bytes 16) : readID (.text id.1) = some id :=
  congrArg some (copyID_self id)

theorem readByteFlag_boolByte (value : Bool) : Value.readByteFlag (boolByte value) = some value := by
  cases value <;> rfl

/-- **The four arrays are put together to the fields.** -/
theorem zipFields_map (fields : List Wire.Field) :
    zipFields (fields.map (·.key)) (fields.map (·.type)) (fields.map (·.text))
      (fields.map (·.num)) = some fields := by
  induction fields with
  | nil => rfl
  | cons field fields ih =>
    simp only [List.map_cons, zipFields, ih]
    rfl

/-- The status code that a column of sixteen bits returns. -/
def narrowStatus (status : Int64) : Int64 := .ofNat status.toInt16.toUInt16.toNat

theorem statusBits (status : Int64) :
    (status.toInt16.toUInt16.toNat : Int) = status.toInt % 2 ^ 16 := by
  have cut : status.toInt16.toUInt16.toNat = status.toBitVec.toNat % 2 ^ 16 := by
    show status.toInt16.toBitVec.toNat = _
    rw [Int64.toBitVec_toInt16, BitVec.signExtend_eq_setWidth_of_le _ (by decide),
      BitVec.toNat_setWidth]
  have signed := status.toBitVec.toInt_eq_toNat_cond
  rw [Int64.toInt_toBitVec] at signed
  rw [cut]
  split at signed <;> omega

theorem narrowStatus_of_range {status : Int64} (low : 0 ≤ status.toInt)
    (high : status.toInt ≤ 65535) : narrowStatus status = status := by
  have bits := statusBits status
  unfold narrowStatus
  refine Int64.toInt_inj.mp ?_
  rw [Int64.toInt_ofNat_of_lt (by omega)]
  omega

section Blocks

variable {β : Type} (next : EventRecord → Scan Value β) (v e : EventRecord) (rest : List Value)

theorem scanDelivery_bind :
    (scanDelivery v >>= next) (.time e.timestamp :: .text e.id.1 :: .text e.batchID.1 ::
      .text e.delivery.stream :: .int e.delivery.streamSequence.toNat :: .text e.delivery.consumer ::
      .int e.delivery.consumerSequence.toNat :: .int e.delivery.delivered.toNat ::
      .time e.delivery.receivedAt :: rest) =
      next { v with timestamp := e.timestamp, id := e.id, batchID := e.batchID,
                    delivery := e.delivery } rest := by
  simp only [scanDelivery, bind_assoc, pure_bind, scan_bind, Value.readTime, Value.readText,
    readID_text, Value.readUInt64_toNat, Option.bind_some]

theorem scanOrigin_bind (known : e.level.Known) :
    (scanOrigin v >>= next) (.text e.metadata.service :: .text e.metadata.environment ::
      .text e.metadata.version :: .text e.kind :: .text (Level.text e.level) :: rest) =
      next { v with metadata := e.metadata, kind := e.kind, level := e.level } rest := by
  simp only [scanOrigin, bind_assoc, pure_bind, scan_bind, Value.readText, Option.bind_some,
    parseLevel_text known]

theorem scanIDs_bind :
    (scanIDs v >>= next) (.text e.flowID.1 :: .text e.executionID.1 ::
      .text e.parentExecutionID.1 :: .text e.retryOfExecutionID.1 ::
      .int e.executionAttempt.toNat :: .text e.executionSource :: rest) =
      next { v with flowID := e.flowID, executionID := e.executionID,
                    parentExecutionID := e.parentExecutionID,
                    retryOfExecutionID := e.retryOfExecutionID,
                    executionAttempt := e.executionAttempt,
                    executionSource := e.executionSource } rest := by
  simp only [scanIDs, bind_assoc, pure_bind, scan_bind, Value.readText, readID_text,
    Value.readUInt32_toNat, Option.bind_some]

theorem scanSubject_bind :
    (scanSubject v >>= next) (.text e.scope.type :: .text e.scope.id :: .text e.entityType ::
      .text e.entityID :: .text e.parentID.1 :: rest) =
      next { v with scope := e.scope, entityType := e.entityType, entityID := e.entityID,
                    parentID := e.parentID } rest := by
  simp only [scanSubject, bind_assoc, pure_bind, scan_bind, Value.readText, readID_text,
    Option.bind_some]

theorem scanOutcome_bind :
    (scanOutcome v >>= next) (.text e.flowStatus :: .text e.executionStatus ::
      .text e.executionKind :: .text e.provider :: boolByte e.hasError :: rest) =
      next { v with flowStatus := e.flowStatus, executionStatus := e.executionStatus,
                    executionKind := e.executionKind, provider := e.provider,
                    hasError := e.hasError } rest := by
  simp only [scanOutcome, bind_assoc, pure_bind, scan_bind, Value.readText, readByteFlag_boolByte,
    Option.bind_some]

theorem scanHTTP_bind :
    (scanHTTP v >>= next) (.text e.http.method :: .text e.http.scheme :: .text e.http.host ::
      .text e.http.path :: .int e.http.statusCode.toInt16.toUInt16.toNat ::
      .int e.http.duration.toUInt64.toNat :: boolByte e.http.success ::
      .int e.http.requestSize.toInt :: .int e.http.responseSize.toInt ::
      .text e.http.requestPreview :: .text e.http.responsePreview :: rest) =
      next { v with http := { e.http with statusCode := narrowStatus e.http.statusCode } } rest := by
  simp only [scanHTTP, bind_assoc, pure_bind, scan_bind, Value.readText, readByteFlag_boolByte,
    Value.readInt64_toInt, Value.readUInt16_toNat, Value.readUInt64_toNat, Option.bind_some]
  rfl

end Blocks

theorem scanFields_bind {β : Type}
    (next : List GoString × List GoString × List GoString × List UInt64 → Scan Value β)
    (keys types texts : List GoString) (nums : List UInt64) (rest : List Value) :
    (scanFields >>= next) (.texts keys :: .texts types :: .texts texts :: .nums nums :: rest) =
      next (keys, types, texts, nums) rest := by
  simp only [scanFields, bind_assoc, pure_bind, scan_bind, Value.readTexts, Value.readNums,
    Option.bind_some]

/-- **The values of an event are read back into its attributes**, position by position. -/
theorem scanTargets_appendValues {e : EventRecord} (known : e.level.Known) (payloadJSON : GoString) :
    scanAll scanTargets (appendValues e payloadJSON) =
      some ({ e with
          retentionClass := [], fields := [], payloads := []
          http := { e.http with statusCode := narrowStatus e.http.statusCode } },
        (e.fields.map (·.key), e.fields.map (·.type), e.fields.map (·.text), e.fields.map (·.num)),
        payloadJSON) := by
  unfold scanAll scanTargets appendValues
  rw [scanDelivery_bind, scanOrigin_bind _ _ _ _ known, scanIDs_bind, scanSubject_bind,
    scanOutcome_bind, scanFields_bind, scanHTTP_bind, scan_bind]
  rfl

/-- What the columns keep of a record: its reception has microseconds, its status code sixteen bits,
and no column has the retention class. -/
def kept (e : EventRecord) : EventRecord :=
  { e with
    delivery := { e.delivery with receivedAt := microseconds e.delivery.receivedAt }
    http := { e.http with statusCode := narrowStatus e.http.statusCode }
    retentionClass := [] }

section Keep

variable {driver : Driver} {e : EventRecord}

theorem keep_time (t : Time) : (ColumnType.dateTime64 9).keep (.time t) = some (.time t) := by
  show some (Value.time (t - t % 1)) = _
  rw [Int.emod_one]
  exact congrArg (fun t => some (Value.time t)) (Int.sub_zero t)

theorem keep_id (id : Bytes 16) : ColumnType.fixedString.keep (.text id.1) = some (.text id.1) :=
  if_pos id.2

theorem keep_level {level : Level} (known : level.Known) :
    ColumnType.level.keep (.text (Level.text level)) = some (.text (Level.text level)) := by
  refine if_pos ?_
  rcases known with rfl | rfl | rfl | rfl <;> decide

theorem keep_unsigned {bits number : Nat} (small : number < 2 ^ bits) :
    (ColumnType.unsigned bits).keep (.int number) = some (.int number) :=
  if_pos ⟨Int.natCast_nonneg _, by exact_mod_cast small⟩

theorem keep_boolByte (value : Bool) :
    (ColumnType.unsigned 8).keep (boolByte value) = some (boolByte value) := by
  cases value <;> rfl

theorem keep_int64 (number : Int64) :
    ColumnType.int64.keep (.int number.toInt) = some (.int number.toInt) :=
  if_pos ⟨number.le_toInt, number.toInt_lt⟩

/-- The record with its reception cut to microseconds, whose values are kept as they are. -/
def received (e : EventRecord) : EventRecord :=
  { e with delivery := { e.delivery with receivedAt := microseconds e.delivery.receivedAt } }

/-- **The columns keep the values of a record.** -/
theorem keepAll_appendValues (known : e.level.Known) (payloadJSON : GoString) :
    keepAll (fun column => (columnType column).keep) insertColumns (appendValues e payloadJSON) =
      some (appendValues (received e) payloadJSON) := by
  -- one position after the other, each kept by the type of its column
  refine keepAll_cons (keep_time _) <| keepAll_cons (keep_id _) <| keepAll_cons (keep_id _) <|
    keepAll_cons rfl <| keepAll_cons (keep_unsigned (UInt64.toNat_lt _)) <| keepAll_cons rfl <|
    keepAll_cons (keep_unsigned (UInt64.toNat_lt _)) <|
    keepAll_cons (keep_unsigned (UInt64.toNat_lt _)) <| keepAll_cons rfl <| keepAll_cons rfl <|
    keepAll_cons rfl <| keepAll_cons rfl <| keepAll_cons rfl <|
    keepAll_cons (keep_level known) <| keepAll_cons (keep_id _) <| keepAll_cons (keep_id _) <|
    keepAll_cons (keep_id _) <| keepAll_cons (keep_id _) <|
    keepAll_cons (keep_unsigned (UInt32.toNat_lt _)) <| keepAll_cons rfl <| keepAll_cons rfl <|
    keepAll_cons rfl <| keepAll_cons rfl <| keepAll_cons rfl <| keepAll_cons (keep_id _) <|
    keepAll_cons rfl <| keepAll_cons rfl <| keepAll_cons rfl <| keepAll_cons rfl <|
    keepAll_cons (keep_boolByte _) <| keepAll_cons rfl <| keepAll_cons rfl <| keepAll_cons rfl <|
    keepAll_cons rfl <| keepAll_cons rfl <| keepAll_cons rfl <| keepAll_cons rfl <|
    keepAll_cons rfl <| keepAll_cons (keep_unsigned (UInt16.toNat_lt _)) <|
    keepAll_cons (keep_unsigned (UInt64.toNat_lt _)) <| keepAll_cons (keep_boolByte _) <|
    keepAll_cons (keep_int64 _) <| keepAll_cons (keep_int64 _) <| keepAll_cons rfl <|
    keepAll_cons rfl <| keepAll_cons rfl <| ?_
  rfl

end Keep

/-! ### Rows -/

section Rows

variable {driver : Driver} {e : EventRecord} {row : Row Column Value}

/-- A row has the values of what the columns keep. -/
def IsRow (driver : Driver) (e : EventRecord) (row : Row Column Value) : Prop :=
  ∃ payloadJSON, row = insertColumns.zip (appendValues (received e) payloadJSON) ∧
    driver.payloads.unmarshal payloadJSON = .ok e.payloads

theorem eventRow_of_known (known : e.level.Known) (inverts : driver.Inverts e) :
    ∃ row, eventRow driver e = .ok row ∧ IsRow driver e row := by
  obtain ⟨payloadJSON, _, first, _, second, _⟩ := inverts.payloads
  refine ⟨_, ?_, payloadJSON, rfl, second⟩
  unfold eventRow
  rw [first]
  dsimp only
  rw [keepAll_appendValues known]

theorem insertColumns_nodup : insertColumns.Nodup := by decide

theorem IsRow.eventID (isRow : IsRow driver e row) : row.get .eventID = some (.text e.id.1) := by
  obtain ⟨payloadJSON, rfl, _⟩ := isRow
  rfl

theorem scanCHEvent_of {values : List Value} {v : EventRecord} {list : List Wire.Field}
    {payloadJSON : GoString} {links : List PayloadLink}
    (scanned : scanAll scanTargets values = some (v, (list.map (·.key), list.map (·.type),
      list.map (·.text), list.map (·.num)), payloadJSON))
    (second : driver.payloads.unmarshal payloadJSON = .ok links) :
    scanCHEvent driver values = .ok { v with fields := list, payloads := links } := by
  unfold scanCHEvent
  rw [scanned]
  dsimp only
  rw [zipFields_map]
  dsimp only
  rw [second]

/-- **What is read back from the row of a record.** -/
theorem IsRow.scan (isRow : IsRow driver e row) (known : e.level.Known) :
    ∃ values, selectRow row eventRows = some values ∧ scanCHEvent driver values = .ok (kept e) := by
  obtain ⟨payloadJSON, rfl, second⟩ := isRow
  have level : (received e).level.Known := known
  exact ⟨_, selectRow_zip insertColumns_nodup rfl,
    scanCHEvent_of (scanTargets_appendValues level payloadJSON) second⟩

end Rows

/-! ### Writing batches -/

/-- The rows of `trail_events`, and those of the open batch. -/
structure EventsTable where
  rows : List (Row Column Value) := []
  batch : List (Row Column Value) := []

/-- `json.Marshal` as `appendEvent` sees it. -/
def marshal (driver : Driver) (links : List PayloadLink) : Option GoError :=
  failure (driver.payloads.marshal links)

namespace EventsTable

/-- How a server answers that has seen no insertion. -/
def answer (driver : Driver) (table : EventsTable) : (op : Call) → EventsTable × op.Reply
  | .prepareBatch _ => ({ table with batch := [] }, (none : Option GoError))
  | .append event =>
    match eventRow driver event with
    | .error error => (table, some error)
    | .ok row => ({ table with batch := table.batch ++ [row] }, (none : Option GoError))
  | .abort => ({ table with batch := [] }, ())
  | .send => ({ rows := table.rows ++ table.batch }, (none : Option GoError))

variable {driver : Driver} {events : List EventRecord}

theorem appendEvents_execute (table : EventsTable) (known : ∀ e ∈ events, e.level.Known)
    (inverts : ∀ e ∈ events, driver.Inverts e) :
    ∃ rows, List.Forall₂ (IsRow driver) events rows ∧
      ((appendEvents (marshal driver) events).execute (answer driver) table).2 =
        ({ table with batch := table.batch ++ rows }, none) := by
  induction events generalizing table with
  | nil => exact ⟨[], .nil, by rw [List.append_nil]; rfl⟩
  | cons e events ih =>
    obtain ⟨row, stored, isRow⟩ := eventRow_of_known (known e List.mem_cons_self)
      (inverts e List.mem_cons_self)
    obtain ⟨rows, matched, ran⟩ := ih { table with batch := table.batch ++ [row] }
      (fun other member => known other (List.mem_cons_of_mem _ member))
      (fun other member => inverts other (List.mem_cons_of_mem _ member))
    refine ⟨row :: rows, .cons isRow matched, ?_⟩
    have marshalled : marshal driver e.payloads = none := by
      obtain ⟨_, _, first, _⟩ := (inverts e List.mem_cons_self).payloads
      unfold marshal
      rw [first]
      rfl
    have answered : answer driver table (.append e) =
        ({ table with batch := table.batch ++ [row] }, none) := by
      show (match eventRow driver e with | .error _ => _ | .ok _ => _) = _
      rw [stored]
      rfl
    rw [appendEvents, marshalled]
    dsimp only
    rw [Prog.execute_call answered]
    dsimp only
    rw [ran, List.append_assoc, List.singleton_append]

/-- **`WriteBatches` into an empty table** gives every event its row. -/
theorem writeBatches_execute (sha256 : List UInt8 → Bytes 32) {batches : List Storage.Batch}
    (known : ∀ e ∈ batches.flatMap (·.events), e.level.Known)
    (inverts : ∀ e ∈ batches.flatMap (·.events), driver.Inverts e) :
    ∃ rows, List.Forall₂ (IsRow driver) (batches.flatMap (·.events)) rows ∧
      ((writeBatches sha256 (marshal driver) batches).execute (answer driver) {}).2 =
        ({ rows := rows }, none) := by
  by_cases empty : batches = []
  · subst empty
    exact ⟨[], .nil, rfl⟩
  · obtain ⟨rows, matched, ran⟩ := appendEvents_execute {} known inverts
    refine ⟨rows, matched, ?_⟩
    unfold writeBatches
    rw [if_neg empty]
    rw [Prog.execute_call (show answer driver {} (.prepareBatch (deduplicationToken sha256 batches)) =
      ({}, none) from rfl)]
    dsimp only
    rw [Prog.execute_bind_snd ran]
    rfl

end EventsTable

theorem getEvent_of_rows {driver : Driver} {events : List EventRecord}
    {rows : List (Row Column Value)} (matched : List.Forall₂ (IsRow driver) events rows)
    (distinct : (events.map (·.id)).Nodup) {e : EventRecord} (member : e ∈ events)
    (known : e.level.Known) : getEvent driver rows e.id = .ok (kept e) := by
  have injective : Function.Injective fun id : EventID => Value.text id.1 :=
    fun _ _ same => Subtype.ext (Value.text.inj same)
  obtain ⟨row, here, isRow⟩ := find_row injective (fun _ _ isRow => isRow.eventID) matched distinct
    member
  obtain ⟨values, selected, scanned⟩ := isRow.scan known
  unfold getEvent getRow
  rw [here, Option.map_some, selected]
  exact scanned

end Trail.ClickHouse
