/-
**Retention classes on the columns of an event.**

`scanRetentionRow` of each adapter is the reading of a row in its `ScanRetentionEvents`, column by
column; on the row of a record it gives the event of the record (`IsRow.retentionEvent`).

The class of an event is derived in three places: `Normalize` takes the last field that names one,
the scans take the first, and a record that is read back has none, since no column keeps it. They agree
exactly when the first and the last such field are empty or missing (`one_class_iff`).
-/

import Trail.Retention.Scan
import Trail.Storage.ReadBack

/-! ### PostgreSQL -/

namespace Trail.Postgres

open Library Payload Storage

/-- The select list of `ScanRetentionEvents`. -/
def retentionSelect : List Column :=
  [.eventTime, .eventID, .flowID, .executionID, .kind, .level, .service, .environment, .flowStatus,
    .executionStatus, .httpStatusCode, .httpSuccess, .fields, .payloadRefs]

/-- A `[]byte` target that is written in hexadecimal. -/
def readHex (value : Value) : Option GoString := value.readBytes.map Hex.encodeToString

/-- The targets of the scan, with the texts of the two JSON columns. -/
def scanRetentionTargets : Scan Value (Retention.Event × List UInt8 × List UInt8) := do
  let timestamp ← scanNext Value.readTime
  let id ← scanNext Value.readBytes
  let flow ← scanNext readHex
  let execution ← scanNext readHex
  let kind ← scanNext Value.readText
  let level ← scanNext Value.readText
  let service ← scanNext Value.readText
  let environment ← scanNext Value.readText
  let flowStatus ← scanNext Value.readText
  let executionStatus ← scanNext Value.readText
  let httpStatusCode ← scanNext Value.readInt64
  let httpSuccess ← scanNext Value.readFlag
  let fields ← scanNext Value.readBytes
  let payloads ← scanNext Value.readBytes
  return ({
    id := Hex.encodeToString id
    cursor := Retention.retentionCursor timestamp id
    flowID := flow
    executionID := execution
    timestamp := timestamp
    kind := kind
    service := service
    environment := environment
    level := parseLevel level
    flowStatus := flowStatus
    executionStatus := executionStatus
    httpStatusCode := httpStatusCode.toInt
    httpSuccess := httpSuccess }, fields, payloads)

/-- The body of the loop over the rows; fields that cannot be read have no class. -/
def scanRetentionRow (driver : Driver) (values : List Value) : Except GoError Retention.Event :=
  match scanAll scanRetentionTargets values with
  | none => .error driver.mismatch
  | some (v, fields, payloads) =>
    match driver.payloads.unmarshal payloads with
    | .error error => .error error
    | .ok links =>
      let v := { v with payloads := links.map fun p => ⟨p.role, p.ref⟩ }
      match driver.fields.unmarshal fields with
      | .error _ => .ok v
      | .ok fs => .ok { v with retentionClass := Retention.firstClass fs }

theorem readHex_nullableID (id : Bytes 16) :
    readHex (nullableID id) = some (Retention.Adapter.postgres.idText id) := by
  show readHex (if id = Bytes.zero 16 then _ else _) =
    some (if id = Bytes.zero 16 then [] else Hex.encodeToString id.1)
  split <;> rfl

/-- **The scan makes the event of a record out of its row.** -/
theorem IsRow.retentionEvent {driver : Driver} {e : EventRecord} {row : Row Column Value}
    (isRow : IsRow driver e row) :
    ∃ values, selectRow row retentionSelect = some values ∧
      scanRetentionRow driver values = .ok (Retention.Adapter.postgres.retentionEvent (kept e)) := by
  obtain ⟨fields, payloads, rfl, first, second⟩ := isRow
  refine ⟨[.time (kept e).timestamp, .bytes e.id.1, nullableID e.flowID, nullableID e.executionID,
    .text e.kind, .text (Level.text e.level), .text e.metadata.service,
    .text e.metadata.environment, .text e.flowStatus, .text e.executionStatus,
    .int e.http.statusCode.toInt, .flag e.http.success, .bytes fields, .bytes payloads], rfl, ?_⟩
  unfold scanRetentionRow scanAll scanRetentionTargets
  simp only [scan_bind, Value.readTime, Value.readBytes, Value.readText, Value.readFlag,
    Value.readInt64_toInt, readHex_nullableID, Option.bind_some]
  show (match driver.payloads.unmarshal payloads with | .error _ => _ | .ok _ => _) = _
  rw [second]
  show (match driver.fields.unmarshal fields with | .error _ => _ | .ok _ => _) = _
  rw [first]
  rfl

/-- The order of rows. -/
def rowOrder (row : Row Column Value) : Retention.RowKey :=
  match row.get .eventTime, row.get .eventID with
  | some (.time t), some (.bytes id) => Retention.keyOf t id
  | _, _ => Retention.keyOf 0 []

/-- A row as an event of the scan. -/
def retentionRow (driver : Driver) (row : Row Column Value) : Except GoError Retention.Event :=
  match selectRow row retentionSelect with
  | none => .error driver.mismatch
  | some values => scanRetentionRow driver values

/-- A row as a record. -/
def readRow (driver : Driver) (row : Row Column Value) : Except GoError EventRecord :=
  match selectRow row eventSelect with
  | none => .error driver.mismatch
  | some values => scanEvent driver values

/-- The rows of `LoadArchiveEvents`. -/
def loadRows (driver : Driver) (rows : List (Row Column Value)) (ids : List ByteA) :
    Except GoError (List EventRecord) :=
  (orderBy rowOrder (rows.filter fun row => ids.any fun id => row.get .eventID = some (.bytes id))).mapM
    (readRow driver)

theorem IsRow.loaded {driver : Driver} {e : EventRecord} {row : Row Column Value}
    (isRow : IsRow driver e row) (known : e.level.Known) :
    retentionRow driver row = .ok (Retention.Adapter.postgres.retentionEvent (kept e)) ∧
      loadRows driver [row] [e.id.1] = .ok [kept e] := by
  obtain ⟨values, selected, scanned⟩ := isRow.retentionEvent
  obtain ⟨values', selected', scanned'⟩ := isRow.scan known
  constructor
  · unfold retentionRow
    rw [selected]
    exact scanned
  · have read : readRow driver row = .ok (kept e) := by
      unfold readRow
      rw [selected']
      exact scanned'
    have here : [row].filter (fun row => [e.id.1].any fun id => row.get .eventID = some (.bytes id)) =
        [row] := by
      simp [isRow.eventID]
    unfold loadRows
    rw [here]
    show [row].mapM (readRow driver) = _
    rw [List.mapM_cons, read]
    rfl

end Trail.Postgres

/-! ### ClickHouse -/

namespace Trail.ClickHouse

open Library Payload Storage
open Retention (Adapter)

/-- The select list of `ScanRetentionEvents`; the level comes as its name. -/
def retentionSelect : List Column :=
  [.eventTime, .eventID, .flowID, .executionID, .kind, .level, .service, .environment, .flowStatus,
    .executionStatus, .httpStatusCode, .httpSuccess, .fieldKeys, .fieldTypes, .fieldText, .fieldNum,
    .payloadRefsJSON]

/-- A `string` target that is written in hexadecimal. -/
def readHex (value : Value) : Option GoString := value.readText.map Hex.encodeToString

/-- The loop over the keys: the text beside the first key that names the class. -/
def classOf : List GoString → List GoString → GoString
  | key :: keys, text :: texts =>
    if key = ascii "trail.retention.class" then text else classOf keys texts
  | _, _ => []

/-- The targets of the scan, with the keys, the texts and the payloads. -/
def scanRetentionTargets :
    Scan Value (Retention.Event × List GoString × List GoString × GoString) := do
  let timestamp ← scanNext Value.readTime
  let id ← scanNext Value.readText
  let flow ← scanNext readHex
  let execution ← scanNext readHex
  let kind ← scanNext Value.readText
  let level ← scanNext Value.readText
  let service ← scanNext Value.readText
  let environment ← scanNext Value.readText
  let flowStatus ← scanNext Value.readText
  let executionStatus ← scanNext Value.readText
  let status ← scanNext Value.readUInt16
  let success ← scanNext Value.readByteFlag
  let keys ← scanNext Value.readTexts
  let _types ← scanNext Value.readTexts
  let texts ← scanNext Value.readTexts
  let _nums ← scanNext Value.readNums
  let payloadJSON ← scanNext Value.readText
  return ({
    id := Hex.encodeToString id
    cursor := Retention.retentionCursor timestamp id
    flowID := flow
    executionID := execution
    timestamp := timestamp
    kind := kind
    service := service
    environment := environment
    level := parseLevel level
    flowStatus := flowStatus
    executionStatus := executionStatus
    httpStatusCode := status.toNat
    httpSuccess := success }, keys, texts, payloadJSON)

/-- The body of the loop over the rows. -/
def scanRetentionRow (driver : Driver) (values : List Value) : Except GoError Retention.Event :=
  match scanAll scanRetentionTargets values with
  | none => .error driver.mismatch
  | some (v, keys, texts, payloadJSON) =>
    let v := { v with retentionClass := classOf keys texts }
    match driver.payloads.unmarshal payloadJSON with
    | .error error => .error error
    | .ok links => .ok { v with payloads := links.map fun p => ⟨p.role, p.ref⟩ }

theorem classOf_fields (fields : List Wire.Field) :
    classOf (fields.map (·.key)) (fields.map (·.text)) = Retention.firstClass fields := by
  unfold Retention.firstClass
  induction fields with
  | nil => rfl
  | cons field fields ih =>
    rw [List.map_cons, List.map_cons, classOf, List.find?_cons]
    split
    · rename_i named
      rw [decide_eq_true named]
    · rename_i other
      rw [ih, decide_eq_false other]

theorem readHex_text (id : Bytes 16) :
    readHex (.text id.1) = some (Retention.Adapter.clickhouse.idText id) :=
  rfl

/-- The values of the selected columns. -/
def retentionValues (e : EventRecord) (payloadJSON : GoString) : List Value :=
  [.time e.timestamp, .text e.id.1, .text e.flowID.1, .text e.executionID.1,
    .text e.kind, .text (Level.text e.level), .text e.metadata.service,
    .text e.metadata.environment, .text e.flowStatus, .text e.executionStatus,
    .int e.http.statusCode.toInt16.toUInt16.toNat, boolByte e.http.success,
    .texts (e.fields.map (·.key)), .texts (e.fields.map (·.type)), .texts (e.fields.map (·.text)),
    .nums (e.fields.map (·.num)), .text payloadJSON]

theorem select_retentionValues (e : EventRecord) (payloadJSON : GoString) :
    selectRow (insertColumns.zip (appendValues e payloadJSON)) retentionSelect =
      some (retentionValues e payloadJSON) :=
  rfl

theorem scanRetentionTargets_values (e : EventRecord) (payloadJSON : GoString) :
    scanAll scanRetentionTargets (retentionValues e payloadJSON) =
      some ({ Adapter.clickhouse.retentionEvent e with retentionClass := [], payloads := [] },
        e.fields.map (·.key), e.fields.map (·.text), payloadJSON) := by
  have status : Adapter.clickhouse.statusCode e.http.statusCode =
      e.http.statusCode.toInt16.toUInt16.toNat := (statusBits _).symm
  unfold scanAll scanRetentionTargets retentionValues Adapter.retentionEvent
  rw [status]
  simp only [scan_bind, Value.readTime, Value.readText, Value.readTexts, Value.readNums,
    readByteFlag_boolByte, Value.readUInt16_toNat, readHex_text, Option.bind_some]
  rfl

theorem scanRetentionRow_of {driver : Driver} {values : List Value} {v : Retention.Event}
    {fields : List Wire.Field} {payloadJSON : GoString} {links : List PayloadLink}
    (scanned : scanAll scanRetentionTargets values =
      some (v, fields.map (·.key), fields.map (·.text), payloadJSON))
    (second : driver.payloads.unmarshal payloadJSON = .ok links) :
    scanRetentionRow driver values = .ok { v with
      retentionClass := Retention.firstClass fields
      payloads := links.map fun p => ⟨p.role, p.ref⟩ } := by
  unfold scanRetentionRow
  rw [scanned]
  dsimp only
  rw [second, classOf_fields]

/-- **The scan makes the event of a record out of its row.** -/
theorem IsRow.retentionEvent {driver : Driver} {e : EventRecord} {row : Row Column Value}
    (isRow : IsRow driver e row) :
    ∃ values, selectRow row retentionSelect = some values ∧
      scanRetentionRow driver values = .ok (Adapter.clickhouse.retentionEvent e) := by
  obtain ⟨payloadJSON, rfl, second⟩ := isRow
  exact ⟨_, select_retentionValues (received e) payloadJSON,
    scanRetentionRow_of (scanRetentionTargets_values (received e) payloadJSON) second⟩

/-- The order of rows. -/
def rowOrder (row : Row Column Value) : Retention.RowKey :=
  match row.get .eventTime, row.get .eventID with
  | some (.time t), some (.text id) => Retention.keyOf t id
  | _, _ => Retention.keyOf 0 []

/-- A row as an event of the scan. -/
def retentionRow (driver : Driver) (row : Row Column Value) : Except GoError Retention.Event :=
  match selectRow row retentionSelect with
  | none => .error driver.mismatch
  | some values => scanRetentionRow driver values

/-- A row as a record. -/
def readRow (driver : Driver) (row : Row Column Value) : Except GoError EventRecord :=
  match selectRow row eventRows with
  | none => .error driver.mismatch
  | some values => scanCHEvent driver values

/-- The rows of `LoadArchiveEvents`. -/
def loadRows (driver : Driver) (rows : List (Row Column Value)) (ids : List GoString) :
    Except GoError (List EventRecord) :=
  (orderBy rowOrder (rows.filter fun row => ids.any fun id => row.get .eventID = some (.text id))).mapM
    (readRow driver)

theorem IsRow.loaded {driver : Driver} {e : EventRecord} {row : Row Column Value}
    (isRow : IsRow driver e row) (known : e.level.Known) :
    retentionRow driver row = .ok (Retention.Adapter.clickhouse.retentionEvent e) ∧
      loadRows driver [row] [e.id.1] = .ok [kept e] := by
  obtain ⟨values, selected, scanned⟩ := isRow.retentionEvent
  obtain ⟨values', selected', scanned'⟩ := isRow.scan known
  constructor
  · unfold retentionRow
    rw [selected]
    exact scanned
  · have read : readRow driver row = .ok (kept e) := by
      unfold readRow
      rw [selected']
      exact scanned'
    have here : [row].filter (fun row => [e.id.1].any fun id => row.get .eventID = some (.text id)) =
        [row] := by
      simp [isRow.eventID]
    unfold loadRows
    rw [here]
    show [row].mapM (readRow driver) = _
    rw [List.mapM_cons, read]
    rfl

end Trail.ClickHouse

/-! ### One class -/

namespace Trail.Retention

open Library Payload Storage

/-- The class of the last field that names one. -/
def lastClass (fields : List Wire.Field) : GoString :=
  fields.foldl (fun class_ field =>
    if field.key = ascii "trail.retention.class" then field.text else class_) []

theorem class_ite {condition : Prop} [Decidable condition] {class_ : GoString}
    {yes no : EventRecord × Library.Table GoString PayloadLink} (first : condition → yes.1.retentionClass = class_)
    (second : ¬ condition → no.1.retentionClass = class_) :
    (if condition then yes else no).1.retentionClass = class_ := by
  by_cases holds : condition
  · rw [if_pos holds]
    exact first holds
  · rw [if_neg holds]
    exact second holds

theorem retentionClass_applyField (state : EventRecord × Library.Table GoString PayloadLink)
    (field : Wire.Field) :
    (applyField state field).1.retentionClass =
      if field.key = ascii "trail.retention.class" then field.text else state.1.retentionClass := by
  have other : ∀ {key : String}, ascii key ≠ ascii "trail.retention.class" →
      field.key = ascii key → state.1.retentionClass =
        if field.key = ascii "trail.retention.class" then field.text
        else state.1.retentionClass := by
    intro key differs here
    rw [if_neg (by rw [here]; exact differs)]
  have marked : (if field.type = ascii "error" then { state.1 with hasError := true }
      else state.1).retentionClass = state.1.retentionClass := by
    split <;> rfl
  unfold applyField
  iterate 3 refine class_ite (other (by decide)) fun _ => ?_
  refine class_ite (fun named => (if_pos named).symm) fun named => ?_
  rw [if_neg named]
  iterate 12 refine class_ite (fun _ => rfl) fun _ => ?_
  exact class_ite (fun _ => marked) fun _ => marked

theorem retentionClass_recordOf (event : Wire.Event) (metadata : Metadata) (batchID : EventID)
    (delivery : Delivery) :
    (recordOf event metadata batchID delivery).retentionClass = lastClass event.fields := by
  have fold : ∀ (fields : List Wire.Field) (state : EventRecord × Library.Table GoString PayloadLink),
      (fields.foldl applyField state).1.retentionClass =
        fields.foldl (fun class_ field =>
          if field.key = ascii "trail.retention.class" then field.text else class_)
          state.1.retentionClass := by
    intro fields
    induction fields with
    | nil => exact fun _ => rfl
    | cons field fields ih =>
      intro state
      rw [List.foldl_cons, ih, retentionClass_applyField]
      rfl
  exact fold event.fields _

/-- **One class**: the scans of both adapters, and the record that either reads back, give the class
that `Normalize` gave. -/
structure OneClass (driver : Driver) (e : EventRecord) (postgres clickhouse : Row Column Value) :
    Prop where
  scans : (Postgres.retentionRow driver postgres).map Event.retentionClass = .ok e.retentionClass ∧
    (ClickHouse.retentionRow driver clickhouse).map Event.retentionClass = .ok e.retentionClass
  gets : (Postgres.getEvent driver [postgres] e.id).map (·.retentionClass) = .ok e.retentionClass ∧
    (ClickHouse.getEvent driver [clickhouse] e.id).map (·.retentionClass) = .ok e.retentionClass
  loads : (Postgres.loadRows driver [postgres] [e.id.1]).map (·.map (·.retentionClass)) =
      .ok [e.retentionClass] ∧
    (ClickHouse.loadRows driver [clickhouse] [e.id.1]).map (·.map (·.retentionClass)) =
      .ok [e.retentionClass]

/-- **When there is one class**: exactly when the last field that names a class, which `Normalize`
takes, and the first, which the scans take, both have no text, as the record that is read back. -/
theorem one_class_iff (driver : Driver) {event : Wire.Event} {metadata : Metadata} {batchID : EventID}
    {delivery : Delivery} {e : EventRecord}
    (normalized : normalizeEvent event metadata batchID delivery = .ok e)
    (inverts : driver.Inverts e) {postgres clickhouse : Row Column Value}
    (first : Postgres.eventRow driver e = .ok postgres)
    (second : ClickHouse.eventRow driver e = .ok clickhouse) :
    OneClass driver e postgres clickhouse ↔
      lastClass event.fields = [] ∧ firstClass event.fields = [] := by
  have made : e = recordOf event metadata batchID delivery :=
    (Except.ok.inj normalized).symm
  have class_ : e.retentionClass = lastClass event.fields := by
    rw [made]
    exact retentionClass_recordOf _ _ _ _
  have fields : e.fields = event.fields := by
    obtain ⟨record, same, base⟩ := normalizeEvent_base event metadata batchID delivery
    rw [normalized] at same
    cases same
    exact congrArg EventRecord.fields base
  have known : e.level.Known := by
    rw [made]
    exact recordOf_level _ _ _ _
  have pgRow := Postgres.eventRow_inv first inverts
  obtain ⟨row, stored, chRow⟩ := ClickHouse.eventRow_of_known known inverts
  rw [second] at stored
  cases stored
  obtain ⟨pgScan, pgLoad⟩ := pgRow.loaded known
  obtain ⟨chScan, chLoad⟩ := chRow.loaded known
  have pgGet := Postgres.getEvent_of_rows (.cons pgRow .nil) (List.nodup_singleton _)
    List.mem_cons_self known
  have chGet := ClickHouse.getEvent_of_rows (.cons chRow .nil) (List.nodup_singleton _)
    List.mem_cons_self known
  have found : firstClass e.fields = firstClass event.fields := by rw [fields]
  rw [← class_, ← found]
  constructor
  · intro one
    have none := one.gets.1
    have scan := one.scans.1
    rw [pgGet] at none
    rw [pgScan] at scan
    have empty : e.retentionClass = [] := (Except.ok.inj none).symm
    exact ⟨empty, (Except.ok.inj scan).trans empty⟩
  · intro ⟨last, first⟩
    refine ⟨⟨?_, ?_⟩, ⟨?_, ?_⟩, ?_, ?_⟩
    · rw [pgScan, last]
      exact congrArg Except.ok first
    · rw [chScan, last]
      exact congrArg Except.ok first
    · rw [pgGet, last]
      rfl
    · rw [chGet, last]
      rfl
    · rw [pgLoad, last]
      rfl
    · rw [chLoad, last]
      rfl

/-- An event without a class has one class everywhere. -/
theorem one_class_iff_order : ∃ postgres clickhouse,
    Postgres.eventRow orderDriver orderRecord = .ok postgres ∧
    ClickHouse.eventRow orderDriver orderRecord = .ok clickhouse ∧
    OneClass orderDriver orderRecord postgres clickhouse := by
  have fits : Postgres.Fits orderRecord :=
    ⟨by decide, by decide, by decide, by decide, by decide⟩
  obtain ⟨postgres, first, _⟩ := Postgres.eventRow_of_fits fits orderDriver_inverts
  obtain ⟨clickhouse, second, _⟩ := ClickHouse.eventRow_of_known (recordOf_level _ _ _ _)
    orderDriver_inverts
  have normalized : normalizeEvent (Wire.fromEvent orderCall.event) orderMetadata orderBatch.batchID
      {} = .ok orderRecord := rfl
  exact ⟨postgres, clickhouse, first, second, (one_class_iff orderDriver normalized
    orderDriver_inverts first second).mpr ⟨by decide, by decide⟩⟩

/-- An event with two fields that name a class. -/
def classedEvent : Wire.Event :=
  { Wire.fromEvent orderCall.event with
    fields := [⟨ascii "trail.retention.class", ascii "string", ascii "short", 0⟩,
      ⟨ascii "trail.retention.class", ascii "string", ascii "long", 0⟩] }

def classedRecord : EventRecord := recordOf classedEvent orderMetadata orderBatch.batchID {}

def classedDriver : Driver :=
  { orderDriver with
    fields := Wire.Codec.table [(classedRecord.fields, octets "[short,long]")]
    payloads := Wire.Codec.table [(classedRecord.payloads, octets "null")] }

theorem classedDriver_inverts : classedDriver.Inverts classedRecord := by
  obtain ⟨fields, first, second⟩ := Wire.Codec.single_inverts classedRecord.fields
    (octets "[short,long]")
  obtain ⟨payloads, third, fourth⟩ := Wire.Codec.single_inverts classedRecord.payloads (octets "null")
  exact ⟨⟨fields, fields, first, rfl, second⟩, payloads, payloads, third, rfl, fourth, fourth⟩

/-- **Three classes of one event**: `Normalize` takes the last, the scan takes the first, and the
record that is read back has none. -/
theorem three_classes :
    Wire.validate { orderEnvelope with events := [classedEvent] } = .ok () ∧
    normalizeEvent classedEvent orderMetadata orderBatch.batchID {} = .ok classedRecord ∧
    classedRecord.retentionClass = ascii "long" ∧
    ∃ row, Postgres.eventRow classedDriver classedRecord = .ok row ∧
      (Postgres.retentionRow classedDriver row).map Event.retentionClass = .ok (ascii "short") ∧
      (Postgres.getEvent classedDriver [row] classedRecord.id).map (·.retentionClass) = .ok [] := by
  have fits : Postgres.Fits classedRecord :=
    ⟨by decide, by decide, by decide, by decide, by decide⟩
  have known : classedRecord.level.Known := recordOf_level _ _ _ _
  obtain ⟨row, stored, isRow⟩ := Postgres.eventRow_of_fits fits classedDriver_inverts
  refine ⟨by decide, rfl, by decide, row, stored, ?_, ?_⟩
  · rw [(isRow.loaded known).1]
    decide
  · rw [Postgres.getEvent_of_rows (.cons isRow .nil) (List.nodup_singleton _) List.mem_cons_self known]
    rfl

end Trail.Retention
