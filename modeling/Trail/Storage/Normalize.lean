/-
**From the wire to a stored record.**

`normalize` makes the records the adapters store out of a valid envelope. The attributes of an event
are read from the envelope; on top of them the fields with a conventional key fill the derived
attributes (statuses, HTTP call, payload links), and every field, conventional or not, is kept in
`fields`. `normalizeEvent_base` says that the pass over the fields leaves everything else alone.
-/

import Mathlib.Data.List.Sort
import Trail.Library.Table
import Trail.Storage.Record

namespace Trail.Storage

open Library Payload

/-! ### Strings -/

/-- `strings.TrimPrefix`. -/
def trimPrefix (text start : GoString) : GoString :=
  if start.isPrefixOf text then text.drop start.length else text

/-- `strings.SplitN(text, ".", 2)`. -/
def splitDot (text : GoString) : List GoString :=
  match text.idxOf? 46 with
  | none => [text]
  | some position => [text.take position, text.drop (position + 1)]

/-! ### Payload links -/

/-- The `switch` of `applyPayloadField` on what follows the role. -/
def setPayload (link : PayloadLink) (part : GoString) (field : Wire.Field) : PayloadLink :=
  if part = ascii "store" then { link with ref := { link.ref with store := field.text } }
  else if part = ascii "key" then { link with ref := { link.ref with key := field.text } }
  else if part = ascii "content_type" then
    { link with ref := { link.ref with contentType := field.text } }
  else if part = ascii "size" then
    { link with ref := { link.ref with size := field.num.toInt64 } }
  else if part = ascii "stored_size" then
    { link with ref := { link.ref with storedSize := field.num.toInt64 } }
  else if part = ascii "sha256" then
    match Hex.decodeString field.text with
    | none => link
    | some decoded =>
      if size : decoded.length = 32 then
        { link with ref := { link.ref with sha256 := ⟨decoded, size⟩ } }
      else link
  else if part = ascii "compression" then
    { link with ref := { link.ref with compression := field.text } }
  else if part = ascii "retain_until_unix_nano" then
    { link with ref := { link.ref with retainUntil := field.num.toInt64.toInt } }
  else if part = ascii "retention_class" then
    { link with ref := { link.ref with retentionClass := field.text } }
  else if part = ascii "original_size" then { link with originalSize := field.num.toInt64 }
  else if part = ascii "captured_size" then { link with capturedSize := field.num.toInt64 }
  else if part = ascii "truncated" then { link with truncated := decide (field.num ≠ 0) }
  else if part = ascii "error" then { link with error := field.text }
  else link

/-- `applyPayloadField`; a key without a role or without a part after it is left out. -/
def applyPayloadField (links : Table GoString PayloadLink) (field : Wire.Field) :
    Table GoString PayloadLink :=
  match splitDot (trimPrefix field.key (ascii "payload.")) with
  | [role, part] =>
    if role = [] then links
    else links.insert role (setPayload ((links.lookup role).getD { role := role }) part field)
  | _ => links

/-- The links in the order of their roles; one without store, key and error is dropped. -/
def payloadsOf (links : Table GoString PayloadLink) : List PayloadLink :=
  ((links.keys.insertionSort (· ≤ ·)).filterMap links.lookup).filter fun link =>
    link.ref.store ≠ [] ∨ link.ref.key ≠ [] ∨ link.error ≠ []

/-! ### Events -/

/-- `parseLevel`. -/
def parseLevel (level : GoString) : Level :=
  if level = ascii "debug" then Level.debug
  else if level = ascii "warn" then Level.warn
  else if level = ascii "error" then Level.error
  else Level.info

/-- `id, _ := Parse…ID(text)`: beside an error the identifier is zero. -/
def parsedID (text : GoString) : Bytes 16 :=
  match decodeID text with
  | .ok id => id
  | .error _ => Bytes.zero 16

/-- An identifier that is parsed when it is there. -/
def optionalID (text : GoString) : Bytes 16 := if text = [] then Bytes.zero 16 else parsedID text

/-- The record of `normalizeEvent` before the pass over the fields. -/
def newRecord (event : Wire.Event) (metadata : Metadata) (batchID : EventID)
    (delivery : Delivery) : EventRecord where
  id := parsedID event.eventID
  timestamp := event.timestampUnixNano.toInt
  kind := event.kind
  level := parseLevel event.level
  flowID := optionalID event.flowID
  executionID := optionalID event.executionID
  parentExecutionID := optionalID event.parentExecutionID
  retryOfExecutionID := optionalID event.retryOfExecutionID
  executionAttempt := event.executionAttempt
  executionSource := event.executionSource
  scope := ⟨event.scopeType, event.scopeID⟩
  entityType := event.entityType
  entityID := event.entityID
  parentID := optionalID event.parentID
  fields := event.fields
  batchID := batchID
  metadata := metadata
  delivery := delivery

/-- The `switch` of `normalizeEvent` on a field. -/
def applyField (state : EventRecord × Table GoString PayloadLink) (field : Wire.Field) :
    EventRecord × Table GoString PayloadLink :=
  let (record, links) := state
  let { http, .. } := record
  if field.key = ascii "trail.flow.status" then ({ record with flowStatus := field.text }, links)
  else if field.key = ascii "trail.execution.status" then
    ({ record with executionStatus := field.text }, links)
  else if field.key = ascii "trail.execution.kind" then
    ({ record with executionKind := field.text }, links)
  else if field.key = ascii "trail.retention.class" then
    ({ record with retentionClass := field.text }, links)
  else if field.key = ascii "provider" then ({ record with provider := field.text }, links)
  else if field.key = ascii "http.method" then
    ({ record with http := { http with method := field.text } }, links)
  else if field.key = ascii "http.scheme" then
    ({ record with http := { http with scheme := field.text } }, links)
  else if field.key = ascii "http.host" then
    ({ record with http := { http with host := field.text } }, links)
  else if field.key = ascii "http.path" then
    ({ record with http := { http with path := field.text } }, links)
  else if field.key = ascii "http.status_code" then
    ({ record with http := { http with statusCode := field.num.toInt64 } }, links)
  else if field.key = ascii "http.duration" then
    ({ record with http := { http with duration := field.num.toInt64 } }, links)
  else if field.key = ascii "http.success" then
    ({ record with http := { http with success := decide (field.num ≠ 0) } }, links)
  else if field.key = ascii "http.request_size" then
    ({ record with http := { http with requestSize := field.num.toInt64 } }, links)
  else if field.key = ascii "http.response_size" then
    ({ record with http := { http with responseSize := field.num.toInt64 } }, links)
  else if field.key = ascii "http.request_preview" then
    ({ record with http := { http with requestPreview := field.text } }, links)
  else if field.key = ascii "http.response_preview" then
    ({ record with http := { http with responsePreview := field.text } }, links)
  else
    let record :=
      if field.type = ascii "error" then { record with hasError := true } else record
    if (ascii "payload.").isPrefixOf field.key then (record, applyPayloadField links field)
    else (record, links)

/-- `normalizeEvent`, which has an error to return but never returns one. -/
def normalizeEvent (event : Wire.Event) (metadata : Metadata) (batchID : EventID)
    (delivery : Delivery) : Except GoError EventRecord :=
  let (record, links) :=
    event.fields.foldl applyField (newRecord event metadata batchID delivery, ∅)
  .ok { record with payloads := payloadsOf links }

/-- The loop of `Normalize` over the events, from the given index. -/
def normalizeEvents (metadata : Metadata) (batchID : EventID) (delivery : Delivery) :
    Nat → List Wire.Event → Except GoError (List EventRecord)
  | _, [] => .ok []
  | index, event :: events =>
    match normalizeEvent event metadata batchID delivery with
    | .error error =>
      .error { error with text := ascii "event " ++ Wire.decimal index ++ ascii ": " ++ error.text }
    | .ok record =>
      match normalizeEvents metadata batchID delivery (index + 1) events with
      | .error error => .error error
      | .ok records => .ok (record :: records)

/-- `Normalize`. -/
def normalize (envelope : Wire.Envelope) (delivery : Delivery) : Except GoError Batch :=
  match Wire.validate envelope with
  | .error error => .error error
  | .ok () =>
    let batchID := parsedID envelope.batchID
    match normalizeEvents envelope.metadata batchID delivery 0 envelope.events with
    | .error error => .error error
    | .ok events => .ok ⟨batchID, envelope.metadata, delivery, events⟩

/-! ### What the pass over the fields leaves alone -/

/-- A record without its derived attributes. -/
def EventRecord.base (record : EventRecord) : EventRecord :=
  { record with
    flowStatus := [], executionStatus := [], executionKind := [], retentionClass := [],
    provider := [], hasError := false, http := {}, payloads := [] }

theorem base_ite {condition : Prop} [Decidable condition] {record : EventRecord}
    {yes no : EventRecord × Table GoString PayloadLink} (first : yes.1.base = record)
    (second : no.1.base = record) : (if condition then yes else no).1.base = record := by
  split
  · exact first
  · exact second

theorem base_applyField (state : EventRecord × Table GoString PayloadLink) (field : Wire.Field) :
    (applyField state field).1.base = state.1.base := by
  have marked : (if field.type = ascii "error" then { state.1 with hasError := true }
      else state.1).base = state.1.base := by
    split <;> rfl
  unfold applyField
  iterate 16 refine base_ite rfl ?_
  exact base_ite marked marked

theorem base_foldl_applyField (fields : List Wire.Field) :
    ∀ state, (fields.foldl applyField state).1.base = state.1.base := by
  induction fields with
  | nil =>
    intro state
    rfl
  | cons field fields ih =>
    intro state
    rw [List.foldl_cons, ih, base_applyField]

/-- **The record of an event**: derived attributes apart, it is the one read from the event. -/
theorem normalizeEvent_base (event : Wire.Event) (metadata : Metadata) (batchID : EventID)
    (delivery : Delivery) :
    ∃ record, normalizeEvent event metadata batchID delivery = .ok record ∧
      record.base = (newRecord event metadata batchID delivery).base := by
  refine ⟨_, rfl, ?_⟩
  exact base_foldl_applyField event.fields _

theorem normalizeEvents_base (metadata : Metadata) (batchID : EventID) (delivery : Delivery)
    (events : List Wire.Event) :
    ∀ index, ∃ records, normalizeEvents metadata batchID delivery index events = .ok records ∧
      List.Forall₂ (fun record event =>
        record.base = (newRecord event metadata batchID delivery).base) records events := by
  induction events with
  | nil =>
    intro index
    exact ⟨[], rfl, .nil⟩
  | cons event events ih =>
    intro index
    obtain ⟨record, made, base⟩ := normalizeEvent_base event metadata batchID delivery
    obtain ⟨records, others, bases⟩ := ih (index + 1)
    refine ⟨record :: records, ?_, .cons base bases⟩
    rw [normalizeEvents, made]
    dsimp only
    rw [others]

/-- **`Normalize` succeeds on every valid envelope**, with one record an event, in order. -/
theorem normalize_base {envelope : Wire.Envelope} (valid : Wire.validate envelope = .ok ())
    (delivery : Delivery) :
    ∃ batch, normalize envelope delivery = .ok batch ∧ batch.batchID = parsedID envelope.batchID ∧
      batch.metadata = envelope.metadata ∧ batch.delivery = delivery ∧
      List.Forall₂ (fun record event => record.base =
        (newRecord event envelope.metadata (parsedID envelope.batchID) delivery).base)
        batch.events envelope.events := by
  obtain ⟨records, made, bases⟩ :=
    normalizeEvents_base envelope.metadata (parsedID envelope.batchID) delivery envelope.events 0
  refine ⟨⟨parsedID envelope.batchID, envelope.metadata, delivery, records⟩, ?_, rfl, rfl, rfl,
    bases⟩
  rw [normalize, valid]
  dsimp only
  rw [made]

theorem parsedID_encodeID (id : Bytes 16) : parsedID (encodeID id) = id := by
  rw [parsedID, decodeID_encodeID]

theorem optionalID_idText (id : Bytes 16) : optionalID (Wire.idText id) = id := by
  unfold Wire.idText
  split
  · rename_i zero
    exact (of_decide_eq_true zero).symm
  · rw [optionalID, if_neg (encodeID_ne_nil id), parsedID_encodeID]

theorem parseLevel_text {level : Level} (known : level.Known) : parseLevel level.text = level := by
  rcases known with rfl | rfl | rfl | rfl <;> decide

/-- **Reading back the wire form of an event**: identifiers, level and fields come back. -/
theorem newRecord_fromEvent {event : Event} (known : event.level.Known) (metadata : Metadata)
    (batchID : EventID) (delivery : Delivery) :
    newRecord (Wire.fromEvent event) metadata batchID delivery =
      { id := event.id, timestamp := event.timestamp.toInt, kind := event.kind,
        level := event.level, flowID := event.flowID, executionID := event.executionID,
        parentExecutionID := event.parentExecutionID,
        retryOfExecutionID := event.retryOfExecutionID,
        executionAttempt := event.executionAttempt, executionSource := event.executionSource,
        scope := ⟨event.scopeType, event.scopeID⟩, entityType := event.entityType,
        entityID := event.entityID, parentID := event.parentID,
        fields := event.fields.map Wire.fromField, batchID := batchID, metadata := metadata,
        delivery := delivery } := by
  simp only [newRecord, Wire.fromEvent, parsedID_encodeID, optionalID_idText,
    parseLevel_text known]

end Trail.Storage
