/-
**The transport envelope.**

`MarshalBatch` turns a batch of the core package into a versioned envelope and encodes it;
`Unmarshal` decodes and validates one. Both sides run the same `Validate`. `encoding/json` is a
parameter, `Codec`: what the development needs of it is said where it is used.
-/

import Mathlib.Data.Set.Function
import Trail.Core.Event

namespace Trail.Wire

/-! ### Envelopes -/

def version : Int := 1

/-- The text of an integer in decimal, `%d`. -/
def decimal (number : Int) : GoString := ascii (toString number)

/-- `Field`: `type` says how `num` is to be read. -/
structure Field where
  key : GoString
  type : GoString
  text : GoString := []
  num : UInt64 := 0
  deriving DecidableEq, Repr

/-- `Event`. -/
structure Event where
  eventID : GoString
  timestampUnixNano : Int64
  kind : GoString
  level : GoString
  flowID : GoString := []
  executionID : GoString := []
  parentExecutionID : GoString := []
  retryOfExecutionID : GoString := []
  executionAttempt : UInt32 := 0
  executionSource : GoString := []
  scopeType : GoString := []
  scopeID : GoString := []
  entityType : GoString := []
  entityID : GoString := []
  parentID : GoString := []
  fields : List Field := []
  deriving DecidableEq, Repr

/-- `Envelope`. -/
structure Envelope where
  schemaVersion : Int
  batchID : GoString
  metadata : Metadata
  events : List Event
  deriving DecidableEq, Repr

def errInvalidEnvelope : GoError :=
  { text := ascii "trail/wire: invalid envelope", wraps := [.invalidEnvelope] }

def errUnsupportedVersion : GoError :=
  { text := ascii "trail/wire: unsupported schema version", wraps := [.unsupportedVersion] }

/-- `fmt.Errorf("%w: …", err)`. -/
def wrap (error : GoError) (detail : GoString) : GoError :=
  { error with text := error.text ++ ascii ": " ++ detail }

/-! ### Validation -/

/-- An identifier field, when it is present, has to parse. -/
def checkID (text : GoString) (message : String) : Except GoError Unit :=
  if text = [] then .ok ()
  else
    match decodeID text with
    | .ok _ => .ok ()
    | .error _ => .error (errorsNew message)

/-- The levels of the wire. -/
def levels : List GoString := [ascii "debug", ascii "info", ascii "warn", ascii "error"]

/-- The field types of the wire. -/
def fieldTypes : List GoString :=
  [ascii "string", ascii "int", ascii "int64", ascii "bool", ascii "float64", ascii "duration",
    ascii "error"]

def validateField (field : Field) : Except GoError Unit :=
  if field.key = [] then .error (errorsNew "empty field key")
  else if field.type ∈ fieldTypes then .ok ()
  else .error (errorsNew "invalid field type")

/-- `validateEvent`. -/
def validateEvent (event : Event) : Except GoError Unit := do
  if event.eventID = [] ∨ event.timestampUnixNano = 0 ∨ event.kind = [] then
    throw (errorsNew "missing required value")
  checkID event.eventID "invalid event_id"
  checkID event.flowID "invalid flow_id"
  checkID event.executionID "invalid execution_id"
  checkID event.parentExecutionID "invalid parent_execution_id"
  checkID event.retryOfExecutionID "invalid retry_of_execution_id"
  checkID event.parentID "invalid parent_id"
  if ¬ (event.scopeType = [] ↔ event.scopeID = []) then
    throw (errorsNew "scope_type and scope_id must be provided together")
  if event.level ∉ levels then
    throw (errorsNew "invalid level")
  event.fields.forM validateField

/-- The loop of `Validate` over the events, from the given index. -/
def validateEvents : Nat → List Event → Except GoError Unit
  | _, [] => .ok ()
  | index, event :: events =>
    match validateEvent event with
    | .error error =>
      .error (wrap errInvalidEnvelope
        (ascii "event " ++ decimal index ++ ascii ": " ++ error.text))
    | .ok () => validateEvents (index + 1) events

/-- `Validate`. -/
def validate (envelope : Envelope) : Except GoError Unit :=
  if envelope.schemaVersion ≠ version then
    .error (wrap errUnsupportedVersion (decimal envelope.schemaVersion))
  else if envelope.batchID = [] ∨ envelope.events = [] ∨ envelope.metadata.service = [] then
    .error errInvalidEnvelope
  else
    match parseEventID envelope.batchID with
    | .error _ => .error (wrap errInvalidEnvelope (ascii "batch_id"))
    | .ok _ => validateEvents 0 envelope.events

/-! ### Encoding -/

/-- `json.Marshal` and `json.Unmarshal` at one type. -/
structure Codec (α : Type) where
  marshal : α → Except GoError (List UInt8)
  unmarshal : List UInt8 → Except GoError α

/-- The codec carries a value: it writes it, and reads it back from what it wrote. -/
def Codec.Inverts {α : Type} (json : Codec α) (value : α) : Prop :=
  ∃ data, json.marshal value = .ok data ∧ json.unmarshal data = .ok value

/-- The codec of a table of values with their texts. -/
def Codec.table {α : Type} [DecidableEq α] (texts : List (α × List UInt8)) : Codec α where
  marshal value :=
    match texts.find? fun entry => entry.1 = value with
    | none => .error (errorsNew "json: unsupported value")
    | some entry => .ok entry.2
  unmarshal data :=
    match texts.find? fun entry => entry.2 = data with
    | none => .error (errorsNew "unexpected end of JSON input")
    | some entry => .ok entry.1

section Table

variable {α : Type} [DecidableEq α] {text : α → List UInt8} {items : List α} {value : α}

theorem Codec.table_marshal (member : value ∈ items) :
    (Codec.table (items.map fun item => (item, text item))).marshal value = .ok (text value) := by
  unfold table
  dsimp only
  split
  · rename_i missing
    have absent := List.find?_eq_none.mp missing (value, text value)
      (List.mem_map.mpr ⟨value, member, rfl⟩)
    exact absurd (decide_eq_true rfl) absent
  · rename_i entry found
    obtain ⟨item, _, rfl⟩ := List.mem_map.mp (List.mem_of_find?_eq_some found)
    have same : item = value := by simpa using List.find?_some found
    rw [same]

theorem Codec.table_unmarshal (injective : Set.InjOn text {item | item ∈ items})
    (member : value ∈ items) :
    (Codec.table (items.map fun item => (item, text item))).unmarshal (text value) = .ok value := by
  unfold table
  dsimp only
  split
  · rename_i missing
    have absent := List.find?_eq_none.mp missing (value, text value)
      (List.mem_map.mpr ⟨value, member, rfl⟩)
    exact absurd (decide_eq_true rfl) absent
  · rename_i entry found
    obtain ⟨item, among, rfl⟩ := List.mem_map.mp (List.mem_of_find?_eq_some found)
    have same : text item = text value := by simpa using List.find?_some found
    rw [injective among member same]

theorem Codec.unmarshal_cons_self (value : α) (data : List UInt8) (rest : List (α × List UInt8)) :
    (Codec.table ((value, data) :: rest)).unmarshal data = .ok value := by
  unfold table
  simp only [List.find?_cons, decide_true]

theorem Codec.unmarshal_cons_ne {data text : List UInt8} (differs : text ≠ data) (value : α)
    (rest : List (α × List UInt8)) :
    (Codec.table ((value, text) :: rest)).unmarshal data = (Codec.table rest).unmarshal data := by
  unfold table
  simp only [List.find?_cons, decide_eq_false differs]

theorem Codec.table_inverts (injective : Set.InjOn text {item | item ∈ items})
    (member : value ∈ items) :
    (Codec.table (items.map fun item => (item, text item))).Inverts value :=
  ⟨text value, Codec.table_marshal member, Codec.table_unmarshal injective member⟩

theorem Codec.single_inverts (value : α) (data : List UInt8) :
    (Codec.table [(value, data)]).Inverts value := by
  have one := @Codec.table_inverts α _ (fun _ => data) [value] value
  exact one (fun _ first _ second _ =>
    (List.mem_singleton.mp first).trans (List.mem_singleton.mp second).symm)
    (List.mem_singleton.mpr rfl)

end Table

/-- `fieldType`. -/
def fieldType : FieldKind → GoString
  | .string => ascii "string"
  | .int => ascii "int"
  | .int64 => ascii "int64"
  | .bool => ascii "bool"
  | .float64 => ascii "float64"
  | .duration => ascii "duration"
  | .error => ascii "error"
  | .other => ascii "unknown"

/-- The body of the loop of `fromEvent` over the fields. -/
def fromField (field : Trail.Field) : Field :=
  match field.kind with
  | .string | .error => { key := field.key, type := fieldType field.kind, text := field.text }
  | _ => { key := field.key, type := fieldType field.kind, num := field.toInt64.toUInt64 }

/-- The text of an identifier, empty for the zero one. -/
def idText (id : Bytes 16) : GoString := if isZeroID id then [] else encodeID id

/-- `fromEvent`. -/
def fromEvent (event : Trail.Event) : Event where
  eventID := encodeID event.id
  timestampUnixNano := event.timestamp
  kind := event.kind
  level := event.level.text
  flowID := idText event.flowID
  executionID := idText event.executionID
  parentExecutionID := idText event.parentExecutionID
  retryOfExecutionID := idText event.retryOfExecutionID
  executionAttempt := event.executionAttempt
  executionSource := event.executionSource
  scopeType := event.scopeType
  scopeID := event.scopeID
  entityType := event.entityType
  entityID := event.entityID
  parentID := idText event.parentID
  fields := event.fields.map fromField

/-- `Marshal`. -/
def marshal (json : Codec Envelope) (envelope : Envelope) : Except GoError (List UInt8) := do
  validate envelope
  json.marshal envelope

/-- The envelope of a batch with a first event. -/
def batchEnvelope (metadata : Metadata) (first : Trail.Event) (events : List Trail.Event) :
    Envelope where
  schemaVersion := version
  batchID := encodeID first.id
  metadata := metadata
  events := events.map fromEvent

/-- `MarshalBatch`. -/
def marshalBatch (json : Codec Envelope) (batch : Batch) : Except GoError (List UInt8) :=
  match batch.events with
  | [] => .error (wrap errInvalidEnvelope (ascii "empty batch"))
  | first :: rest => marshal json (batchEnvelope batch.metadata first (first :: rest))

/-- `Unmarshal`. -/
def unmarshal (json : Codec Envelope) (data : List UInt8) : Except GoError Envelope :=
  match json.unmarshal data with
  | .error error => .error (wrap errInvalidEnvelope error.text)
  | .ok envelope => do
      validate envelope
      return envelope

/-! ### The events that pass -/

/-- What `Validate` asks of an event of the core package. -/
structure Sendable (event : Trail.Event) : Prop where
  timestamp : event.timestamp ≠ 0
  kind : event.kind ≠ []
  scope : event.scopeType = [] ↔ event.scopeID = []
  level : event.level.Known
  fields : ∀ field ∈ event.fields, field.key ≠ [] ∧ field.kind ≠ .other

theorem checkID_encodeID (id : Bytes 16) (message : String) :
    checkID (encodeID id) message = .ok () := by
  rw [checkID, if_neg (encodeID_ne_nil id), decodeID_encodeID]

theorem checkID_idText (id : Bytes 16) (message : String) : checkID (idText id) message = .ok () := by
  unfold idText
  split
  · rfl
  · exact checkID_encodeID id message

theorem text_mem_levels {level : Level} (known : level.Known) : level.text ∈ levels := by
  rcases known with rfl | rfl | rfl | rfl <;> decide

theorem fieldType_mem {kind : FieldKind} (known : kind ≠ .other) : fieldType kind ∈ fieldTypes := by
  cases kind <;> first | decide | exact absurd rfl known

theorem key_fromField (field : Trail.Field) : (fromField field).key = field.key := by
  unfold fromField
  split <;> rfl

theorem type_fromField (field : Trail.Field) : (fromField field).type = fieldType field.kind := by
  unfold fromField
  split <;> rfl

theorem validateField_fromField {field : Trail.Field} (key : field.key ≠ [])
    (known : field.kind ≠ .other) : validateField (fromField field) = .ok () := by
  rw [validateField, key_fromField, type_fromField, if_neg key, if_pos (fieldType_mem known)]

theorem forM_validateField (fields : List Field)
    (each : ∀ field ∈ fields, validateField field = .ok ()) :
    fields.forM validateField = .ok () := by
  induction fields with
  | nil => rfl
  | cons field fields ih =>
    show (validateField field >>= fun _ => fields.forM validateField) = .ok ()
    rw [each field List.mem_cons_self]
    exact ih fun other member => each other (List.mem_cons_of_mem _ member)

theorem Sendable.validateEvent {event : Trail.Event} (sendable : Sendable event) :
    validateEvent (fromEvent event) = .ok () := by
  have present : ¬ ((fromEvent event).eventID = [] ∨ (fromEvent event).timestampUnixNano = 0 ∨
      (fromEvent event).kind = []) := by
    rintro (empty | zero | empty)
    · exact encodeID_ne_nil event.id empty
    · exact sendable.timestamp zero
    · exact sendable.kind empty
  have scope : ¬ ¬ ((fromEvent event).scopeType = [] ↔ (fromEvent event).scopeID = []) :=
    not_not_intro sendable.scope
  have level : ¬ (fromEvent event).level ∉ levels := not_not_intro (text_mem_levels sendable.level)
  have fields : (fromEvent event).fields.forM validateField = .ok () := by
    apply forM_validateField
    intro field member
    obtain ⟨source, among, rfl⟩ := List.mem_map.mp member
    obtain ⟨key, kind⟩ := sendable.fields source among
    exact validateField_fromField key kind
  unfold Wire.validateEvent
  rw [if_neg present, if_neg scope, if_neg level, fields]
  simp only [fromEvent, checkID_encodeID, checkID_idText]
  rfl

theorem validateEvents_map (events : List Trail.Event) (sendable : ∀ event ∈ events, Sendable event) :
    ∀ index, validateEvents index (events.map fromEvent) = .ok () := by
  induction events with
  | nil =>
    intro index
    rfl
  | cons event events ih =>
    intro index
    rw [List.map_cons, validateEvents, (sendable event List.mem_cons_self).validateEvent]
    exact ih (fun other member => sendable other (List.mem_cons_of_mem _ member)) _

theorem validate_batchEnvelope_eq {metadata : Metadata} (service : metadata.service ≠ [])
    (first : Trail.Event) {events : List Trail.Event} (some : events ≠ []) :
    validate (batchEnvelope metadata first events) = validateEvents 0 (events.map fromEvent) := by
  have complete : ¬ ((batchEnvelope metadata first events).batchID = [] ∨
      (batchEnvelope metadata first events).events = [] ∨
      (batchEnvelope metadata first events).metadata.service = []) := by
    rintro (empty | empty | empty)
    · exact encodeID_ne_nil first.id empty
    · exact some (List.map_eq_nil_iff.mp empty)
    · exact service empty
  have current : ¬ (batchEnvelope metadata first events).schemaVersion ≠ version :=
    not_not_intro rfl
  have parsed : parseEventID (batchEnvelope metadata first events).batchID = .ok first.id :=
    decodeID_encodeID first.id
  rw [validate, if_neg current, if_neg complete, parsed]
  rfl

/-- **The envelope of sendable events is valid.** -/
theorem validate_batchEnvelope {metadata : Metadata} (service : metadata.service ≠ [])
    (first : Trail.Event) {events : List Trail.Event} (some : events ≠ [])
    (sendable : ∀ event ∈ events, Sendable event) :
    validate (batchEnvelope metadata first events) = .ok () := by
  rw [validate_batchEnvelope_eq service first some]
  exact validateEvents_map events sendable 0

/-! ### Texts that JSON can carry -/

/-- The strings of a field are valid UTF-8. -/
def Field.IsUtf8 (field : Field) : Prop := Utf8 field.key ∧ Utf8 field.type ∧ Utf8 field.text

/-- The strings of an event are valid UTF-8. -/
structure Event.IsUtf8 (event : Event) : Prop where
  eventID : Utf8 event.eventID
  kind : Utf8 event.kind
  level : Utf8 event.level
  flowID : Utf8 event.flowID
  executionID : Utf8 event.executionID
  parentExecutionID : Utf8 event.parentExecutionID
  retryOfExecutionID : Utf8 event.retryOfExecutionID
  executionSource : Utf8 event.executionSource
  scopeType : Utf8 event.scopeType
  scopeID : Utf8 event.scopeID
  entityType : Utf8 event.entityType
  entityID : Utf8 event.entityID
  parentID : Utf8 event.parentID
  fields : ∀ field ∈ event.fields, field.IsUtf8

/-- The strings of an envelope are valid UTF-8. -/
structure Envelope.IsUtf8 (envelope : Envelope) : Prop where
  batchID : Utf8 envelope.batchID
  service : Utf8 envelope.metadata.service
  environment : Utf8 envelope.metadata.environment
  version : Utf8 envelope.metadata.version
  events : ∀ event ∈ envelope.events, event.IsUtf8

/-- **A batch goes through the wire**: it is written, and what was written is read as the envelope
of the batch. -/
theorem unmarshal_marshalBatch {json : Codec Envelope} {metadata : Metadata} {first : Trail.Event}
    {rest : List Trail.Event}
    (valid : validate (batchEnvelope metadata first (first :: rest)) = .ok ())
    (inverts : json.Inverts (batchEnvelope metadata first (first :: rest))) :
    ∃ data, marshalBatch json ⟨metadata, first :: rest⟩ = .ok data ∧
      unmarshal json data = .ok (batchEnvelope metadata first (first :: rest)) := by
  obtain ⟨data, written, read⟩ := inverts
  refine ⟨data, ?_, ?_⟩
  · show (validate (batchEnvelope metadata first (first :: rest)) >>= fun _ => json.marshal _) = _
    rw [valid]
    exact written
  · rw [unmarshal, read]
    dsimp only
    rw [valid]
    rfl

theorem utf8_idText (id : Bytes 16) : Utf8 (idText id) := by
  unfold idText
  split
  · exact utf8_nil
  · exact utf8_encodeID id

theorem utf8_levelText (level : Level) : Utf8 level.text := by
  have small : ∀ text ∈ [ascii "debug", ascii "info", ascii "warn", ascii "error", ascii "unknown"],
      ∀ byte ∈ text, byte < 128 := by decide +kernel
  apply utf8_of_ascii
  apply small
  unfold Level.text
  split_ifs <;> simp

theorem utf8_fieldType (kind : FieldKind) : Utf8 (fieldType kind) := by
  apply utf8_of_ascii
  cases kind <;> decide +kernel

end Trail.Wire
