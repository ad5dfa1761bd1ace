/-
**What an event means from `Log` to its record.**

An event passes through four forms: the options of a `Log` call, the event of the core package, the
event of the wire and the stored record. `events_keep_their_meaning` follows a batch through all of
them. Nothing is asked of JSON beyond reading back what it wrote, and that only of the envelope of
this batch and only when its strings are valid UTF-8.
-/

import Trail.Storage.Normalize

namespace Trail.Storage

/-- A call of `Log`, with the identifier and the clock reading the event got. -/
structure Call where
  id : EventID
  timestamp : Int64
  kind : GoString
  options : List LogOption

/-- The event the call hands to the writer. -/
def Call.event (call : Call) : Event :=
  buildEvent call.id call.timestamp call.kind call.options

/-- A call with options an application can build, whose strings are valid UTF-8, whose kind and
field keys are there, and whose last level and scope are proper ones. -/
structure Call.Sound (call : Call) : Prop where
  timestamp : call.timestamp ≠ 0
  kind : call.kind ≠ []
  kindUtf8 : Utf8 call.kind
  made : ∀ option ∈ call.options, option.Public
  utf8 : ∀ option ∈ call.options, option.IsUtf8
  keys : ∀ field ∈ call.options.filterMap LogOption.field?, field.key ≠ []
  level : (lastOf LogOption.level? Level.info call.options).Known
  scope : (lastOf LogOption.scope? ([], []) call.options).1 = [] ↔
    (lastOf LogOption.scope? ([], []) call.options).2 = []

/-- A record carries what the call said: each attribute is the one of the last option of its kind,
and the fields are the field options, in order and with duplicates. -/
structure Carries (record : EventRecord) (call : Call) : Prop where
  id : record.id = call.id
  timestamp : record.timestamp = call.timestamp.toInt
  kind : record.kind = call.kind
  level : record.level = lastOf LogOption.level? Level.info call.options
  flowID : record.flowID = lastOf LogOption.flow? (Bytes.zero 16) call.options
  executionID : record.executionID = lastOf LogOption.execution? (Bytes.zero 16) call.options
  parentID : record.parentID = lastOf LogOption.parent? (Bytes.zero 16) call.options
  parentExecutionID : record.parentExecutionID =
    lastOf LogOption.parentExecution? (Bytes.zero 16) call.options
  retryOfExecutionID : record.retryOfExecutionID =
    lastOf LogOption.retryOfExecution? (Bytes.zero 16) call.options
  executionAttempt : record.executionAttempt = lastOf LogOption.executionAttempt? 0 call.options
  executionSource : record.executionSource = lastOf LogOption.executionSource? [] call.options
  scope : (record.scope.type, record.scope.id) = lastOf LogOption.scope? ([], []) call.options
  entity : (record.entityType, record.entityID) = lastOf LogOption.entity? ([], []) call.options
  fields : record.fields = (call.options.filterMap LogOption.field?).map fun field =>
    { key := field.key, type := Wire.fieldType field.kind, text := field.text, num := field.num }

/-! ### One event -/

section Call

variable {call : Call}

theorem Call.event_eq (call : Call) :
    call.event = eventOf call.id call.timestamp call.kind call.options :=
  buildEvent_eq call.id call.timestamp call.kind call.options

theorem Call.Sound.public_field (sound : call.Sound) {field : Field}
    (member : field ∈ call.options.filterMap LogOption.field?) :
    ∃ option ∈ call.options, option.Public ∧ option.field? = some field := by
  obtain ⟨option, among, chosen⟩ := List.mem_filterMap.mp member
  exact ⟨option, among, sound.made option among, chosen⟩

theorem Call.Sound.sendable (sound : call.Sound) : Wire.Sendable call.event := by
  rw [call.event_eq]
  refine ⟨sound.timestamp, sound.kind, sound.scope, sound.level, ?_⟩
  intro field member
  obtain ⟨option, _, made, chosen⟩ := sound.public_field member
  exact ⟨sound.keys field member, (made.field chosen).1⟩

theorem fromField_public {option : LogOption} (made : option.Public) {field : Field}
    (chosen : option.field? = some field) :
    Wire.fromField field =
      { key := field.key, type := Wire.fieldType field.kind, text := field.text,
        num := field.num } := by
  obtain ⟨known, textual, numeric⟩ := made.field chosen
  have number : field.toInt64.toUInt64 = field.num := UInt64.toUInt64_toInt64 field.num
  obtain ⟨key, kind, text, num⟩ := field
  cases kind with
  | string =>
    have zero : num = 0 := textual (.inl rfl)
    rw [zero]
    rfl
  | error =>
    have zero : num = 0 := textual (.inr rfl)
    rw [zero]
    rfl
  | other => exact absurd rfl known
  | _ =>
    have empty : text = [] := numeric (by simp) (by simp)
    rw [empty] at number ⊢
    simp only [Wire.fromField, number]

theorem Call.Sound.isUtf8 (sound : call.Sound) : (Wire.fromEvent call.event).IsUtf8 := by
  have pair (pick : LogOption → Option (GoString × GoString))
      (each : ∀ option, option.IsUtf8 → ∀ data ∈ pick option, Utf8 data.1 ∧ Utf8 data.2) :
      Utf8 (lastOf pick ([], []) call.options).1 ∧ Utf8 (lastOf pick ([], []) call.options).2 :=
    lastOf_of_forall ⟨utf8_nil, utf8_nil⟩ fun option member =>
      each option (sound.utf8 option member)
  have scope := pair LogOption.scope? fun option valid data chosen => by
    cases option <;> cases chosen
    exact valid
  have entity := pair LogOption.entity? fun option valid data chosen => by
    cases option <;> cases chosen
    exact valid
  have source : Utf8 (lastOf LogOption.executionSource? [] call.options) := by
    refine lastOf_of_forall utf8_nil fun option member data chosen => ?_
    have valid := sound.utf8 option member
    cases option <;> cases chosen
    exact valid
  rw [call.event_eq]
  refine ⟨utf8_encodeID _, sound.kindUtf8, Wire.utf8_levelText _, Wire.utf8_idText _,
    Wire.utf8_idText _, Wire.utf8_idText _, Wire.utf8_idText _, source, scope.1, scope.2, entity.1,
    entity.2, Wire.utf8_idText _, ?_⟩
  intro field member
  obtain ⟨origin, among, rfl⟩ := List.mem_map.mp member
  obtain ⟨option, present, made, chosen⟩ := sound.public_field among
  have valid := sound.utf8 option present
  rw [fromField_public made chosen]
  cases option <;> cases chosen
  exact ⟨valid.1, Wire.utf8_fieldType _, valid.2⟩

/-- **The record of an event carries what its call said.** -/
theorem Call.Sound.carries (sound : call.Sound) {record : EventRecord} {metadata : Metadata}
    {batchID : EventID} {delivery : Delivery}
    (base : record.base =
      (newRecord (Wire.fromEvent call.event) metadata batchID delivery).base) :
    Carries record call := by
  have known : (eventOf call.id call.timestamp call.kind call.options).level.Known := sound.level
  rw [call.event_eq, newRecord_fromEvent known] at base
  constructor
  case id => exact congrArg EventRecord.id base
  case timestamp => exact congrArg EventRecord.timestamp base
  case kind => exact congrArg EventRecord.kind base
  case level => exact congrArg EventRecord.level base
  case flowID => exact congrArg EventRecord.flowID base
  case executionID => exact congrArg EventRecord.executionID base
  case parentID => exact congrArg EventRecord.parentID base
  case parentExecutionID => exact congrArg EventRecord.parentExecutionID base
  case retryOfExecutionID => exact congrArg EventRecord.retryOfExecutionID base
  case executionAttempt => exact congrArg EventRecord.executionAttempt base
  case executionSource => exact congrArg EventRecord.executionSource base
  case scope => exact congrArg (fun whole => (whole.scope.type, whole.scope.id)) base
  case entity => exact congrArg (fun whole => (whole.entityType, whole.entityID)) base
  case fields =>
    refine (congrArg EventRecord.fields base).trans ?_
    apply List.map_congr_left
    intro field member
    obtain ⟨option, _, made, chosen⟩ := sound.public_field member
    exact fromField_public made chosen

end Call

/-! ### A batch -/

/-- **End-to-end meaning of events.** A batch of sound calls is written to the wire, what was written
is read, and normalising what was read gives one record an event, in order, that carries what its
call said. -/
theorem events_keep_their_meaning (json : Wire.Codec Wire.Envelope) (delivery : Delivery)
    (metadata : Metadata) (calls : List Call) (service : metadata.service ≠ [])
    (utf8 : Utf8 metadata.service ∧ Utf8 metadata.environment ∧ Utf8 metadata.version)
    (nonempty : calls ≠ []) (sound : ∀ call ∈ calls, call.Sound)
    (inverts : ∀ first ∈ calls.head?,
      (Wire.batchEnvelope metadata first.event (calls.map Call.event)).IsUtf8 →
        json.Inverts (Wire.batchEnvelope metadata first.event (calls.map Call.event))) :
    ∃ data envelope batch,
      Wire.marshalBatch json ⟨metadata, calls.map Call.event⟩ = .ok data ∧
        Wire.unmarshal json data = .ok envelope ∧ normalize envelope delivery = .ok batch ∧
        List.Forall₂ Carries batch.events calls := by
  obtain ⟨first, rest, rfl⟩ := List.exists_cons_of_ne_nil nonempty
  have sendable : ∀ event ∈ (first :: rest).map Call.event, Wire.Sendable event := by
    intro event member
    obtain ⟨call, among, rfl⟩ := List.mem_map.mp member
    exact (sound call among).sendable
  have present : (first :: rest).map Call.event ≠ [] := by simp
  have valid := Wire.validate_batchEnvelope service first.event present sendable
  have readable := inverts first rfl ⟨utf8_encodeID _, utf8.1, utf8.2.1, utf8.2.2, by
    intro event member
    obtain ⟨source, among, rfl⟩ := List.mem_map.mp member
    obtain ⟨call, logged, rfl⟩ := List.mem_map.mp among
    exact (sound call logged).isUtf8⟩
  obtain ⟨data, written, read⟩ := Wire.unmarshal_marshalBatch valid readable
  obtain ⟨batch, normalized, _, _, _, bases⟩ := normalize_base valid delivery
  refine ⟨data, _, batch, written, read, normalized, ?_⟩
  rw [Wire.batchEnvelope, List.map_map, List.forall₂_map_right_iff] at bases
  have both := (List.forall₂_and_left _ _).mpr ⟨sound, bases.flip⟩
  exact (both.imp fun call record fact => fact.1.carries fact.2).flip

/-- A call with a level, a flow, a scope and two fields of one key. -/
def orderCall : Call where
  id := ⟨[0, 0, 0, 0, 0, 0, 0, 0, 0, 0, 0, 0, 0, 0, 0, 1], rfl⟩
  timestamp := 1700000000000000000
  kind := ascii "order.paid"
  options := [.level Level.warn, .flow ⟨[0, 0, 0, 0, 0, 0, 0, 0, 0, 0, 0, 0, 0, 0, 0, 2], rfl⟩,
    .scope (ascii "tenant") (ascii "t1"), .int64 (ascii "delta") (-1),
    .string (ascii "delta") (ascii "minus one")]

def orderMetadata : Metadata := ⟨ascii "shop", ascii "test", ascii "1"⟩

def orderEnvelope : Wire.Envelope :=
  Wire.batchEnvelope orderMetadata orderCall.event [orderCall.event]

/-- What `json.Marshal` writes for the envelope of the call. -/
def orderText : GoString :=
  octets "\x7b\"schema_version\":1,\"batch_id\":\"00000000000000000000000001\"," ++
  octets "\"metadata\":\x7b\"Service\":\"shop\",\"Environment\":\"test\",\"Version\":\"1\"\x7d," ++
  octets "\"events\":[\x7b\"event_id\":\"00000000000000000000000001\"," ++
  octets "\"timestamp_unix_nano\":1700000000000000000,\"kind\":\"order.paid\",\"level\":\"warn\"," ++
  octets "\"flow_id\":\"00000000000000000000000002\",\"scope_type\":\"tenant\",\"scope_id\":\"t1\"," ++
  octets "\"fields\":[\x7b\"key\":\"delta\",\"type\":\"int64\",\"num\":18446744073709551615\x7d," ++
  octets "\x7b\"key\":\"delta\",\"type\":\"string\",\"text\":\"minus one\"\x7d]\x7d]\x7d"

/-- `encoding/json` at the envelope of the call. -/
def orderJson : Wire.Codec Wire.Envelope :=
  Wire.Codec.table [(orderEnvelope, orderText)]

theorem orderCall_sound : orderCall.Sound where
  timestamp := by decide
  kind := by decide
  kindUtf8 := utf8_of_ascii (by decide +kernel)
  made := by
    intro option member
    simp only [orderCall, List.mem_cons, List.not_mem_nil, or_false] at member
    rcases member with rfl | rfl | rfl | rfl | rfl
    · exact .other rfl
    · exact .other rfl
    · exact .other rfl
    · exact .int64 _ _
    · exact .string _ _
  utf8 := by
    intro option member
    simp only [orderCall, List.mem_cons, List.not_mem_nil, or_false] at member
    rcases member with rfl | rfl | rfl | rfl | rfl
    · exact trivial
    · exact trivial
    · exact ⟨utf8_of_ascii (by decide +kernel), utf8_of_ascii (by decide +kernel)⟩
    · exact ⟨utf8_of_ascii (by decide +kernel), utf8_nil⟩
    · exact ⟨utf8_of_ascii (by decide +kernel), utf8_of_ascii (by decide +kernel)⟩
  keys := by decide
  level := .inr (.inr (.inl rfl))
  scope := by decide

theorem orderJson_inverts : orderJson.Inverts orderEnvelope :=
  Wire.Codec.single_inverts orderEnvelope orderText

theorem order_keeps_its_meaning :
    ∃ data envelope batch,
      Wire.marshalBatch orderJson ⟨orderMetadata, [orderCall].map Call.event⟩ = .ok data ∧
        Wire.unmarshal orderJson data = .ok envelope ∧ normalize envelope {} = .ok batch ∧
        List.Forall₂ Carries batch.events [orderCall] := by
  refine events_keep_their_meaning orderJson {} orderMetadata [orderCall] (by decide)
    ⟨utf8_of_ascii (by decide +kernel), utf8_of_ascii (by decide +kernel),
      utf8_of_ascii (by decide +kernel)⟩ (by simp) ?_ ?_
  · intro call member
    rw [List.mem_singleton.mp member]
    exact orderCall_sound
  · rintro first ⟨rfl⟩ _
    exact orderJson_inverts

/-- The list without events is not written, whatever the metadata. -/
theorem no_events_not_written : orderMetadata.service ≠ [] ∧
    ∀ json, Wire.marshalBatch json ⟨orderMetadata, ([] : List Call).map Call.event⟩ =
      .error (Wire.wrap Wire.errInvalidEnvelope (ascii "empty batch")) :=
  ⟨by decide, fun _ => rfl⟩

end Trail.Storage
