/-
**What the two sinks say of an event beside its fields.**

The stdout sink and the wire each have a struct of their own for an event. An attribute is read from
either the way its JSON text has it: a member with `omitempty` is absent when it is empty. The two
agree on every attribute but the scope, which `encodedEvent` has no member for.

* `stdoutAttribute_eq`: stdout has what the wire has, and nothing of a scope.
* `sinks_agree_iff`: the events both sinks say the same of, and the pairs of events the wire tells apart
  and stdout does too.
-/

import Trail.Sink.Stdout
import Trail.Wire.Decimal

namespace Trail.Stdout

/-- The attributes of an event outside its fields. -/
inductive Attribute
  | eventID | instant | kind | level
  | flowID | executionID | parentExecutionID | retryOfExecutionID
  | executionAttempt | executionSource
  | scopeType | scopeID | entityType | entityID | parentID
  deriving DecidableEq, Repr

/-- What a reader of an attribute gets. -/
inductive Reading
  | text (text : GoString)
  | number (number : UInt32)
  | instant (unixNano : Int64)
  deriving DecidableEq, Repr

/-- A string member with `omitempty`. -/
def optionalText (text : GoString) : Option Reading := if text = [] then none else some (.text text)

/-- A number member with `omitempty`. -/
def optionalNumber (number : UInt32) : Option Reading :=
  if number = 0 then none else some (.number number)

/-- An attribute in the JSON text of the wire. -/
def wireAttribute (event : Wire.Event) : Attribute → Option Reading
  | .eventID => some (.text event.eventID)
  | .instant => some (.instant event.timestampUnixNano)
  | .kind => some (.text event.kind)
  | .level => some (.text event.level)
  | .flowID => optionalText event.flowID
  | .executionID => optionalText event.executionID
  | .parentExecutionID => optionalText event.parentExecutionID
  | .retryOfExecutionID => optionalText event.retryOfExecutionID
  | .executionAttempt => optionalNumber event.executionAttempt
  | .executionSource => optionalText event.executionSource
  | .scopeType => optionalText event.scopeType
  | .scopeID => optionalText event.scopeID
  | .entityType => optionalText event.entityType
  | .entityID => optionalText event.entityID
  | .parentID => optionalText event.parentID

/-- An attribute in the JSON text of stdout; `parse` is `time.Parse` for `time.RFC3339Nano`. -/
def stdoutAttribute (parse : GoString → Option Int64) (event : EncodedEvent) :
    Attribute → Option Reading
  | .eventID => some (.text event.eventID)
  | .instant => (parse event.timestamp).map .instant
  | .kind => some (.text event.kind)
  | .level => some (.text event.level)
  | .flowID => optionalText event.flowID
  | .executionID => optionalText event.executionID
  | .parentExecutionID => optionalText event.parentExecutionID
  | .retryOfExecutionID => optionalText event.retryOfExecutionID
  | .executionAttempt => optionalNumber event.executionAttempt
  | .executionSource => optionalText event.executionSource
  | .scopeType | .scopeID => none
  | .entityType => optionalText event.entityType
  | .entityID => optionalText event.entityID
  | .parentID => optionalText event.parentID

/-- The attributes of a scope. -/
def Attribute.OfScope (item : Attribute) : Prop := item = .scopeType ∨ item = .scopeID

instance : DecidablePred Attribute.OfScope := fun item => by
  unfold Attribute.OfScope
  infer_instance

theorem optionalText_inj {first second : GoString} :
    optionalText first = optionalText second ↔ first = second := by
  unfold optionalText
  split <;> split <;> simp_all [eq_comm]

section Agreement

variable (enc : Encoder) (parse : GoString → Option Int64)

/-- **Stdout has what the wire has, and nothing of a scope.** -/
theorem stdoutAttribute_eq (reads : ∀ time, parse (enc.timestamp time) = some time)
    (metadata : Metadata) (event : Event) (item : Attribute) :
    stdoutAttribute parse (encodedEvent enc metadata event) item =
      if item.OfScope then none else wireAttribute (Wire.fromEvent event) item := by
  cases item with
  | instant =>
    rw [if_neg (by decide), stdoutAttribute, encodedEvent, reads]
    rfl
  | _ => rfl

/-- **The events both sinks say the same of** have no scope, and the wire tells no two events apart
that stdout does not if they have the same scope. -/
theorem sinks_agree_iff (reads : ∀ time, parse (enc.timestamp time) = some time)
    (metadata metadata' : Metadata) (event other : Event) :
    ((∀ item, stdoutAttribute parse (encodedEvent enc metadata event) item =
        wireAttribute (Wire.fromEvent event) item) ↔
      event.scopeType = [] ∧ event.scopeID = []) ∧
    ((∀ item, wireAttribute (Wire.fromEvent event) item ≠
          wireAttribute (Wire.fromEvent other) item →
        stdoutAttribute parse (encodedEvent enc metadata event) item ≠
          stdoutAttribute parse (encodedEvent enc metadata' other) item) ↔
      event.scopeType = other.scopeType ∧ event.scopeID = other.scopeID) := by
  simp only [stdoutAttribute_eq enc parse reads]
  constructor
  · constructor
    · intro agree
      exact ⟨optionalText_inj.mp (agree .scopeType).symm, optionalText_inj.mp (agree .scopeID).symm⟩
    · rintro ⟨type, id⟩ item
      split
      · rename_i scope
        rcases scope with rfl | rfl
        · exact (optionalText_inj.mpr type).symm
        · exact (optionalText_inj.mpr id).symm
      · rfl
  · constructor
    · intro apart
      -- What stdout has of a scope is nothing, for both events.
      have silent : ∀ item : Attribute, item.OfScope → wireAttribute (Wire.fromEvent event) item =
          wireAttribute (Wire.fromEvent other) item := by
        intro item scope
        by_contra differ
        refine apart item differ ?_
        rw [if_pos scope, if_pos scope]
      exact ⟨optionalText_inj.mp (silent .scopeType (.inl rfl)),
        optionalText_inj.mp (silent .scopeID (.inr rfl))⟩
    · rintro ⟨type, id⟩ item differ
      split
      · rename_i scope
        rcases scope with rfl | rfl
        · exact absurd (optionalText_inj.mpr type) differ
        · exact absurd (optionalText_inj.mpr id) differ
      · exact differ

end Agreement

/-- An encoder that writes an instant as a number, and the reader of it. -/
def nanoEncoder : Encoder := { idEncoder with timestamp := fun time => Wire.decimal time.toInt }

def readNano (text : GoString) : Option Int64 :=
  (Wire.parseInt id "ParseInt" text).toOption.map Int64.ofInt

theorem readNano_timestamp (time : Int64) : readNano (nanoEncoder.timestamp time) = some time := by
  have read := Wire.parseInt_decimal id "ParseInt" (Int64.le_toInt time) (Int64.toInt_lt time)
  rw [readNano, nanoEncoder]
  dsimp only
  rw [read]
  exact congrArg some (Int64.ofInt_toInt time)

/-- An event without a scope is the same to both sinks. -/
theorem plain_sinks_agree : plainEvent.scopeType = [] ∧ plainEvent.scopeID = [] ∧
    ∀ item, stdoutAttribute readNano (encodedEvent nanoEncoder ⟨[], [], []⟩ plainEvent) item =
      wireAttribute (Wire.fromEvent plainEvent) item :=
  ⟨rfl, rfl, (sinks_agree_iff nanoEncoder readNano readNano_timestamp ⟨[], [], []⟩ ⟨[], [], []⟩
    plainEvent plainEvent).1.mpr ⟨rfl, rfl⟩⟩

/-- An event of a tenant. -/
def tenantEvent (tenant : GoString) : Event :=
  { plainEvent with scopeType := ascii "tenant", scopeID := tenant }

/-- Events of two tenants are one text on stdout, whatever the encoder. -/
theorem tenants_alike_on_stdout :
    (∀ enc : Encoder,
      writeBatch enc ⟨true, false⟩ ⟨⟨ascii "svc", [], []⟩, [tenantEvent (ascii "a")]⟩ =
        writeBatch enc ⟨true, false⟩ ⟨⟨ascii "svc", [], []⟩, [tenantEvent (ascii "b")]⟩) ∧
    wireAttribute (Wire.fromEvent (tenantEvent (ascii "a"))) .scopeID = some (.text (ascii "a")) ∧
    wireAttribute (Wire.fromEvent (tenantEvent (ascii "b"))) .scopeID = some (.text (ascii "b")) :=
  ⟨fun _ => rfl, by decide, by decide⟩

end Trail.Stdout
