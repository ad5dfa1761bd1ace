/-
**The stdout sink, and what the writer counts of it.**

`WriteBatch` hands one JSON line to its writer for each event, until an event cannot be encoded. The
goroutine counts the whole batch as written or, on an error, the whole batch as dropped; an error behind
the first event leaves lines of a batch that is counted as dropped.

* `fieldsOf_lookup`: a key of the JSON object has the value of its last field.
* `encodeEvents_whole`, `encodeEvents_cut`: the lines are those of the events before the first that
  cannot be encoded.
* `publishes`: what the counters get for a batch.
* `accounted_iff`: the batches whose count is what was emitted.

`encoding/json`, `time.Format` and `Duration.String` are parameters, gathered in `Encoder`.
-/

import Trail.Library.Histories
import Trail.Library.Lines
import Trail.Library.Table
import Trail.Runtime.Machine
import Trail.Wire.Envelope

namespace Trail.Stdout

open Library Trail.Runtime

/-! ### Encoded events -/

/-- A value of `map[string]any`. -/
inductive Value
  | text (text : GoString)
  | int (value : Int64)
  | bool (value : Bool)
  | float (bits : UInt64)
  | null
  deriving DecidableEq, Repr

/-- The bits of a NaN or an infinity. -/
def nonFinite (bits : UInt64) : Bool := bits.toNat / 2 ^ 52 % 2 ^ 11 = 2 ^ 11 - 1

/-- A value JSON has a text for. -/
def Value.Encodable : Value → Prop
  | .float bits => nonFinite bits = false
  | _ => True

instance : DecidablePred Value.Encodable
  | .float bits => inferInstanceAs (Decidable (nonFinite bits = false))
  | .text _ | .int _ | .bool _ | .null => isTrue trivial

/-- `encodedEvent`; empty strings, a zero attempt and empty fields are left out of the text. -/
structure EncodedEvent where
  eventID : GoString
  timestamp : GoString
  kind : GoString
  level : GoString
  flowID : GoString
  executionID : GoString
  parentExecutionID : GoString
  retryOfExecutionID : GoString
  executionAttempt : UInt32
  executionSource : GoString
  entityType : GoString
  entityID : GoString
  parentID : GoString
  service : GoString
  environment : GoString
  version : GoString
  fields : Table GoString Value

/-- What the sink uses of the standard library. The encoder refuses a NaN and an infinity and nothing
else, and puts an event on one line. -/
structure Encoder where
  timestamp : Int64 → GoString
  duration : Int64 → GoString
  marshal : EncodedEvent → Except GoError (List UInt8)
  marshal_ok : ∀ e, (∃ text, marshal e = .ok text) ↔
    ∀ key value, e.fields.lookup key = some value → value.Encodable
  one_line : ∀ e text, marshal e = .ok text → newline ∉ text

section WriteBatch

variable (enc : Encoder)

/-- `fieldValue`. -/
def fieldValue (field : Field) : Value :=
  match field.kind with
  | .string | .error => .text field.text
  | .int | .int64 => .int field.toInt64
  | .bool => .bool (field.num ≠ 0)
  | .float64 => .float field.num
  | .duration => .text (enc.duration field.toInt64)
  | .other => .null

/-- The map of the fields; a later field of a key replaces an earlier one. -/
def fieldsOf (fields : List Field) : Table GoString Value :=
  fields.foldl (fun table field => table.insert field.key (fieldValue enc field)) ∅

/-- The event as it is encoded. -/
def encodedEvent (metadata : Metadata) (event : Event) : EncodedEvent where
  eventID := encodeID event.id
  timestamp := enc.timestamp event.timestamp
  kind := event.kind
  level := event.level.text
  flowID := Wire.idText event.flowID
  executionID := Wire.idText event.executionID
  parentExecutionID := Wire.idText event.parentExecutionID
  retryOfExecutionID := Wire.idText event.retryOfExecutionID
  executionAttempt := event.executionAttempt
  executionSource := event.executionSource
  entityType := event.entityType
  entityID := event.entityID
  parentID := Wire.idText event.parentID
  service := metadata.service
  environment := metadata.environment
  version := metadata.version
  fields := fieldsOf enc event.fields

/-- The text of an event, or the error of the encoder. -/
def eventText (metadata : Metadata) (event : Event) : Except GoError (List UInt8) :=
  enc.marshal (encodedEvent enc metadata event)

/-- The loop of `WriteBatch`: the bytes the writer gets, and the error. -/
def encodeEvents (metadata : Metadata) : List Event → List UInt8 × Option GoError
  | [] => ([], none)
  | event :: rest =>
    match eventText enc metadata event with
    | .error error => ([], some error)
    | .ok text =>
      let (bytes, error) := encodeEvents metadata rest
      (text ++ newline :: bytes, error)

/-- `Sink`; of the writer, which accepts all bytes, only whether there is one. -/
structure Sink where
  hasWriter : Bool
  closed : Bool
  deriving DecidableEq, Repr

/-- `WriteBatch`: the bytes the writer gets, and the error. -/
def writeBatch (sink : Sink) (batch : Batch) : List UInt8 × Option GoError :=
  if sink.closed then ([], some (errorsNew "trail/stdout: sink closed"))
  else if sink.hasWriter = false then ([], some (errorsNew "trail/stdout: nil writer"))
  else encodeEvents enc batch.metadata batch.events

end WriteBatch

/-! ### Events that cannot be encoded -/

/-- The last field of some key is a NaN or an infinity. -/
def Rejected (event : Event) : Prop :=
  ∃ key field, latest Field.key event.fields key = some field ∧ field.kind = .float64 ∧
    nonFinite field.num = true

section Encoding

variable {enc : Encoder} {metadata : Metadata} {event : Event}

/-- **A key has the value of its last field.** -/
theorem fieldsOf_lookup (fields : List Field) (key : GoString) :
    (fieldsOf enc fields).lookup key = (latest Field.key fields key).map (fieldValue enc) := by
  induction fields using List.reverseRecOn with
  | nil => rfl
  | append_singleton fields field ih =>
    unfold fieldsOf at ih ⊢
    rw [List.foldl_append, List.foldl_cons, List.foldl_nil, latest_concat]
    by_cases same : field.key = key
    · subst same
      rw [AList.lookup_insert, if_pos rfl]
      rfl
    · rw [AList.lookup_insert_ne (Ne.symm same), if_neg same, ih]

theorem encodable_fieldValue {field : Field} : (fieldValue enc field).Encodable ↔
    ¬ (field.kind = .float64 ∧ nonFinite field.num = true) := by
  unfold fieldValue
  cases field.kind <;> simp [Value.Encodable]

theorem eventText_ok : (∃ text, eventText enc metadata event = .ok text) ↔ ¬ Rejected event := by
  unfold eventText
  rw [enc.marshal_ok]
  constructor
  · rintro every ⟨key, field, last, float⟩
    have value : (encodedEvent enc metadata event).fields.lookup key =
        some (fieldValue enc field) := by
      rw [encodedEvent, fieldsOf_lookup, last]
      rfl
    exact encodable_fieldValue.mp (every key _ value) float
  · intro accepted key value here
    rw [encodedEvent, fieldsOf_lookup, Option.map_eq_some_iff] at here
    obtain ⟨field, last, rfl⟩ := here
    exact encodable_fieldValue.mpr fun float => accepted ⟨key, field, last, float⟩

/-- The lines are those of the events, in order. -/
def LinesOf (enc : Encoder) (metadata : Metadata) (events : List Event) (bytes : List UInt8) : Prop :=
  ∃ texts, List.Forall₂ (fun event text => eventText enc metadata event = .ok text) events texts ∧
    bytes = joinLines texts

theorem LinesOf.cons {events : List Event} {bytes text : List UInt8}
    (first : eventText enc metadata event = .ok text) (rest : LinesOf enc metadata events bytes) :
    LinesOf enc metadata (event :: events) (text ++ newline :: bytes) := by
  obtain ⟨texts, each, rfl⟩ := rest
  exact ⟨text :: texts, .cons first each, (joinLines_cons _ _).symm⟩

theorem LinesOf.count {events : List Event} {bytes : List UInt8}
    (lines : LinesOf enc metadata events bytes) : bytes.count newline = events.length := by
  obtain ⟨texts, each, rfl⟩ := lines
  induction each with
  | nil => rfl
  | cons first _ ih =>
    have whole := List.count_eq_zero.mpr (enc.one_line _ _ first)
    rw [joinLines_cons, List.count_append, whole, List.count_cons_self, ih, List.length_cons,
      Nat.zero_add]

theorem LinesOf.accepted {events : List Event} {bytes : List UInt8}
    (lines : LinesOf enc metadata events bytes) : ∀ event ∈ events, ¬ Rejected event := by
  obtain ⟨texts, each, rfl⟩ := lines
  induction each with
  | nil => exact fun _ none => absurd none List.not_mem_nil
  | cons first _ ih => exact List.forall_mem_cons.mpr ⟨eventText_ok.mp ⟨_, first⟩, ih⟩

theorem encodeEvents_whole {events : List Event} (accepted : ∀ event ∈ events, ¬ Rejected event) :
    (encodeEvents enc metadata events).2 = none ∧
      LinesOf enc metadata events (encodeEvents enc metadata events).1 := by
  induction events with
  | nil => exact ⟨rfl, [], .nil, rfl⟩
  | cons event events ih =>
    obtain ⟨here, rest⟩ := List.forall_mem_cons.mp accepted
    obtain ⟨text, encoded⟩ := eventText_ok.mpr here
    obtain ⟨fine, lines⟩ := ih rest
    unfold encodeEvents
    rw [encoded]
    exact ⟨fine, lines.cons encoded⟩

/-- **A batch with a refused event** is emitted up to it. -/
theorem encodeEvents_cut {before after : List Event} (accepted : ∀ event ∈ before, ¬ Rejected event)
    (rejected : Rejected event) :
    (∃ error, (encodeEvents enc metadata (before ++ event :: after)).2 = some error) ∧
      LinesOf enc metadata before (encodeEvents enc metadata (before ++ event :: after)).1 := by
  induction before with
  | nil =>
    rw [List.nil_append]
    unfold encodeEvents
    cases encoded : eventText enc metadata event with
    | ok text => exact absurd rejected (eventText_ok.mp ⟨text, encoded⟩)
    | error error => exact ⟨⟨error, rfl⟩, [], .nil, rfl⟩
  | cons first before ih =>
    obtain ⟨here, rest⟩ := List.forall_mem_cons.mp accepted
    obtain ⟨text, encoded⟩ := eventText_ok.mpr here
    obtain ⟨failed, lines⟩ := ih rest
    rw [List.cons_append]
    unfold encodeEvents
    rw [encoded]
    exact ⟨failed, lines.cons encoded⟩

end Encoding

/-! ### Publishing -/

/-- The choices that lead the goroutine through `publish`, when `WriteBatch` returns the error. -/
def publishChoices (error : Option GoError) : List RunChoice :=
  [.step, .returned error] ++
    match error with
    | some _ => [.step, .step, .step]
    | none => [.step, .step]

/-- Steps of the goroutine of a writer, with no other step in between. -/
def runAlone (w : Nat) (x : Writer) (counters : Counters) :
    List RunChoice → Option (Writer × Counters)
  | [] => some (x, counters)
  | choice :: rest => (stepRun w x counters choice).bind fun next => runAlone w next.1 next.2.1 rest

/-- **What a batch adds to the counters.** -/
theorem publishes (w : Nat) {x : Writer} {resume : Resume} (here : x.point = .publish resume .call)
    (counters : Counters) (error : Option GoError) :
    ∃ x' counters', runAlone w x counters (publishChoices error) = some (x', counters') ∧
      (error = none → counters'.written = counters.written + .ofNat x.batch.length) ∧
      (error ≠ none → counters'.written = counters.written ∧
        counters'.dropped = counters.dropped + .ofNat x.batch.length) := by
  obtain ⟨settings, queue, wake, stopClosed, doneClosed, accepting, inflight, publishErr, closeErr,
    point, batch⟩ := x
  subst here
  cases error with
  | none => exact ⟨_, _, rfl, fun _ => rfl, fun failed => absurd rfl failed⟩
  | some error => exact ⟨_, _, rfl, fun fine => absurd fine (by simp), fun _ => ⟨rfl, rfl⟩⟩

/-- The writer publishes its batch and `WriteBatch` emits the bytes and returns the error: what is counted
as written are the lines emitted, a batch counted as written was emitted whole, and of a batch counted
as dropped nothing was. -/
def Accounted (enc : Encoder) (w : Nat) (x : Writer) (counters : Counters)
    (outcome : List UInt8 × Option GoError) : Prop :=
  ∃ x' counters', runAlone w x counters (publishChoices outcome.2) = some (x', counters') ∧
    counters'.written = counters.written + .ofNat (outcome.1.count newline) ∧
    (counters'.written = counters.written + .ofNat x.batch.length ∧
        LinesOf enc x.settings.metadata x.batch outcome.1 ∨
      counters'.dropped = counters.dropped + .ofNat x.batch.length ∧ outcome.1 = [])

/-- The sink writes, and an event of the batch behind an encoded one is refused. -/
def CutBehindFirst (sink : Sink) (events : List Event) : Prop :=
  sink.closed = false ∧ sink.hasWriter = true ∧
    ∃ first rest, events = first :: rest ∧ ¬ Rejected first ∧ ∃ event ∈ rest, Rejected event

theorem first_rejected {events : List Event} (some : ¬ ∀ event ∈ events, ¬ Rejected event) :
    ∃ before event after, events = before ++ event :: after ∧
      (∀ earlier ∈ before, ¬ Rejected earlier) ∧ Rejected event := by
  induction events with
  | nil => exact absurd (fun _ none => absurd none List.not_mem_nil) some
  | cons event events ih =>
    by_cases rejected : Rejected event
    · exact ⟨[], event, events, rfl, fun _ none => absurd none List.not_mem_nil, rejected⟩
    · have later : ¬ ∀ event ∈ events, ¬ Rejected event := fun all =>
        some (List.forall_mem_cons.mpr ⟨rejected, all⟩)
      obtain ⟨before, found, after, rfl, earlier, refused⟩ := ih later
      exact ⟨event :: before, found, after, rfl, List.forall_mem_cons.mpr ⟨rejected, earlier⟩,
        refused⟩

section Accounting

variable {enc : Encoder} {w : Nat} {x : Writer} {resume : Resume} {counters : Counters}
  {outcome : List UInt8 × Option GoError}

theorem accounted_of_nothing (here : x.point = .publish resume .call) (failed : outcome.2 ≠ none)
    (nothing : outcome.1 = []) : Accounted enc w x counters outcome := by
  obtain ⟨x', counters', run, _, dropped⟩ := publishes w here counters outcome.2
  obtain ⟨written, dropped⟩ := dropped failed
  refine ⟨x', counters', run, ?_, .inr ⟨dropped, nothing⟩⟩
  rw [nothing, written]
  exact (UInt64.add_zero _).symm

theorem accounted_of_whole (here : x.point = .publish resume .call) (fine : outcome.2 = none)
    (lines : LinesOf enc x.settings.metadata x.batch outcome.1) :
    Accounted enc w x counters outcome := by
  obtain ⟨x', counters', run, written, _⟩ := publishes w here counters outcome.2
  refine ⟨x', counters', run, ?_, .inl ⟨written fine, lines⟩⟩
  rw [lines.count]
  exact written fine

theorem not_accounted_of_part {before rest : List Event} {event : Event}
    (cut : x.batch = before ++ event :: rest) (some : before ≠ []) (rejected : Rejected event)
    (lines : LinesOf enc x.settings.metadata before outcome.1) :
    ¬ Accounted enc w x counters outcome := by
  rintro ⟨x', counters', _, _, ⟨_, whole⟩ | ⟨_, nothing⟩⟩
  · have member : event ∈ x.batch := by
      rw [cut]
      exact List.mem_append_right _ (List.mem_cons_self ..)
    exact whole.accepted event member rejected
  · have none := lines.count
    rw [nothing] at none
    exact some (List.length_eq_zero_iff.mp none.symm)

end Accounting

/-- **When the count of a batch is what was emitted**: always but for a batch whose first event can be
encoded and a later one cannot. -/
theorem accounted_iff (enc : Encoder) (sink : Sink) (w : Nat) (x : Writer) (resume : Resume)
    (here : x.point = .publish resume .call) (counters : Counters) :
    Accounted enc w x counters (writeBatch enc sink ⟨x.settings.metadata, x.batch⟩) ↔
      ¬ CutBehindFirst sink x.batch := by
  by_cases closed : sink.closed = true
  · refine iff_of_true ?_ fun cut => absurd cut.1 (by simp [closed])
    rw [writeBatch, if_pos closed]
    exact accounted_of_nothing here (by simp) rfl
  by_cases missing : sink.hasWriter = false
  · refine iff_of_true ?_ fun cut => absurd cut.2.1 (by simp [missing])
    rw [writeBatch, if_neg closed, if_pos missing]
    exact accounted_of_nothing here (by simp) rfl
  rw [writeBatch, if_neg closed, if_neg missing]
  by_cases accepted : ∀ event ∈ x.batch, ¬ Rejected event
  · obtain ⟨fine, lines⟩ := encodeEvents_whole accepted
    refine iff_of_true (accounted_of_whole here fine lines) ?_
    rintro ⟨_, _, first, rest, batch, _, event, member, rejected⟩
    refine accepted event ?_ rejected
    rw [batch]
    exact List.mem_cons_of_mem _ member
  obtain ⟨before, event, rest, batch, encoded, rejected⟩ := first_rejected accepted
  have cut := @encodeEvents_cut enc x.settings.metadata event before rest encoded rejected
  rw [← batch] at cut
  obtain ⟨⟨error, failed⟩, lines⟩ := cut
  cases before with
  | nil =>
    obtain ⟨texts, each, bytes⟩ := lines
    cases each
    refine iff_of_true (accounted_of_nothing here (by simp [failed]) bytes) ?_
    rintro ⟨_, _, first, later, same, encodable, _⟩
    rw [batch, List.nil_append, List.cons.injEq] at same
    exact encodable (same.1 ▸ rejected)
  | cons first before =>
    refine iff_of_false (not_accounted_of_part batch (by simp) rejected lines) ?_
    rw [not_not]
    exact ⟨by simpa using closed, by simpa using missing, first, before ++ event :: rest, batch,
      encoded first (List.mem_cons_self ..), event,
      List.mem_append_right _ (List.mem_cons_self ..), rejected⟩

/-! ### A number that is none -/

/-- An encoder that writes the identifier of an event. -/
def idEncoder : Encoder where
  timestamp _ := []
  duration _ := []
  marshal e :=
    if ∀ entry ∈ e.fields.entries, Value.Encodable entry.2 then
      .ok (e.eventID.filter fun byte => byte ≠ newline)
    else .error (errorsNew "json: unsupported value: NaN")
  marshal_ok e := by
    constructor
    · rintro ⟨text, encoded⟩ key value here
      split at encoded
      · rename_i every
        exact every ⟨key, value⟩ (AList.mem_lookup_iff.mp here)
      · cases encoded
    · intro every
      refine ⟨_, if_pos ?_⟩
      intro entry member
      exact every entry.1 entry.2 (AList.mem_lookup_iff.mpr member)
  one_line e text encoded := by
    split at encoded
    · cases encoded
      simp
    · cases encoded

/-- An event, and one with a NaN. -/
def plainEvent : Event := { id := Bytes.zero 16, timestamp := 1, kind := ascii "a", level := 1 }

def nanEvent : Event :=
  { plainEvent with fields := [{ key := ascii "ratio", kind := .float64, num := 0x7FF8000000000001 }] }

/-- A writer about to publish. -/
def publishing (events : List Event) : Writer :=
  { newWriter ⟨⟨ascii "svc", [], []⟩, 0, false, 1, 2, 1, by decide, by decide⟩ with
    point := .publish .loop .call, batch := events }

/-- **A line of a batch that is counted as dropped**: of an event and one with a NaN, the first is
emitted, and both are dropped. -/
theorem line_of_dropped_batch :
    (writeBatch idEncoder ⟨true, false⟩ ⟨⟨ascii "svc", [], []⟩, [plainEvent, nanEvent]⟩).1 =
      encodeID (Bytes.zero 16) ++ [newline] ∧
    (runAlone 0 (publishing [plainEvent, nanEvent]) {} (publishChoices (writeBatch idEncoder
        ⟨true, false⟩ ⟨⟨ascii "svc", [], []⟩, [plainEvent, nanEvent]⟩).2)).map
      (fun after => (after.2.written, after.2.dropped)) = some (0, 2) :=
  ⟨by decide +kernel, by decide +kernel⟩

/-- An event alone is counted as it is emitted. -/
theorem plain_batch_accounted :
    Accounted idEncoder 0 (publishing [plainEvent]) {} (writeBatch idEncoder ⟨true, false⟩
      ⟨⟨ascii "svc", [], []⟩, [plainEvent]⟩) := by
  refine (accounted_iff idEncoder ⟨true, false⟩ 0 (publishing [plainEvent]) .loop rfl {}).mpr ?_
  rintro ⟨_, _, first, rest, batch, _, event, member, _⟩
  cases batch
  cases member

end Trail.Stdout
