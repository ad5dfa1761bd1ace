/-
**Events that share a batch.**

The NATS sink encodes a batch as one envelope, and an envelope is validated whole: one event that does
not pass keeps every event of its batch from being published. Which events share a batch is the choice
of the goroutine and the scheduler.

* `validate_batchEnvelope_iff`: an envelope passes when each of its events does.
* `published_of_passes`, `not_published`: what is published of a batch by a transport that accepts.
* `neighbours_published_iff`: the batches that lose no event that could be published alone.
-/

import Trail.Runtime.Delivery
import Trail.Sink.Nats

namespace Trail.Nats

open Library Trail.Runtime

/-! ### Envelopes that pass -/

/-- The event passes `validateEvent`. -/
def Passes (event : Event) : Prop := Wire.validateEvent (Wire.fromEvent event) = .ok ()

theorem validateEvents_iff (events : List Wire.Event) (index : Nat) :
    Wire.validateEvents index events = .ok () ↔
      ∀ event ∈ events, Wire.validateEvent event = .ok () := by
  induction events generalizing index with
  | nil => exact iff_of_true rfl fun _ none => absurd none List.not_mem_nil
  | cons event events ih =>
    rw [Wire.validateEvents, List.forall_mem_cons]
    cases checked : Wire.validateEvent event with
    | error error => simp
    | ok valid => simpa using ih (index + 1)

/-- **An envelope passes when each of its events does.** -/
theorem validate_batchEnvelope_iff {metadata : Metadata} (service : metadata.service ≠ [])
    (first : Event) {events : List Event} (some : events ≠ []) :
    Wire.validate (Wire.batchEnvelope metadata first events) = .ok () ↔
      ∀ event ∈ events, Passes event := by
  rw [Wire.validate_batchEnvelope_eq service first some, validateEvents_iff]
  exact List.forall_mem_map

/-! ### What is published of a batch -/

/-- A transport that accepts messages, and an open sink. -/
def accepting : (op : Call) → Call.Reply op
  | .closed | .isClosed => false
  | .publishMsgID _ _ | .publishMsg _ | .flush => none
  | .count _ _ => ()

section Publishing

variable (cfg : Config) (json : Wire.Codec Wire.Envelope)

/-- The call publishes a message whose envelope has the event. -/
def Carries (event : Event) : Call → Prop
  | .publishMsgID msg _ | .publishMsg msg =>
    ∃ envelope, json.marshal envelope = .ok msg.data ∧ Wire.fromEvent event ∈ envelope.events
  | _ => False

/-- `WriteBatch` publishes the event, over a transport that accepts messages. -/
def Published (batch : Batch) (event : Event) : Prop :=
  ∃ exchange ∈ ((writeBatch cfg json batch).play accepting).1, Carries json event exchange.op

/-- The message of the batch fits the limit. -/
def Fits (batch : Batch) : Prop :=
  ∃ first rest data, batch.events = first :: rest ∧
    json.marshal (Wire.batchEnvelope batch.metadata first batch.events) = .ok data ∧
    (data.length : Int) ≤ cfg.maxMessageBytes

/-- The event could be published in a batch of its own. -/
def PublishableAlone (metadata : Metadata) (event : Event) : Prop :=
  Passes event ∧ Fits cfg json ⟨metadata, [event]⟩

variable {cfg json} {batch : Batch}

theorem marshalBatch_ok (service : batch.metadata.service ≠ []) {first : Event} {rest : List Event}
    (events : batch.events = first :: rest) {data : List UInt8} :
    Wire.marshalBatch json batch = .ok data ↔ (∀ event ∈ batch.events, Passes event) ∧
      json.marshal (Wire.batchEnvelope batch.metadata first batch.events) = .ok data := by
  have some : batch.events ≠ [] := by simp [events]
  have shape : Wire.marshalBatch json batch =
      (Wire.validate (Wire.batchEnvelope batch.metadata first batch.events) >>= fun _ =>
        json.marshal (Wire.batchEnvelope batch.metadata first batch.events)) := by
    rw [Wire.marshalBatch, events]
    rfl
  rw [shape, ← validate_batchEnvelope_iff service first some]
  cases Wire.validate (Wire.batchEnvelope batch.metadata first batch.events) with
  | error error => exact iff_of_false (fun same => by cases same) fun both => by cases both.1
  | ok valid => exact (and_iff_right rfl).symm

theorem publish_carries {data : List UInt8} (batchID : GoString) (eventCount : Nat) {event : Event}
    {envelope : Wire.Envelope} (encoded : json.marshal envelope = .ok data)
    (among : Wire.fromEvent event ∈ envelope.events)
    (fits : (data.length : Int) ≤ cfg.maxMessageBytes) :
    ∃ exchange ∈ ((publish cfg data batchID eventCount).play accepting).1,
      Carries json event exchange.op := by
  have carried : ∃ exchange ∈ ((send cfg data batchID eventCount).play accepting).1,
      Carries json event exchange.op := by
    unfold send
    split
    · exact ⟨_, List.mem_cons_self, envelope, encoded, among⟩
    · exact ⟨_, List.mem_cons_self, envelope, encoded, among⟩
  obtain ⟨exchange, member, carries⟩ := carried
  refine ⟨exchange, ?_, carries⟩
  simp only [publish, Prog.play, accepting, if_neg (not_lt.mpr fits)]
  exact List.mem_cons_of_mem _ (List.mem_cons_of_mem _ (List.mem_cons_of_mem _ member))

theorem publish_too_large {data : List UInt8} (batchID : GoString) (eventCount : Nat) {event : Event}
    (large : cfg.maxMessageBytes < data.length) :
    ¬ ∃ exchange ∈ ((publish cfg data batchID eventCount).play accepting).1,
      Carries json event exchange.op := by
  rintro ⟨exchange, member, carries⟩
  simp only [publish, Prog.play, accepting, if_pos large, List.mem_cons, List.not_mem_nil,
    or_false] at member
  rcases member with rfl | rfl | rfl | rfl <;> exact carries

/-- **A batch whose events pass is published whole**, if it fits. -/
theorem published_of_passes (service : batch.metadata.service ≠ [])
    (passes : ∀ event ∈ batch.events, Passes event) (fits : Fits cfg json batch) {event : Event}
    (member : event ∈ batch.events) : Published cfg json batch event := by
  obtain ⟨first, rest, data, events, encoded, small⟩ := fits
  have written := (marshalBatch_ok service events).mpr ⟨passes, encoded⟩
  unfold Published writeBatch
  rw [written, events]
  rw [events] at encoded
  refine publish_carries _ _ encoded ?_ small
  rw [events] at member
  exact List.mem_map_of_mem member

/-- **Of any other batch nothing is published.** -/
theorem not_published (service : batch.metadata.service ≠ []) (some : batch.events ≠ [])
    (fails : ¬ ((∀ event ∈ batch.events, Passes event) ∧ Fits cfg json batch)) (event : Event) :
    ¬ Published cfg json batch event := by
  obtain ⟨first, rest, events⟩ := List.exists_cons_of_ne_nil some
  unfold Published writeBatch
  cases written : Wire.marshalBatch json batch with
  | error error =>
    rintro ⟨exchange, member, carries⟩
    rw [List.mem_singleton.mp member] at carries
    exact carries
  | ok data =>
    obtain ⟨passes, encoded⟩ := (marshalBatch_ok service events).mp written
    rw [events]
    refine publish_too_large _ _ ?_
    by_contra small
    exact fails ⟨passes, first, rest, data, events, encoded, not_lt.mp small⟩

end Publishing

/-! ### Batches of a run -/

/-- **When neighbours in a batch cost nothing**: all events of the batch pass and its message fits, or
none of them could be published alone. With a message that fits it is that all events pass, or none. -/
theorem neighbours_published_iff {trace : List Obs} {s : State} (reach : machine.Reaches trace s)
    (w : Nat) (batch : Batch) (passed : batch ∈ batchesOf w trace) (cfg : Config)
    (json : Wire.Codec Wire.Envelope) :
    ((∀ event ∈ batch.events, PublishableAlone cfg json batch.metadata event →
        Published cfg json batch event) ↔
      (∀ event ∈ batch.events, Passes event) ∧ Fits cfg json batch ∨
        ∀ event ∈ batch.events, ¬ PublishableAlone cfg json batch.metadata event) ∧
    (Fits cfg json batch →
      ((∀ event ∈ batch.events, Passes event → Published cfg json batch event) ↔
        (∀ event ∈ batch.events, Passes event) ∨ ∀ event ∈ batch.events, ¬ Passes event)) := by
  obtain ⟨service, some⟩ := batch_of_reaches reach passed
  by_cases whole : (∀ event ∈ batch.events, Passes event) ∧ Fits cfg json batch
  · have published : ∀ event ∈ batch.events, Published cfg json batch event := fun event member =>
      published_of_passes service whole.1 whole.2 member
    exact ⟨iff_of_true (fun event member _ => published event member) (.inl whole), fun _ =>
      iff_of_true (fun event member _ => published event member) (.inl whole.1)⟩
  · have nothing := not_published service some whole
    constructor
    · constructor
      · exact fun holds => .inr fun event member alone => nothing event (holds event member alone)
      · rintro (all | none) event member alone
        · exact absurd all whole
        · exact absurd alone (none event member)
    · intro fits
      constructor
      · exact fun holds => .inr fun event member passes => nothing event (holds event member passes)
      · rintro (all | none) event member passes
        · exact absurd ⟨all, fits⟩ whole
        · exact absurd passes (none event member)

/-! ### An event without a kind -/

section Shared

/-- Two `Log` calls, and a goroutine that takes both events into one batch. -/
def sharing (kind : GoString) : List Action :=
  let logs : List Choice := [.step, .step, .step, .step, .step, .send, .step, .step]
  List.flatten [
    [.init { service := ascii "svc", sink := some 0, batchSize := 2 }, .hold, .hold,
      .log (Bytes.zero 16) 1 (ascii "kind") [], .log (Bytes.zero 16) 2 kind []],
    logs.map (Action.call 0), logs.map (Action.call 1), [.receive, .receive, .step].map (Action.run 0)]

def sharedBatch (kind : GoString) : Batch :=
  ⟨⟨ascii "svc", [], []⟩, [buildEvent (Bytes.zero 16) 1 (ascii "kind") [],
    buildEvent (Bytes.zero 16) 2 kind []]⟩

/-- A codec whose texts have a byte for each event. -/
def sharedCodec : Wire.Codec Wire.Envelope where
  marshal envelope := .ok (List.replicate envelope.events.length 123)
  unmarshal _ := .error (errorsNew "unexpected end of JSON input")

theorem reaches_sharing {kind : GoString} {trace : List Obs}
    (ran : (machine.exec machine.start (sharing kind)).map Prod.fst = some trace) :
    ∃ s, machine.Reaches trace s := by
  obtain ⟨⟨trace, s⟩, done, same⟩ := Option.map_eq_some_iff.mp ran
  cases same
  exact ⟨s, Machine.exec_runs done⟩

/-- What the run shows. -/
def sharingTrace (kind : GoString) : List Obs :=
  [.initialized 0, .initReturned none,
    .sent 0 0 (buildEvent (Bytes.zero 16) 1 (ascii "kind") []),
    .sent 0 1 (buildEvent (Bytes.zero 16) 2 kind []), .writeBatch 0 (sharedBatch kind)]

/-- **An event lost with its neighbour**: of two `Log` calls the second has no kind, both events come
into one batch, and the first, which could be published alone, is not published. -/
theorem lost_with_neighbour :
    (∃ s, machine.Reaches (sharingTrace []) s) ∧ sharedBatch [] ∈ batchesOf 0 (sharingTrace []) ∧
    PublishableAlone { maxMessageBytes := 1048576 } sharedCodec ⟨ascii "svc", [], []⟩
      (buildEvent (Bytes.zero 16) 1 (ascii "kind") []) ∧
    ((writeBatch { maxMessageBytes := 1048576 } sharedCodec (sharedBatch [])).play accepting).1 =
      [⟨.count .errors 1, ()⟩] := by
  have passes : Passes (buildEvent (Bytes.zero 16) 1 (ascii "kind") []) := rfl
  exact ⟨@reaches_sharing [] (sharingTrace []) rfl, by decide +kernel,
    ⟨passes, _, [], _, rfl, rfl, by decide⟩, rfl⟩

/-- With a kind, both are published. -/
theorem published_with_neighbour :
    Published { maxMessageBytes := 1048576 } sharedCodec (sharedBatch (ascii "other"))
      (buildEvent (Bytes.zero 16) 1 (ascii "kind") []) := by
  obtain ⟨s, reach⟩ := @reaches_sharing (ascii "other") (sharingTrace (ascii "other")) rfl
  have member : sharedBatch (ascii "other") ∈ batchesOf 0 (sharingTrace (ascii "other")) := by
    decide +kernel
  have passes : ∀ event ∈ (sharedBatch (ascii "other")).events, Passes event := by
    intro event among
    rcases List.mem_cons.mp among with rfl | among
    · rfl
    · rw [List.mem_singleton.mp among]
      rfl
  have fits : Fits { maxMessageBytes := 1048576 } sharedCodec (sharedBatch (ascii "other")) :=
    ⟨_, _, _, rfl, rfl, by decide⟩
  have published := (neighbours_published_iff reach 0 _ member { maxMessageBytes := 1048576 }
    sharedCodec).2 fits
  exact published.mpr (.inl passes) _ List.mem_cons_self (passes _ List.mem_cons_self)

end Shared

end Trail.Nats
