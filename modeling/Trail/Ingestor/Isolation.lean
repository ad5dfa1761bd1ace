/-
**Messages that share a group with one the store refuses.**

The store writes a group as a whole, so one batch it refuses fails the others of its group, and the
delivery counts of all of them go on. `isolation_iff` says when a message whose own batches the
store would accept is dead-lettered for its number of deliveries: exactly when it is on its last
delivery in a group with a batch the store refuses. `grouped_with_poison` is a run in which that
happens.
-/

import Trail.Ingestor.AckSafety

namespace Trail.Ingestor

open Library Storage

variable {config : Config} {json : Wire.Codec Wire.Envelope} {accepts : Storage.Batch → Bool}

/-- A store that writes all batches of a call or none, and fails exactly when it would not accept
one of them alone. -/
def StoreActs (accepts : Storage.Batch → Bool) (trace : List Exchange) : Prop :=
  ∀ batches reply, (⟨.writeBatches batches, reply⟩ : Exchange) ∈ trace →
    (reply = none ↔ ∀ batch ∈ batches, accepts batch = true)

/-- A publisher that takes every dead letter. -/
def Publishes (trace : List Exchange) : Prop :=
  ∀ subject data header reply,
    (⟨.publishDLQ subject data header, reply⟩ : Exchange) ∈ trace → reply = none

/-- The store would accept every batch that the data normalises to. -/
def Acceptable (json : Wire.Codec Wire.Envelope) (accepts : Storage.Batch → Bool)
    (data : List UInt8) : Prop :=
  ∀ envelope delivery batch, Wire.unmarshal json data = .ok envelope →
    normalize envelope delivery = .ok batch → accepts batch = true

/-- No acceptable message is dead-lettered for its number of deliveries. -/
def NeverDeadLettered (config : Config) (json : Wire.Codec Wire.Envelope)
    (accepts : Storage.Batch → Bool) (trace : List Exchange) : Prop :=
  ∀ message cause, Acceptable json accepts message.data →
    letter config message "max-deliveries" cause none ∉ trace

/-- In no group of the fetches is an acceptable message on its last delivery together with a batch
the store refuses. -/
def Isolated (config : Config) (json : Wire.Codec Wire.Envelope) (accepts : Storage.Batch → Bool)
    (fetches : List (List Message × List Exchange)) : Prop :=
  ∀ fetch ∈ fetches, ∀ cut : FetchCut config json fetch.1 fetch.2,
    ∀ group ∈ groupsFrom config [] 0 0 (itemsOf cut.pieces),
      (∃ bad ∈ group, accepts bad.batch = false) →
      ∀ item ∈ group, Acceptable json accepts item.message.data →
        lastDelivery config item.message = false

/-! ### Where a dead letter comes from -/

theorem Cut.mem_piece {messages : List Message} {group : List Pending} {events bytes : Nat}
    {segment : List Exchange} (cut : Cut config json messages group events bytes segment)
    {exchange : Exchange} (here : exchange ∈ segment) :
    ∃ piece part, (piece, part) ∈ cut.pieces ∧ piece.Ran config json part ∧ exchange ∈ part := by
  rw [cut.whole] at here
  obtain ⟨⟨piece, part⟩, member, inside⟩ := List.mem_flatMap.mp here
  exact ⟨piece, part, member, cut.ran _ member, inside⟩

theorem Cut.part_subset {messages : List Message} {group : List Pending} {events bytes : Nat}
    {segment : List Exchange} (cut : Cut config json messages group events bytes segment)
    {piece : Piece} {part : List Exchange} (member : (piece, part) ∈ cut.pieces) :
    part ⊆ segment := by
  intro exchange inside
  rw [cut.whole]
  exact List.mem_flatMap.mpr ⟨_, member, inside⟩

theorem Cut.mem_groups {messages : List Message} {segment : List Exchange}
    (cut : FetchCut config json messages segment) {group : List Pending} :
    group ∈ groupsFrom config [] 0 0 (itemsOf cut.pieces) ↔
      ∃ part, (Piece.flushed group, part) ∈ cut.pieces := by
  rw [← cut.grouped, List.mem_filterMap]
  constructor
  · rintro ⟨⟨piece, part⟩, member, chosen⟩
    cases piece with
    | decoded message outcome => cases chosen
    | flushed other =>
      cases chosen
      exact ⟨part, member⟩
  · rintro ⟨part, member⟩
    exact ⟨_, member, rfl⟩

/-- `deadLetter` publishes nothing but its own letter. -/
theorem deadLetter_publishes {message : Message} {reason : String} {cause : GoError}
    {part : List Exchange} (ran : (deadLetter config message reason cause).Trace part (some ())) :
    ∀ exchange ∈ part, ∀ subject data header, exchange.op = .publishDLQ subject data header →
      data = message.data ∧ header = dlqHeader message reason cause := by
  have own : ∀ reply subject data header,
      (letter config message reason cause reply).op = .publishDLQ subject data header →
      data = message.data ∧ header = dlqHeader message reason cause := by
    rintro reply subject data header ⟨⟩
    exact ⟨rfl, rfl⟩
  rcases deadLetter_trace ran with ⟨failure, reply, rfl⟩ | ⟨failure, rfl⟩ | rfl <;>
  · refine List.forall_mem_cons.mpr ⟨own _, ?_⟩
    simp [nakked, acked, counts]

/-- A dead letter for the number of deliveries comes from the rejection of an item of a group whose
write failed, on the last delivery of the item. -/
theorem letter_origin {messages : List Message} {segment : List Exchange}
    (cut : FetchCut config json messages segment) {message : Message} {cause : GoError}
    {reply : Option GoError} (here : letter config message "max-deliveries" cause reply ∈ segment) :
    ∃ group error, group ∈ groupsFrom config [] 0 0 (itemsOf cut.pieces) ∧
      wrote group (some error) ∈ segment ∧
      ∃ item ∈ group, item.message.data = message.data ∧
        lastDelivery config item.message = true := by
  obtain ⟨piece, part, member, ran, inside⟩ := cut.mem_piece here
  cases piece with
  | decoded other outcome =>
    -- `decode` gives other reasons
    have decoded := decode_trace ran
    have plain : ¬ Plain (letter config message "max-deliveries" cause reply).op := id
    cases outcome with
    | some item => exact absurd (decoded.2.2.2 _ inside) plain
    | none =>
      obtain ⟨first, rest, reason, error, rfl, counters, known, dead⟩ := decoded
      rcases List.mem_append.mp inside with early | late
      · exact absurd (counters _ early) plain
      · obtain ⟨_, header⟩ := deadLetter_publishes dead _ late _ _ _ rfl
        have same : ascii "max-deliveries" = ascii reason :=
          congrArg Prod.snd (List.cons.inj header).1
        have differs : ∀ reason ∈ decodeReasons, ascii "max-deliveries" ≠ ascii reason := by
          decide
        exact absurd same (differs reason known)
  | flushed group =>
    rcases flush_trace ran with ⟨rest, rfl, acks⟩ | ⟨error, parts, rfl, each⟩
    · rcases List.mem_cons.mp inside with same | later
      · exact absurd (congrArg (fun exchange : Exchange => exchange.op) same) (by
          simp [letter, wrote])
      · exact (acks _ later).elim
    · refine ⟨group, error, cut.mem_groups.mpr ⟨_, member⟩,
        cut.part_subset member List.mem_cons_self, ?_⟩
      rcases List.mem_cons.mp inside with same | later
      · exact absurd (congrArg (fun exchange : Exchange => exchange.op) same) (by
          simp [letter, wrote])
      · rcases List.mem_cons.mp later with same | rejection
        · exact absurd (congrArg (fun exchange : Exchange => exchange.op) same) (by
            simp [letter, counts])
        · obtain ⟨own, among, inside⟩ := List.mem_flatten.mp rejection
          obtain ⟨item, present, rejected⟩ := forall₂_mem_right each among
          refine ⟨item, present, ?_⟩
          unfold RejectedOne at rejected
          rw [rejectOne_eq] at rejected
          split at rejected
          · rename_i last
            exact ⟨(deadLetter_publishes rejected _ inside _ _ _ rfl).1.symm, last⟩
          · obtain ⟨given, rest, rfl, done⟩ := Prog.Trace.call_inv rejected
            obtain ⟨rfl, -⟩ := Prog.Trace.pure_inv done
            have same := List.mem_singleton.mp inside
            exact absurd (congrArg (fun exchange : Exchange => exchange.op) same) (by
              simp [letter])

/-! ### When acceptable messages are dead-lettered -/

theorem StoreActs.mono {part trace : List Exchange} (acts : StoreActs accepts trace)
    (sub : part ⊆ trace) : StoreActs accepts part :=
  fun batches reply here => acts batches reply (sub here)

theorem StoreActs.refuses {trace : List Exchange} (acts : StoreActs accepts trace)
    {group : List Pending} {error : GoError} (failed : wrote group (some error) ∈ trace) :
    ∃ bad ∈ group, accepts bad.batch = false := by
  by_contra none
  have all : ∀ batch ∈ group.map Pending.batch, accepts batch = true := by
    intro batch member
    obtain ⟨item, among, rfl⟩ := List.mem_map.mp member
    by_contra refused
    exact none ⟨item, among, by simpa using refused⟩
  cases (acts _ _ failed).mpr all

/-- Groups that keep acceptable messages apart on their last delivery spare them. -/
theorem Isolated.spares {trace : List Exchange} {fetches : List (List Message × List Exchange)}
    (run : Fetches config json trace fetches) (store : StoreActs accepts trace)
    (isolated : Isolated config json accepts fetches) :
    NeverDeadLettered config json accepts trace := by
  intro message cause acceptable here
  obtain ⟨⟨messages, segment⟩, member, inside⟩ := run.mem_segment here id
  obtain ⟨ran, subset⟩ := run.segment_subset member
  obtain ⟨cut⟩ := handle_cut messages ran
  obtain ⟨group, error, flushed, failed, item, present, same, last⟩ := letter_origin cut inside
  have bad := (store.mono subset).refuses failed
  rw [← same] at acceptable
  have early := isolated _ member cut group flushed bad item present acceptable
  rw [last] at early
  cases early

/-- A group with a refused batch is rejected, and its items on their last delivery are published. -/
theorem published_of_shared {messages : List Message} {segment : List Exchange}
    (store : StoreActs accepts segment) (publisher : Publishes segment)
    (cut : FetchCut config json messages segment) {group : List Pending}
    (flushed : group ∈ groupsFrom config [] 0 0 (itemsOf cut.pieces))
    (refused : ∃ bad ∈ group, accepts bad.batch = false) {item : Pending} (present : item ∈ group)
    (last : lastDelivery config item.message = true) :
    ∃ cause, letter config item.message "max-deliveries" cause none ∈ segment := by
  obtain ⟨part, member⟩ := cut.mem_groups.mp flushed
  rcases flush_trace (cut.ran _ member) with ⟨rest, rfl, -⟩ | ⟨error, parts, rfl, each⟩
  · obtain ⟨bad, among, no⟩ := refused
    have yes := (store _ _ (cut.part_subset member List.mem_cons_self)).mp rfl bad.batch
      (List.mem_map_of_mem among)
    rw [no] at yes
    cases yes
  · obtain ⟨own, among, rejected⟩ := forall₂_mem_right each.flip present
    have inside : own ⊆ segment := fun exchange here => cut.part_subset member
      (List.mem_cons_of_mem _ (List.mem_cons_of_mem _ (List.mem_flatten.mpr ⟨own, among, here⟩)))
    rw [rejectOne_eq, if_pos last] at rejected
    refine ⟨error, ?_⟩
    rcases deadLetter_trace rejected with ⟨failure, reply, rfl⟩ | ⟨failure, rfl⟩ | rfl
    · cases publisher _ _ _ _ (inside List.mem_cons_self)
    · exact inside List.mem_cons_self
    · exact inside List.mem_cons_self

/-- **When acceptable messages are spared.** In a run whose store acts as described and whose
publisher works, no acceptable message is dead-lettered for its number of deliveries exactly when
none is on its last delivery in a group with a batch the store refuses. -/
theorem isolation_iff (config : Config) (json : Wire.Codec Wire.Envelope)
    (accepts : Storage.Batch → Bool) (rounds : Nat) {trace : List Exchange}
    {result : Option (Option GoError)} (ran : (run config json rounds).Trace trace (some result))
    (store : StoreActs accepts trace) (publisher : Publishes trace) :
    ∃ fetches, Fetches config json trace fetches ∧
      (NeverDeadLettered config json accepts trace ↔ Isolated config json accepts fetches) := by
  obtain ⟨fetches, run⟩ := run_fetches rounds ran
  refine ⟨fetches, run, ?_, fun isolated => isolated.spares run store⟩
  rintro never ⟨messages, segment⟩ member cut group flushed bad item present acceptable
  obtain ⟨_, subset⟩ := run.segment_subset member
  by_contra last
  obtain ⟨cause, here⟩ := published_of_shared (store.mono subset)
    (fun subject data header reply inside => publisher _ _ _ _ (subset inside)) cut flushed bad
    present (by simpa using last)
  exact never item.message cause acceptable (subset here)

/-! ### A run of scheduled fetches -/

/-- Peers that deliver the messages of a schedule, one fetch after another, and answer writes and
publications in a given way; everything else succeeds. -/
structure Peers where
  schedule : Nat → List Message
  write : List Storage.Batch → Option GoError
  publish : Option GoError

/-- The answers of the peers; the world is the number of fetches made. -/
def Peers.answer (peers : Peers) (made : Nat) : (op : Call) → Nat × op.Reply
  | .cancelled => (made, false)
  | .fetch _ => (made + 1, .ok (peers.schedule made))
  | .resultError => (made, none)
  | .now => (made, (0 : Int))
  | .writeBatches batches => (made, peers.write batches)
  | .doubleAck _ => (made, none)
  | .ack _ => (made, none)
  | .nak _ _ => (made, none)
  | .publishDLQ _ _ _ => (made, peers.publish)
  | .count _ _ => (made, ())

/-- The exchanges of the given number of rounds, after the given number of fetches. -/
def Peers.trace (peers : Peers) (config : Config) (json : Wire.Codec Wire.Envelope)
    (rounds made : Nat) : List Exchange :=
  ((run config json rounds).execute peers.answer made).1.map Prod.snd

section Peers

variable (peers : Peers)

theorem Peers.ran (rounds made : Nat) :
    (run config json rounds).Trace (peers.trace config json rounds made)
      (some ((run config json rounds).execute peers.answer made).2.2) :=
  @Prog.execute_trace signature _ Nat peers.answer made (run config json rounds)

theorem Peers.reply {rounds made : Nat} {op : Call} {reply : op.Reply}
    (member : (⟨op, reply⟩ : Exchange) ∈ peers.trace config json rounds made) :
    ∃ world, reply = (peers.answer world op).2 := by
  obtain ⟨⟨world, exchange⟩, among, same⟩ := List.mem_map.mp member
  cases same
  exact ⟨world, @Prog.execute_reply signature _ Nat peers.answer made _ _ _ _ among⟩

theorem Peers.storeActs
    (write : ∀ batches, peers.write batches = none ↔ ∀ batch ∈ batches, accepts batch = true)
    (rounds made : Nat) : StoreActs accepts (peers.trace config json rounds made) := by
  intro batches reply member
  obtain ⟨world, rfl⟩ := peers.reply member
  exact write batches

theorem Peers.publishes (publish : peers.publish = none) (rounds made : Nat) :
    Publishes (peers.trace config json rounds made) := by
  intro subject data header reply member
  obtain ⟨world, rfl⟩ := peers.reply member
  exact publish

theorem Peers.handle_world (messages : List Message) (made : Nat) :
    ((handle config json messages [] 0 0).execute peers.answer made).2.1 = made := by
  apply Prog.execute_unchanged
  intro entry member
  have handled := handle_handled (@Prog.execute_trace signature _ Nat peers.answer made
    (handle config json messages [] 0 0))
  have other := handled.no_fetch entry.2 (List.mem_map_of_mem member)
  obtain ⟨world, op, reply⟩ := entry
  cases op with
  | fetch count => exact absurd rfl (other count)
  | _ => rfl

theorem Peers.trace_succ (rounds made : Nat) :
    ∃ segment, (handle config json (peers.schedule made) [] 0 0).Trace segment (some ()) ∧
      peers.trace config json (rounds + 1) made = ⟨.cancelled, false⟩ ::
        ⟨.fetch config.maxMessages, .ok (peers.schedule made)⟩ ::
          (segment ++ ⟨.resultError, none⟩ :: peers.trace config json rounds (made + 1)) := by
  refine ⟨((handle config json (peers.schedule made) [] 0 0).execute peers.answer
    (made + 1)).1.map Prod.snd, @Prog.execute_trace signature _ Nat peers.answer (made + 1) _, ?_⟩
  have open_ : peers.answer made .cancelled = (made, false) := rfl
  have fetched : peers.answer made (.fetch config.maxMessages) =
      (made + 1, .ok (peers.schedule made)) := rfl
  have asked : peers.answer (made + 1) .resultError = (made + 1, none) := rfl
  have left : ((handle config json (peers.schedule made) [] 0 0).execute peers.answer
      (made + 1)).2 = (made + 1, ()) := Prod.ext (peers.handle_world _ _) rfl
  unfold trace
  rw [run, Prog.execute_call open_, Prog.execute_call fetched]
  dsimp only
  rw [Prog.execute_bind_of left, Prog.execute_call asked]
  simp

theorem Peers.fetches (rounds : Nat) :
    ∀ made index, index < rounds →
      (⟨.fetch config.maxMessages, .ok (peers.schedule (made + index))⟩ : Exchange) ∈
        peers.trace config json rounds made := by
  induction rounds with
  | zero =>
    intro made index small
    cases small
  | succ rounds ih =>
    intro made index small
    obtain ⟨segment, _, whole⟩ := @Peers.trace_succ config json peers rounds made
    rw [whole]
    cases index with
    | zero => exact List.mem_cons_of_mem _ List.mem_cons_self
    | succ index =>
      have later := ih (made + 1) index (by omega)
      rw [show made + 1 + index = made + (index + 1) by omega] at later
      exact List.mem_cons_of_mem _ (List.mem_cons_of_mem _
        (List.mem_append_right _ (List.mem_cons_of_mem _ later)))

end Peers

theorem Fetches.mem_fetch {trace : List Exchange} {fetches : List (List Message × List Exchange)}
    (run : Fetches config json trace fetches) {count : Int} {messages : List Message}
    (here : (⟨.fetch count, .ok messages⟩ : Exchange) ∈ trace) :
    ∃ segment, (messages, segment) ∈ fetches := by
  have not : ¬ OfLoop ⟨.fetch count, .ok messages⟩ := by
    rintro (same | same | ⟨other, error, same⟩) <;> cases same
  induction run with
  | done loop => exact absurd (loop _ here) not
  | fetch loop ran _ ih =>
    rcases List.mem_append.mp here with opening | later
    · exact absurd (loop _ opening) not
    · rcases List.mem_cons.mp later with same | after
      · cases same
        exact ⟨_, List.mem_cons_self⟩
      · rcases List.mem_append.mp after with inside | rest
        · exact absurd rfl ((handle_handled ran).no_fetch _ inside count)
        · obtain ⟨segment, member⟩ := ih rest
          exact ⟨segment, List.mem_cons_of_mem _ member⟩

/-! ### Two messages in one group -/

/-- A message that `decode` makes an item of: within the bound, with metadata and an envelope of one
event. -/
structure Single (config : Config) (json : Wire.Codec Wire.Envelope) (message : Message)
    (envelope : Wire.Envelope) : Prop where
  metadata : ∃ metadata, message.metadata = .ok metadata
  small : (message.data.length : Int) ≤ config.maxBytes
  decodes : Wire.unmarshal json message.data = .ok envelope
  valid : Wire.validate envelope = .ok ()
  one : envelope.events.length = 1

theorem Single.decoded {message : Message} {envelope : Wire.Envelope}
    (single : Single config json message envelope) {part : List Exchange}
    {outcome : Option Pending} (ran : (decode config json message).Trace part (some outcome)) :
    ∃ item, outcome = some item ∧ item.message = message ∧ item.batch.events.length = 1 ∧
      item.batch.batchID = parsedID envelope.batchID ∧ item.bytes = message.data.length := by
  obtain ⟨metadata, known⟩ := single.metadata
  have fits : ¬ config.maxBytes < message.data.length := not_lt.mpr single.small
  have data {part} (ran : (decodeData config json message metadata).Trace part (some outcome)) :
      ∃ item, outcome = some item ∧ item.message = message ∧ item.batch.events.length = 1 ∧
        item.batch.batchID = parsedID envelope.batchID ∧ item.bytes = message.data.length := by
    unfold decodeData at ran
    rw [if_neg fits, single.decodes] at ran
    obtain ⟨receivedAt, rest, rfl, read⟩ := Prog.Trace.call_inv ran
    obtain ⟨batch, normalised, identifier, _, _, records⟩ :=
      normalize_base single.valid (deliveryOf metadata receivedAt)
    rw [normalised] at read
    obtain ⟨_, rest, rfl, done⟩ := Prog.Trace.call_inv read
    obtain ⟨rfl, rfl⟩ := Prog.Trace.pure_inv done
    exact ⟨_, rfl, rfl, records.length_eq.trans single.one, identifier, rfl⟩
  obtain ⟨_, rest, rfl, second⟩ := Prog.Trace.call_inv ran
  obtain ⟨_, rest, rfl, third⟩ := Prog.Trace.call_inv second
  rw [known] at third
  dsimp only at third
  split at third
  · obtain ⟨_, rest, rfl, fourth⟩ := Prog.Trace.call_inv third
    exact data fourth
  · exact data third

theorem items_related {related : Message → Pending → Prop} (pieces : List (Piece × List Exchange))
    (ran : ∀ entry ∈ pieces, entry.1.Ran config json entry.2)
    (decodes : ∀ message ∈ pieces.filterMap (fun entry => entry.1.message?), ∀ part outcome,
      (decode config json message).Trace part (some outcome) →
      ∃ item, outcome = some item ∧ related message item) :
    List.Forall₂ related (pieces.filterMap fun entry => entry.1.message?) (itemsOf pieces) := by
  induction pieces with
  | nil => exact .nil
  | cons entry pieces ih =>
    obtain ⟨first, rest⟩ := List.forall_mem_cons.mp ran
    obtain ⟨piece, part⟩ := entry
    cases piece with
    | decoded message outcome =>
      obtain ⟨item, rfl, holds⟩ := decodes message List.mem_cons_self part outcome first
      exact .cons holds (ih rest fun other member => decodes other (List.mem_cons_of_mem _ member))
    | flushed group => exact ih rest decodes

theorem Cut.items_related {related : Message → Pending → Prop} {messages : List Message}
    {segment : List Exchange} (cut : FetchCut config json messages segment)
    (decodes : ∀ message ∈ messages, ∀ part outcome,
      (decode config json message).Trace part (some outcome) →
      ∃ item, outcome = some item ∧ related message item) :
    List.Forall₂ related messages (itemsOf cut.pieces) := by
  have pairs := Ingestor.items_related cut.pieces cut.ran (by rwa [cut.arrival])
  rwa [cut.arrival] at pairs

theorem pair_group {good bad : Message} {first second : Wire.Envelope}
    (one : Single config json good first) (two : Single config json bad second)
    (events : 2 ≤ config.maxEvents)
    (bytes : (good.data.length : Int) + bad.data.length ≤ config.maxBytes)
    {segment : List Exchange} (cut : FetchCut config json [good, bad] segment) :
    ∃ item other, groupsFrom config [] 0 0 (itemsOf cut.pieces) = [[item, other]] ∧
      item.message = good ∧ other.batch.batchID = parsedID second.batchID := by
  have items : List.Forall₂ (fun message item => item.message = message ∧
      item.batch.events.length = 1 ∧ item.bytes = message.data.length ∧
      (message = bad → item.batch.batchID = parsedID second.batchID))
      [good, bad] (itemsOf cut.pieces) := by
    refine cut.items_related fun message member part outcome ran => ?_
    by_cases which : message = bad
    · subst which
      obtain ⟨item, some, same, count, identifier, size⟩ := two.decoded ran
      exact ⟨item, some, same, count, size, fun _ => identifier⟩
    · obtain rfl : message = good := by
        rcases List.mem_cons.mp member with same | other
        · exact same
        · exact absurd (List.mem_singleton.mp other) which
      obtain ⟨item, some, same, count, _, size⟩ := one.decoded ran
      exact ⟨item, some, same, count, size, fun same => absurd same which⟩
  obtain ⟨item, _, ⟨same, count, size, _⟩, rest, made⟩ := List.forall₂_cons_left_iff.mp items
  obtain ⟨other, _, ⟨_, count', size', identifier⟩, last, rest'⟩ :=
    List.forall₂_cons_left_iff.mp rest
  rw [List.forall₂_nil_left_iff] at last
  refine ⟨item, other, ?_, same, identifier rfl⟩
  rw [made, rest', last]
  simp only [groupsFrom, full, count, count', size, size']
  simp
  omega

/-- The call of an event the store refuses. -/
def poisonCall : Storage.Call where
  id := ⟨[0, 0, 0, 0, 0, 0, 0, 0, 0, 0, 0, 0, 0, 0, 0, 3], rfl⟩
  timestamp := 1700000000000000000
  kind := ascii "order.lost"
  options := []

def poisonEnvelope : Wire.Envelope :=
  Wire.batchEnvelope orderMetadata poisonCall.event [poisonCall.event]

/-- What `json.Marshal` writes for its envelope. -/
def poisonText : GoString :=
  octets "\x7b\"schema_version\":1,\"batch_id\":\"00000000000000000000000003\"," ++
  octets "\"metadata\":\x7b\"Service\":\"shop\",\"Environment\":\"test\",\"Version\":\"1\"\x7d," ++
  octets "\"events\":[\x7b\"event_id\":\"00000000000000000000000003\"," ++
  octets "\"timestamp_unix_nano\":1700000000000000000,\"kind\":\"order.lost\",\"level\":\"info\"\x7d]\x7d"

/-- `encoding/json` at the two envelopes. -/
def twoJson : Wire.Codec Wire.Envelope :=
  Wire.Codec.table [(orderEnvelope, orderText), (poisonEnvelope, poisonText)]

/-- The delivery of a stored message with the given number. -/
def delivery (data : List UInt8) (sequence : UInt64) (number : Nat) : Message where
  subject := ascii "trail.events.v1"
  data := data
  metadata := .ok {
    stream := ascii "TRAIL_EVENTS", consumer := ascii "TRAIL_INGESTOR",
    streamSequence := sequence, numDelivered := UInt64.ofNat number }

/-- A store that refuses the batch of the one event. -/
def refusesPoison (batch : Storage.Batch) : Bool := batch.batchID ≠ poisonCall.id

/-- Both messages are delivered in every fetch, the store refuses one of them. -/
def poisonPeers : Peers where
  schedule made := [delivery orderText 1 (made + 1), delivery poisonText 2 (made + 1)]
  write batches :=
    if batches.all refusesPoison then none else some (errorsNew "value out of range")
  publish := none

theorem texts_differ : orderText ≠ poisonText := by decide

theorem orderText_short : orderText.length ≤ 1000 := by decide +kernel

theorem poisonText_short : poisonText.length ≤ 1000 := by decide +kernel

theorem poisonCall_sound : poisonCall.Sound where
  timestamp := by decide
  kind := by decide
  kindUtf8 := utf8_of_ascii (by decide +kernel)
  made := by simp [poisonCall]
  utf8 := by simp [poisonCall]
  keys := by simp [poisonCall]
  level := .inr (.inl rfl)
  scope := Iff.rfl

theorem single_valid {call : Storage.Call} (sound : call.Sound) :
    Wire.validate (Wire.batchEnvelope orderMetadata call.event [call.event]) = .ok () := by
  refine Wire.validate_batchEnvelope (by decide) call.event (by simp) ?_
  intro event member
  rw [List.mem_singleton.mp member]
  exact sound.sendable

theorem order_decodes : Wire.unmarshal twoJson orderText = .ok orderEnvelope := by
  have read : twoJson.unmarshal orderText = .ok orderEnvelope := by
    unfold twoJson
    exact Wire.Codec.unmarshal_cons_self orderEnvelope orderText _
  have valid : Wire.validate orderEnvelope = .ok () := single_valid orderCall_sound
  rw [Wire.unmarshal, read]
  dsimp only
  rw [valid]
  rfl

theorem poison_decodes : Wire.unmarshal twoJson poisonText = .ok poisonEnvelope := by
  have read : twoJson.unmarshal poisonText = .ok poisonEnvelope := by
    unfold twoJson
    rw [Wire.Codec.unmarshal_cons_ne texts_differ]
    exact Wire.Codec.unmarshal_cons_self poisonEnvelope poisonText _
  have valid : Wire.validate poisonEnvelope = .ok () := single_valid poisonCall_sound
  rw [Wire.unmarshal, read]
  dsimp only
  rw [valid]
  rfl

theorem order_single (number : Nat) :
    Single standard twoJson (delivery orderText 1 number) orderEnvelope where
  metadata := ⟨_, rfl⟩
  small := by
    have short := orderText_short
    show (orderText.length : Int) ≤ 8388608
    omega
  decodes := order_decodes
  valid := single_valid orderCall_sound
  one := rfl

theorem poison_single (number : Nat) :
    Single standard twoJson (delivery poisonText 2 number) poisonEnvelope where
  metadata := ⟨_, rfl⟩
  small := by
    have short := poisonText_short
    show (poisonText.length : Int) ≤ 8388608
    omega
  decodes := poison_decodes
  valid := single_valid poisonCall_sound
  one := rfl

theorem order_acceptable : Acceptable twoJson refusesPoison orderText := by
  intro envelope delivery batch decoded normalised
  rw [order_decodes] at decoded
  cases decoded
  obtain ⟨made, same, identifier, _⟩ := normalize_base (single_valid orderCall_sound) delivery
  have equal : made = batch := Except.ok.inj (same.symm.trans normalised)
  have known : batch.batchID = orderCall.id := by
    rw [← equal, identifier]
    exact parsedID_encodeID orderCall.id
  unfold refusesPoison
  rw [known]
  decide

theorem poison_refused {batch : Storage.Batch}
    (known : batch.batchID = parsedID poisonEnvelope.batchID) : refusesPoison batch = false := by
  have same : parsedID poisonEnvelope.batchID = poisonCall.id := parsedID_encodeID poisonCall.id
  unfold refusesPoison
  rw [known, same]
  simp

theorem poison_storeActs : StoreActs refusesPoison (poisonPeers.trace standard twoJson 5 0) := by
  apply Peers.storeActs
  intro batches
  simp [poisonPeers]

theorem poison_publishes : Publishes (poisonPeers.trace standard twoJson 5 0) :=
  @Peers.publishes standard twoJson poisonPeers rfl 5 0

theorem isolation_iff_poison :
    ∃ fetches, Fetches standard twoJson (poisonPeers.trace standard twoJson 5 0) fetches ∧
      (NeverDeadLettered standard twoJson refusesPoison (poisonPeers.trace standard twoJson 5 0) ↔
        Isolated standard twoJson refusesPoison fetches) :=
  isolation_iff standard twoJson refusesPoison 5 (poisonPeers.ran 5 0) poison_storeActs
    poison_publishes

/-- An acceptable message is dead-lettered on its fifth delivery, after five fetches that brought it
together with a message the store refuses. -/
theorem grouped_with_poison :
    (∃ result, (run standard twoJson 5).Trace (poisonPeers.trace standard twoJson 5 0)
      (some result)) ∧
    StoreActs refusesPoison (poisonPeers.trace standard twoJson 5 0) ∧
    Acceptable twoJson refusesPoison (delivery orderText 1 5).data ∧
    ∃ cause, letter standard (delivery orderText 1 5) "max-deliveries" cause none ∈
      poisonPeers.trace standard twoJson 5 0 := by
  refine ⟨⟨_, poisonPeers.ran 5 0⟩, poison_storeActs, order_acceptable, ?_⟩
  obtain ⟨fetches, run⟩ := run_fetches 5 (@Peers.ran standard twoJson poisonPeers 5 0)
  obtain ⟨segment, member⟩ := run.mem_fetch
    (@Peers.fetches standard twoJson poisonPeers 5 0 4 (by omega))
  obtain ⟨ran, subset⟩ := run.segment_subset member
  obtain ⟨cut⟩ := handle_cut _ ran
  have lengths : (orderText.length : Int) + poisonText.length ≤ 8388608 := by
    have one := orderText_short
    have two := poisonText_short
    omega
  obtain ⟨item, other, groups, same, identifier⟩ :=
    pair_group (order_single 5) (poison_single 5) (by decide) lengths cut
  have publisher : Publishes segment := fun subject data header reply here =>
    poison_publishes _ _ _ _ (subset here)
  have flushed : [item, other] ∈ groupsFrom standard [] 0 0 (itemsOf cut.pieces) := by
    rw [groups]
    exact List.mem_singleton.mpr rfl
  have last : lastDelivery standard item.message = true := by
    rw [same]
    decide
  obtain ⟨cause, here⟩ := published_of_shared (poison_storeActs.mono subset) publisher cut flushed
    ⟨other, by simp, poison_refused identifier⟩ List.mem_cons_self last
  rw [same] at here
  exact ⟨cause, subset here⟩

end Trail.Ingestor
