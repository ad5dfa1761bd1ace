/-
**Acknowledgement safety of the ingestor.**

A message is acknowledged only after its batch was written or its data was published as a dead
letter; when the loop asks a fetch for its error, every message of the fetch has been dealt with
(`Handled`); and the counter of fetched messages is the sum of the decoded and the refused ones,
except while a decode has counted its message and not yet said which of the two it is.

The first and the last are a discipline of the program, kept call by call (`Discipline`); the second
is read off the pieces of a finished fetch.
-/

import Trail.Ingestor.Rounds
import Trail.Storage.EventMeaning

namespace Trail.Ingestor

open Library Storage

variable {config : Config} {json : Wire.Codec Wire.Envelope}

/-! ### What an acknowledgement rests on -/

/-- A write that contained the batch of the message succeeded. -/
def Written (json : Wire.Codec Wire.Envelope) (history : List Exchange) (message : Message) : Prop :=
  ∃ batches batch, (⟨.writeBatches batches, none⟩ : Exchange) ∈ history ∧ batch ∈ batches ∧
    BatchOf json history message batch

/-- The data of the message was published to the dead-letter subject. -/
def Published (config : Config) (history : List Exchange) (message : Message) : Prop :=
  ∃ header, (⟨.publishDLQ config.dlqSubject message.data header, none⟩ : Exchange) ∈ history

theorem Written.mono {history later : List Exchange} {message : Message}
    (written : Written json history message) (sub : history ⊆ later) :
    Written json later message := by
  obtain ⟨batches, batch, wrote, member, made⟩ := written
  exact ⟨batches, batch, sub wrote, member, made.mono sub⟩

/-- The message was given back for redelivery. -/
def GivenBack (config : Config) (history : List Exchange) (message : Message) : Prop :=
  ∃ reply, nakked config message reply ∈ history

/-! ### A fetch that has been dealt with -/

/-- A call that is about the message, or about none. -/
def Concerns (message : Message) : Call → Prop
  | .nak other _ => other = message
  | .ack other => other = message
  | .publishDLQ _ data _ => data = message.data
  | .count _ _ | .now => True
  | _ => False

/-- The message, and no other, is dead-lettered or given back. -/
def Released (config : Config) (message : Message) (part : List Exchange) : Prop :=
  (∀ exchange ∈ part, Concerns message exchange.op) ∧
    (Published config part message ∨ GivenBack config part message)

/-- What the exchanges of a piece show: a message that was released by `decode`; or one that was
decoded; or a group with its one write, after which its messages and no others are acknowledged, or,
when the write failed, released. -/
def Piece.Shows (config : Config) (json : Wire.Codec Wire.Envelope) (part : List Exchange) :
    Piece → Prop
  | .decoded message none => Released config message part
  | .decoded message (some item) => item.message = message ∧
      BatchOf json part message item.batch ∧ ∀ exchange ∈ part, Plain exchange.op
  | .flushed group =>
    (∃ rest, part = wrote group none :: rest ∧
      ∀ exchange ∈ rest, Acknowledges group exchange.op) ∨
    ∃ error parts, part = wrote group (some error) :: counts .writeErrors 1 :: parts.flatten ∧
      List.Forall₂ (fun item part => Released config item.message part) group parts

/-- The messages of a fetch have been dealt with: each was decoded or released, in arrival order,
and the flushed groups put together are the decoded items, in arrival order. -/
def Handled (config : Config) (json : Wire.Codec Wire.Envelope) (messages : List Message)
    (segment : List Exchange) : Prop :=
  ∃ pieces : List (Piece × List Exchange), segment = pieces.flatMap Prod.snd ∧
    (∀ entry ∈ pieces, entry.1.Shows config json entry.2) ∧
    pieces.filterMap (fun entry => entry.1.message?) = messages ∧
    (pieces.filterMap fun entry => entry.1.group?).flatten =
      pieces.filterMap fun entry => entry.1.item?

theorem deadLetter_released {message : Message} {reason : String} {cause : GoError}
    {part : List Exchange} (ran : (deadLetter config message reason cause).Trace part (some ())) :
    Released config message part := by
  rcases deadLetter_trace ran with ⟨error, reply, rfl⟩ | ⟨error, rfl⟩ | rfl
  · exact ⟨by simp [letter, nakked, Concerns], .inr ⟨reply, by simp⟩⟩
  · exact ⟨by simp [letter, acked, counts, Concerns], .inl ⟨_, List.mem_cons_self⟩⟩
  · exact ⟨by simp [letter, acked, counts, Concerns], .inl ⟨_, List.mem_cons_self⟩⟩

theorem rejectedOne_released {cause : GoError} {item : Pending} {part : List Exchange}
    (ran : RejectedOne config cause item part) : Released config item.message part := by
  unfold RejectedOne at ran
  rw [rejectOne_eq] at ran
  split at ran
  · exact deadLetter_released ran
  · obtain ⟨reply, rest, rfl, done⟩ := Prog.Trace.call_inv ran
    obtain ⟨rfl, -⟩ := Prog.Trace.pure_inv done
    refine ⟨?_, .inr ⟨reply, List.mem_singleton.mpr rfl⟩⟩
    intro exchange member
    rw [List.mem_singleton.mp member]
    exact rfl

theorem Piece.Ran.shows {piece : Piece} {part : List Exchange}
    (ran : piece.Ran config json part) : piece.Shows config json part := by
  cases piece with
  | decoded message outcome =>
    have decoded := decode_trace ran
    cases outcome with
    | none =>
      obtain ⟨first, rest, reason, cause, rfl, plain, _, dead⟩ := decoded
      obtain ⟨concerns, released⟩ := deadLetter_released dead
      refine ⟨fun exchange member => ?_, ?_⟩
      · rcases List.mem_append.mp member with early | late
        · have harmless := plain exchange early
          obtain ⟨op, reply⟩ := exchange
          cases op <;> trivial
        · exact concerns exchange late
      · rcases released with ⟨header, here⟩ | ⟨reply, here⟩
        · exact .inl ⟨header, List.mem_append_right _ here⟩
        · exact .inr ⟨reply, List.mem_append_right _ here⟩
    | some item =>
      obtain ⟨same, _, made, plain⟩ := decoded
      exact ⟨same, made, plain⟩
  | flushed group =>
    rcases flush_trace ran with written | ⟨error, parts, rfl, each⟩
    · exact .inl written
    · exact .inr ⟨error, parts, rfl, each.imp fun item part => rejectedOne_released⟩

/-- **A finished fetch has been dealt with.** -/
theorem handle_handled {messages : List Message} {segment : List Exchange}
    (ran : (handle config json messages [] 0 0).Trace segment (some ())) :
    Handled config json messages segment := by
  obtain ⟨cut⟩ := handle_cut messages ran
  refine ⟨cut.pieces, cut.whole, fun entry member => (cut.ran entry member).shows, cut.arrival, ?_⟩
  rw [cut.grouped, groupsFrom_flatten]
  rfl

theorem Piece.Shows.no_fetch {piece : Piece} {part : List Exchange}
    (shows : piece.Shows config json part) :
    ∀ exchange ∈ part, ∀ count, exchange.op ≠ .fetch count := by
  have released {message : Message} {part : List Exchange} (free : Released config message part) :
      ∀ exchange ∈ part, ∀ count, exchange.op ≠ .fetch count := by
    intro exchange member count same
    have concerns := free.1 exchange member
    rw [same] at concerns
    exact concerns
  cases piece with
  | decoded message outcome =>
    cases outcome with
    | none => exact released shows
    | some item =>
      intro exchange member count same
      have plain := shows.2.2 exchange member
      rw [same] at plain
      exact plain
  | flushed group =>
    rcases shows with ⟨rest, rfl, each⟩ | ⟨error, parts, rfl, each⟩
    · refine List.forall_mem_cons.mpr ⟨(by rintro count ⟨⟩), ?_⟩
      intro exchange member count same
      have acknowledges := each exchange member
      rw [same] at acknowledges
      exact acknowledges
    · refine List.forall_mem_cons.mpr ⟨(by rintro count ⟨⟩),
        List.forall_mem_cons.mpr ⟨(by rintro count ⟨⟩), ?_⟩⟩
      intro exchange member
      obtain ⟨part, among, here⟩ := List.mem_flatten.mp member
      obtain ⟨item, _, free⟩ := forall₂_mem_right each among
      exact released free exchange here

theorem Handled.no_fetch {messages : List Message} {segment : List Exchange}
    (handled : Handled config json messages segment) :
    ∀ exchange ∈ segment, ∀ count, exchange.op ≠ .fetch count := by
  obtain ⟨pieces, rfl, shows, -⟩ := handled
  intro exchange member
  obtain ⟨entry, among, here⟩ := List.mem_flatMap.mp member
  exact (shows entry among).no_fetch exchange here

/-! ### The counters -/

/-- What the additions of a history make of a counter. -/
def counted (counter : Counter) (history : List Exchange) : Nat :=
  (history.map fun exchange =>
    match exchange.op with
    | .count other amount => if other = counter then amount else 0
    | _ => 0).sum

/-- A decode has counted its message and not yet counted it as decoded or refused. -/
def deciding (history : List Exchange) : Bool :=
  history.foldl (fun busy exchange =>
    match exchange.op with
    | .count .messagesFetched _ => true
    | .count .messagesDecoded _ | .count .decodeErrors _ => false
    | _ => busy) false

/-- Every fetched message is counted as decoded or as refused, but for the one being decided. -/
def Balanced (history : List Exchange) : Prop :=
  counted .messagesFetched history =
    counted .messagesDecoded history + counted .decodeErrors history +
      if deciding history then 1 else 0

/-- Balanced, and nothing is being decided. -/
structure Settled (history : List Exchange) : Prop where
  balanced : Balanced history
  idle : deciding history = false

/-- A call that is none of the three additions. -/
def Quiet : Call → Prop
  | .count counter _ => counter ≠ .messagesFetched ∧ counter ≠ .messagesDecoded ∧
      counter ≠ .decodeErrors
  | _ => True

theorem counted_concat (counter : Counter) (history : List Exchange) (exchange : Exchange) :
    counted counter (history ++ [exchange]) =
      counted counter history + counted counter [exchange] := by
  unfold counted
  rw [List.map_append, List.sum_append]

theorem counted_other {counter : Counter} {exchange : Exchange}
    (other : ∀ amount, exchange.op ≠ .count counter amount) : counted counter [exchange] = 0 := by
  obtain ⟨op, reply⟩ := exchange
  unfold counted
  cases op with
  | count another amount =>
    have differs : another ≠ counter := fun same => other amount (by rw [same])
    simp [differs]
  | _ => rfl

theorem deciding_quiet {history : List Exchange} (op : Call) (reply : op.Reply) (quiet : Quiet op) :
    deciding (history ++ [⟨op, reply⟩]) = deciding history := by
  unfold deciding
  rw [List.foldl_append]
  cases op with
  | count counter amount =>
    cases counter with
    | messagesFetched => exact absurd rfl quiet.1
    | messagesDecoded => exact absurd rfl quiet.2.1
    | decodeErrors => exact absurd rfl quiet.2.2
    | _ => rfl
  | _ => rfl

theorem Balanced.quiet {history : List Exchange} (balanced : Balanced history) (op : Call)
    (reply : op.Reply) (quiet : Quiet op) : Balanced (history ++ [⟨op, reply⟩]) := by
  have none {counter : Counter}
      (one : counter = .messagesFetched ∨ counter = .messagesDecoded ∨ counter = .decodeErrors) :
      counted counter [⟨op, reply⟩] = 0 := by
    apply counted_other
    rintro amount rfl
    rcases one with rfl | rfl | rfl
    · exact quiet.1 rfl
    · exact quiet.2.1 rfl
    · exact quiet.2.2 rfl
  unfold Balanced at balanced ⊢
  rw [counted_concat, counted_concat, counted_concat, deciding_quiet op reply quiet, none (.inl rfl),
    none (.inr (.inl rfl)), none (.inr (.inr rfl))]
  exact balanced

theorem Settled.quiet {history : List Exchange} (settled : Settled history) (op : Call)
    (reply : op.Reply) (quiet : Quiet op) : Settled (history ++ [⟨op, reply⟩]) :=
  ⟨settled.balanced.quiet op reply quiet, (deciding_quiet op reply quiet).trans settled.idle⟩

theorem Settled.fetched {history : List Exchange} (settled : Settled history)
    (reply : Unit) : Balanced (history ++ [⟨.count .messagesFetched 1, reply⟩]) ∧
      deciding (history ++ [⟨.count .messagesFetched 1, reply⟩]) = true := by
  have busy : deciding (history ++ [⟨.count .messagesFetched 1, reply⟩]) = true := by
    unfold deciding
    rw [List.foldl_append]
    rfl
  refine ⟨?_, busy⟩
  have before := settled.balanced
  unfold Balanced at before ⊢
  rw [settled.idle] at before
  rw [busy, counted_concat, counted_concat, counted_concat]
  simp [counted] at before ⊢
  omega

theorem Balanced.decided {history : List Exchange} (balanced : Balanced history)
    (busy : deciding history = true) {counter : Counter}
    (one : counter = .messagesDecoded ∨ counter = .decodeErrors) (reply : Unit) :
    Settled (history ++ [⟨.count counter 1, reply⟩]) := by
  have idle : deciding (history ++ [⟨.count counter 1, reply⟩]) = false := by
    unfold deciding
    rw [List.foldl_append]
    rcases one with rfl | rfl <;> rfl
  refine ⟨?_, idle⟩
  unfold Balanced at balanced ⊢
  rw [busy] at balanced
  rw [idle, counted_concat, counted_concat, counted_concat]
  rcases one with rfl | rfl <;>
  · simp [counted] at balanced ⊢
    omega

/-! ### The discipline -/

/-- What has to be true before a call: of the two acknowledgements, that the message was written or
published; of the question for a fetch's error, that the fetch has been dealt with. -/
def Allowed (config : Config) (json : Wire.Codec Wire.Envelope) (history : List Exchange) :
    Call → Prop
  | .doubleAck message => Written json history message
  | .ack message => Published config history message
  | .resultError => ∃ before messages segment,
      history = before ++ ⟨.fetch config.maxMessages, .ok messages⟩ :: segment ∧
        (∀ exchange ∈ segment, ∀ count, exchange.op ≠ .fetch count) ∧
        Handled config json messages segment
  | _ => True

/-- Every call finds the counters balanced and is allowed. -/
def Discipline (config : Config) (json : Wire.Codec Wire.Envelope) (history : List Exchange)
    (op : Call) : Prop :=
  Balanced history ∧ Allowed config json history op

section Programs

variable {history : List Exchange}

theorem deadLetter_obeys (settled : Settled history) (message : Message) (reason : String)
    (cause : GoError) :
    (deadLetter config message reason cause).Obeys (Discipline config json) history
      fun later _ => Settled later := by
  refine ⟨⟨settled.balanced, trivial⟩, fun reply => ?_⟩
  have asked := settled.quiet
    (.publishDLQ config.dlqSubject message.data (dlqHeader message reason cause)) reply trivial
  cases reply with
  | some error => exact ⟨⟨asked.balanced, trivial⟩, fun _ => asked.quiet _ _ trivial⟩
  | none =>
    refine ⟨⟨asked.balanced, _, List.mem_append_right _ (List.mem_singleton.mpr rfl)⟩,
      fun reply => ?_⟩
    have told := asked.quiet (.ack message) reply trivial
    cases reply with
    | some error => exact ⟨⟨told.balanced, trivial⟩, fun _ => told.quiet _ _ (by simp [Quiet])⟩
    | none =>
      refine ⟨⟨told.balanced, trivial⟩, fun reply => ?_⟩
      have counted := told.quiet (.count .messagesDLQ 1) reply (by simp [Quiet])
      exact ⟨⟨counted.balanced, trivial⟩, fun _ => counted.quiet _ _ (by simp [Quiet])⟩

/-- What `decode` leaves: a settled history, and the batch of the item it returns. -/
def AfterDecode (json : Wire.Codec Wire.Envelope) (later : List Exchange)
    (outcome : Option Pending) : Prop :=
  Settled later ∧ ∀ item ∈ outcome, BatchOf json later item.message item.batch

theorem refuse_obeys (balanced : Balanced history) (busy : deciding history = true)
    (message : Message) (reason : String) (cause : GoError) :
    (refuse config message reason cause).Obeys (Discipline config json) history
      (AfterDecode json) := by
  refine ⟨⟨balanced, trivial⟩, fun reply => Prog.obeys_bind ?_⟩
  refine (deadLetter_obeys (balanced.decided busy (.inr rfl) reply) message reason cause).mono ?_
  intro later _ settled
  exact ⟨settled, by simp⟩

theorem decodeData_obeys (balanced : Balanced history) (busy : deciding history = true)
    {message : Message} {metadata : MsgMetadata} (known : message.metadata = .ok metadata) :
    (decodeData config json message metadata).Obeys (Discipline config json) history
      (AfterDecode json) := by
  unfold decodeData
  split
  · exact refuse_obeys balanced busy _ _ _
  · split
    · exact refuse_obeys balanced busy _ _ _
    · rename_i envelope decoded
      refine ⟨⟨balanced, trivial⟩, fun receivedAt => ?_⟩
      have later := balanced.quiet .now receivedAt trivial
      have still := (deciding_quiet .now receivedAt trivial).trans busy
      dsimp only
      split
      · exact refuse_obeys later still _ _ _
      · rename_i batch normalised
        refine ⟨⟨later, trivial⟩, fun reply => ⟨later.decided still (.inl rfl) reply, ?_⟩⟩
        rintro item ⟨rfl⟩
        exact ⟨metadata, receivedAt, envelope, known, by simp, decoded, normalised⟩

theorem decode_obeys (settled : Settled history) (message : Message) :
    (decode config json message).Obeys (Discipline config json) history (AfterDecode json) := by
  refine ⟨⟨settled.balanced, trivial⟩, fun reply => ?_⟩
  obtain ⟨one, busy⟩ := settled.fetched reply
  refine ⟨⟨one, trivial⟩, fun size => ?_⟩
  have two := one.quiet (.count .bytesFetched message.data.length) size (by simp [Quiet])
  have still := (deciding_quiet (.count .bytesFetched message.data.length) size
    (by simp [Quiet])).trans busy
  dsimp only
  split
  · exact refuse_obeys two still _ _ _
  · rename_i metadata known
    split
    · refine ⟨⟨two, trivial⟩, fun again => ?_⟩
      exact decodeData_obeys (two.quiet (.count .redeliveries 1) again (by simp [Quiet]))
        ((deciding_quiet (.count .redeliveries 1) again (by simp [Quiet])).trans still) known
    · exact decodeData_obeys two still known

theorem ackAll_obeys (settled : Settled history) (group : List Pending)
    (written : ∀ item ∈ group, Written json history item.message) :
    (ackAll group).Obeys (Discipline config json) history fun later _ => Settled later := by
  induction group generalizing history with
  | nil => exact settled
  | cons item group ih =>
    refine ⟨⟨settled.balanced, written item List.mem_cons_self⟩, fun reply => ?_⟩
    have told := settled.quiet (.doubleAck item.message) reply trivial
    have goes (counter : Counter) (quiet : Quiet (.count counter 1)) :
        (Prog.call (.count counter 1) fun _ => ackAll group : Prog signature Unit).Obeys
          (Discipline config json) (history ++ [⟨.doubleAck item.message, reply⟩])
          fun later _ => Settled later := by
      refine ⟨⟨told.balanced, trivial⟩, fun added => ih (told.quiet _ added quiet) ?_⟩
      intro other member
      refine (written other (List.mem_cons_of_mem _ member)).mono fun exchange old => ?_
      exact List.mem_append_left _ (List.mem_append_left _ old)
    cases reply with
    | some error => exact goes .ackErrors (by simp [Quiet])
    | none => exact goes .messagesAcked (by simp [Quiet])

theorem rejectOne_obeys (settled : Settled history) (cause : GoError) (item : Pending) :
    (rejectOne config cause item).Obeys (Discipline config json) history
      fun later _ => Settled later := by
  rw [rejectOne_eq]
  split
  · exact deadLetter_obeys settled _ _ _
  · exact ⟨⟨settled.balanced, trivial⟩, fun _ => settled.quiet _ _ trivial⟩

theorem reject_obeys (settled : Settled history) (cause : GoError) (group : List Pending) :
    (reject config cause group).Obeys (Discipline config json) history
      fun later _ => Settled later := by
  induction group generalizing history with
  | nil => exact settled
  | cons item group ih =>
    refine Prog.obeys_bind ((rejectOne_obeys settled cause item).mono ?_)
    intro later _ after
    exact ih after

theorem flush_obeys (settled : Settled history) (group : List Pending)
    (made : ∀ item ∈ group, BatchOf json history item.message item.batch) :
    (flush config group).Obeys (Discipline config json) history
      fun later _ => Settled later := by
  refine Prog.obeys_bind ⟨⟨settled.balanced, trivial⟩, fun reply => ?_⟩
  have asked := settled.quiet (.writeBatches (group.map Pending.batch)) reply trivial
  cases reply with
  | some error =>
    refine ⟨⟨asked.balanced, trivial⟩, fun added => ?_⟩
    exact reject_obeys (asked.quiet (.count .writeErrors 1) added (by simp [Quiet])) error group
  | none =>
    refine ⟨⟨asked.balanced, trivial⟩, fun added => Prog.obeys_bind ?_⟩
    refine ackAll_obeys (asked.quiet (.count .eventsWritten _) added (by simp [Quiet])) group
      fun item member => ?_
    refine ⟨group.map Pending.batch, item.batch, by simp, List.mem_map_of_mem member, ?_⟩
    refine (made item member).mono fun exchange old => ?_
    exact List.mem_append_left _ (List.mem_append_left _ old)

theorem handle_obeys (messages : List Message) :
    ∀ {history : List Exchange} {group : List Pending} {events bytes : Nat}, Settled history →
      (∀ item ∈ group, BatchOf json history item.message item.batch) →
      (handle config json messages group events bytes).Obeys (Discipline config json) history
        fun later _ => Settled later := by
  induction messages with
  | nil =>
    intro history group events bytes settled made
    unfold handle
    split
    · exact flush_obeys settled group made
    · exact settled
  | cons message messages ih =>
    intro history group events bytes settled made
    refine Prog.obeys_bind ((decode_obeys settled message).longer.mono ?_)
    rintro later outcome ⟨longer, after, batch⟩
    have kept : ∀ item ∈ group, BatchOf json later item.message item.batch :=
      fun item member => (made item member).mono longer.subset
    cases outcome with
    | none => exact ih after kept
    | some item =>
      dsimp only
      split
      · refine Prog.obeys_bind ((flush_obeys after group kept).longer.mono ?_)
        rintro still _ ⟨further, settled⟩
        refine ih settled fun other member => ?_
        rw [List.mem_singleton.mp member]
        exact (batch item rfl).mono further.subset
      · refine ih after fun other member => ?_
        rcases List.mem_append.mp member with old | new
        · exact kept other old
        · rw [List.mem_singleton.mp new]
          exact batch item rfl

theorem fetch_obeys (settled : Settled history) (messages : List Message) :
    (handle config json messages [] 0 0).Obeys (Discipline config json) history
      fun later _ => Settled later ∧
        ∃ segment, later = history ++ segment ∧ Handled config json messages segment :=
  (handle_obeys messages settled (by simp)).and_trace fun segment _ ran =>
    ⟨segment, rfl, handle_handled ran⟩

/-- **The whole loop keeps the discipline.** -/
theorem run_obeys (rounds : Nat) :
    ∀ {history : List Exchange}, Settled history →
      (run config json rounds).Obeys (Discipline config json) history
        fun later _ => Settled later := by
  induction rounds with
  | zero =>
    intro history settled
    exact settled
  | succ rounds ih =>
    intro history settled
    refine ⟨⟨settled.balanced, trivial⟩, fun stop => ?_⟩
    have asked := settled.quiet .cancelled stop trivial
    cases stop with
    | true => exact asked
    | false =>
      refine ⟨⟨asked.balanced, trivial⟩, fun fetched => ?_⟩
      have got := asked.quiet (.fetch config.maxMessages) fetched trivial
      cases fetched with
      | error error =>
        refine ⟨⟨got.balanced, trivial⟩, fun stop => ?_⟩
        have last := got.quiet .cancelled stop trivial
        cases stop with
        | true => exact last
        | false => exact last
      | ok messages =>
        refine Prog.obeys_bind ((fetch_obeys got messages).mono ?_)
        · rintro later _ ⟨after, segment, rfl, handled⟩
          refine ⟨⟨after.balanced, history ++ [⟨.cancelled, false⟩], messages, segment,
            by simp, handled.no_fetch, handled⟩, fun error => ?_⟩
          have told := after.quiet .resultError error trivial
          cases error with
          | none => exact ih told
          | some error =>
            dsimp only
            split
            · exact ih told
            · refine ⟨⟨told.balanced, trivial⟩, fun stop => ?_⟩
              have last := told.quiet .cancelled stop trivial
              cases stop with
              | true => exact ih last
              | false => exact last

end Programs

/-! ### Every run -/

theorem settled_nil : Settled [] := ⟨rfl, rfl⟩

/-- **Acknowledgement safety.** In every trace of the ingestor, finished or cut off anywhere, every
acknowledgement comes after the write or the publication it rests on; every fetch whose error is
asked for has been dealt with; and at every point the fetched messages are the decoded and the
refused ones and, while a decode is deciding, one more. -/
theorem ingestion_is_safe (config : Config) (json : Wire.Codec Wire.Envelope) (rounds : Nat)
    {trace : List Exchange} {result : Option (Option (Option GoError))}
    (ran : (run config json rounds).Trace trace result) :
    (∀ before exchange after, trace = before ++ exchange :: after →
      Allowed config json before exchange.op) ∧
    ∀ before after, trace = before ++ after →
      counted .messagesFetched before = counted .messagesDecoded before +
        counted .decodeErrors before + if deciding before then 1 else 0 := by
  have obeys := @run_obeys config json rounds [] settled_nil
  refine ⟨fun before exchange after cut => ((obeys.trace ran).1 before exchange after cut).2, ?_⟩
  intro before after cut
  rcases after with _ | ⟨exchange, after⟩
  · rw [List.append_nil] at cut
    rw [← cut]
    exact obeys.now (fun later op allowed => allowed.1) (fun later value settled => settled.balanced)
      ran
  · exact ((obeys.trace ran).1 before exchange after cut).1

/-- The first delivery of a message with one order event. -/
def orderMessage : Message where
  subject := ascii "trail.events.v1"
  data := orderText
  metadata := .ok {
    stream := ascii "TRAIL_EVENTS", consumer := ascii "TRAIL_INGESTOR",
    streamSequence := 1, consumerSequence := 1, numDelivered := 1 }

/-- An environment in which every fetch brings the message and every call succeeds. -/
def orderAnswer : (op : Call) → op.Reply
  | .cancelled => false
  | .fetch _ => .ok [orderMessage]
  | .resultError => none
  | .now => (1700000001000000000 : Int)
  | .writeBatches _ => none
  | .doubleAck _ => none
  | .ack _ => none
  | .nak _ _ => none
  | .publishDLQ _ _ _ => none
  | .count _ _ => ()

/-- One round in that environment. -/
def orderRun : List Exchange × Option (Option GoError) :=
  Prog.play orderAnswer (run standard orderJson 1)

theorem orderRun_trace : (run standard orderJson 1).Trace orderRun.1 (some orderRun.2) := by
  unfold orderRun
  generalize run standard orderJson 1 = program
  exact Prog.play_trace orderAnswer program

theorem ingestion_is_safe_order :
    (∀ before exchange after, orderRun.1 = before ++ exchange :: after →
      Allowed standard orderJson before exchange.op) ∧
    ∀ before after, orderRun.1 = before ++ after →
      counted .messagesFetched before = counted .messagesDecoded before +
        counted .decodeErrors before + if deciding before then 1 else 0 :=
  ingestion_is_safe standard orderJson 1 orderRun_trace

theorem counted_trace (config : Config) (json : Wire.Codec Wire.Envelope) (message : Message) :
    (run config json 1).Trace [⟨.cancelled, false⟩,
      ⟨.fetch config.maxMessages, .ok [message]⟩, counts .messagesFetched 1] none := by
  refine @Prog.Trace.call signature _ .cancelled _ false _ _ ?_
  refine @Prog.Trace.call signature _ (.fetch config.maxMessages) _ (.ok [message]) _ _ ?_
  exact @Prog.Trace.call signature _ (.count .messagesFetched 1) _ () _ _ (.cut _)

/-- Between counting a message and deciding what it is, the counters do not add up. -/
theorem fetched_not_decided :
    ∃ trace, (run standard orderJson 1).Trace trace none ∧
      counted .messagesFetched trace ≠
        counted .messagesDecoded trace + counted .decodeErrors trace :=
  ⟨_, counted_trace standard orderJson orderMessage, by decide⟩

end Trail.Ingestor
