/-
**What one fetch does, piece by piece.**

The exchanges of one fetch are a sequence of pieces: the decoding of each message, in arrival order,
and between them the flush of each group. `handle_cut` cuts a finished fetch into its pieces; which
items share a group is `groupsFrom`, a function of the decoded items alone. The lemmas before it say
what each piece can look like, and `run_fetches` cuts a run into its fetches.
-/

import Trail.Ingestor.Engine

namespace Trail.Ingestor

open Library Storage

variable {config : Config} {json : Wire.Codec Wire.Envelope}

/-! ### Dead letters and rejections -/

/-- The publication of a dead letter. -/
def letter (config : Config) (message : Message) (reason : String) (cause : GoError)
    (reply : Option GoError) : Exchange :=
  ⟨.publishDLQ config.dlqSubject message.data (dlqHeader message reason cause), reply⟩

/-- A message that is given back for redelivery. -/
def nakked (config : Config) (message : Message) (reply : Option GoError) : Exchange :=
  ⟨.nak message config.nakDelay, reply⟩

/-- The answer to an acknowledgement. -/
def acked (message : Message) (reply : Option GoError) : Exchange := ⟨.ack message, reply⟩

/-- An addition to a counter. -/
def counts (counter : Counter) (amount : Nat) : Exchange := ⟨.count counter amount, ()⟩

/-- The three ways `deadLetter` goes. -/
theorem deadLetter_trace {message : Message} {reason : String} {cause : GoError}
    {part : List Exchange} (ran : (deadLetter config message reason cause).Trace part (some ())) :
    (∃ error reply,
      part = [letter config message reason cause (some error), nakked config message reply]) ∨
    (∃ error, part = [letter config message reason cause none, acked message (some error),
      counts .ackErrors 1]) ∨
    part = [letter config message reason cause none, acked message none, counts .messagesDLQ 1,
      counts .messagesAcked 1] := by
  obtain ⟨reply, rest, rfl, second⟩ := Prog.Trace.call_inv ran
  cases reply with
  | some error =>
    obtain ⟨given, rest, rfl, third⟩ := Prog.Trace.call_inv second
    obtain ⟨rfl, -⟩ := Prog.Trace.pure_inv third
    exact .inl ⟨error, given, rfl⟩
  | none =>
    obtain ⟨given, rest, rfl, third⟩ := Prog.Trace.call_inv second
    cases given with
    | some error =>
      obtain ⟨_, rest, rfl, fourth⟩ := Prog.Trace.call_inv third
      obtain ⟨rfl, -⟩ := Prog.Trace.pure_inv fourth
      exact .inr (.inl ⟨error, rfl⟩)
    | none =>
      obtain ⟨_, rest, rfl, fourth⟩ := Prog.Trace.call_inv third
      obtain ⟨_, rest, rfl, fifth⟩ := Prog.Trace.call_inv fourth
      obtain ⟨rfl, -⟩ := Prog.Trace.pure_inv fifth
      exact .inr (.inr rfl)

/-- A message is on its last delivery, as far as the engine can tell. -/
def lastDelivery (config : Config) (message : Message) : Bool :=
  match message.metadata with
  | .ok metadata => config.maxDeliveries ≤ metadata.numDelivered
  | .error _ => false

/-- A rejected message is dead-lettered on its last delivery and given back before. -/
theorem rejectOne_eq (cause : GoError) (item : Pending) :
    rejectOne config cause item =
      if lastDelivery config item.message then
        deadLetter config item.message "max-deliveries" cause
      else .call (.nak item.message config.nakDelay) fun _ => .pure () := by
  unfold rejectOne lastDelivery
  cases item.message.metadata with
  | error error => rfl
  | ok metadata =>
    dsimp only
    by_cases last : config.maxDeliveries ≤ metadata.numDelivered
    · rw [if_pos last, if_pos (decide_eq_true last)]
    · rw [if_neg last, if_neg (by simpa using last)]

/-- The part of a rejection that belongs to one item. -/
def RejectedOne (config : Config) (cause : GoError) (item : Pending) (part : List Exchange) : Prop :=
  (rejectOne config cause item).Trace part (some ())

theorem reject_trace {cause : GoError} {group : List Pending} {part : List Exchange}
    (ran : (reject config cause group).Trace part (some ())) :
    ∃ parts, part = parts.flatten ∧ List.Forall₂ (RejectedOne config cause) group parts := by
  induction group generalizing part with
  | nil =>
    obtain ⟨rfl, -⟩ := Prog.Trace.pure_inv ran
    exact ⟨[], rfl, .nil⟩
  | cons item group ih =>
    obtain ⟨_, before, after, first, second, rfl⟩ := Prog.Trace.bind_inv ran
    obtain ⟨parts, rfl, each⟩ := ih second
    exact ⟨before :: parts, rfl, .cons first each⟩

/-! ### Flushing a group -/

/-- The write of a group. -/
def wrote (group : List Pending) (reply : Option GoError) : Exchange :=
  ⟨.writeBatches (group.map Pending.batch), reply⟩

/-- An acknowledgement of a message of the group, or a counter. -/
def Acknowledges (group : List Pending) : Call → Prop
  | .doubleAck message => ∃ item ∈ group, item.message = message
  | .count _ _ => True
  | _ => False

theorem ackAll_trace {group : List Pending} {part : List Exchange}
    (ran : (ackAll group).Trace part (some ())) :
    ∀ exchange ∈ part, Acknowledges group exchange.op := by
  induction group generalizing part with
  | nil =>
    obtain ⟨rfl, -⟩ := Prog.Trace.pure_inv ran
    simp
  | cons item group ih =>
    have later : ∀ op, Acknowledges group op → Acknowledges (item :: group) op := by
      intro op concerns
      cases op with
      | doubleAck message =>
        obtain ⟨other, member, same⟩ := concerns
        exact ⟨other, List.mem_cons_of_mem _ member, same⟩
      | _ => exact concerns
    obtain ⟨reply, rest, rfl, second⟩ := Prog.Trace.call_inv ran
    have finish : ∀ {rest}, (ackAll group).Trace rest (some ()) →
        ∀ exchange ∈ rest, Acknowledges (item :: group) exchange.op :=
      fun ran exchange member => later _ (ih ran exchange member)
    have this : Acknowledges (item :: group) (.doubleAck item.message) :=
      ⟨item, List.mem_cons_self, rfl⟩
    cases reply <;>
    · obtain ⟨_, rest, rfl, third⟩ := Prog.Trace.call_inv second
      exact List.forall_mem_cons.mpr ⟨this, List.forall_mem_cons.mpr ⟨trivial, finish third⟩⟩

/-- **A flush**: one write of the whole group, then only the acknowledgements of its messages, or
the rejection of each of them. -/
theorem flush_trace {group : List Pending} {part : List Exchange}
    (ran : (flush config group).Trace part (some ())) :
    (∃ rest, part = wrote group none :: rest ∧ ∀ exchange ∈ rest, Acknowledges group exchange.op) ∨
    ∃ error parts, part = wrote group (some error) :: counts .writeErrors 1 :: parts.flatten ∧
      List.Forall₂ (RejectedOne config error) group parts := by
  obtain ⟨outcome, before, after, first, second, rfl⟩ := Prog.Trace.bind_inv ran
  obtain ⟨reply, rest, rfl, written⟩ := Prog.Trace.call_inv first
  cases reply with
  | some error =>
    obtain ⟨_, rest, rfl, counted⟩ := Prog.Trace.call_inv written
    obtain ⟨rfl, rfl⟩ := Prog.Trace.pure_inv counted
    obtain ⟨parts, rfl, each⟩ := reject_trace second
    exact .inr ⟨error, parts, rfl, each⟩
  | none =>
    obtain ⟨added, rest, rfl, counted⟩ := Prog.Trace.call_inv written
    obtain ⟨_, acks, nothing, all, done, rfl⟩ := Prog.Trace.bind_inv counted
    obtain ⟨rfl, rfl⟩ := Prog.Trace.pure_inv done
    obtain ⟨rfl, -⟩ := Prog.Trace.pure_inv second
    refine .inl ⟨⟨_, added⟩ :: acks, ?_, ?_⟩
    · rw [List.append_nil, List.append_nil]
      rfl
    · exact List.forall_mem_cons.mpr ⟨trivial, ackAll_trace all⟩

/-! ### Decoding a message -/

/-- The batch is what the data and the metadata of the message normalise to, with a clock reading
of the history. -/
def BatchOf (json : Wire.Codec Wire.Envelope) (history : List Exchange) (message : Message)
    (batch : Storage.Batch) : Prop :=
  ∃ metadata receivedAt envelope, message.metadata = .ok metadata ∧
    (⟨.now, receivedAt⟩ : Exchange) ∈ history ∧
    Wire.unmarshal json message.data = .ok envelope ∧
    normalize envelope (deliveryOf metadata receivedAt) = .ok batch

theorem BatchOf.mono {history later : List Exchange} {message : Message} {batch : Storage.Batch}
    (made : BatchOf json history message batch) (sub : history ⊆ later) :
    BatchOf json later message batch := by
  obtain ⟨metadata, receivedAt, envelope, known, clock, decoded, normalised⟩ := made
  exact ⟨metadata, receivedAt, envelope, known, sub clock, decoded, normalised⟩

/-- A counter or the clock. -/
def Plain : Call → Prop
  | .count _ _ | .now => True
  | _ => False

/-- The reasons `decode` gives. -/
def decodeReasons : List String := ["metadata", "oversized", "decode", "normalize"]

/-- The two outcomes of `decode`: a dead letter after counters and clock, or an item after nothing
else. -/
def DecodedAs (config : Config) (json : Wire.Codec Wire.Envelope) (message : Message)
    (part : List Exchange) : Option Pending → Prop
  | none => ∃ first rest reason cause, part = first ++ rest ∧
      (∀ exchange ∈ first, Plain exchange.op) ∧ reason ∈ decodeReasons ∧
      (deadLetter config message reason cause).Trace rest (some ())
  | some item => item.message = message ∧ item.bytes = message.data.length ∧
      BatchOf json part message item.batch ∧ ∀ exchange ∈ part, Plain exchange.op

theorem DecodedAs.cons {message : Message} {part : List Exchange} {outcome : Option Pending}
    {exchange : Exchange} (plain : Plain exchange.op)
    (decoded : DecodedAs config json message part outcome) :
    DecodedAs config json message (exchange :: part) outcome := by
  cases outcome with
  | none =>
    obtain ⟨first, rest, reason, cause, rfl, counters, known, ran⟩ := decoded
    exact ⟨exchange :: first, rest, reason, cause, rfl,
      List.forall_mem_cons.mpr ⟨plain, counters⟩, known, ran⟩
  | some item =>
    obtain ⟨same, size, made, counters⟩ := decoded
    exact ⟨same, size, made.mono (List.subset_cons_self _ _),
      List.forall_mem_cons.mpr ⟨plain, counters⟩⟩

theorem refuse_trace {message : Message} {reason : String} {cause : GoError}
    {part : List Exchange} {outcome : Option Pending} (known : reason ∈ decodeReasons)
    (ran : (refuse config message reason cause).Trace part (some outcome)) :
    DecodedAs config json message part outcome := by
  obtain ⟨_, rest, rfl, counted⟩ := Prog.Trace.call_inv ran
  obtain ⟨_, before, after, first, second, rfl⟩ := Prog.Trace.bind_inv counted
  obtain ⟨rfl, rfl⟩ := Prog.Trace.pure_inv second
  rw [List.append_nil]
  exact ⟨[_], before, reason, cause, rfl, by simp [Plain], known, first⟩

theorem decodeData_trace {message : Message} {metadata : MsgMetadata} {part : List Exchange}
    {outcome : Option Pending} (known : message.metadata = .ok metadata)
    (ran : (decodeData config json message metadata).Trace part (some outcome)) :
    DecodedAs config json message part outcome := by
  unfold decodeData at ran
  split at ran
  · exact refuse_trace (by simp [decodeReasons]) ran
  · split at ran
    · exact refuse_trace (by simp [decodeReasons]) ran
    · rename_i envelope decoded
      obtain ⟨receivedAt, rest, rfl, read⟩ := Prog.Trace.call_inv ran
      dsimp only at read
      split at read
      · exact (refuse_trace (by simp [decodeReasons]) read).cons trivial
      · rename_i batch normalised
        obtain ⟨_, rest, rfl, counted⟩ := Prog.Trace.call_inv read
        obtain ⟨rfl, rfl⟩ := Prog.Trace.pure_inv counted
        exact ⟨rfl, rfl, ⟨metadata, receivedAt, envelope, known, List.mem_cons_self, decoded,
          normalised⟩, by simp [Plain]⟩

/-- **A decode**: a dead letter, or an item. -/
theorem decode_trace {message : Message} {part : List Exchange} {outcome : Option Pending}
    (ran : (decode config json message).Trace part (some outcome)) :
    DecodedAs config json message part outcome := by
  obtain ⟨_, rest, rfl, second⟩ := Prog.Trace.call_inv ran
  obtain ⟨_, rest, rfl, third⟩ := Prog.Trace.call_inv second
  refine DecodedAs.cons trivial (DecodedAs.cons trivial ?_)
  split at third
  · exact refuse_trace (by simp [decodeReasons]) third
  · rename_i metadata known
    split at third
    · obtain ⟨_, rest, rfl, fourth⟩ := Prog.Trace.call_inv third
      exact (decodeData_trace known fourth).cons trivial
    · exact decodeData_trace known third

/-! ### Cutting a fetch into pieces -/

/-- A step of the loop over the messages of a fetch. -/
inductive Piece
  | decoded (message : Message) (outcome : Option Pending)
  | flushed (group : List Pending)

namespace Piece

def message? : Piece → Option Message
  | .decoded message _ => some message
  | .flushed _ => none

def item? : Piece → Option Pending
  | .decoded _ outcome => outcome
  | .flushed _ => none

def group? : Piece → Option (List Pending)
  | .decoded _ _ => none
  | .flushed group => some group

/-- The exchanges are a finished run of the piece. -/
def Ran (config : Config) (json : Wire.Codec Wire.Envelope) (part : List Exchange) : Piece → Prop
  | .decoded message outcome => (decode config json message).Trace part (some outcome)
  | .flushed group => (flush config group).Trace part (some ())

end Piece

/-- The groups the loop makes of decoded items, from the group collected so far. -/
def groupsFrom (config : Config) : List Pending → Nat → Nat → List Pending → List (List Pending)
  | group, _, _, [] => if group.length ≠ 0 then [group] else []
  | group, events, bytes, item :: items =>
    if full config group events bytes item then
      group :: groupsFrom config [item] item.batch.events.length item.bytes items
    else
      groupsFrom config (group ++ [item]) (events + item.batch.events.length)
        (bytes + item.bytes) items

/-- **Every item is in exactly one group, in arrival order.** -/
theorem groupsFrom_flatten (items : List Pending) :
    ∀ group events bytes, (groupsFrom config group events bytes items).flatten = group ++ items := by
  induction items with
  | nil =>
    intro group events bytes
    unfold groupsFrom
    split
    · simp
    · rename_i empty
      rw [List.length_eq_zero_iff.mp (not_not.mp empty)]
      rfl
  | cons item items ih =>
    intro group events bytes
    unfold groupsFrom
    split
    · rw [List.flatten_cons, ih]
      rfl
    · rw [ih, List.append_assoc]
      rfl

/-- The items decoded in pieces. -/
def itemsOf (pieces : List (Piece × List Exchange)) : List Pending :=
  pieces.filterMap fun entry => entry.1.item?

/-- The exchanges of the loop over the messages, from a group on, cut into pieces: the messages were
decoded in arrival order, and the groups flushed are those of the items. -/
structure Cut (config : Config) (json : Wire.Codec Wire.Envelope) (messages : List Message)
    (group : List Pending) (events bytes : Nat) (segment : List Exchange) where
  pieces : List (Piece × List Exchange)
  whole : segment = pieces.flatMap Prod.snd
  ran : ∀ entry ∈ pieces, entry.1.Ran config json entry.2
  arrival : pieces.filterMap (fun entry => entry.1.message?) = messages
  grouped : pieces.filterMap (fun entry => entry.1.group?) =
    groupsFrom config group events bytes (itemsOf pieces)

/-- **Every finished fetch is cut into pieces.** The induction is over the messages, with the group
collected so far. -/
theorem handle_cut (messages : List Message) :
    ∀ {group : List Pending} {events bytes : Nat} {segment : List Exchange},
      (handle config json messages group events bytes).Trace segment (some ()) →
      Nonempty (Cut config json messages group events bytes segment) := by
  induction messages with
  | nil =>
    intro group events bytes segment ran
    unfold handle at ran
    split at ran
    · rename_i some
      exact ⟨[(.flushed group, segment)], by simp, by simpa [Piece.Ran] using ran, rfl,
        (if_pos some).symm⟩
    · rename_i none
      obtain ⟨rfl, -⟩ := Prog.Trace.pure_inv ran
      exact ⟨[], rfl, by simp, rfl, (if_neg none).symm⟩
  | cons message messages ih =>
    intro group events bytes segment ran
    obtain ⟨outcome, before, after, first, second, rfl⟩ := Prog.Trace.bind_inv ran
    cases outcome with
    | none =>
      obtain ⟨cut⟩ := ih second
      refine ⟨(.decoded message none, before) :: cut.pieces, ?_, ?_, ?_, cut.grouped⟩
      · rw [List.flatMap_cons, ← cut.whole]
      · exact List.forall_mem_cons.mpr ⟨first, cut.ran⟩
      · exact congrArg (message :: ·) cut.arrival
    | some item =>
      dsimp only at second
      split at second
      · rename_i exceeds
        obtain ⟨_, flushed, rest, third, fourth, rfl⟩ := Prog.Trace.bind_inv second
        obtain ⟨cut⟩ := ih fourth
        refine ⟨(.decoded message (some item), before) :: (.flushed group, flushed) ::
          cut.pieces, ?_, ?_, ?_, ?_⟩
        · rw [List.flatMap_cons, List.flatMap_cons, ← cut.whole]
        · exact List.forall_mem_cons.mpr ⟨first, List.forall_mem_cons.mpr ⟨third, cut.ran⟩⟩
        · exact congrArg (message :: ·) cut.arrival
        · exact (congrArg (group :: ·) cut.grouped).trans (if_pos exceeds).symm
      · rename_i fits
        obtain ⟨cut⟩ := ih second
        refine ⟨(.decoded message (some item), before) :: cut.pieces, ?_, ?_, ?_, ?_⟩
        · rw [List.flatMap_cons, ← cut.whole]
        · exact List.forall_mem_cons.mpr ⟨first, cut.ran⟩
        · exact congrArg (message :: ·) cut.arrival
        · exact cut.grouped.trans (if_neg fits).symm

/-- The cut of a whole fetch. -/
abbrev FetchCut (config : Config) (json : Wire.Codec Wire.Envelope) (messages : List Message)
    (segment : List Exchange) :=
  Cut config json messages [] 0 0 segment

/-! ### Cutting a run into fetches -/

/-- A call of the loop itself. -/
def Call.OfLoop : Call → Prop
  | .cancelled | .fetch _ | .resultError => True
  | _ => False

/-- An exchange of the loop itself that brought no messages. -/
def OfLoop (exchange : Exchange) : Prop :=
  exchange.op = .cancelled ∨ exchange.op = .resultError ∨
    ∃ count error, exchange = ⟨.fetch count, .error error⟩

theorem OfLoop.op {exchange : Exchange} (loop : OfLoop exchange) : exchange.op.OfLoop := by
  rcases loop with same | same | ⟨count, error, rfl⟩
  · rw [same]
    trivial
  · rw [same]
    trivial
  · trivial

/-- A run is a sequence of fetches, each with the exchanges that dealt with its messages, and calls
of the loop between them. -/
inductive Fetches (config : Config) (json : Wire.Codec Wire.Envelope) :
    List Exchange → List (List Message × List Exchange) → Prop
  | done {trace : List Exchange} (loop : ∀ exchange ∈ trace, OfLoop exchange) :
      Fetches config json trace []
  | fetch {opening rest segment : List Exchange} {messages : List Message}
      {fetches : List (List Message × List Exchange)}
      (loop : ∀ exchange ∈ opening, OfLoop exchange)
      (ran : (handle config json messages [] 0 0).Trace segment (some ()))
      (later : Fetches config json rest fetches) :
      Fetches config json
        (opening ++ ⟨.fetch config.maxMessages, .ok messages⟩ :: (segment ++ rest))
        ((messages, segment) :: fetches)

theorem Fetches.cons {trace : List Exchange} {fetches : List (List Message × List Exchange)}
    {exchange : Exchange} (loop : OfLoop exchange) (run : Fetches config json trace fetches) :
    Fetches config json (exchange :: trace) fetches := by
  cases run with
  | done all => exact .done (List.forall_mem_cons.mpr ⟨loop, all⟩)
  | fetch opening ran later =>
    rw [← List.cons_append]
    exact .fetch (List.forall_mem_cons.mpr ⟨loop, opening⟩) ran later

/-- **Every finished run is cut into fetches.** -/
theorem run_fetches (rounds : Nat) :
    ∀ {trace : List Exchange} {result : Option (Option GoError)},
      (run config json rounds).Trace trace (some result) →
      ∃ fetches, Fetches config json trace fetches := by
  induction rounds with
  | zero =>
    intro trace result ran
    obtain ⟨rfl, -⟩ := Prog.Trace.pure_inv ran
    exact ⟨[], .done (by simp)⟩
  | succ rounds ih =>
    intro trace result ran
    obtain ⟨stop, rest, rfl, second⟩ := Prog.Trace.call_inv ran
    have alone (reply : Bool) : ∃ fetches, Fetches config json [⟨.cancelled, reply⟩] fetches :=
      ⟨[], .done (by simp [OfLoop])⟩
    cases stop with
    | true =>
      obtain ⟨rfl, -⟩ := Prog.Trace.pure_inv second
      exact alone true
    | false =>
      obtain ⟨fetched, rest, rfl, third⟩ := Prog.Trace.call_inv second
      cases fetched with
      | error error =>
        obtain ⟨stop, rest, rfl, fourth⟩ := Prog.Trace.call_inv third
        cases stop <;>
        · obtain ⟨rfl, -⟩ := Prog.Trace.pure_inv fourth
          refine ⟨[], .done ?_⟩
          simp only [List.forall_mem_cons]
          exact ⟨.inl rfl, .inr (.inr ⟨_, _, rfl⟩), .inl rfl, by simp⟩
      | ok messages =>
        obtain ⟨_, segment, rest, handled, fourth, rfl⟩ := Prog.Trace.bind_inv third
        obtain ⟨error, rest, rfl, fifth⟩ := Prog.Trace.call_inv fourth
        have more : ∃ fetches, Fetches config json rest fetches := by
          cases error with
          | none => exact ih fifth
          | some error =>
            dsimp only at fifth
            split at fifth
            · exact ih fifth
            · obtain ⟨stop, rest, rfl, sixth⟩ := Prog.Trace.call_inv fifth
              cases stop with
              | true =>
                obtain ⟨fetches, later⟩ := ih sixth
                exact ⟨fetches, later.cons (.inl rfl)⟩
              | false =>
                obtain ⟨rfl, -⟩ := Prog.Trace.pure_inv sixth
                exact alone false
        obtain ⟨fetches, later⟩ := more
        have asked : Fetches config json (⟨.resultError, error⟩ :: rest) fetches :=
          later.cons (.inr (.inl rfl))
        have open_ : ∀ exchange ∈ ([⟨.cancelled, false⟩] : List Exchange),
            OfLoop exchange := by simp [OfLoop]
        exact ⟨(messages, segment) :: fetches, .fetch open_ handled asked⟩

theorem Fetches.segment_subset {trace : List Exchange}
    {fetches : List (List Message × List Exchange)} (run : Fetches config json trace fetches)
    {messages : List Message} {segment : List Exchange} (member : (messages, segment) ∈ fetches) :
    (handle config json messages [] 0 0).Trace segment (some ()) ∧ segment ⊆ trace := by
  induction run with
  | done _ => cases member
  | fetch _ ran _ ih =>
    rcases List.mem_cons.mp member with this | other
    · cases this
      refine ⟨ran, fun exchange here => ?_⟩
      exact List.mem_append_right _ (List.mem_cons_of_mem _ (List.mem_append_left _ here))
    · obtain ⟨handled, subset⟩ := ih other
      refine ⟨handled, fun exchange here => ?_⟩
      exact List.mem_append_right _
        (List.mem_cons_of_mem _ (List.mem_append_right _ (subset here)))

theorem Fetches.mem_segment {trace : List Exchange}
    {fetches : List (List Message × List Exchange)} (run : Fetches config json trace fetches)
    {exchange : Exchange} (here : exchange ∈ trace) (not : ¬ exchange.op.OfLoop) :
    ∃ fetch ∈ fetches, exchange ∈ fetch.2 := by
  induction run with
  | done loop => exact absurd (loop exchange here).op not
  | fetch loop _ _ ih =>
    rcases List.mem_append.mp here with opening | later
    · exact absurd (loop exchange opening).op not
    · rcases List.mem_cons.mp later with rfl | after
      · exact absurd trivial not
      · rcases List.mem_append.mp after with inside | rest
        · exact ⟨_, List.mem_cons_self, inside⟩
        · obtain ⟨fetch, member, found⟩ := ih rest
          exact ⟨fetch, List.mem_cons_of_mem _ member, found⟩

end Trail.Ingestor
