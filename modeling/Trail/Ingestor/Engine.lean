/-
**The ingestor.**

`run` fetches messages from JetStream, decodes each, collects the decoded ones into groups bounded
by events and bytes, writes every group to the store in one call and acknowledges its messages after
the write. A message that cannot be decoded, or whose group cannot be written on its last delivery,
is published to the dead-letter subject.

The engine is a program over the calls it makes of JetStream, the store, the publisher, the context
and the clock; every addition to a counter is a call too, so that a trace shows what another
goroutine can read at any point. Timeouts and cancellation of the context show as errors of the
calls that take the context. The loop of `Run` has no end of its own: `run` makes the given number
of rounds, and what is said of all numbers is said of every beginning of the loop.
-/

import Trail.Library.Interaction
import Trail.Storage.Normalize

namespace Trail.Ingestor

open Library Storage

/-! ### Configuration -/

/-- `Config`; durations in nanoseconds. -/
structure Config where
  maxMessages : Int := 0
  maxEvents : Int := 0
  maxBytes : Int := 0
  fetchWait : Int := 0
  writeTimeout : Int := 0
  ackTimeout : Int := 0
  maxDeliveries : UInt64 := 0
  nakDelay : Int := 0
  dlqSubject : GoString := []
  deriving DecidableEq, Repr

/-- `New`: the configuration of the engine, with defaults; `wired` says that consumer, store and
publisher are there. -/
def new (cfg : Config) (wired : Bool) : Except GoError Config :=
  if ¬ wired then
    .error (errorsNew "trail/ingestor: consumer, store, and DLQ publisher are required")
  else
    .ok {
      maxMessages := if cfg.maxMessages ≤ 0 then 64 else cfg.maxMessages
      maxEvents := if cfg.maxEvents ≤ 0 then 4096 else cfg.maxEvents
      maxBytes := if cfg.maxBytes ≤ 0 then 8388608 else cfg.maxBytes
      fetchWait := if cfg.fetchWait ≤ 0 then 1000000000 else cfg.fetchWait
      writeTimeout := if cfg.writeTimeout ≤ 0 then 10000000000 else cfg.writeTimeout
      ackTimeout := if cfg.ackTimeout ≤ 0 then 2000000000 else cfg.ackTimeout
      maxDeliveries := if cfg.maxDeliveries = 0 then 5 else cfg.maxDeliveries
      nakDelay := if cfg.nakDelay ≤ 0 then 1000000000 else cfg.nakDelay
      dlqSubject := if cfg.dlqSubject = [] then ascii "trail.events.dlq.v1" else cfg.dlqSubject }

/-- The defaults. -/
def standard : Config where
  maxMessages := 64
  maxEvents := 4096
  maxBytes := 8388608
  fetchWait := 1000000000
  writeTimeout := 10000000000
  ackTimeout := 2000000000
  maxDeliveries := 5
  nakDelay := 1000000000
  dlqSubject := ascii "trail.events.dlq.v1"

/-- `New` fills an empty configuration with the defaults and leaves a filled one as it is. -/
theorem new_standard : new {} true = .ok standard ∧ new standard true = .ok standard := by
  constructor <;> rfl

/-! ### Messages and calls -/

/-- `jetstream.MsgMetadata`, as far as the engine reads it. -/
structure MsgMetadata where
  stream : GoString := []
  consumer : GoString := []
  streamSequence : UInt64 := 0
  consumerSequence : UInt64 := 0
  numDelivered : UInt64 := 0
  deriving DecidableEq, Repr

/-- A delivered `jetstream.Msg`. `Metadata()` parses the subject the delivery is acknowledged on, so
its result is part of the message. -/
structure Message where
  subject : GoString
  data : List UInt8
  metadata : Except GoError MsgMetadata

/-- `nats.Header`, in the order the keys are set. -/
abbrev Header := List (GoString × GoString)

/-- The counters of the engine. -/
inductive Counter
  | messagesFetched
  | messagesDecoded
  | messagesAcked
  | messagesDLQ
  | redeliveries
  | eventsWritten
  | bytesFetched
  | decodeErrors
  | writeErrors
  | ackErrors
  deriving DecidableEq, Repr

/-- The calls of the engine. -/
inductive Call
  | cancelled
  | fetch (maxMessages : Int)
  | resultError
  | now
  | writeBatches (batches : List Storage.Batch)
  | doubleAck (message : Message)
  | ack (message : Message)
  | nak (message : Message) (delay : Int)
  | publishDLQ (subject : GoString) (data : List UInt8) (header : Header)
  | count (counter : Counter) (amount : Nat)

/-- What each call returns. A fetch returns the messages its channel will yield. -/
def Call.Reply : Call → Type
  | .cancelled => Bool
  | .fetch _ => Except GoError (List Message)
  | .resultError => Option GoError
  | .now => Time
  | .writeBatches _ => Option GoError
  | .doubleAck _ => Option GoError
  | .ack _ => Option GoError
  | .nak _ _ => Option GoError
  | .publishDLQ _ _ _ => Option GoError
  | .count _ _ => Unit

abbrev signature : Signature := ⟨Call, Call.Reply⟩

abbrev Exchange := signature.Exchange

/-- `pending`. -/
structure Pending where
  message : Message
  batch : Storage.Batch
  bytes : Nat

/-! ### Dead letters -/

/-- `boundedError`. -/
def boundedError : Option GoError → GoString
  | none => []
  | some error => error.text.take 512

/-- The header of a dead letter. -/
def dlqHeader (message : Message) (reason : String) (cause : GoError) : Header :=
  [(ascii "Trail-DLQ-Reason", ascii reason),
    (ascii "Trail-DLQ-Error", boundedError (some cause)),
    (ascii "Trail-Original-Subject", message.subject)]

/-- `deadLetter`. -/
def deadLetter (config : Config) (message : Message) (reason : String) (cause : GoError) :
    Prog signature Unit :=
  .call (.publishDLQ config.dlqSubject message.data (dlqHeader message reason cause)) fun
    | some _ => .call (.nak message config.nakDelay) fun _ => .pure ()
    | none => .call (.ack message) fun
      | some _ => .call (.count .ackErrors 1) fun _ => .pure ()
      | none =>
        .call (.count .messagesDLQ 1) fun _ =>
          .call (.count .messagesAcked 1) fun _ => .pure ()

/-! ### Decoding -/

/-- The `storage.Delivery` of a message. -/
def deliveryOf (metadata : MsgMetadata) (receivedAt : Time) : Delivery where
  stream := metadata.stream
  consumer := metadata.consumer
  streamSequence := metadata.streamSequence
  consumerSequence := metadata.consumerSequence
  delivered := metadata.numDelivered
  receivedAt := receivedAt

/-- The way out of `decode` on an error. -/
def refuse (config : Config) (message : Message) (reason : String) (cause : GoError) :
    Prog signature (Option Pending) :=
  .call (.count .decodeErrors 1) fun _ =>
    (deadLetter config message reason cause).bind fun _ => .pure none

/-- The part of `decode` after the metadata. -/
def decodeData (config : Config) (json : Wire.Codec Wire.Envelope) (message : Message)
    (metadata : MsgMetadata) : Prog signature (Option Pending) :=
  if config.maxBytes < message.data.length then
    refuse config message "oversized"
      { text := ascii "message is " ++ Wire.decimal message.data.length ++ ascii " bytes" }
  else
    match Wire.unmarshal json message.data with
    | .error error => refuse config message "decode" error
    | .ok envelope =>
      .call .now fun receivedAt =>
        match normalize envelope (deliveryOf metadata receivedAt) with
        | .error error => refuse config message "normalize" error
        | .ok batch =>
          .call (.count .messagesDecoded 1) fun _ =>
            .pure (some ⟨message, batch, message.data.length⟩)

/-- `decode`. -/
def decode (config : Config) (json : Wire.Codec Wire.Envelope) (message : Message) :
    Prog signature (Option Pending) :=
  .call (.count .messagesFetched 1) fun _ =>
    .call (.count .bytesFetched message.data.length) fun _ =>
      match message.metadata with
      | .error error => refuse config message "metadata" error
      | .ok metadata =>
        if 1 < metadata.numDelivered then
          .call (.count .redeliveries 1) fun _ => decodeData config json message metadata
        else decodeData config json message metadata

/-! ### Writing a group -/

/-- The loop of `write` that acknowledges the messages of a written group. -/
def ackAll : List Pending → Prog signature Unit
  | [] => .pure ()
  | item :: group =>
    .call (.doubleAck item.message) fun
      | some _ => .call (.count .ackErrors 1) fun _ => ackAll group
      | none => .call (.count .messagesAcked 1) fun _ => ackAll group

/-- `write`. -/
def write (group : List Pending) : Prog signature (Option GoError) :=
  .call (.writeBatches (group.map Pending.batch)) fun
    | some error => .call (.count .writeErrors 1) fun _ => .pure (some error)
    | none =>
      .call (.count .eventsWritten (group.map fun item => item.batch.events.length).sum) fun _ =>
        (ackAll group).bind fun _ => .pure none

/-- The body of the loop of `reject`. -/
def rejectOne (config : Config) (cause : GoError) (item : Pending) : Prog signature Unit :=
  match item.message.metadata with
  | .ok metadata =>
    if config.maxDeliveries ≤ metadata.numDelivered then
      deadLetter config item.message "max-deliveries" cause
    else .call (.nak item.message config.nakDelay) fun _ => .pure ()
  | .error _ => .call (.nak item.message config.nakDelay) fun _ => .pure ()

/-- `reject`. -/
def reject (config : Config) (cause : GoError) : List Pending → Prog signature Unit
  | [] => .pure ()
  | item :: group => (rejectOne config cause item).bind fun _ => reject config cause group

/-- A group is written, and rejected when that fails. -/
def flush (config : Config) (group : List Pending) : Prog signature Unit :=
  (write group).bind fun
    | some error => reject config error group
    | none => .pure ()

/-! ### The loop -/

/-- Whether an item goes over the bounds of the group collected so far. -/
def full (config : Config) (group : List Pending) (events bytes : Nat) (item : Pending) : Bool :=
  group.length ≠ 0 ∧
    (config.maxEvents < events + item.batch.events.length ∨ config.maxBytes < bytes + item.bytes)

/-- The loop of `Run` over the messages of one fetch, with the group collected so far. -/
def handle (config : Config) (json : Wire.Codec Wire.Envelope) :
    List Message → List Pending → Nat → Nat → Prog signature Unit
  | [], group, _, _ => if group.length ≠ 0 then flush config group else .pure ()
  | message :: messages, group, events, bytes =>
    (decode config json message).bind fun
      | none => handle config json messages group events bytes
      | some item =>
        if full config group events bytes item then
          (flush config group).bind fun _ =>
            handle config json messages [item] item.batch.events.length item.bytes
        else
          handle config json messages (group ++ [item]) (events + item.batch.events.length)
            (bytes + item.bytes)

/-- `Run`, cut off after the given number of rounds (`none`); its result is an error or `nil`. -/
def run (config : Config) (json : Wire.Codec Wire.Envelope) :
    Nat → Prog signature (Option (Option GoError))
  | 0 => .pure none
  | rounds + 1 =>
    .call .cancelled fun
      | true => .pure (some none)
      | false =>
        .call (.fetch config.maxMessages) fun
          | .error error =>
            .call .cancelled fun
              | true => .pure (some none)
              | false => .pure (some (some error))
          | .ok messages =>
            (handle config json messages [] 0 0).bind fun _ =>
              .call .resultError fun
                | none => run config json rounds
                | some error =>
                  if error.is .natsTimeout then run config json rounds
                  else
                    .call .cancelled fun
                      | true => run config json rounds
                      | false => .pure (some (some error))

end Trail.Ingestor
