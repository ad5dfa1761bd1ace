/-
**The NATS sink.**

`WriteBatch` encodes a batch and publishes it as one message; in JetStream mode the identifier of the
first event is the message ID, by which the stream drops a message it has seen. The sink is a program
over the calls it makes of the connection and of its own counters.
-/

import Trail.Library.Interaction
import Trail.Wire.Envelope

namespace Trail.Nats

open Library

/-! ### Configuration -/

/-- `Mode`, any `uint8`. -/
inductive Mode
  | core
  | jetStream
  | other (code : UInt8)
  deriving DecidableEq, Repr

/-- `Config`; durations in nanoseconds. -/
structure Config where
  subject : GoString := []
  mode : Mode := .core
  publishTimeout : Int := 0
  maxMessageBytes : Int := 0
  deriving DecidableEq, Repr

/-- An error that wraps `ErrInvalidConfig`. -/
def invalidConfig (detail : String) : GoError :=
  { text := ascii "trail/nats: invalid config: " ++ ascii detail }

/-- `strings.Split` at a byte. -/
def splitAt (separator : UInt8) : GoString → List GoString
  | [] => [[]]
  | byte :: text =>
    if byte = separator then [] :: splitAt separator text
    else
      match splitAt separator text with
      | first :: rest => (byte :: first) :: rest
      | [] => [[byte]]

/-- `validPublishSubject`. -/
def validPublishSubject (subject : GoString) : Bool :=
  subject ≠ [] && subject.all (fun byte => byte ∉ ascii " \t\r\n*>") &&
    (splitAt 46 subject).all fun token => token ≠ []

/-- `normalize`. -/
def normalize (cfg : Config) : Except GoError Config :=
  if cfg.mode ≠ .core ∧ cfg.mode ≠ .jetStream then .error (invalidConfig "unknown mode")
  else if cfg.publishTimeout < 0 ∨ cfg.maxMessageBytes < 0 then
    .error (invalidConfig "negative limit")
  else
    let normalized : Config := {
      subject := if cfg.subject = [] then ascii "trail.events.v1" else cfg.subject
      mode := cfg.mode
      publishTimeout := if cfg.publishTimeout = 0 then 2000000000 else cfg.publishTimeout
      maxMessageBytes := if cfg.maxMessageBytes = 0 then 1048576 else cfg.maxMessageBytes }
    if validPublishSubject normalized.subject then .ok normalized
    else .error (invalidConfig "invalid subject")

/-- The defaults are accepted, and nothing is left to fill in. -/
example : (normalize {}).bind normalize = normalize {} ∧ (normalize {}).isOk := by decide

/-! ### Publishing -/

/-- `Statistics`. -/
inductive Counter
  | messages
  | events
  | bytes
  | errors
  deriving DecidableEq, Repr

/-- `nats.Msg`; the header in the order its keys are set. -/
structure Msg where
  subject : GoString
  data : List UInt8
  header : List (GoString × GoString)
  deriving DecidableEq, Repr

/-- The calls of the sink. -/
inductive Call
  /-- `s.closed`, under the read lock. -/
  | closed
  /-- `s.conn.IsClosed()`. -/
  | isClosed
  /-- `s.js.PublishMsg` with `WithMsgID`. -/
  | publishMsgID (msg : Msg) (msgID : GoString)
  /-- `s.conn.PublishMsg`. -/
  | publishMsg (msg : Msg)
  | flush
  | count (counter : Counter) (amount : Nat)

def Call.Reply : Call → Type
  | .closed | .isClosed => Bool
  | .publishMsgID _ _ | .publishMsg _ | .flush => Option GoError
  | .count _ _ => Unit

abbrev signature : Signature := ⟨Call, Call.Reply⟩

/-- The error of a publication, counted, or its success. -/
def counted (eventCount : Nat) : Option GoError → Prog signature (Option GoError)
  | some error => .call (.count .errors 1) fun _ => .pure (some error)
  | none =>
    .call (.count .messages 1) fun _ => .call (.count .events eventCount) fun _ => .pure none

/-- The message of a batch. -/
def message (cfg : Config) (data : List UInt8) : Msg where
  subject := cfg.subject
  data := data
  header := [(ascii "Content-Type", ascii "application/vnd.vestavision.trail.batch+json"),
    (ascii "Trail-Schema-Version", ascii "1")]

/-- `publish` once the size is checked. -/
def send (cfg : Config) (data : List UInt8) (batchID : GoString) (eventCount : Nat) :
    Prog signature (Option GoError) :=
  if cfg.mode = .jetStream then
    .call (.publishMsgID (message cfg data) batchID) (counted eventCount)
  else
    .call (.publishMsg (message cfg data)) fun
      | some error => counted eventCount (some error)
      | none => .call .flush (counted eventCount)

/-- `publish`. -/
def publish (cfg : Config) (data : List UInt8) (batchID : GoString) (eventCount : Nat) :
    Prog signature (Option GoError) :=
  .call .closed fun
    | true => .pure (some (errorsNew "trail/nats: sink closed"))
    | false =>
      .call .isClosed fun
        | true =>
          .call (.count .errors 1) fun _ =>
            .pure (some (errorsNew "trail/nats: connection closed"))
        | false =>
          .call (.count .bytes data.length) fun _ =>
            if cfg.maxMessageBytes < data.length then
              .call (.count .errors 1) fun _ =>
                .pure (some { text := ascii "trail/nats: message too large: " ++
                  Wire.decimal data.length ++ ascii " > " ++ Wire.decimal cfg.maxMessageBytes })
            else send cfg data batchID eventCount

/-- `WriteBatch`. -/
def writeBatch (cfg : Config) (json : Wire.Codec Wire.Envelope) (batch : Batch) :
    Prog signature (Option GoError) :=
  match Wire.marshalBatch json batch, batch.events with
  | .error error, _ => .call (.count .errors 1) fun _ => .pure (some error)
  | .ok data, first :: rest => publish cfg data (encodeID first.id) (first :: rest).length
  | .ok _, [] => .pure none

end Trail.Nats
