/-
**The retention engine: configuration, requests and environment.**

`New` fills in defaults, checks every work bound and every policy, and only then builds an `Engine`,
which carries these checks as fields. The store, the archiver, the payload stores, the clock, the
context and the scheduler of the collection workers are the environment of a run: `Call` has one
case for each call the engine makes and `Call.Reply` what it can return.
-/

import Mathlib.Data.List.AList
import Trail.Archive.Bundle
import Trail.Library.Interaction

namespace Trail.Retention

open Library Payload Storage Archive

/-! ### Configuration -/

/-- `EventMatch`; an empty property matches everything. -/
structure EventMatch where
  kind : GoString := []
  service : GoString := []
  environment : GoString := []
  level : Option Level := none
  flowStatus : GoString := []
  executionStatus : GoString := []
  httpStatusClass : Int := 0
  httpSuccess : Option Bool := none
  deriving DecidableEq, Repr

/-- `EventPolicy`. -/
structure EventPolicy where
  name : GoString
  where_ : EventMatch
  ttl : Int
  deriving DecidableEq, Repr

/-- `PayloadMatch`. -/
structure PayloadMatch extends EventMatch where
  role : GoString := []
  contentType : GoString := []
  retentionClass : GoString := []
  deriving DecidableEq, Repr

/-- `PayloadPolicy`. -/
structure PayloadPolicy where
  name : GoString
  where_ : PayloadMatch
  ttl : Int
  deriving DecidableEq, Repr

/-- `Config`; `archiver` says whether one is set, and a `nil` clock is the wall clock. -/
structure Config where
  eventPolicies : List EventPolicy := []
  eventClasses : List (GoString × Int) := []
  defaultEventTTL : Int := 0
  payloadPolicies : List PayloadPolicy := []
  payloadClasses : List (GoString × Int) := []
  defaultPayloadTTL : Int := 0
  eventBatchSize : Int := 0
  payloadBatchSize : Int := 0
  payloadConcurrency : Int := 0
  maxEvents : Int := 0
  maxPayloads : Int := 0
  maxRuntime : Int := 0
  payloadGracePeriod : Int := 0
  archiver : Bool
  deriving DecidableEq, Repr

/-- A bound with its default when it is not positive. -/
def orElse (value default : Int) : Int := if value ≤ 0 then default else value

theorem orElse_pos {value default : Int} (positive : 0 < default) : 0 < orElse value default := by
  unfold orElse
  split <;> omega

/-- An hour in nanoseconds. -/
def hour : Int := 3600 * 1000000000

/-- The defaults `New` fills in. -/
def Config.withDefaults (cfg : Config) : Config := { cfg with
  eventBatchSize := orElse cfg.eventBatchSize 1000
  payloadBatchSize := orElse cfg.payloadBatchSize 100
  payloadConcurrency := orElse cfg.payloadConcurrency 1
  maxEvents := orElse cfg.maxEvents 100000
  maxPayloads := orElse cfg.maxPayloads 10000
  maxRuntime := orElse cfg.maxRuntime (10 * 60 * 1000000000)
  payloadGracePeriod := orElse cfg.payloadGracePeriod (24 * hour) }

/-- The bytes of a string that are the encoding of one white space character, from its start. -/
def spaceWidth : GoString → Nat
  | first :: rest =>
    if first = 32 ∨ (9 ≤ first ∧ first ≤ 13) then 1
    else
      match rest with
      | second :: rest =>
        if first = 194 ∧ (second = 133 ∨ second = 160) then 2
        else
          match rest with
          | third :: _ =>
            if (first = 225 ∧ second = 154 ∧ third = 128) ∨
                (first = 226 ∧ second = 128 ∧
                  ((128 ≤ third ∧ third ≤ 138) ∨ third = 168 ∨ third = 169 ∨ third = 175)) ∨
                (first = 226 ∧ second = 129 ∧ third = 159) ∨
                (first = 227 ∧ second = 128 ∧ third = 128) then 3
            else 0
          | [] => 0
      | [] => 0
  | [] => 0

/-- `strings.TrimSpace(text) == ""`, for a text of at most the given length. -/
def blankWithin : Nat → GoString → Bool
  | _, [] => true
  | 0, _ => false
  | fuel + 1, text =>
    match spaceWidth text with
    | 0 => false
    | width => blankWithin fuel (text.drop width)

def blank (text : GoString) : Bool := blankWithin text.length text

section Validate

variable (quote : GoString → GoString)

/-- The checks of one policy. -/
def validatePolicy (family : String) (name : GoString) (ttl httpStatusClass : Int) :
    Option GoError :=
  let subject := ascii "trail/retention: " ++ ascii family ++ ascii " policy " ++ quote name
  if ttl ≤ 0 then some { text := subject ++ ascii " needs positive TTL" }
  else if httpStatusClass < 0 ∨ httpStatusClass > 5 then
    some { text := subject ++ ascii " has invalid HTTP status class" }
  else none

/-- The checks of the classes of one map. -/
def validateClasses (family : String) (classes : List (GoString × Int)) : Option GoError :=
  if classes.any fun (name, ttl) => blank name || ttl ≤ 0 then
    some (errorsNew ("trail/retention: invalid " ++ family ++ " class"))
  else none

/-- `validate`. -/
def validate (c : Config) : Option GoError :=
  (c.eventPolicies.findSome? fun p => validatePolicy quote "event" p.name p.ttl p.where_.httpStatusClass)
  <|> (c.payloadPolicies.findSome? fun p =>
    validatePolicy quote "payload" p.name p.ttl p.where_.httpStatusClass)
  <|> validateClasses "event" c.eventClasses
  <|> validateClasses "payload" c.payloadClasses
  <|> if c.defaultEventTTL < 0 ∨ c.defaultPayloadTTL < 0 then
      some (errorsNew "trail/retention: default TTL cannot be negative")
    else none

end Validate

/-- What `New` has checked of the bounds. -/
structure Config.Bounded (cfg : Config) : Prop where
  eventBatchSize : 0 < cfg.eventBatchSize ∧ cfg.eventBatchSize ≤ 100000
  payloadBatchSize : 0 < cfg.payloadBatchSize ∧ cfg.payloadBatchSize ≤ 10000
  payloadConcurrency : 0 < cfg.payloadConcurrency ∧ cfg.payloadConcurrency ≤ 32
  maxEvents : 0 < cfg.maxEvents ∧ cfg.maxEvents ≤ 10000000
  maxPayloads : 0 < cfg.maxPayloads ∧ cfg.maxPayloads ≤ 1000000
  maxRuntime : 0 < cfg.maxRuntime ∧ cfg.maxRuntime ≤ 24 * hour
  payloadGracePeriod : 0 < cfg.payloadGracePeriod

/-- `Engine`: a checked configuration, and the names of the payload stores. `quote` is the `%q` of
`fmt`. -/
structure Engine where
  cfg : Config
  payloads : List GoString
  quote : GoString → GoString
  bounded : cfg.Bounded
  validated : validate quote cfg = none

/-- A work bound beyond what `New` accepts. -/
def Config.Exceeds (cfg : Config) : Prop :=
  cfg.eventBatchSize > 100000 ∨ cfg.payloadBatchSize > 10000 ∨ cfg.maxEvents > 10000000 ∨
    cfg.maxPayloads > 1000000 ∨ cfg.maxRuntime > 24 * hour

instance (cfg : Config) : Decidable cfg.Exceeds := by
  unfold Config.Exceeds
  infer_instance

theorem Config.bounded_withDefaults (cfg : Config)
    (concurrency : ¬ cfg.withDefaults.payloadConcurrency > 32) (within : ¬ cfg.withDefaults.Exceeds) :
    cfg.withDefaults.Bounded := by
  unfold Config.Exceeds at within
  push Not at within
  obtain ⟨eventBatch, payloadBatch, events, payloads, runtime⟩ := within
  exact ⟨⟨orElse_pos (by decide), eventBatch⟩, ⟨orElse_pos (by decide), payloadBatch⟩,
    ⟨orElse_pos (by decide), by omega⟩, ⟨orElse_pos (by decide), events⟩,
    ⟨orElse_pos (by decide), payloads⟩, ⟨orElse_pos (by decide), runtime⟩, orElse_pos (by decide)⟩

/-- `New`; `store` says whether one is given. -/
def new (quote : GoString → GoString) (cfg : Config) (store : Bool) (payloads : List GoString) :
    Except GoError Engine :=
  if store = false then .error (errorsNew "trail/retention: store is required")
  else if cfg.archiver = false then .error (errorsNew "trail/retention: archiver is required")
  else if concurrency : cfg.withDefaults.payloadConcurrency > 32 then
    .error (errorsNew "trail/retention: payload concurrency exceeds 32")
  else if within : cfg.withDefaults.Exceeds then
    .error (errorsNew "trail/retention: configured work bound exceeds safety limit")
  else
    match checked : validate quote cfg.withDefaults with
    | some error => .error error
    | none => .ok ⟨cfg.withDefaults, payloads, quote, cfg.bounded_withDefaults concurrency within,
        checked⟩

/-! ### Requests and results -/

/-- `Payload`. -/
structure EventPayload where
  role : GoString
  ref : Ref
  deriving DecidableEq, Repr

/-- `Event`. -/
structure Event where
  id : GoString
  cursor : GoString := []
  flowID : GoString := []
  executionID : GoString := []
  timestamp : Time
  kind : GoString := []
  service : GoString := []
  environment : GoString := []
  level : Level := Level.info
  flowStatus : GoString := []
  executionStatus : GoString := []
  retentionClass : GoString := []
  httpStatusCode : Int := 0
  httpSuccess : Bool := false
  payloads : List EventPayload := []
  deriving DecidableEq, Repr

/-- `ScanRequest`. -/
structure ScanRequest where
  cursor : GoString
  limit : Int
  deriving DecidableEq, Repr

/-- `EventPage`. -/
structure EventPage where
  events : List Event
  nextCursor : GoString
  hasMore : Bool
  deriving DecidableEq, Repr

/-- A `map[string]time.Time`. -/
abbrev Times := AList fun _ : GoString => Time

/-- `times[key]`, the zero time for a missing key. -/
def Times.at (times : Times) (key : GoString) : Time := (times.lookup key).getD zeroTime

/-- `DeleteRequest`. -/
structure DeleteRequest where
  events : List Event
  payloadEligibleAt : Times
  archiveID : GoString
  dryRun : Bool

/-- `DeleteResult`. -/
structure DeleteResult where
  eventsDeleted : UInt64
  payloadCandidates : UInt64
  deriving DecidableEq, Repr

/-- `Candidate`. -/
structure Candidate where
  ref : Ref
  archiveID : GoString
  eligibleAt : Time := zeroTime
  candidateAt : Time := zeroTime
  attempts : UInt32 := 0
  lastError : GoString := []
  deriving DecidableEq, Repr

/-- `Result`. -/
structure Result where
  startedAt : Time
  finishedAt : Time := zeroTime
  duration : Int := 0
  eventsScanned : Nat := 0
  eventsMatched : Nat := 0
  eventsEligible : Nat := 0
  eventsDeleted : UInt64 := 0
  payloadCandidates : UInt64 := 0
  payloadsReferenced : Nat := 0
  payloadsOrphaned : Nat := 0
  payloadsUnknown : Nat := 0
  payloadsDeleted : Nat := 0
  payloadBytesReclaimed : UInt64 := 0
  errors : Nat := 0
  archivesCreated : Nat := 0
  eventsArchived : UInt64 := 0
  payloadsArchived : UInt64 := 0
  archiveBytesWritten : UInt64 := 0
  archiveFailures : Nat := 0
  deriving DecidableEq, Repr

/-! ### The environment -/

/-- The calls a run makes. -/
inductive Call
  /-- `e.cfg.Now()`. -/
  | now
  /-- `ctx.Err()`. -/
  | ctxErr
  | reconcileRetention
  | scanRetentionEvents (request : ScanRequest)
  | loadArchiveEvents (events : List Event)
  /-- `e.cfg.Archiver.Write`. -/
  | write (records : List EventRecord)
  | recordArchive (receipt : Receipt)
  | deleteRetentionEvents (request : DeleteRequest)
  | listPayloadCandidates (before : Time) (limit : Int)
  | referencedPayloads (refs : List Ref)
  | completePayloadCandidate (ref : Ref) (lastError : GoString)
  /-- `Delete` of the payload store the reference names. -/
  | delete (ref : Ref)
  /-- The scheduler picks one of the collection workers' next steps. -/
  | schedule (count : Nat)

/-- What each call returns; a value beside a non-nil error is kept only where the source reads it. -/
def Call.Reply : Call → Type
  | .now => Time
  | .ctxErr => Option GoError
  | .reconcileRetention => Option GoError
  | .scanRetentionEvents _ => Except GoError EventPage
  | .loadArchiveEvents _ => Except GoError (List EventRecord)
  | .write _ => Except GoError Receipt
  | .recordArchive _ => Option GoError
  | .deleteRetentionEvents _ => DeleteResult × Option GoError
  | .listPayloadCandidates _ _ => Except GoError (List Candidate)
  | .referencedPayloads _ => Except GoError (GoString → Bool)
  | .completePayloadCandidate _ _ => Option GoError
  | .delete _ => Option GoError
  | .schedule _ => Nat

/-- The environment of a run. -/
abbrev signature : Signature := ⟨Call, Call.Reply⟩

end Trail.Retention
