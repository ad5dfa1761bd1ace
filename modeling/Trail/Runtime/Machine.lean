/-
**The process-global writer as a machine.**

Everything that runs concurrently in the core package, one atomic operation at a time: any number
of `Log` calls, the goroutine `run` of every writer ever installed, and the `Init` or `Close` call
that holds `global.mu`. An atomic load, add or store, a channel operation, and a call of the sink
or its return is one step; the scheduler, the choice a `select` makes among its ready cases, the
ticker and the sink's outcomes are the choice of the action.

* `Call.point` is where a `Log` call stands. A call that has loaded a writer keeps its index, so a
  late call goes on using a writer that `Close` has replaced by `nil`.
* `Writer.point` is where the goroutine `run` stands; `publish` is spelled out down to its counter
  updates.
* `Holder` is the call that holds the mutex. `Init` and `Close` calls that wait for it do nothing,
  so they are not part of the state.

`stepCall`, `stepRun` and `stepHolder` are the three kinds of thread, each a function of the writer
it works on; `machine` puts them together.
-/

import Trail.Core.Event
import Trail.Library.Channel
import Trail.Library.Machine

namespace Trail.Runtime

open Library

/-! ### Configuration -/

/-- `FullPolicy`, any `uint8`. -/
inductive FullPolicy
  | drop
  | block
  | other (code : UInt8)
  deriving DecidableEq, Repr

/-- `Config`; the sink is a handle, `none` for `nil`. -/
structure Config where
  service : GoString
  environment : GoString := []
  version : GoString := []
  sink : Option Nat
  bufferCapacity : Int := 0
  batchSize : Int := 0
  flushInterval : Int := 0
  fullPolicy : FullPolicy := .drop
  deriving DecidableEq, Repr

/-- A configuration that `normalizeConfig` has accepted. -/
structure Settings where
  metadata : Metadata
  sink : Nat
  blocks : Bool
  capacity : Nat
  batchSize : Nat
  interval : Nat
  capacity_pos : 0 < capacity
  batchSize_pos : 0 < batchSize

def defaultBufferCapacity : Int := 4096

def defaultBatchSize : Int := 64

def defaultFlushInterval : Int := 100 * 1000000

/-- An error that wraps `ErrInvalidConfig`. -/
def invalidConfig (detail : String) : GoError :=
  { text := ascii "trail: invalid config: " ++ ascii detail, wraps := [.invalidConfig] }

/-- A size or interval with its default for zero. -/
def orDefault (value default : Int) : Int := if value = 0 then default else value

theorem orDefault_pos {value default : Int} (nonneg : ¬ value < 0) (positive : 0 < default) :
    0 < (orDefault value default).toNat := by
  unfold orDefault
  split <;> omega

def normalizeConfig (cfg : Config) : Except GoError Settings :=
  if cfg.service = [] then .error (invalidConfig "Service is required")
  else
    match cfg.sink with
    | none => .error (invalidConfig "Sink is required")
    | some sink =>
      if negative : cfg.bufferCapacity < 0 ∨ cfg.batchSize < 0 ∨ cfg.flushInterval < 0 then
        .error (invalidConfig "writer sizes and interval cannot be negative")
      else if ¬ (cfg.fullPolicy = .drop ∨ cfg.fullPolicy = .block) then
        .error (invalidConfig "unknown full-buffer policy")
      else
        .ok {
          metadata := ⟨cfg.service, cfg.environment, cfg.version⟩
          sink := sink
          blocks := cfg.fullPolicy = .block
          capacity := (orDefault cfg.bufferCapacity defaultBufferCapacity).toNat
          batchSize := (orDefault cfg.batchSize defaultBatchSize).toNat
          interval := (orDefault cfg.flushInterval defaultFlushInterval).toNat
          capacity_pos := orDefault_pos (fun less => negative (.inl less)) (by decide)
          batchSize_pos := orDefault_pos (fun less => negative (.inr (.inl less))) (by decide) }

def errAlreadyInitialized : GoError :=
  { text := ascii "trail: already initialized", wraps := [.alreadyInitialized] }

/-! ### State -/

/-- `counters`. -/
structure Counters where
  written : UInt64 := 0
  dropped : UInt64 := 0
  buffered : UInt64 := 0
  publishErrors : UInt64 := 0
  deriving DecidableEq, Repr

/-- Where a `Log` call with a loaded writer stands: the operation it does next. -/
inductive Stage
  /-- `w.accepting.Load()` in `Log`. -/
  | checkAccepting
  /-- `w.inflight.Add(1)`. -/
  | enter
  /-- `w.accepting.Load()` in `enqueue`. -/
  | recheck
  /-- `counters.dropped.Add(1)` of a call refused by `enqueue`. -/
  | dropRefused
  /-- `counters.buffered.Add(1)`. -/
  | reserve
  /-- The `select` on `w.queue`. -/
  | offer
  /-- `counters.buffered.Add(^uint64(0))`. -/
  | unreserve
  /-- `counters.dropped.Add(1)` of a call whose send did not succeed. -/
  | dropUnsent
  /-- `w.inflight.Add(-1)` of the deferred function. -/
  | leave
  /-- The `select` on `w.wake` of the deferred function. -/
  | wake
  deriving DecidableEq, Repr

/-- Where a `Log` call stands. -/
inductive LogPoint
  /-- `global.current.Load()`. -/
  | load
  /-- `counters.dropped.Add(1)` in `Log`. -/
  | dropInactive
  | within (writer : Nat) (stage : Stage)
  | returned
  deriving DecidableEq, Repr

/-- One call of `Log`. -/
structure Call where
  event : Event
  point : LogPoint
  deriving DecidableEq, Repr

/-- Where `publish` returns to. -/
inductive Resume
  | loop
  | drain
  | finish
  deriving DecidableEq, Repr

/-- Where `publish` stands. -/
inductive Phase
  /-- About to call `sink.WriteBatch`. -/
  | call
  /-- Inside `sink.WriteBatch`. -/
  | wait
  /-- `counters.publishErrors.Add(1)`. -/
  | countError (error : GoError)
  /-- `counters.dropped.Add(count)`. -/
  | drop (error : GoError)
  /-- `counters.written.Add(count)`. -/
  | write
  /-- `counters.buffered.Add(^uint64(count - 1))`. -/
  | settle
  deriving DecidableEq, Repr

/-- Where the goroutine `run` stands. -/
inductive RunPoint
  /-- Before `go w.run()`. -/
  | idle
  /-- The `select` of the loop. -/
  | select
  | publish (resume : Resume) (phase : Phase)
  /-- `w.inflight.Load()` in `waitForProducers`. -/
  | waitLoad
  /-- `<-w.wake` in `waitForProducers`. -/
  | waitWake
  /-- The `select` of the final loop. -/
  | drain
  /-- About to call `sink.Close`. -/
  | closeCall
  /-- Inside `sink.Close`. -/
  | closeWait
  /-- The deferred `close(w.done)`. -/
  | exiting
  | exited
  deriving DecidableEq, Repr

/-- `writer`, with the local state of its goroutine. -/
structure Writer where
  settings : Settings
  queue : Channel Event
  wake : Channel Unit
  stopClosed : Bool
  doneClosed : Bool
  accepting : Bool
  inflight : Int
  publishErr : Option GoError
  closeErr : Option GoError
  point : RunPoint
  batch : List Event

/-- The writer `Init` makes, before it starts the goroutine. -/
def newWriter (settings : Settings) : Writer where
  settings := settings
  queue := Channel.make settings.capacity
  wake := Channel.make 1
  stopClosed := false
  doneClosed := false
  accepting := true
  inflight := 0
  publishErr := none
  closeErr := none
  point := .idle
  batch := []

/-- The `Init` or `Close` call that holds `global.mu`, by what it does next. -/
inductive Holder
  | free
  | initializing (cfg : Config)
  | spawning (writer : Nat)
  | closing
  | refusing (writer : Nat)
  | stopping (writer : Nat)
  | awaiting (writer : Nat)
  deriving DecidableEq, Repr

structure State where
  current : Option Nat
  writers : List Writer
  calls : List Call
  holder : Holder
  counters : Counters

/-- What a step shows to the outside. -/
inductive Obs
  /-- A send on the writer's queue succeeded. -/
  | sent (writer call : Nat) (event : Event)
  /-- `sink.WriteBatch` is called. -/
  | writeBatch (writer : Nat) (batch : Batch)
  /-- `sink.Close` is called. -/
  | sinkClose (writer : Nat)
  /-- `global.current.Store(w)`. -/
  | initialized (writer : Nat)
  | initReturned (error : Option GoError)
  /-- `Close` returns, having closed the given writer. -/
  | closeReturned (writer : Option Nat) (errors : List GoError)
  deriving DecidableEq, Repr

/-! ### One step of a `Log` call -/

/-- The case a `select` of a `Log` call takes. -/
inductive Choice
  | step
  | send
  | stop
  | default
  deriving DecidableEq, Repr

def Counters.addDropped (counters : Counters) (count : UInt64) : Counters :=
  { counters with dropped := counters.dropped + count }

def Counters.addBuffered (counters : Counters) (count : UInt64) : Counters :=
  { counters with buffered := counters.buffered + count }

/-- What a call does next on the writer it has loaded. -/
def stepStage (w index : Nat) (x : Writer) (counters : Counters) (event : Event) (stage : Stage)
    (choice : Choice) : Option (Writer × Counters × LogPoint × Option Obs) :=
  match stage, choice with
  | .checkAccepting, .step =>
    some (x, counters, if x.accepting then .within w .enter else .dropInactive, none)
  | .enter, .step => some ({ x with inflight := x.inflight + 1 }, counters, .within w .recheck, none)
  | .recheck, .step =>
    some (x, counters, .within w (if x.accepting then .reserve else .dropRefused), none)
  | .dropRefused, .step => some (x, counters.addDropped 1, .within w .leave, none)
  | .reserve, .step => some (x, counters.addBuffered 1, .within w .offer, none)
  | .offer, .send =>
    (x.queue.send event).map fun queue =>
      ({ x with queue := queue }, counters, .within w .leave, some (.sent w index event))
  | .offer, .stop =>
    -- only the `Block` select has this case
    if x.settings.blocks ∧ x.stopClosed then some (x, counters, .within w .unreserve, none)
    else none
  | .offer, .default =>
    -- only the `Drop` select has a default, taken when the send is not ready
    if ¬ x.settings.blocks ∧ ¬ (x.queue.send event).isSome then
      some (x, counters, .within w .unreserve, none)
    else none
  | .unreserve, .step => some (x, counters.addBuffered (~~~0), .within w .dropUnsent, none)
  | .dropUnsent, .step => some (x, counters.addDropped 1, .within w .leave, none)
  | .leave, .step => some ({ x with inflight := x.inflight - 1 }, counters, .within w .wake, none)
  | .wake, .step =>
    -- a full `wake` already holds the token, so the default does nothing
    some ({ x with wake := (x.wake.send ()).getD x.wake }, counters, .returned, none)
  | _, _ => none

def stepCall (s : State) (index : Nat) (choice : Choice) : Option (State × Option Obs) := do
  let call ← s.calls[index]?
  match call.point with
  | .load =>
    let point := match s.current with
      | some w => .within w .checkAccepting
      | none => .dropInactive
    return ({ s with calls := s.calls.set index { call with point := point } }, none)
  | .dropInactive =>
    return ({ s with
      calls := s.calls.set index { call with point := .returned }
      counters := s.counters.addDropped 1 }, none)
  | .within w stage =>
    let x ← s.writers[w]?
    let (x', counters, point, shown) ← stepStage w index x s.counters call.event stage choice
    return ({ s with
      writers := s.writers.set w x'
      calls := s.calls.set index { call with point := point }
      counters := counters }, shown)
  | .returned => none

/-! ### One step of the goroutine -/

/-- The case a `select` of `run` takes, or what a call of the sink returns. -/
inductive RunChoice
  | step
  | receive
  | tick
  | stop
  | default
  | returned (error : Option GoError)
  deriving DecidableEq, Repr

/-- `case event := <-w.queue` in either loop: a full batch is published. -/
def Writer.receive (x : Writer) (resume : Resume) (stay : RunPoint) : Option Writer :=
  x.queue.receive.map fun (event, queue) =>
    let batch := x.batch ++ [event]
    { x with
      queue := queue
      batch := batch
      point := if batch.length = x.settings.batchSize then .publish resume .call else stay }

/-- Where `run` continues after `publish`, with `batch = batch[:0]` in the two loops. -/
def Writer.resume (x : Writer) : Resume → Writer
  | .loop => { x with batch := [], point := .select }
  | .drain => { x with batch := [], point := .drain }
  | .finish => { x with point := .closeCall }

def stepRun (w : Nat) (x : Writer) (counters : Counters) (choice : RunChoice) :
    Option (Writer × Counters × Option Obs) :=
  match x.point, choice with
  | .select, .receive => (x.receive .loop .select).map fun x' => (x', counters, none)
  | .select, .tick =>
    some ({ x with point := if x.batch ≠ [] then .publish .loop .call else .select }, counters, none)
  | .select, .stop =>
    if x.stopClosed then some ({ x with point := .waitLoad }, counters, none) else none
  | .waitLoad, .step =>
    some ({ x with point := if x.inflight ≠ 0 then .waitWake else .drain }, counters, none)
  | .waitWake, .step =>
    x.wake.receive.map fun (_, wake) => ({ x with wake := wake, point := .waitLoad }, counters, none)
  | .drain, .receive => (x.receive .drain .drain).map fun x' => (x', counters, none)
  | .drain, .default =>
    if x.queue.receive.isNone then
      some ({ x with point := if x.batch ≠ [] then .publish .finish .call else .closeCall },
        counters, none)
    else none
  | .publish resume .call, .step =>
    some ({ x with point := .publish resume .wait }, counters,
      some (.writeBatch w ⟨x.settings.metadata, x.batch⟩))
  | .publish resume .wait, .returned error =>
    some ({ x with point := .publish resume (match error with
      | some error => .countError error
      | none => .write) }, counters, none)
  | .publish resume (.countError error), .step =>
    some ({ x with point := .publish resume (.drop error) },
      { counters with publishErrors := counters.publishErrors + 1 }, none)
  | .publish resume (.drop error), .step =>
    some ({ x with point := .publish resume .settle, publishErr := x.publishErr <|> some error },
      counters.addDropped (.ofNat x.batch.length), none)
  | .publish resume .write, .step =>
    some ({ x with point := .publish resume .settle },
      { counters with written := counters.written + .ofNat x.batch.length }, none)
  | .publish resume .settle, .step =>
    some (x.resume resume, counters.addBuffered (~~~(.ofNat x.batch.length - 1)), none)
  | .closeCall, .step => some ({ x with point := .closeWait }, counters, some (.sinkClose w))
  | .closeWait, .returned error =>
    some ({ x with point := .exiting, closeErr := error <|> x.closeErr }, counters, none)
  | .exiting, .step => some ({ x with point := .exited, doneClosed := true }, counters, none)
  | _, _ => none

/-! ### One step of the holder of the mutex -/

def stepHolder (s : State) : Option (State × Option Obs) :=
  match s.holder with
  | .free => none
  | .initializing cfg =>
    match s.current, normalizeConfig cfg with
    | some _, _ =>
      some ({ s with holder := .free }, some (.initReturned (some errAlreadyInitialized)))
    | none, .error error => some ({ s with holder := .free }, some (.initReturned (some error)))
    | none, .ok settings =>
      some ({ s with
        writers := s.writers ++ [newWriter settings]
        current := some s.writers.length
        holder := .spawning s.writers.length }, some (.initialized s.writers.length))
  | .spawning w => do
      let x ← s.writers[w]?
      return ({ s with writers := s.writers.set w { x with point := .select }, holder := .free },
        some (.initReturned none))
  | .closing =>
    match s.current with
    | none => some ({ s with holder := .free }, some (.closeReturned none []))
    | some w => some ({ s with current := none, holder := .refusing w }, none)
  | .refusing w => do
      let x ← s.writers[w]?
      return ({ s with
        writers := s.writers.set w { x with accepting := false }
        holder := .stopping w }, none)
  | .stopping w => do
      let x ← s.writers[w]?
      return ({ s with
        writers := s.writers.set w { x with stopClosed := true }
        holder := .awaiting w }, none)
  | .awaiting w => do
      let x ← s.writers[w]?
      if x.doneClosed then
        return ({ s with holder := .free },
          some (.closeReturned (some w) (x.publishErr.toList ++ x.closeErr.toList)))
      else none

/-! ### The machine -/

inductive Action
  /-- A call of `Log`, with the identifier and the clock reading it gets. -/
  | log (id : EventID) (timestamp : Int64) (kind : GoString) (options : List LogOption)
  | call (index : Nat) (choice : Choice)
  | run (writer : Nat) (choice : RunChoice)
  /-- An `Init` call takes the mutex. -/
  | init (cfg : Config)
  /-- A `Close` call takes the mutex. -/
  | close
  /-- The holder of the mutex goes on. -/
  | hold
  deriving DecidableEq, Repr

def step (s : State) : Action → Option (State × Option Obs)
  | .log id timestamp kind options =>
    some ({ s with calls := s.calls ++ [⟨buildEvent id timestamp kind options, .load⟩] }, none)
  | .call index choice => stepCall s index choice
  | .run w choice => do
      let x ← s.writers[w]?
      let (x', counters, shown) ← stepRun w x s.counters choice
      return ({ s with writers := s.writers.set w x', counters := counters }, shown)
  | .init cfg => if s.holder = .free then some ({ s with holder := .initializing cfg }, none) else none
  | .close => if s.holder = .free then some ({ s with holder := .closing }, none) else none
  | .hold => stepHolder s

/-- No writer, no call, all counters zero. -/
def start : State where
  current := none
  writers := []
  calls := []
  holder := .free
  counters := {}

def machine : Machine State Action Obs where
  start := start
  step := step

end Trail.Runtime
