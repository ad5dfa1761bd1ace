/-
**The retention engine.**

`Engine.run` is one retention run: reconcile, page through the stored events, archive and delete the
expired ones page by page, then collect the payload objects that became candidates. It is a program
over `signature`, so every sequence of results and errors of its environment is a trace of it.

The loops carry fuel; `scanLoop_fuel` and `collectLoop_fuel` say that the fuel `run` gives them is
never used up, since every round scans or takes at least one entry of a bounded budget.
-/

import Mathlib.Data.Finset.Card
import Trail.Retention.Types

namespace Trail.Retention

open Library Payload Storage Archive

/-! ### Policies -/

/-- `matchEvent`. -/
def matchEvent (m : EventMatch) (v : Event) : Bool :=
  (m.kind = [] ∨ m.kind = v.kind) ∧ (m.service = [] ∨ m.service = v.service) ∧
    (m.environment = [] ∨ m.environment = v.environment) ∧
    (m.level = none ∨ m.level = some v.level) ∧
    (m.flowStatus = [] ∨ m.flowStatus = v.flowStatus) ∧
    (m.executionStatus = [] ∨ m.executionStatus = v.executionStatus) ∧
    (m.httpStatusClass = 0 ∨ v.httpStatusCode.tdiv 100 = m.httpStatusClass) ∧
    (m.httpSuccess = none ∨ m.httpSuccess = some v.httpSuccess)

namespace Engine

/-- `eventExpiry`; `none` when nothing matches. -/
def eventExpiry (engine : Engine) (v : Event) : Option Time :=
  if v.retentionClass ≠ [] then
    (engine.cfg.eventClasses.lookup v.retentionClass).map (v.timestamp + ·)
  else
    match engine.cfg.eventPolicies.find? fun p => matchEvent p.where_ v with
    | some p => some (v.timestamp + p.ttl)
    | none =>
      if engine.cfg.defaultEventTTL > 0 then some (v.timestamp + engine.cfg.defaultEventTTL)
      else none

/-- `payloadExpiry`. -/
def payloadExpiry (engine : Engine) (v : Event) (p : EventPayload) : Option Time :=
  if p.ref.retainUntil ≠ zeroTime then some p.ref.retainUntil
  else if p.ref.retentionClass ≠ [] then
    (engine.cfg.payloadClasses.lookup p.ref.retentionClass).map (v.timestamp + ·)
  else
    match engine.cfg.payloadPolicies.find? fun x =>
        matchEvent x.where_.toEventMatch v && (x.where_.role = [] || x.where_.role = p.role) &&
          (x.where_.contentType = [] || x.where_.contentType.isPrefixOf p.ref.contentType) with
    | some x => some (v.timestamp + x.ttl)
    | none =>
      if engine.cfg.defaultPayloadTTL > 0 then some (v.timestamp + engine.cfg.defaultPayloadTTL)
      else none

end Engine

/-! ### One page of events -/

/-- The state of the loop over the events of a page. -/
structure Sweep where
  eligible : List Event
  times : Times
  result : Result

/-- `if old := times[k]; at.After(old) { times[k] = at }`. -/
def Times.raise (times : Times) (key : GoString) (at_ : Time) : Times :=
  if times.at key < at_ then times.insert key at_ else times

namespace Engine

/-- The times of the payloads of one eligible event. -/
def payloadTimes (engine : Engine) (event : Event) (times : Times) : Times :=
  event.payloads.foldl (fun times p =>
    match engine.payloadExpiry event p with
    | some at_ => times.raise (payloadKey p.ref) at_
    | none => times) times

/-- The body of the loop over the events of a page. -/
def sweepEvent (engine : Engine) (now : Time) (sweep : Sweep) (event : Event) : Sweep :=
  let result := { sweep.result with eventsScanned := sweep.result.eventsScanned + 1 }
  match engine.eventExpiry event with
  | none => { sweep with result := result }
  | some expiry =>
    let result := { result with eventsMatched := result.eventsMatched + 1 }
    if expiry ≤ now then
      { eligible := sweep.eligible ++ [event]
        times := engine.payloadTimes event sweep.times
        result := { result with eventsEligible := result.eventsEligible + 1 } }
    else { sweep with result := result }

/-- The loop over the events of a page. -/
def sweep (engine : Engine) (now : Time) (events : List Event) (result : Result) : Sweep :=
  events.foldl (engine.sweepEvent now) ⟨[], ∅, result⟩

end Engine

/-- `event.ID`, padded with zeros to 32 characters. -/
def paddedID (event : Event) : GoString :=
  List.replicate (32 - event.id.length) 48 ++ event.id

/-- The loop of `sameArchiveEvents` over the records: each takes its identifier out of `want`. -/
def takeAll : Finset GoString → List EventRecord → Option (Finset GoString)
  | want, [] => some want
  | want, record :: records =>
    let id := Hex.encodeToString record.id.1
    if id ∈ want then takeAll (want.erase id) records else none

/-- `sameArchiveEvents`. -/
def sameArchiveEvents (records : List EventRecord) (eligible : List Event) : Bool :=
  records.length = eligible.length ∧ takeAll (eligible.map paddedID).toFinset records = some ∅

/-- Load, check, write and record: what a run does with the eligible events of a page before it
deletes them. -/
def archiveEvents (events : List Event) : Prog signature (Except GoError Receipt) :=
  .call (.loadArchiveEvents events) fun
    | .error error => .pure (.error error)
    | .ok records =>
      if sameArchiveEvents records events then
        .call (.write records) fun
          | .error error => .pure (.error error)
          | .ok receipt =>
            .call (.recordArchive receipt) fun
              | some error => .pure (.error error)
              | none => .pure (.ok receipt)
      else .pure (.error (errorsNew "trail/retention: incomplete archive export"))

/-- The counters after an archive was recorded. -/
def Result.archived (result : Result) (receipt : Receipt) : Result :=
  let manifest := receipt.manifest
  let stored := (manifest.events.storedSize + receipt.manifestRef.storedSize).toUInt64
  { result with
    archivesCreated := result.archivesCreated + 1
    eventsArchived := result.eventsArchived + .ofInt manifest.eventCount
    payloadsArchived := result.payloadsArchived + .ofNat manifest.payloads.length
    archiveBytesWritten := manifest.payloads.foldl (fun total p =>
      if p.archive.storedSize > 0 then total + p.archive.storedSize.toUInt64 else total)
      (result.archiveBytesWritten + stored) }

/-- `result.Errors++`. -/
def Result.failed (result : Result) : Result := { result with errors := result.errors + 1 }

/-- `result.Errors++` and `result.ArchiveFailures++`. -/
def Result.archiveFailed (result : Result) : Result :=
  { result.failed with archiveFailures := result.archiveFailures + 1 }

/-- The counters after a delete call returned. -/
def Result.deleted (result : Result) (done : DeleteResult) : Result := { result with
  eventsDeleted := result.eventsDeleted + done.eventsDeleted
  payloadCandidates := result.payloadCandidates + done.payloadCandidates }

/-- The candidates a dry run has counted. -/
def Result.wouldStage (result : Result) (dryPayloads : Finset GoString) : Result :=
  { result with payloadCandidates := .ofNat dryPayloads.card }

/-- A run that goes on with a value or ends with an error. -/
abbrev Attempt (α : Type) := Prog signature (Except (Result × GoError) α)

/-- `if err != nil { result.Errors++; return … }`. -/
def checked (result : Result) (error : Option GoError) (dryPayloads : Finset GoString) :
    Except (Result × GoError) (Result × Finset GoString) :=
  match error with
  | some error => .error (result.failed, error)
  | none => .ok (result, dryPayloads)

/-- The delete call of a page, with what is known before it. -/
def deleteArchived (sweep : Sweep) (dryPayloads : Finset GoString) :
    Except GoError Receipt → Attempt (Result × Finset GoString)
  | .error error => .pure (.error (sweep.result.archiveFailed, error))
  | .ok receipt =>
    .call (.deleteRetentionEvents ⟨sweep.eligible, sweep.times, receipt.manifest.id, false⟩)
      fun reply =>
        .pure (checked ((sweep.result.archived receipt).deleted reply.1) reply.2 dryPayloads)

/-- The eligible events of a page, archived and deleted, or only counted by a dry run. -/
def deletePage (dryRun : Bool) (sweep : Sweep) (dryPayloads : Finset GoString) :
    Attempt (Result × Finset GoString) :=
  if sweep.eligible = [] then .pure (.ok (sweep.result, dryPayloads))
  else if dryRun then
    let dryPayloads := dryPayloads ∪ sweep.times.keys.toFinset
    .call (.deleteRetentionEvents ⟨sweep.eligible, sweep.times, [], true⟩) fun reply =>
      .pure (checked (sweep.result.wouldStage dryPayloads) reply.2 dryPayloads)
  else (archiveEvents sweep.eligible).bind (deleteArchived sweep dryPayloads)

/-! ### The scan -/

namespace Engine

/-- The page size of a scan with so many events scanned. -/
def scanLimit (engine : Engine) (scanned : Nat) : Int :=
  min engine.cfg.eventBatchSize (engine.cfg.maxEvents - scanned)

/-- The loop over the pages of events. -/
def scanLoop (engine : Engine) (dryRun : Bool) (now : Time) :
    Nat → GoString → Finset GoString → Result → Attempt Result
  | 0, _, _, result => .pure (.ok result)
  | fuel + 1, cursor, dryPayloads, result =>
    if result.eventsScanned < engine.cfg.maxEvents then
      .call .ctxErr fun
        | some _ => .pure (.ok result)
        | none =>
          .call (.scanRetentionEvents ⟨cursor, engine.scanLimit result.eventsScanned⟩) fun
            | .error error => .pure (.error (result.failed, error))
            | .ok page =>
              if page.events = [] then .pure (.ok result)
              else
                (deletePage dryRun (engine.sweep now page.events result) dryPayloads).bind fun
                  | .error failure => .pure (.error failure)
                  | .ok next =>
                    if page.hasMore then
                      engine.scanLoop dryRun now fuel page.nextCursor next.2 next.1
                    else .pure (.ok next.1)
    else .pure (.ok result)

end Engine

/-! ### The collection of payloads -/

/-- `validContentAddressedRef`. -/
def validContentAddressedRef (ref : Ref) : Bool :=
  let sum := Hex.encodeToString ref.sha256.1
  ref.store ≠ [] ∧ ref.key ≠ [] ∧ ref.sha256 ≠ Bytes.zero 32 ∧
    (sum.isSuffixOf ref.key ∨ (sum ++ ascii ".gz").isSuffixOf ref.key)

/-- What `processCandidate` returns. -/
structure Outcome where
  referenced : Bool := false
  orphaned : Bool := false
  unknown : Bool := false
  deleted : Bool := false
  bytesReclaimed : UInt64 := 0
  failures : Nat := 0
  error : Option GoError := none
  deriving DecidableEq, Repr

/-- A candidate whose failure is recorded in the store; a failure to record it comes first. -/
def recordFailure (ref : Ref) (failure : GoError) (outcome : Outcome) : Prog signature Outcome :=
  .call (.completePayloadCandidate ref failure.text) fun (reply : Option GoError) =>
    .pure { outcome with failures := 1, error := reply <|> some failure }

namespace Engine

/-- `processCandidate`. -/
def processCandidate (engine : Engine) (c : Candidate) (live : Bool) : Prog signature Outcome :=
  if live then
    .call (.completePayloadCandidate c.ref (ascii "referenced")) fun error =>
      .pure { referenced := true, error := error }
  else if engine.payloads.contains c.ref.store = false then
    recordFailure c.ref
      { text := ascii "trail/retention: payload store " ++ engine.quote c.ref.store ++
          ascii " is not configured" } { unknown := true }
  else if validContentAddressedRef c.ref = false then
    recordFailure c.ref (errorsNew "trail/retention: invalid content-addressed payload reference")
      { unknown := true }
  else
    .call (.delete c.ref) fun reply =>
      match reply.filter fun error => !error.is .payloadNotFound with
      | some error => recordFailure c.ref error { orphaned := true }
      | none =>
        .call (.completePayloadCandidate c.ref []) fun
          | some error => .pure { orphaned := true, deleted := true, error := some error }
          | none => .pure {
              orphaned := true
              deleted := true
              bytesReclaimed := if c.ref.storedSize > 0 then c.ref.storedSize.toUInt64 else 0 }

end Engine

/-- A counter of `Result` after a worker reported. -/
def bump (flag : Bool) (count : Nat) : Nat := if flag then count + 1 else count

/-- What a worker does under the lock: it adds its outcome to the result and keeps the first
error. -/
def mergeOutcome (total : Result × Option GoError) (outcome : Outcome) : Result × Option GoError :=
  let r := total.1
  ({ r with
      payloadsReferenced := bump outcome.referenced r.payloadsReferenced
      payloadsOrphaned := bump outcome.orphaned r.payloadsOrphaned
      payloadsUnknown := bump outcome.unknown r.payloadsUnknown
      payloadsDeleted := bump outcome.deleted r.payloadsDeleted
      payloadBytesReclaimed := r.payloadBytesReclaimed + outcome.bytesReclaimed
      errors := r.errors + outcome.failures }, total.2 <|> outcome.error)

/-- The scheduler's choice among the workers. -/
def chooser : Prog.Chooser signature := ⟨.schedule, fun _ reply => reply⟩

namespace Engine

/-- The workers of one page: each candidate is started, makes at most two calls and reports. -/
def collectPage (engine : Engine) (candidates : List Candidate) (live : GoString → Bool)
    (result : Result) : Prog signature (Result × Option GoError) :=
  Prog.pool chooser (min engine.cfg.payloadConcurrency.toNat candidates.length) mergeOutcome
    (candidates.length * 4)
    (candidates.map fun c => engine.processCandidate c (live (payloadKey c.ref))) [] (result, none)

/-- The loop of `collectPayloads`. -/
def collectLoop (engine : Engine) (now : Time) :
    Nat → Int → Result → Prog signature (Result × Option GoError)
  | 0, _, result => .pure (result, none)
  | fuel + 1, remaining, result =>
    if 0 < remaining then
      .call .ctxErr fun
        | some _ => .call .ctxErr fun error => .pure (result, error)
        | none =>
          let limit := min engine.cfg.payloadBatchSize remaining
          .call (.listPayloadCandidates (now - engine.cfg.payloadGracePeriod) limit) fun
            | .error error => .pure (result, some error)
            | .ok page =>
              let verified := page.filter fun c => c.archiveID ≠ []
              let result := { result with payloadsUnknown := result.payloadsUnknown +
                (page.length - verified.length) }
              if verified = [] then .pure (result, none)
              else
                .call (.referencedPayloads (verified.map Candidate.ref)) fun
                  | .error error => .pure (result, some error)
                  | .ok live =>
                    (engine.collectPage verified live result).bind fun
                      | (result, some error) => .pure (result, some error)
                      | (result, none) =>
                        if verified.length < limit then .pure (result, none)
                        else engine.collectLoop now fuel (remaining - verified.length) result
    else .call .ctxErr fun error => .pure (result, error)

/-- `collectPayloads`. -/
def collectPayloads (engine : Engine) (now : Time) (result : Result) :
    Prog signature (Result × Option GoError) :=
  engine.collectLoop now (engine.cfg.maxPayloads.toNat + 1) engine.cfg.maxPayloads result

end Engine

/-! ### A run -/

/-- The reconciliation a run starts with, unless it is dry. -/
def reconcile (dryRun : Bool) : Prog signature (Option GoError) :=
  if dryRun then .pure none else .call .reconcileRetention .pure

/-- `finish(result, e.cfg.Now())` beside an error. -/
def finish (result : Result) (error : Option GoError) : Prog signature (Result × Option GoError) :=
  .call .now fun (now : Time) =>
    .pure ({ result with finishedAt := now, duration := now - result.startedAt }, error)

/-- The end of a run after the collection. -/
def settle (result : Result) : Result × Option GoError → Prog signature (Result × Option GoError)
  | (collected, some error) =>
    finish (if collected.errors = result.errors then collected.failed else collected) (some error)
  | (collected, none) =>
    (finish collected none).bind fun (finished, _) =>
      .call .ctxErr fun error => .pure (finished, error)

namespace Engine

/-- What follows the scan: the collection, unless the run is dry. -/
def conclude (engine : Engine) (dryRun : Bool) (now : Time) (result : Result) :
    Prog signature (Result × Option GoError) :=
  (if dryRun then .pure (result, none) else engine.collectPayloads now result).bind (settle result)

def afterScan (engine : Engine) (dryRun : Bool) (now : Time) :
    Except (Result × GoError) Result → Prog signature (Result × Option GoError)
  | .error (result, error) => finish result (some error)
  | .ok result => engine.conclude dryRun now result

/-- `Run`. -/
def run (engine : Engine) (dryRun : Bool) : Prog signature (Result × Option GoError) :=
  .call .now fun now =>
    let result : Result := { startedAt := now }
    (reconcile dryRun).bind fun
      | some error => finish result.failed (some error)
      | none =>
        (engine.scanLoop dryRun now (engine.cfg.maxEvents.toNat + 1) [] ∅ result).bind
          (engine.afterScan dryRun now)

end Engine

/-! ### The fuel is enough -/

/-- Every call is allowed. -/
def anything (_ : List signature.Exchange) (_ : Call) : Prop := True

theorem Engine.sweep_scanned (engine : Engine) (now : Time) (events : List Event) (result : Result) :
    (engine.sweep now events result).result.eventsScanned = result.eventsScanned + events.length := by
  have step : ∀ (sweep : Sweep) (event : Event), (engine.sweepEvent now sweep event).result.eventsScanned =
      sweep.result.eventsScanned + 1 := by
    intro sweep event
    unfold Engine.sweepEvent
    split
    · rfl
    · dsimp only
      split <;> rfl
  have fold : ∀ (events : List Event) (sweep : Sweep),
      (events.foldl (engine.sweepEvent now) sweep).result.eventsScanned =
        sweep.result.eventsScanned + events.length := by
    intro events
    induction events with
    | nil => exact fun sweep => rfl
    | cons event events ih =>
      intro sweep
      rw [List.foldl_cons, ih, step, List.length_cons]
      omega
  exact fold events _

theorem checked_ok {result : Result} {error : Option GoError} {dryPayloads : Finset GoString}
    {next : Result × Finset GoString} (same : checked result error dryPayloads = .ok next) :
    error = none ∧ next = (result, dryPayloads) := by
  cases error with
  | none =>
    cases same
    exact ⟨rfl, rfl⟩
  | some error => cases same

theorem deletePage_scanned (dryRun : Bool) (sweep : Sweep) (dryPayloads : Finset GoString)
    (history : List signature.Exchange) :
    (deletePage dryRun sweep dryPayloads).Obeys anything history fun _ value =>
      ∀ next, value = .ok next → next.1.eventsScanned = sweep.result.eventsScanned := by
  unfold deletePage
  split
  · rintro next same
    cases same
    rfl
  split
  · refine ⟨trivial, fun reply next same => ?_⟩
    rw [(checked_ok same).2]
    rfl
  · have deletes : ∀ (later : List signature.Exchange) (outcome : Except GoError Receipt),
        (deleteArchived sweep dryPayloads outcome).Obeys anything later fun _ value =>
          ∀ next, value = .ok next → next.1.eventsScanned = sweep.result.eventsScanned := by
      intro later outcome
      cases outcome with
      | error error =>
        intro next same
        cases same
      | ok receipt =>
        refine ⟨trivial, fun reply next same => ?_⟩
        rw [(checked_ok same).2]
        rfl
    exact Prog.obeys_bind (Prog.obeys_of_forall (fun _ _ => trivial) deletes)

/-- **The fuel of the scan is enough**: every round that goes on has scanned at least one event of
`MaxEvents`. -/
theorem Engine.scanLoop_fuel (engine : Engine) (dryRun : Bool) (now : Time) (fuel : Nat)
    (cursor : GoString) (dryPayloads : Finset GoString) (result : Result)
    (enough : engine.cfg.maxEvents - result.eventsScanned < fuel) :
    engine.scanLoop dryRun now (fuel + 1) cursor dryPayloads result =
      engine.scanLoop dryRun now fuel cursor dryPayloads result := by
  induction fuel generalizing cursor dryPayloads result with
  | zero =>
    unfold Engine.scanLoop
    rw [if_neg (by omega)]
  | succ fuel ih =>
    unfold Engine.scanLoop
    split
    · congr 1
      funext error
      cases error with
      | some error => rfl
      | none =>
        dsimp only
        congr 1
        funext reply
        rcases reply with error | page
        · rfl
        · dsimp only
          split
          · rfl
          · rename_i nonempty
            refine (deletePage_scanned _ _ _ []).mono (fun _ value scanned => ?_) |>.bind_congr
            cases value with
            | error failure => rfl
            | ok next =>
              dsimp only
              split
              · refine ih _ _ _ ?_
                have count := scanned next rfl
                rw [Engine.sweep_scanned] at count
                have positive := List.length_pos_iff.mpr nonempty
                push_cast at enough
                omega
              · rfl
    · rfl

/-- **A scan ends**, whatever the store answers: the rounds that `run` gives it are all it makes. -/
theorem Engine.scan_ends (engine : Engine) (dryRun : Bool) (now : Time) (cursor : GoString)
    (dryPayloads : Finset GoString) (result : Result) (more : Nat) :
    engine.scanLoop dryRun now (engine.cfg.maxEvents.toNat + 1 + more) cursor dryPayloads result =
      engine.scanLoop dryRun now (engine.cfg.maxEvents.toNat + 1) cursor dryPayloads result := by
  induction more with
  | zero => rfl
  | succ more ih =>
    have enough : engine.cfg.maxEvents - result.eventsScanned <
      (engine.cfg.maxEvents.toNat + 1 + more : Nat) := by omega
    exact (engine.scanLoop_fuel dryRun now _ cursor dryPayloads result enough).trans ih

theorem Engine.processCandidate_within (engine : Engine) (c : Candidate) (live : Bool) :
    (engine.processCandidate c live).Within 2 := by
  unfold Engine.processCandidate recordFailure
  split
  · exact fun _ => trivial
  split
  · exact fun _ => trivial
  split
  · exact fun _ => trivial
  · intro reply
    dsimp only
    split
    · exact fun _ => trivial
    · intro error
      cases error <;> trivial

theorem Engine.collectPage_fuel (engine : Engine) (candidates : List Candidate)
    (live : GoString → Bool) (result : Result) (more : Nat) :
    Prog.pool chooser (min engine.cfg.payloadConcurrency.toNat candidates.length) mergeOutcome
        (candidates.length * 4 + more)
        (candidates.map fun c => engine.processCandidate c (live (payloadKey c.ref))) []
        (result, none) =
      engine.collectPage candidates live result := by
  induction more with
  | zero => rfl
  | succ more ih =>
    rw [← ih]
    refine Prog.pool_fuel _ _ _ 2 _ _ _ _ ?_ [] .nil ?_
    · intro thread member
      obtain ⟨c, _, rfl⟩ := List.mem_map.mp member
      exact engine.processCandidate_within c _
    · simp

/-- **The fuel of the collection is enough**: every round that goes on takes at least one candidate
of `MaxPayloads`. -/
theorem Engine.collectLoop_fuel (engine : Engine) (now : Time) (fuel : Nat) (remaining : Int)
    (result : Result) (some : 0 < fuel) (enough : remaining < fuel) :
    engine.collectLoop now (fuel + 1) remaining result =
      engine.collectLoop now fuel remaining result := by
  induction fuel generalizing remaining result with
  | zero => omega
  | succ fuel ih =>
    unfold Engine.collectLoop
    split
    · rename_i positive
      congr 1
      funext error
      cases error with
      | some error => rfl
      | none =>
        dsimp only
        congr 1
        funext reply
        rcases reply with error | page
        · rfl
        · dsimp only
          split
          · rfl
          · rename_i nonempty
            congr 1
            funext reply
            rcases reply with error | live
            · rfl
            · dsimp only
              congr 1
              funext total
              rcases total with ⟨result, _ | error⟩
              · dsimp only
                split
                · rfl
                · have taken := List.length_pos_iff.mpr nonempty
                  push_cast at enough
                  exact ih _ _ (by omega) (by omega)
              · rfl
    · rfl

end Trail.Retention
