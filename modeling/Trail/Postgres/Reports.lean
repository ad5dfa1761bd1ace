/-
**What a failed deletion leaves, and what it reports.**

`DeleteRetentionEvents` works in one transaction, so a deletion that fails leaves the tables as they
were (`perform_failed`). Its result is built up on the way: a candidate is counted when its row is
inserted, and all exits but the one of `COMMIT` return what was counted. The engine adds that to its own
counters before it looks at the error, so it reports candidates that were rolled back.

* `perform_failed`: a failed deletion changes no table.
* `stagesNothing_result`: nothing is counted when no candidate can be inserted.
* `exists_interrupted`: behind a counted candidate there is always a statement that can still fail.
* `reports_durable_iff`: the requests for which every failure reports nothing.
-/

import Trail.Postgres.Store

namespace Trail.Postgres

open Library Payload
open Retention (DeleteRequest DeleteResult EventPayload Times Result)

/-! ### A method carried out alone -/

/-- The database with the open transaction of the caller, and the fates of the next calls: a call is
carried out at a time or fails without effect. -/
structure Site where
  world : World
  own : Option Pending := none
  fates : List (Except GoError Time)

/-- A fate as a choice of the environment. -/
def choiceOf : Except GoError Time → Choice
  | .ok now => .done now
  | .error error => .failed error

section Perform

variable (digest : List Storage.EventRecord → GoString) {α β : Type}

/-- A method with nobody else at work. -/
def perform : Prog signature α → Site → Option (α × Site)
  | .pure value, site => some (value, site)
  | .call op next, site =>
    match site.fates with
    | [] => none
    | fate :: fates =>
      match respond digest site.world site.own op (choiceOf fate) with
      | none => none
      | some (world, own, reply) => perform (next reply) ⟨world, own, fates⟩

variable {digest}

theorem perform_pure {value result : α} {site after : Site}
    (ran : perform digest (.pure value) site = some (result, after)) :
    result = value ∧ after = site := by
  cases ran
  exact ⟨rfl, rfl⟩

theorem perform_call {op : Call} {next : op.Reply → Prog signature α} {site : Site} {done : α × Site}
    (ran : perform digest (.call op next) site = some done) :
    ∃ fate fates world own reply,
      respond digest site.world site.own op (choiceOf fate) = some (world, own, reply) ∧
      perform digest (next reply) ⟨world, own, fates⟩ = some done := by
  unfold perform at ran
  split at ran
  · cases ran
  · rename_i fate fates _
    split at ran
    · cases ran
    · rename_i world own reply answered
      exact ⟨fate, fates, world, own, reply, answered, ran⟩

theorem perform_bind (program : Prog signature α) (rest : α → Prog signature β) (site : Site) :
    perform digest (program.bind rest) site =
      (perform digest program site).bind fun done => perform digest (rest done.1) done.2 := by
  induction program generalizing site with
  | pure value => rfl
  | call op next ih =>
    rw [Prog.bind, perform, perform]
    split
    · rfl
    · split
      · rfl
      · exact ih _ _

theorem perform_bind_inv {program : Prog signature α} {rest : α → Prog signature β} {site : Site}
    {done : β × Site} (ran : perform digest (program.bind rest) site = some done) :
    ∃ middle, perform digest program site = some middle ∧
      perform digest (rest middle.1) middle.2 = some done := by
  rw [perform_bind] at ran
  exact Option.bind_eq_some_iff.mp ran

end Perform

/-! ### The tables after a failure -/

section Failed

variable {digest : List Storage.EventRecord → GoString} (json : Json)

theorem perform_giveUp {α : Type} {value result : α} {site after : Site}
    (ran : perform digest (giveUp value) site = some (result, after)) :
    result = value ∧ after.world = site.world := by
  obtain ⟨fate, fates, world, own, reply, answered, ran⟩ := perform_call ran
  obtain ⟨rfl, rfl⟩ := perform_pure ran
  cases fate <;> cases answered <;> exact ⟨rfl, rfl⟩

/-- A statement of a transaction leaves the world alone. -/
theorem respond_exec {world after : World} {pending : Pending} {statement : Statement}
    {fate : Except GoError Time} {own : Option Pending} {reply : Except GoError Nat}
    (answered : respond digest world (some pending) (.exec statement) (choiceOf fate) =
      some (after, own, reply)) : after = world ∧ ∃ pending, own = some pending := by
  cases fate <;> cases answered <;> exact ⟨rfl, _, rfl⟩

theorem perform_stagePayloads (archiveID : GoString) (times : Times) (payloads : List EventPayload)
    (seen : Finset GoString) (staged : UInt64) {site after : Site} {pending : Pending}
    (opened : site.own = some pending) {done : UInt64 × Option GoError}
    (ran : perform digest (stagePayloads json archiveID times payloads seen staged) site =
      some (done, after)) : after.world = site.world ∧ ∃ pending, after.own = some pending := by
  induction payloads generalizing seen staged site pending with
  | nil =>
    obtain ⟨-, rfl⟩ := perform_pure ran
    exact ⟨rfl, pending, opened⟩
  | cons p payloads ih =>
    unfold stagePayloads at ran
    split at ran
    · exact ih _ _ opened ran
    · split at ran
      · exact ih _ _ opened ran
      · split at ran
        · obtain ⟨-, rfl⟩ := perform_pure ran
          exact ⟨rfl, pending, opened⟩
        · obtain ⟨fate, fates, world, own, reply, answered, ran⟩ := perform_call ran
          rw [opened] at answered
          obtain ⟨rfl, pending, rfl⟩ := respond_exec answered
          have opened' : (⟨site.world, some pending, fates⟩ : Site).own = some pending := rfl
          cases reply with
          | error error =>
            obtain ⟨-, rfl⟩ := perform_pure ran
            exact ⟨rfl, pending, rfl⟩
          | ok rows =>
            have kept := ih _ _ opened' ran
            exact kept

/-- Behind the staging a failure rolls back or is the one of `COMMIT`, which returns zeros. -/
theorem perform_deleteCovered (request : DeleteRequest) (staged : UInt64) {site after : Site}
    {pending : Pending} (opened : site.own = some pending) {result : DeleteResult} {error : GoError}
    (ran : perform digest (deleteCovered request staged) site = some ((result, some error), after)) :
    after.world = site.world ∧ (result = ⟨0, staged⟩ ∨ result = ⟨0, 0⟩) := by
  have gaveUp : ∀ {failure : Option GoError} {middle : Site},
      perform digest (giveUp ((⟨0, staged⟩ : DeleteResult), failure)) middle =
        some ((result, some error), after) → middle.world = site.world →
      after.world = site.world ∧ (result = ⟨0, staged⟩ ∨ result = ⟨0, 0⟩) := by
    intro failure middle ran same
    obtain ⟨value, kept⟩ := perform_giveUp ran
    exact ⟨kept.trans same, .inl (Prod.mk.inj value).1⟩
  unfold deleteCovered at ran
  split at ran
  · exact gaveUp ran rfl
  obtain ⟨fate, fates, world, own, archived, answered, ran⟩ := perform_call ran
  have unchanged : world = site.world ∧ own = site.own := by
    cases fate <;> cases answered <;> exact ⟨rfl, rfl⟩
  obtain ⟨rfl, rfl⟩ := unchanged
  cases archived with
  | error error => exact gaveUp ran rfl
  | ok archived =>
    dsimp only at ran
    split at ran
    · exact gaveUp ran rfl
    obtain ⟨fate, fates, world, own, rows, answered, ran⟩ := perform_call ran
    dsimp only at answered
    rw [opened] at answered
    obtain ⟨rfl, pending, rfl⟩ := respond_exec answered
    cases rows with
    | error error => exact gaveUp ran rfl
    | ok rows =>
      obtain ⟨fate, fates, world, own, failed, answered, ran⟩ := perform_call ran
      cases fate with
      | ok now =>
        cases answered
        cases ran
      | error error =>
        cases answered
        cases ran
        exact ⟨rfl, .inr rfl⟩

/-- **A failed deletion changes no table.** -/
theorem perform_failed (request : DeleteRequest) {world : World} {fates : List (Except GoError Time)}
    {result : DeleteResult} {error : GoError} {after : Site}
    (ran : perform digest (deleteRetentionEvents json request) ⟨world, none, fates⟩ =
      some ((result, some error), after)) : after.world = world := by
  unfold deleteRetentionEvents at ran
  split at ran
  · cases ran
  split at ran
  · cases ran
  split at ran
  · obtain ⟨-, rfl⟩ := perform_pure ran
    rfl
  obtain ⟨fate, fates, begun, own, reply, answered, ran⟩ := perform_call ran
  cases fate with
  | error error =>
    cases answered
    obtain ⟨-, rfl⟩ := perform_pure ran
    rfl
  | ok now =>
    cases answered
    obtain ⟨⟨⟨staged, stopped⟩, middle⟩, first, ran⟩ := perform_bind_inv ran
    obtain ⟨kept, pending, opened⟩ := perform_stagePayloads json _ _ _ _ _ rfl first
    cases stopped with
    | some error => exact (perform_giveUp ran).2.trans kept
    | none => exact (perform_deleteCovered request staged opened ran).1.trans kept

end Failed

/-! ### Requests that stage nothing -/

/-- A payload of a request that is to be staged. -/
def Stages (times : Times) (p : EventPayload) : Prop :=
  (times.lookup (payloadKey p.ref)).isSome ∧ p.ref.store ≠ [] ∧ p.ref.key ≠ []

instance (times : Times) : DecidablePred (Stages times) := fun p => by
  unfold Stages
  infer_instance

/-- The first payload of a request that is to be staged. -/
def firstStaged (request : DeleteRequest) : Option EventPayload :=
  (request.events.flatMap (·.payloads)).find? fun p => Stages request.payloadEligibleAt p

/-- A request for which no candidate is inserted: it opens no transaction, has no payload to stage, or
the first one cannot be written as JSON. -/
def StagesNothing (json : Json) (request : DeleteRequest) : Prop :=
  request.events = [] ∨ request.dryRun = true ∨ request.archiveID = [] ∨
    ∀ p, firstStaged request = some p → json.ref p.ref ≠ none

section Staging

variable (json : Json) (archiveID : GoString) (times : Times)

theorem stagePayloads_skip {p : EventPayload} {seen : Finset GoString}
    (other : ¬ (Stages times p ∧ payloadKey p.ref ∉ seen)) (payloads : List EventPayload)
    (staged : UInt64) :
    stagePayloads json archiveID times (p :: payloads) seen staged =
      stagePayloads json archiveID times payloads seen staged := by
  rw [stagePayloads]
  split
  · rfl
  · rename_i eligibleAt known
    rw [if_pos]
    by_contra fine
    simp only [not_or] at fine
    exact other ⟨⟨by rw [known]; rfl, fine.2.1, fine.2.2⟩, fine.1⟩

/-- At a payload that is to be staged the loop stops if it cannot be written, and otherwise inserts it. -/
theorem stagePayloads_first {p : EventPayload} (due : Stages times p) {seen : Finset GoString}
    (fresh : payloadKey p.ref ∉ seen) (payloads : List EventPayload) (staged : UInt64) :
    (∀ error, json.ref p.ref = some error →
      stagePayloads json archiveID times (p :: payloads) seen staged = .pure (staged, some error)) ∧
    (json.ref p.ref = none → ∃ eligibleAt next,
      stagePayloads json archiveID times (p :: payloads) seen staged =
        .call (.exec (.insertCandidate p.ref eligibleAt archiveID)) next ∧
      (∀ error, next (.error error) = .pure (staged, some error)) ∧
      ∀ rows, next (.ok rows) = stagePayloads json archiveID times payloads
        (insert (payloadKey p.ref) seen) (staged + 1)) := by
  obtain ⟨known, store, key⟩ := due
  obtain ⟨eligibleAt, known⟩ := Option.isSome_iff_exists.mp known
  have here : ¬ (payloadKey p.ref ∈ seen ∨ p.ref.store = [] ∨ p.ref.key = []) := by
    simp [fresh, store, key]
  constructor
  · intro error refused
    simp only [stagePayloads, known, if_neg here, refused]
  · intro written
    refine ⟨eligibleAt, ?_⟩
    rw [stagePayloads, known]
    dsimp only
    rw [if_neg here, written]
    exact ⟨_, rfl, fun _ => rfl, fun _ => rfl⟩

theorem stagePayloads_none {payloads : List EventPayload}
    (found : payloads.find? (Stages times ·) = none) (seen : Finset GoString) (staged : UInt64) :
    stagePayloads json archiveID times payloads seen staged = .pure (staged, none) := by
  induction payloads with
  | nil => rfl
  | cons p payloads ih =>
    have others := List.find?_eq_none.mp found
    have first : ¬ Stages times p := by simpa using others p List.mem_cons_self
    rw [stagePayloads_skip json archiveID times fun due => first due.1]
    exact ih (List.find?_eq_none.mpr fun p member => others p (List.mem_cons_of_mem _ member))

/-- The loop skips to the first payload that is to be staged. -/
theorem stagePayloads_from {payloads : List EventPayload} {p : EventPayload}
    (found : payloads.find? (Stages times ·) = some p) (seen : Finset GoString) (staged : UInt64) :
    ∃ rest, stagePayloads json archiveID times payloads seen staged =
      stagePayloads json archiveID times (p :: rest) seen staged := by
  obtain ⟨-, before, rest, rfl, none_⟩ := List.find?_eq_some_iff_append.mp found
  refine ⟨rest, ?_⟩
  clear found
  induction before with
  | nil => rfl
  | cons q before ih =>
    have first : ¬ Stages times q := by simpa using none_ q List.mem_cons_self
    rw [List.cons_append, stagePayloads_skip json archiveID times fun due => first due.1]
    exact ih fun p member => none_ p (List.mem_cons_of_mem _ member)

/-- What follows the staging. -/
structure Behind (request : DeleteRequest)
    (rest : UInt64 × Option GoError → Prog signature (DeleteResult × Option GoError)) : Prop where
  stopped : ∀ staged error, rest (staged, some error) = giveUp (⟨0, staged⟩, some error)
  staged : ∀ staged, rest (staged, none) = deleteCovered request staged

/-- A loop that has counted so many candidates can still fail and report them. -/
theorem exists_interrupted (digest : List Storage.EventRecord → GoString) {request : DeleteRequest}
    {rest : UInt64 × Option GoError → Prog signature (DeleteResult × Option GoError)}
    (behind : Behind request rest) (payloads : List EventPayload) (seen : Finset GoString)
    (staged : UInt64) (world : World) (pending : Pending) : ∃ fates error after,
      perform digest ((stagePayloads json archiveID times payloads seen staged).bind rest)
        ⟨world, some pending, fates⟩ = some ((⟨0, staged⟩, some error), after) := by
  induction payloads with
  | nil =>
    rw [stagePayloads, Prog.bind, behind.staged, deleteCovered]
    cases decodeIDs request.events with
    | error error => exact ⟨[.ok 0], error, ⟨world, none, []⟩, rfl⟩
    | ok ids => exact ⟨[.error ⟨[], []⟩, .ok 0], ⟨[], []⟩, ⟨world, none, []⟩, rfl⟩
  | cons p payloads ih =>
    by_cases due : Stages times p ∧ payloadKey p.ref ∉ seen
    · obtain ⟨refused, inserted⟩ :=
        stagePayloads_first json archiveID times due.1 due.2 payloads staged
      cases written : json.ref p.ref with
      | some error =>
        rw [refused error written, Prog.bind, behind.stopped]
        exact ⟨[.ok 0], error, ⟨world, none, []⟩, rfl⟩
      | none =>
        obtain ⟨eligibleAt, next, same, failed, -⟩ := inserted written
        refine ⟨[.error ⟨[], []⟩, .ok 0], ⟨[], []⟩, ⟨world, none, []⟩, ?_⟩
        have ends : (next (.error ⟨[], []⟩)).bind rest = giveUp (⟨0, staged⟩, some ⟨[], []⟩) := by
          rw [failed, Prog.bind, behind.stopped]
        rw [same, Prog.bind, perform]
        show perform digest ((next (.error ⟨[], []⟩)).bind rest) ⟨world, some pending, [.ok 0]⟩ = _
        rw [ends]
        rfl
    · rw [stagePayloads_skip json archiveID times due]
      exact ih

end Staging

/-! ### What is reported -/

/-- Every failure of a request leaves the database as it was, returns zeros, and so adds nothing to the
counters of a run. -/
def Atomic (digest : List Storage.EventRecord → GoString) (json : Json) (request : DeleteRequest)
    (world : World) : Prop :=
  ∀ fates result error after,
    perform digest (deleteRetentionEvents json request) ⟨world, none, fates⟩ =
      some ((result, some error), after) →
    after.world = world ∧ result = ⟨0, 0⟩ ∧ ∀ total : Result, total.deleted result = total

section Reported

variable (digest : List Storage.EventRecord → GoString) (json : Json)

theorem deleted_zero (total : Result) : total.deleted ⟨0, 0⟩ = total := by
  simp [Result.deleted]

/-- The program of a request that opens a transaction. -/
theorem deleteRetentionEvents_eq {request : DeleteRequest} (events : request.events ≠ [])
    (real : ¬ request.dryRun = true) (archived : request.archiveID ≠ []) :
    ∃ next rest, deleteRetentionEvents json request = .call .beginTx next ∧
      (∀ error, next (some error) = .pure (⟨0, 0⟩, some error)) ∧ Behind request rest ∧
      next none = (stagePayloads json request.archiveID request.payloadEligibleAt
        (request.events.flatMap (·.payloads)) ∅ 0).bind rest := by
  refine ⟨_, _, (if_neg events).trans ((if_neg real).trans (if_neg archived)), fun _ => rfl,
    ⟨fun _ _ => rfl, fun _ => rfl⟩, rfl⟩

theorem stagesNothing_result {request : DeleteRequest} (quiet : StagesNothing json request)
    {world : World} {fates : List (Except GoError Time)} {result : DeleteResult} {error : GoError}
    {after : Site}
    (ran : perform digest (deleteRetentionEvents json request) ⟨world, none, fates⟩ =
      some ((result, some error), after)) : result = ⟨0, 0⟩ := by
  by_cases events : request.events = []
  · rw [deleteRetentionEvents, if_pos events] at ran
    cases ran
  by_cases dry : request.dryRun = true
  · rw [deleteRetentionEvents, if_neg events, if_pos dry] at ran
    cases ran
  by_cases archived : request.archiveID = []
  · rw [deleteRetentionEvents, if_neg events, if_neg dry, if_pos archived] at ran
    exact (Prod.mk.inj (perform_pure ran).1).1
  obtain ⟨next, rest, program, failed, behind, opened⟩ :=
    deleteRetentionEvents_eq json events dry archived
  rw [program] at ran
  obtain ⟨fate, fates, begun, own, reply, answered, ran⟩ := perform_call ran
  cases fate with
  | error error =>
    cases answered
    rw [failed] at ran
    exact (Prod.mk.inj (perform_pure ran).1).1
  | ok now =>
    cases answered
    have blocked : ∀ p, firstStaged request = some p → json.ref p.ref ≠ none := by
      simpa [StagesNothing, events, dry, archived] using quiet
    rw [opened] at ran
    cases found : firstStaged request with
    | none =>
      rw [stagePayloads_none json _ _ found, Prog.bind, behind.staged] at ran
      exact (perform_deleteCovered request 0 rfl ran).2.elim id id
    | some p =>
      obtain ⟨others, same⟩ := stagePayloads_from json request.archiveID _ found ∅ 0
      have due : Stages request.payloadEligibleAt p := by simpa using List.find?_some found
      obtain ⟨failure, refused⟩ := Option.ne_none_iff_exists'.mp (blocked p found)
      rw [same, (stagePayloads_first json request.archiveID _ due (Finset.notMem_empty _) others 0).1
        failure refused, Prog.bind, behind.stopped] at ran
      exact (Prod.mk.inj (perform_giveUp ran).1).1

/-- A request that inserts a candidate can report it and then fail. -/
theorem exists_reported {request : DeleteRequest} (loud : ¬ StagesNothing json request)
    (world : World) : ∃ fates error after,
      perform digest (deleteRetentionEvents json request) ⟨world, none, fates⟩ =
        some ((⟨0, 1⟩, some error), after) := by
  simp only [StagesNothing, not_or, not_forall, not_not] at loud
  obtain ⟨events, dry, archived, p, found, written⟩ := loud
  obtain ⟨next, rest, program, -, behind, opened⟩ :=
    deleteRetentionEvents_eq json events dry archived
  obtain ⟨others, same⟩ := stagePayloads_from json request.archiveID _ found ∅ 0
  have due : Stages request.payloadEligibleAt p := by simpa using List.find?_some found
  obtain ⟨eligibleAt, inserted, first, -, goesOn⟩ := (stagePayloads_first json request.archiveID _ due
    (Finset.notMem_empty _) others 0).2 written
  obtain ⟨fates, error, after, ran⟩ := exists_interrupted json request.archiveID
    request.payloadEligibleAt digest behind others (insert (payloadKey p.ref) ∅) 1 world
    [(0, (world.tables.execAll []).fix (.insertCandidate p.ref eligibleAt request.archiveID))]
  refine ⟨.ok 0 :: .ok 0 :: fates, error, after, ?_⟩
  rw [program, perform]
  show perform digest (next none) ⟨world, some [], .ok 0 :: fates⟩ = _
  rw [opened, same, first, Prog.bind, perform]
  show perform digest ((inserted (.ok _)).bind rest) ⟨world, _, fates⟩ = _
  rw [goesOn]
  exact ran

/-- **The deletions whose failures report only what is durable**: those that insert no candidate. -/
theorem reports_durable_iff (request : DeleteRequest) (world : World) :
    Atomic digest json request world ↔ StagesNothing json request := by
  constructor
  · intro fair
    by_contra loud
    obtain ⟨fates, error, after, ran⟩ := exists_reported digest json loud world
    exact absurd (fair _ _ _ _ ran).2.1 (by decide)
  · intro quiet fates result error after ran
    have zero := stagesNothing_result digest json quiet ran
    exact ⟨perform_failed json request ran, zero, fun total => zero ▸ deleted_zero total⟩

end Reported

/-- An expired event with one payload. -/
def responseEvent : Retention.Event where
  id := ascii "0190a0000000000000000000000000ff"
  timestamp := 0
  payloads := [⟨ascii "response", { store := ascii "s3", key := ascii "docs/1" }⟩]

/-- Everything can be marshalled. -/
def plainJson : Json := ⟨fun _ => none, fun _ => none, fun _ => none, fun _ => none⟩

/-- Its deletion, with the object eligible at time zero. -/
def responseRequest : DeleteRequest :=
  ⟨[responseEvent], (∅ : Times).insert (ascii "s3" ++ 0 :: ascii "docs/1") 0, ascii "a1", false⟩

/-- The coverage query fails behind the insertion of the candidate: the candidate is rolled back, and
the run counts it. -/
theorem rolled_back_candidate_counted :
    (perform (fun _ => []) (deleteRetentionEvents plainJson responseRequest)
        ⟨{}, none, [.ok 0, .ok 0, .error (errorsNew "timeout"), .ok 0]⟩).map
      (fun done => (done.1, done.2.world.tables.candidates.keys)) =
        some ((⟨0, 1⟩, some (errorsNew "timeout")), []) ∧
    (({ startedAt := 0 } : Result).deleted ⟨0, 1⟩).payloadCandidates = 1 :=
  ⟨rfl, rfl⟩

end Trail.Postgres
