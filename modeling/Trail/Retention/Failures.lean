/-
**Failures surface.**

`Fails` says of one exchange that the call returned an error; a payload object that was not found is
not one. A run that returns no error has seen none, whatever the order of the collection workers
was, and its counters of errors are zero.

* `Reports`: on every path a worker that has seen a failure hands in an error; `reporting` is the
  account of the workers of a page.
* `run_surfaces`: the whole run; `failures_surface` reads it off the traces.
-/

import Trail.Retention.Budget

namespace Trail.Retention

open Library Payload Storage Archive

/-- The call returned an error, other than that an object to delete was not found. -/
def Fails (exchange : signature.Exchange) : Prop :=
  match exchange with
  | ⟨.reconcileRetention, reply⟩ => reply ≠ (none : Option GoError)
  | ⟨.scanRetentionEvents _, reply⟩ => ∃ error, reply = Except.error error
  | ⟨.loadArchiveEvents _, reply⟩ => ∃ error, reply = Except.error error
  | ⟨.write _, reply⟩ => ∃ error, reply = Except.error error
  | ⟨.recordArchive _, reply⟩ => reply ≠ (none : Option GoError)
  | ⟨.deleteRetentionEvents _, reply⟩ => reply.2 ≠ none
  | ⟨.listPayloadCandidates _ _, reply⟩ => ∃ error, reply = Except.error error
  | ⟨.referencedPayloads _, reply⟩ => ∃ error, reply = Except.error error
  | ⟨.completePayloadCandidate _ _, reply⟩ => reply ≠ (none : Option GoError)
  | ⟨.delete _, reply⟩ => ∃ error, reply = some error ∧ error.is .payloadNotFound = false
  | _ => False

theorem ok_fine {α : Type} {value : α} :
    ¬ ∃ error : GoError, (Except.ok value : Except GoError α) = .error error := by
  intro ⟨error, same⟩
  cases same

/-- No call of a history failed. -/
def Unfailed (history : List signature.Exchange) : Prop := ∀ exchange ∈ history, ¬ Fails exchange

theorem Unfailed.snoc {history : List signature.Exchange} (unfailed : Unfailed history)
    {exchange : signature.Exchange} (fine : ¬ Fails exchange) : Unfailed (history ++ [exchange]) := by
  intro other member
  rcases List.mem_append.mp member with old | new
  · exact unfailed other old
  · rw [List.mem_singleton.mp new]
    exact fine

/-- No failure was counted. -/
structure Result.Faultless (result : Result) : Prop where
  errors : result.errors = 0
  archiveFailures : result.archiveFailures = 0

/-! ### The workers of a page -/

/-- A worker that has seen a failure hands in an error, and one that hands in none counts no
failure. -/
def Reports : Prog signature Outcome → Prop → Prop
  | .pure outcome, failed =>
    (failed → outcome.error ≠ none) ∧ (outcome.error = none → outcome.failures = 0)
  | .call op next, failed => ∀ reply, Reports (next reply) (failed ∨ Fails ⟨op, reply⟩)

theorem recordFailure_reports (ref : Ref) (failure : GoError) (outcome : Outcome) (failed : Prop) :
    Reports (recordFailure ref failure outcome) failed := by
  intro reply
  cases reply with
  | none => exact ⟨fun _ => nofun, nofun⟩
  | some error => exact ⟨fun _ => nofun, nofun⟩

/-- Whatever is answered, `processCandidate` reports what failed. -/
theorem Engine.processCandidate_reports (engine : Engine) (c : Candidate) (live : Bool) :
    Reports (engine.processCandidate c live) False := by
  unfold Engine.processCandidate
  split
  · intro reply
    refine ⟨fun failed same => ?_, fun _ => rfl⟩
    rcases failed with impossible | failed
    · exact impossible
    · exact failed same
  split
  · exact recordFailure_reports _ _ _ _
  split
  · exact recordFailure_reports _ _ _ _
  · intro reply
    dsimp only
    split
    · exact recordFailure_reports _ _ _ _
    · rename_i unharmed
      -- the object was deleted, or there was none
      have deleted : ¬ Fails ⟨.delete c.ref, reply⟩ := by
        rintro ⟨error, rfl, other⟩
        rw [Option.filter_some, other] at unharmed
        cases unharmed
      intro reply
      cases reply with
      | some error => exact ⟨fun _ => nofun, nofun⟩
      | none =>
        refine ⟨fun failed => ?_, fun _ => rfl⟩
        rcases failed with (impossible | failed) | failed
        · exact impossible.elim
        · exact absurd failed deleted
        · exact absurd rfl failed

/-- The account of the workers: a failure is in the total, or with a worker that will report it. -/
def reporting : Prog.Account (fun _ (_ : Call) => True) chooser mergeOutcome Prop where
  fits failed thread := Reports thread failed
  holds history tokens total :=
    ((∃ exchange ∈ history, Fails exchange) → total.2 ≠ none ∨ ∃ failed ∈ tokens, failed) ∧
      (total.2 = none → total.1.Faultless)
  chooses := by
    rintro history tokens total count ⟨seen, counted⟩
    refine ⟨trivial, fun reply => ⟨?_, counted⟩⟩
    rintro ⟨exchange, member, fails⟩
    rcases List.mem_append.mp member with old | new
    · exact seen ⟨exchange, old, fails⟩
    · rw [List.mem_singleton.mp new] at fails
      exact fails.elim
  calls := by
    rintro history failed rest total op next fits ⟨seen, counted⟩
    refine ⟨trivial, fun reply => ⟨failed ∨ Fails ⟨op, reply⟩, fits reply, ?_, counted⟩⟩
    rintro ⟨exchange, member, fails⟩
    rcases List.mem_append.mp member with old | new
    · rcases seen ⟨exchange, old, fails⟩ with reported | ⟨token, among, holds⟩
      · exact .inl reported
      · rcases Multiset.mem_cons.mp among with rfl | other
        · exact .inr ⟨_, Multiset.mem_cons_self _ _, .inl holds⟩
        · exact .inr ⟨token, Multiset.mem_cons_of_mem other, holds⟩
    · rw [List.mem_singleton.mp new] at fails
      exact .inr ⟨_, Multiset.mem_cons_self _ _, .inr fails⟩
  returns := by
    rintro history failed rest total outcome ⟨reports, uncounted⟩ ⟨seen, counted⟩
    refine ⟨fun fails => ?_, fun none_ => ?_⟩
    · rcases seen fails with reported | ⟨token, among, holds⟩
      · left
        intro nothing
        exact reported ((Option.orElse_eq_none _ _).mp nothing).1
      · rcases Multiset.mem_cons.mp among with rfl | other
        · left
          intro nothing
          exact reports holds ((Option.orElse_eq_none _ _).mp nothing).2
        · exact .inr ⟨token, other, holds⟩
    · obtain ⟨first, second⟩ := (Option.orElse_eq_none _ _).mp none_
      refine ⟨?_, (counted first).archiveFailures⟩
      show total.1.errors + outcome.failures = 0
      rw [(counted first).errors, uncounted second]

theorem Engine.collectPage_surfaces (engine : Engine) (candidates : List Candidate)
    (live : GoString → Bool) (result : Result) (history : List signature.Exchange)
    (unfailed : Unfailed history) (faultless : result.Faultless) :
    (engine.collectPage candidates live result).Obeys (fun _ _ => True) history fun later total =>
      total.2 = none → Unfailed later ∧ total.1.Faultless := by
  have awaits : List.Forall₂ reporting.fits (candidates.map fun _ => False)
      (candidates.map fun c => engine.processCandidate c (live (payloadKey c.ref))) := by
    rw [List.forall₂_map_left_iff, List.forall₂_map_right_iff]
    exact List.forall₂_same.mpr fun c _ => engine.processCandidate_reports c _
  refine Prog.obeys_pool_account reporting _ 2 _ ?_ awaits .nil ?_ .nil ?_ ?_
  · rintro later total ⟨seen, counted⟩ nothing
    refine ⟨fun exchange member fails => ?_, counted nothing⟩
    rcases seen ⟨exchange, member, fails⟩ with reported | ⟨token, among, _⟩
    · exact reported nothing
    · exact absurd among (Multiset.notMem_zero token)
  · intro thread member
    obtain ⟨c, _, rfl⟩ := List.mem_map.mp member
    exact engine.processCandidate_within c _
  · simp
  · exact ⟨fun ⟨exchange, member, fails⟩ => absurd fails (unfailed exchange member),
      fun _ => faultless⟩

/-! ### The collection and the scan -/

/-- What the scan has seen when it ends: no failure, or an error that is counted. -/
def Ended (history : List signature.Exchange) : Except (Result × GoError) Result → Prop
  | .ok result => Unfailed history ∧ result.Faultless
  | .error returned => 1 ≤ returned.1.errors

theorem failed_errors (result : Result) : 1 ≤ result.failed.errors := Nat.le_add_left _ _

namespace Engine

variable (engine : Engine) (dryRun : Bool) (now : Time)

theorem collectRound_surfaces (history : List signature.Exchange) (remaining : Int)
    (result : Result) (start : Unfailed history ∧ result.Faultless) :
    (engine.collectRound now remaining result).Obeys (fun _ _ => True) history fun later value =>
      Sum.elim (fun total => total.2 = none → Unfailed later ∧ total.1.Faultless)
        (fun next => Unfailed later ∧ next.2.Faultless) value := by
  obtain ⟨unfailed, faultless⟩ := start
  unfold collectRound
  split
  · refine ⟨trivial, fun expired => ?_⟩
    have asked := @Unfailed.snoc _ unfailed ⟨.ctxErr, expired⟩ id
    rcases expired with _ | error
    · refine ⟨trivial, fun reply => ?_⟩
      rcases reply with error | page
      · exact nofun
      have listed := @Unfailed.snoc _ asked ⟨.listPayloadCandidates (now -
        engine.cfg.payloadGracePeriod) (engine.pageLimit remaining), .ok page⟩ ok_fine
      have counted : (result.listed page).Faultless := ⟨faultless.errors, faultless.archiveFailures⟩
      show (engine.collectListed remaining result page).Obeys _ _ _
      unfold collectListed
      split
      · exact fun _ => ⟨listed, counted⟩
      refine ⟨trivial, fun reply => ?_⟩
      rcases reply with error | live
      · exact nofun
      have checked := @Unfailed.snoc _ listed
        ⟨.referencedPayloads ((verified page).map Candidate.ref), .ok live⟩ ok_fine
      refine Prog.obeys_bind ((engine.collectPage_surfaces (verified page) live _ _ checked
        counted).mono ?_)
      intro later total seen
      obtain ⟨total, _ | error⟩ := total
      · show Sum.elim _ _ (if _ then _ else _ : Round)
        split
        · exact fun _ => seen rfl
        · exact seen rfl
      · exact nofun
    · exact ⟨trivial, fun again _ => ⟨asked.snoc id, faultless⟩⟩
  · exact ⟨trivial, fun error _ => ⟨unfailed.snoc id, faultless⟩⟩

theorem sweep_faultless (events : List Event) {result : Result} (faultless : result.Faultless) :
    (engine.sweep now events result).result.Faultless := by
  have fold : ∀ (events : List Event) (sweep : Sweep), sweep.result.Faultless →
      (events.foldl (engine.sweepEvent now) sweep).result.Faultless := by
    intro events
    induction events with
    | nil => exact fun sweep faultless => faultless
    | cons event events ih =>
      intro sweep faultless
      refine ih _ ?_
      unfold sweepEvent
      split
      · exact ⟨faultless.errors, faultless.archiveFailures⟩
      · dsimp only
        split <;> exact ⟨faultless.errors, faultless.archiveFailures⟩
  exact fold events _ faultless

end Engine

theorem checked_ended {history : List signature.Exchange} {result : Result}
    {error : Option GoError} (dryPayloads : Finset GoString)
    (fine : error = none → Unfailed history ∧ result.Faultless) :
    Ended history ((checked result error dryPayloads).map Prod.fst) := by
  cases error with
  | none => exact fine rfl
  | some error => exact failed_errors result

/-- A page is archived and deleted without a failure, or its failure is counted. -/
theorem deletePage_ended (dryRun : Bool) (sweep : Sweep) (dryPayloads : Finset GoString)
    {history : List signature.Exchange} (unfailed : Unfailed history)
    (faultless : sweep.result.Faultless) :
    (deletePage dryRun sweep dryPayloads).Obeys (fun _ _ => True) history fun later value =>
      Ended later (value.map Prod.fst) := by
  unfold deletePage
  split
  · exact ⟨unfailed, faultless⟩
  split
  · refine ⟨trivial, fun reply => checked_ended _ fun nothing => ?_⟩
    exact ⟨unfailed.snoc fun fails => fails nothing, faultless.errors, faultless.archiveFailures⟩
  · refine Prog.obeys_bind ⟨trivial, fun reply => ?_⟩
    rcases reply with error | records
    · exact failed_errors sweep.result
    have loaded := @Unfailed.snoc _ unfailed ⟨.loadArchiveEvents sweep.eligible, .ok records⟩ ok_fine
    dsimp only
    split
    · refine ⟨trivial, fun reply => ?_⟩
      rcases reply with error | receipt
      · exact failed_errors sweep.result
      have written := @Unfailed.snoc _ loaded ⟨.write records, .ok receipt⟩ ok_fine
      refine ⟨trivial, fun reply => ?_⟩
      rcases reply with _ | error
      · have recorded := @Unfailed.snoc _ written ⟨.recordArchive receipt, none⟩ fun fails => fails rfl
        refine ⟨trivial, fun reply => checked_ended _ fun nothing => ?_⟩
        exact ⟨recorded.snoc fun fails => fails nothing, faultless.errors, faultless.archiveFailures⟩
      · exact failed_errors sweep.result
    · exact failed_errors sweep.result

namespace Engine

variable (engine : Engine) (dryRun : Bool) (now : Time)

theorem scanLoop_ended (fuel : Nat) (cursor : GoString) (dryPayloads : Finset GoString)
    {result : Result} {history : List signature.Exchange} (unfailed : Unfailed history)
    (faultless : result.Faultless) :
    (engine.scanLoop dryRun now fuel cursor dryPayloads result).Obeys (fun _ _ => True) history
      Ended := by
  induction fuel generalizing cursor dryPayloads result history with
  | zero => exact ⟨unfailed, faultless⟩
  | succ fuel ih =>
    unfold scanLoop
    split
    · refine ⟨trivial, fun expired => ?_⟩
      have asked := @Unfailed.snoc _ unfailed ⟨.ctxErr, expired⟩ id
      rcases expired with _ | error
      · refine ⟨trivial, fun reply => ?_⟩
        rcases reply with error | page
        · exact failed_errors result
        have scanned := @Unfailed.snoc _ asked ⟨.scanRetentionEvents
          ⟨cursor, engine.scanLimit result.eventsScanned⟩, .ok page⟩ ok_fine
        dsimp only
        split
        · exact ⟨scanned, faultless⟩
        · refine Prog.obeys_bind ((deletePage_ended dryRun _ dryPayloads scanned
            (engine.sweep_faultless now page.events faultless)).mono ?_)
          intro later value ended
          cases value with
          | error failure => exact ended
          | ok next =>
            dsimp only
            split
            · exact ih _ _ ended.1 ended.2
            · exact ended
      · exact ⟨asked, faultless⟩
    · exact ⟨unfailed, faultless⟩

/-! ### A run -/

/-- What a run has seen when it returns. -/
structure Surfaced (history : List signature.Exchange) (outcome : Result × Option GoError) : Prop where
  /-- A run without an error has seen no failure and counted none, and asked the context last. -/
  silent : outcome.2 = none → Unfailed history ∧ outcome.1.Faultless ∧
    ∃ before, history = before ++ [⟨.ctxErr, none⟩]
  /-- An error is what the context returned last, or is counted. -/
  counted : ∀ error, outcome.2 = some error →
    (∃ before, history = before ++ [⟨.ctxErr, some error⟩]) ∨ 1 ≤ outcome.1.errors

/-- **Failures surface**, along the whole run. -/
theorem run_surfaces :
    (engine.run dryRun).Obeys (fun _ _ => True) [] fun later outcome => Surfaced later outcome := by
  have ends : ∀ {later : List signature.Exchange} {result : Result} (error : GoError),
      1 ≤ result.errors → (finish result (some error)).Obeys (fun _ _ => True) later
        fun later outcome => Surfaced later outcome :=
    fun error counted => ⟨trivial, fun time => ⟨nofun, fun _ _ => .inr counted⟩⟩
  have closes : ∀ {later : List signature.Exchange} (result : Result)
      (total : Result × Option GoError), result.Faultless →
      (total.2 = none → Unfailed later ∧ total.1.Faultless) →
      (settle result total).Obeys (fun _ _ => True) later
        fun later outcome => Surfaced later outcome := by
    intro later result total faultless seen
    obtain ⟨collected, _ | error⟩ := total
    · obtain ⟨unfailed, clean⟩ := seen rfl
      refine ⟨trivial, fun time => ⟨trivial, fun error => ⟨fun nothing => ?_, fun other same => ?_⟩⟩⟩
      · refine ⟨(unfailed.snoc id).snoc id, ⟨clean.errors, clean.archiveFailures⟩,
          later ++ [⟨.now, time⟩], ?_⟩
        rw [show error = none from nothing]
      · left
        rw [show error = some other from same]
        exact ⟨_, rfl⟩
    · refine ends error ?_
      split
      · exact failed_errors collected
      · rename_i changed
        rw [faultless.errors] at changed
        omega
  have scans : ∀ {history : List signature.Exchange} (start : Time) {result : Result},
      Unfailed history → result.Faultless →
      ((engine.scanLoop dryRun start (engine.cfg.maxEvents.toNat + 1) [] ∅ result).bind
        (engine.afterScan dryRun start)).Obeys (fun _ _ => True) history
          fun later outcome => Surfaced later outcome := by
    intro history start result unfailed faultless
    refine Prog.obeys_bind ((engine.scanLoop_ended dryRun start _ [] ∅ unfailed faultless).mono ?_)
    intro later value ended
    rcases value with ⟨result, error⟩ | result
    · exact ends error ended
    · obtain ⟨unfailed, faultless⟩ := ended
      have payloads := engine.bounded.maxPayloads.1
      refine Prog.obeys_bind ?_
      split
      · exact closes result _ faultless fun _ => ⟨unfailed, faultless⟩
      · exact (engine.collectLoop_obeys_rounds start (engine.collectRound_surfaces start) _ (by omega)
          (by omega) ⟨unfailed, faultless⟩).mono fun later total seen => closes result total faultless seen
  have started : ∀ start : Time, Unfailed [⟨.now, start⟩] := by
    intro start exchange member
    rw [List.mem_singleton.mp member]
    exact id
  refine ⟨trivial, fun start => ?_⟩
  refine Prog.obeys_bind ?_
  unfold reconcile
  split
  · exact scans start (started start) ⟨rfl, rfl⟩
  · refine ⟨trivial, fun reply => ?_⟩
    rcases reply with _ | error
    · exact scans start ((started start).snoc fun fails => fails rfl) ⟨rfl, rfl⟩
    · exact ends error (failed_errors _)

end Engine

/-- **Failures always surface.** If any call of a run failed, the run returns an error; with a context
that stays expired, so it does once the context has expired. It returns none only with no error and
no archive failure counted, and any other error than the expiry of the context, which it reads last,
comes with one counted. -/
theorem failures_surface (engine : Engine) (dryRun : Bool) {trace : List signature.Exchange}
    {outcome : Result × Option GoError} (ran : (engine.run dryRun).Trace trace (some outcome)) :
    (∀ exchange ∈ trace, Fails exchange → outcome.2 ≠ none) ∧
    ((∀ before error after, trace = before ++ ⟨.ctxErr, some error⟩ :: after →
        ∀ reply, ⟨.ctxErr, reply⟩ ∈ after → reply ≠ none) →
      ∀ error, ⟨.ctxErr, some error⟩ ∈ trace → outcome.2 ≠ none) ∧
    (outcome.2 = none → outcome.1.errors = 0 ∧ outcome.1.archiveFailures = 0) ∧
    (∀ error, outcome.2 = some error →
      (∃ before, trace = before ++ [⟨.ctxErr, some error⟩]) ∨ 1 ≤ outcome.1.errors) := by
  have surfaced : Engine.Surfaced trace outcome :=
    ((engine.run_surfaces dryRun).trace ran).2 outcome rfl
  refine ⟨fun exchange member fails nothing => ?_, fun lasting error member nothing => ?_,
    fun nothing => ?_, surfaced.counted⟩
  · exact (surfaced.silent nothing).1 exchange member fails
  · obtain ⟨_, _, before, last⟩ := surfaced.silent nothing
    rw [last] at member
    rcases List.mem_append.mp member with earlier | final
    · obtain ⟨first, second, rfl⟩ := List.append_of_mem earlier
      rw [List.append_assoc] at last
      exact lasting first error _ last none
        (List.mem_append_right _ (List.mem_singleton_self _)) rfl
    · cases List.mem_singleton.mp final
  · obtain ⟨_, faultless, _⟩ := surfaced.silent nothing
    exact ⟨faultless.errors, faultless.archiveFailures⟩

/-- An environment that does not record the archive. -/
def unrecording : (op : Call) → op.Reply
  | .recordArchive _ => some (errorsNew "catalog unavailable")
  | op => obliging op

theorem failures_surface_unrecording : ∃ trace outcome,
    (shortEngine.run false).Trace trace (some outcome) ∧ (∃ exchange ∈ trace, Fails exchange) ∧
      outcome.2 ≠ none := by
  have ran := Prog.play_trace (σ := signature) unrecording (shortEngine.run false)
  have split : ((shortEngine.run false).play unrecording).1 =
      ((shortEngine.run false).play unrecording).1.take 6 ++
        (⟨.recordArchive expiredReceipt, some (errorsNew "catalog unavailable")⟩ :
          signature.Exchange) :: ((shortEngine.run false).play unrecording).1.drop 7 := rfl
  have member : (⟨.recordArchive expiredReceipt, some (errorsNew "catalog unavailable")⟩ :
      signature.Exchange) ∈ ((shortEngine.run false).play unrecording).1 := by
    rw [split]
    exact List.mem_append_right _ List.mem_cons_self
  have fails : Fails ⟨.recordArchive expiredReceipt, some (errorsNew "catalog unavailable")⟩ := nofun
  exact ⟨_, _, ran, ⟨_, member, fails⟩, (failures_surface shortEngine false ran).1 _ member fails⟩

end Trail.Retention
