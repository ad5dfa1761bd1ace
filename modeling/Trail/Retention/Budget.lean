/-
**The budget of a run.**

`MaxEvents` bounds the scans of a run and `MaxPayloads` its collection. `Budget` says what a scan and a
listing may ask for after a history: a page that is not larger than what is left.

* `scanLoop_budget`: every scan before the last one returned an event, so there are at most
  `MaxEvents` of them, whatever the store answers.
* `collectRound_budget`: all candidates taken before a listing have been completed, each once.
* `collection_within_budget`: the bounds of every run. The number of candidates is bounded when no
  listing returns more than was asked for; a page that is too large is processed as a whole.
-/

import Trail.Retention.Collection

namespace Trail.Retention

open Library Payload Storage Archive

/-! ### What a history has spent -/

/-- The scans of a history. -/
def scanCalls (history : List signature.Exchange) : Nat :=
  history.countP fun exchange =>
    match exchange.op with
    | .scanRetentionEvents _ => true
    | _ => false

/-- The number of events the scans returned. -/
def scannedEvents (history : List signature.Exchange) : Nat := (history.flatMap pagesOf).length

/-- The candidates with an archive of a listing. -/
def listedRefs (exchange : signature.Exchange) : Multiset Ref :=
  match exchange with
  | ⟨.listPayloadCandidates _ _, reply⟩ =>
    match reply with
    | .ok page => refsOf (verified page)
    | .error _ => 0
  | _ => 0

/-- The candidates the listings of a history returned with an archive. -/
def taken (history : List signature.Exchange) : Multiset Ref := (history.map listedRefs).sum

/-- A listing returned no more candidates than it was asked for. -/
def Bounded (exchange : signature.Exchange) : Prop :=
  ∀ before limit page, exchange = ⟨.listPayloadCandidates before limit, .ok page⟩ →
    page.length ≤ limit

/-- A call that neither scans nor lists. -/
def Call.Unlisted : Call → Prop
  | .scanRetentionEvents _ | .listPayloadCandidates _ _ => False
  | _ => True

/-- Nothing was scanned or listed between two histories. -/
structure SameSpent (earlier later : List signature.Exchange) : Prop where
  scans : scanCalls later = scanCalls earlier
  events : scannedEvents later = scannedEvents earlier
  taken : taken later = taken earlier
  bounded : (∀ exchange ∈ later, Bounded exchange) → ∀ exchange ∈ earlier, Bounded exchange

theorem scanCalls_append (first second : List signature.Exchange) :
    scanCalls (first ++ second) = scanCalls first + scanCalls second :=
  List.countP_append ..

theorem scannedEvents_append (first second : List signature.Exchange) :
    scannedEvents (first ++ second) = scannedEvents first + scannedEvents second := by
  unfold scannedEvents
  rw [List.flatMap_append, List.length_append]

theorem taken_append (first second : List signature.Exchange) :
    taken (first ++ second) = taken first + taken second := by
  unfold taken
  rw [List.map_append, List.sum_append]

theorem completed_append (first second : List signature.Exchange) :
    completed (first ++ second) = completed first + completed second :=
  Prog.emitted_append ..

theorem sameSpent_append (history : List signature.Exchange) {new : List signature.Exchange}
    (unlisted : ∀ exchange ∈ new, exchange.op.Unlisted) : SameSpent history (history ++ new) := by
  have none : scanCalls new = 0 ∧ scannedEvents new = 0 ∧ taken new = 0 := by
    induction new with
    | nil => exact ⟨rfl, rfl, rfl⟩
    | cons exchange new ih =>
      obtain ⟨scans, events, refs⟩ :=
        ih fun other member => unlisted other (List.mem_cons_of_mem _ member)
      have quiet := unlisted exchange List.mem_cons_self
      have alone : scanCalls [exchange] = 0 ∧ scannedEvents [exchange] = 0 ∧
          taken [exchange] = 0 := by
        obtain ⟨op, reply⟩ := exchange
        cases op with
        | scanRetentionEvents request => exact quiet.elim
        | listPayloadCandidates before limit => exact quiet.elim
        | _ => exact ⟨rfl, rfl, rfl⟩
      have split : exchange :: new = [exchange] ++ new := rfl
      rw [split, scanCalls_append, scannedEvents_append, taken_append, alone.1, alone.2.1,
        alone.2.2, scans, events, refs]
      exact ⟨rfl, rfl, rfl⟩
  refine ⟨?_, ?_, ?_, fun bounded exchange member => bounded exchange (List.mem_append_left _ member)⟩
  · rw [scanCalls_append, none.1, Nat.add_zero]
  · rw [scannedEvents_append, none.2.1, Nat.add_zero]
  · rw [taken_append, none.2.2, add_zero]

theorem sameSpent_snoc (history : List signature.Exchange) {exchange : signature.Exchange}
    (unlisted : exchange.op.Unlisted) : SameSpent history (history ++ [exchange]) := by
  refine sameSpent_append history fun other member => ?_
  rw [List.mem_singleton.mp member]
  exact unlisted

theorem completed_snoc (history : List signature.Exchange) {exchange : signature.Exchange}
    (silent : exchange.op.completes = 0) : completed (history ++ [exchange]) = completed history := by
  refine (Prog.emitted_snoc Call.completes history exchange).trans ?_
  rw [silent, add_zero]
  rfl

/-! ### The scan -/

/-- What a scan or a listing may ask for after a history. -/
def Engine.Budget (engine : Engine) (history : List signature.Exchange) : Call → Prop
  | .scanRetentionEvents request =>
    0 < request.limit ∧ request.limit ≤ engine.cfg.maxEvents - scannedEvents history
  | .listPayloadCandidates _ limit =>
    0 < limit ∧ limit ≤ engine.cfg.maxPayloads - (taken history).card
  | _ => True

/-- Nothing was listed or completed yet. -/
structure Untouched (engine : Engine) (history : List signature.Exchange) : Prop where
  scans : scanCalls history ≤ engine.cfg.maxEvents
  taken : taken history = 0
  completed : completed history = 0

theorem Untouched.append {engine : Engine} {history : List signature.Exchange}
    (untouched : Untouched engine history) {new : List signature.Exchange}
    (quiet : ∀ exchange ∈ new, exchange.op.Unlisted ∧ exchange.op.completes = 0) :
    Untouched engine (history ++ new) := by
  have same := sameSpent_append history fun exchange member => (quiet exchange member).1
  refine ⟨by rw [same.scans]; exact untouched.scans, by rw [same.taken, untouched.taken], ?_⟩
  rw [completed_append, untouched.completed, zero_add]
  refine List.sum_eq_zero fun refs member => ?_
  obtain ⟨exchange, inside, rfl⟩ := List.mem_map.mp member
  exact (quiet exchange inside).2

theorem deletePage_unlisted (dryRun : Bool) (sweep : Sweep) (dryPayloads : Finset GoString)
    (history : List signature.Exchange) :
    (deletePage dryRun sweep dryPayloads).Obeys
      (fun _ (op : Call) => op.Unlisted ∧ op.completes = 0) history fun _ _ => True := by
  refine (deletePage_archival dryRun sweep dryPayloads history).weaken fun _ op archival => ?_
  cases op with
  | scanRetentionEvents request => exact archival.elim
  | listPayloadCandidates before limit => exact archival.elim
  | completePayloadCandidate ref lastError => exact archival.elim
  | _ => exact ⟨trivial, rfl⟩

theorem Engine.budget_of_unlisted (engine : Engine) (history : List signature.Exchange) {op : Call}
    (unlisted : op.Unlisted) : engine.Budget history op := by
  cases op with
  | scanRetentionEvents request => exact unlisted.elim
  | listPayloadCandidates before limit => exact unlisted.elim
  | _ => trivial

theorem Untouched.snoc {engine : Engine} {history : List signature.Exchange}
    (untouched : Untouched engine history) {exchange : signature.Exchange}
    (unlisted : exchange.op.Unlisted) (silent : exchange.op.completes = 0) :
    Untouched engine (history ++ [exchange]) := by
  refine untouched.append fun other member => ?_
  rw [List.mem_singleton.mp member]
  exact ⟨unlisted, silent⟩

section Run

variable (engine : Engine) (dryRun : Bool) (now : Time)

/-- The scan stays within its budget: every scan before the last one returned an event. -/
theorem Engine.scanLoop_budget (fuel : Nat) (cursor : GoString) (dryPayloads : Finset GoString)
    (result : Result) (history : List signature.Exchange)
    (each : scanCalls history ≤ scannedEvents history)
    (counted : scannedEvents history = result.eventsScanned) (untouched : Untouched engine history) :
    (engine.scanLoop dryRun now fuel cursor dryPayloads result).Obeys engine.Budget history
      fun later _ => Untouched engine later := by
  induction fuel generalizing cursor dryPayloads result history with
  | zero => exact untouched
  | succ fuel ih =>
    unfold Engine.scanLoop
    split
    · rename_i within
      refine ⟨trivial, fun expired => ?_⟩
      rcases expired with _ | error
      · have asked := @sameSpent_snoc history ⟨.ctxErr, none⟩ trivial
        refine ⟨⟨?_, ?_⟩, fun reply => ?_⟩
        · have batch := engine.bounded.eventBatchSize.1
          show 0 < min _ _
          omega
        · show min _ _ ≤ _
          rw [asked.events, counted]
          exact min_le_right _ _
        · -- the scan is paid for by an event of every scan before it
          have scanned : Untouched engine (history ++ [⟨.ctxErr, none⟩] ++
              [⟨.scanRetentionEvents ⟨cursor, engine.scanLimit result.eventsScanned⟩, reply⟩]) := by
            refine ⟨?_, ?_, ?_⟩
            · rw [scanCalls_append, asked.scans]
              show ((scanCalls history + 1 : Nat) : Int) ≤ _
              omega
            · rw [taken_append, asked.taken, untouched.taken]
              rfl
            · rw [completed_snoc _ rfl, completed_snoc _ rfl, untouched.completed]
          rcases reply with error | page
          · exact scanned
          dsimp only
          split
          · exact scanned
          rename_i some
          refine Prog.obeys_bind ((((deletePage_unlisted dryRun _ dryPayloads _).extends.and
            (deletePage_scanned dryRun _ dryPayloads _)).weaken
            fun later op plain => engine.budget_of_unlisted later plain.1).mono ?_)
          rintro later value ⟨⟨new, rfl, quiet, _⟩, kept⟩
          have still := scanned.append quiet
          cases value with
          | error failure => exact still
          | ok next =>
            dsimp only
            split
            · have same := sameSpent_append (history ++ [⟨.ctxErr, none⟩] ++
                [⟨.scanRetentionEvents ⟨cursor, engine.scanLimit result.eventsScanned⟩, .ok page⟩])
                fun exchange member => (quiet exchange member).1
              have positive := List.length_pos_iff.mpr some
              have events : scannedEvents (history ++ [⟨.ctxErr, none⟩] ++
                  [⟨.scanRetentionEvents ⟨cursor, engine.scanLimit result.eventsScanned⟩,
                    .ok page⟩]) = scannedEvents history + page.events.length := by
                rw [scannedEvents_append, asked.events]
                show _ + (page.events ++ []).length = _
                rw [List.append_nil]
              refine ih _ _ _ _ ?_ ?_ still
              · rw [same.scans, same.events, events, scanCalls_append, asked.scans]
                show scanCalls history + 1 ≤ _
                omega
              · rw [same.events, events, kept next rfl, Engine.sweep_scanned, counted]
            · exact still
      · exact untouched.snoc trivial rfl
    · exact untouched

/-! ### The collection -/

/-- What holds before a round: every candidate taken so far was completed, once. -/
structure Paid (history : List signature.Exchange) (remaining : Int) : Prop where
  scans : scanCalls history ≤ engine.cfg.maxEvents
  completed : completed history = taken history
  remaining : remaining = engine.cfg.maxPayloads - (taken history).card
  bounded : (∀ exchange ∈ history, Bounded exchange) → (taken history).card ≤ engine.cfg.maxPayloads

/-- What holds at the end: no candidate was completed that was not taken. -/
structure Spent (history : List signature.Exchange) : Prop where
  scans : scanCalls history ≤ engine.cfg.maxEvents
  completed : completed history ≤ taken history
  bounded : (∀ exchange ∈ history, Bounded exchange) → (taken history).card ≤ engine.cfg.maxPayloads

variable {engine}

theorem Paid.spent {history : List signature.Exchange} {remaining : Int}
    (paid : Paid engine history remaining) : Spent engine history :=
  ⟨paid.scans, paid.completed.le, paid.bounded⟩

theorem Paid.snoc {history : List signature.Exchange} {remaining : Int}
    (paid : Paid engine history remaining) {exchange : signature.Exchange}
    (unlisted : exchange.op.Unlisted) (silent : exchange.op.completes = 0) :
    Paid engine (history ++ [exchange]) remaining := by
  have same := sameSpent_snoc history unlisted
  refine ⟨by rw [same.scans]; exact paid.scans, ?_, ?_, fun bounded => ?_⟩
  · rw [completed_snoc history silent, same.taken, paid.completed]
  · rw [same.taken]
    exact paid.remaining
  · rw [same.taken]
    exact paid.bounded (same.bounded bounded)

theorem Spent.snoc {history : List signature.Exchange} (spent : Spent engine history)
    {exchange : signature.Exchange} (unlisted : exchange.op.Unlisted)
    (silent : exchange.op.completes = 0) : Spent engine (history ++ [exchange]) := by
  have same := sameSpent_snoc history unlisted
  refine ⟨by rw [same.scans]; exact spent.scans, ?_, fun bounded => ?_⟩
  · rw [completed_snoc history silent, same.taken]
    exact spent.completed
  · rw [same.taken]
    exact spent.bounded (same.bounded bounded)

variable (engine)

theorem Engine.collectPage_unlisted (candidates : List Candidate) (live : GoString → Bool)
    (result : Result) (history : List signature.Exchange) :
    (engine.collectPage candidates live result).Obeys (fun _ (op : Call) => op.Unlisted) history
      fun _ _ => True := by
  refine Prog.pool_total _ (fun _ => trivial) (fun _ _ _ => trivial) _ _ _ ?_
    (fun _ member => (List.not_mem_nil member).elim) trivial _
  intro thread member
  obtain ⟨c, _, rfl⟩ := List.mem_map.mp member
  refine (engine.processCandidate_works c _).weaken fun _ op works => ?_
  cases op with
  | scanRetentionEvents request => exact works
  | listPayloadCandidates before limit => exact works
  | _ => trivial

theorem Paid.listed {engine : Engine} {history : List signature.Exchange} {remaining : Int}
    (paid : Paid engine history remaining) (before : Time)
    (reply : Except GoError (List Candidate)) :
    Spent engine (history ++ [⟨.listPayloadCandidates before (engine.pageLimit remaining), reply⟩]) := by
  have once : taken (history ++ [⟨.listPayloadCandidates before (engine.pageLimit remaining), reply⟩]) =
      taken history +
        listedRefs ⟨.listPayloadCandidates before (engine.pageLimit remaining), reply⟩ := by
    rw [taken_append]
    exact congrArg (taken history + ·) (add_zero _)
  refine ⟨?_, ?_, fun bounded => ?_⟩
  · rw [scanCalls_append]
    exact paid.scans
  · rw [completed_snoc _ rfl, once, paid.completed]
    exact Multiset.le_add_right _ _
  · have earlier := paid.bounded fun exchange member =>
      bounded exchange (List.mem_append_left _ member)
    rw [once, Multiset.card_add]
    rcases reply with error | page
    · exact earlier
    · -- the page is at most as large as the limit, and the limit as what is left
      have within : (page.length : Int) ≤ engine.pageLimit remaining :=
        bounded _ (List.mem_append_right _ (List.mem_singleton_self _)) _ _ page rfl
      have limit : engine.pageLimit remaining ≤ remaining := min_le_right _ _
      have some : ((refsOf (verified page)).card : Int) ≤ page.length := by
        show (((verified page).map Candidate.ref).length : Int) ≤ _
        rw [List.length_map]
        exact_mod_cast List.length_filter_le _ page
      have left := paid.remaining
      show ((_ + (refsOf (verified page)).card : Nat) : Int) ≤ _
      omega

theorem Engine.collectListed_budget (history : List signature.Exchange) (remaining : Int)
    (result : Result) (page : List Candidate) (paid : Paid engine history remaining) :
    (engine.collectListed remaining result page).Obeys engine.Budget
      (history ++ [⟨.listPayloadCandidates (now - engine.cfg.payloadGracePeriod)
        (engine.pageLimit remaining), .ok page⟩]) fun later value =>
      Sum.elim (fun _ => Spent engine later) (fun next => Paid engine later next.1) value := by
  have listed := paid.listed (now - engine.cfg.payloadGracePeriod) (.ok page)
  unfold Engine.collectListed
  split
  · exact listed
  refine ⟨trivial, fun reply => ?_⟩
  have checked := @Spent.snoc engine _ listed ⟨.referencedPayloads _, reply⟩ trivial rfl
  rcases reply with error | live
  · exact checked
  refine Prog.obeys_bind ((((engine.collectPage_unlisted (verified page) live _ _).extends.and
    (engine.collectPage_emits (verified page) live _ _)).weaken
    fun later op plain => engine.budget_of_unlisted later plain).mono ?_)
  rintro later total ⟨⟨new, rfl, quiet, _⟩, emitted⟩
  generalize before : history ++ [⟨.listPayloadCandidates (now - engine.cfg.payloadGracePeriod)
    (engine.pageLimit remaining), .ok page⟩] ++ [⟨.referencedPayloads
      ((verified page).map Candidate.ref), .ok live⟩] = middle at *
  have same := sameSpent_append middle quiet
  have refs : taken middle = taken history + refsOf (verified page) := by
    rw [← before, taken_append, taken_append]
    show _ + (_ + 0) + (0 + 0) = _
    rw [add_zero, add_zero, add_zero]
    rfl
  have done : completed middle = completed history := by
    rw [← before, completed_snoc _ rfl, completed_snoc _ rfl]
  have after : Paid engine (middle ++ new) (remaining - (verified page).length) := by
    refine ⟨?_, ?_, ?_, fun bounded => ?_⟩
    · rw [same.scans]
      exact checked.scans
    · rw [emitted, done, same.taken, refs, paid.completed]
    · rw [same.taken, refs, Multiset.card_add, paid.remaining]
      show _ = _ - ((_ + ((verified page).map Candidate.ref).length : Nat) : Int)
      rw [List.length_map]
      omega
    · rw [same.taken]
      exact checked.bounded (same.bounded bounded)
  cases next : pageDone remaining (engine.pageLimit remaining) (verified page).length total with
  | inl total => exact after.spent
  | inr left =>
    obtain ⟨_, _, rfl⟩ := pageDone_inr next
    exact after

theorem Engine.collectRound_budget (history : List signature.Exchange) (remaining : Int)
    (result : Result) (paid : Paid engine history remaining) :
    (engine.collectRound now remaining result).Obeys engine.Budget history fun later value =>
      Sum.elim (fun _ => Spent engine later) (fun next => Paid engine later next.1) value := by
  unfold Engine.collectRound
  split
  · rename_i positive
    refine ⟨trivial, fun expired => ?_⟩
    rcases expired with _ | error
    · have asked := @Paid.snoc engine history remaining paid ⟨.ctxErr, none⟩ trivial rfl
      refine ⟨⟨?_, ?_⟩, fun reply => ?_⟩
      · have batch := engine.bounded.payloadBatchSize.1
        show 0 < min _ _
        omega
      · rw [← asked.remaining]
        exact min_le_right _ _
      have listed := asked.listed (now - engine.cfg.payloadGracePeriod) reply
      rcases reply with error | page
      · exact listed
      · exact engine.collectListed_budget now _ remaining result page asked
    · have asked := @Paid.snoc engine history remaining paid ⟨.ctxErr, some error⟩ trivial rfl
      exact ⟨trivial, fun again => @Spent.snoc engine _ asked.spent ⟨.ctxErr, again⟩ trivial rfl⟩
  · exact ⟨trivial, fun error => @Spent.snoc engine _ paid.spent ⟨.ctxErr, error⟩ trivial rfl⟩

/-- **A run stays within its budget.** -/
theorem Engine.run_budget :
    (engine.run dryRun).Obeys engine.Budget [] fun later _ => Spent engine later := by
  have ends : ∀ {later : List signature.Exchange} (result : Result) (error : Option GoError),
      Spent engine later → (finish result error).Obeys engine.Budget later
        fun later _ => Spent engine later := by
    intro later result error spent
    exact ⟨trivial, fun time => @Spent.snoc engine _ spent ⟨.now, time⟩ trivial rfl⟩
  have closes : ∀ {later : List signature.Exchange} (result : Result)
      (total : Result × Option GoError), Spent engine later →
      (settle result total).Obeys engine.Budget later fun later _ => Spent engine later := by
    intro later result total spent
    obtain ⟨collected, _ | error⟩ := total
    · refine ⟨trivial, fun time => ⟨trivial, fun error => ?_⟩⟩
      exact @Spent.snoc engine _ (@Spent.snoc engine _ spent ⟨.now, time⟩ trivial rfl)
        ⟨.ctxErr, error⟩ trivial rfl
    · exact ends _ _ spent
  have scans : ∀ {history : List signature.Exchange} (start : Time) (result : Result),
      scanCalls history = 0 → scannedEvents history = result.eventsScanned →
      Untouched engine history →
      ((engine.scanLoop dryRun start (engine.cfg.maxEvents.toNat + 1) [] ∅ result).bind
        (engine.afterScan dryRun start)).Obeys engine.Budget history
          fun later _ => Spent engine later := by
    intro history start result none counted untouched
    refine Prog.obeys_bind ((engine.scanLoop_budget dryRun start _ [] ∅ result history
      (by omega) counted untouched).mono ?_)
    intro later value left
    have payloads := engine.bounded.maxPayloads.1
    have spent : Spent engine later := by
      refine ⟨left.scans, by rw [left.completed]; exact Multiset.zero_le _, fun _ => ?_⟩
      rw [left.taken, Multiset.card_zero]
      exact payloads.le
    rcases value with ⟨result, error⟩ | result
    · exact ends _ _ spent
    · refine Prog.obeys_bind ?_
      split
      · exact closes _ _ spent
      · refine (engine.collectLoop_obeys_rounds start (engine.collectRound_budget start) _ (by omega)
          (by omega) ⟨left.scans, left.completed.trans left.taken.symm, ?_, spent.bounded⟩).mono
          fun later total spent => closes _ total spent
        rw [left.taken, Multiset.card_zero]
        omega
  have events := engine.bounded.maxEvents.1
  have started : ∀ start : Time, Untouched engine [⟨.now, start⟩] :=
    fun start => ⟨events.le, rfl, rfl⟩
  refine ⟨trivial, fun start => ?_⟩
  refine Prog.obeys_bind ?_
  unfold reconcile
  split
  · exact scans start _ rfl rfl (started start)
  · refine ⟨trivial, fun reply => ?_⟩
    have reconciled := @Untouched.snoc engine _ (started start) ⟨.reconcileRetention, reply⟩ trivial rfl
    rcases reply with _ | error
    · exact scans start _ rfl rfl reconciled
    · refine ends _ _ ⟨reconciled.scans, ?_, fun _ => ?_⟩
      · exact le_of_eq rfl
      · exact engine.bounded.maxPayloads.1.le

end Run

/-- **The collection ends within its budget.** Every round that does not return lowers the budget, so
the fuel of the model is never used up. In every run there are at most `MaxEvents` scans; no scan
and no listing asks for more than what is left; every completed candidate was listed, and completed
once; and when no listing returns more than was asked for, at most `MaxPayloads` candidates are
taken. -/
theorem collection_within_budget (engine : Engine) (dryRun : Bool) :
    (∀ now remaining result history, (engine.collectRound now remaining result).Obeys anything history
      fun _ value => ∀ next, value = .inr next → 0 < remaining ∧ next.1 < remaining) ∧
    (∀ now result more, engine.collectLoop now (engine.cfg.maxPayloads.toNat + 1 + more)
      engine.cfg.maxPayloads result = engine.collectPayloads now result) ∧
    ∀ trace outcome, (engine.run dryRun).Trace trace (some outcome) →
      scanCalls trace ≤ engine.cfg.maxEvents ∧
      (∀ before request reply after, trace = before ++ ⟨.scanRetentionEvents request, reply⟩ :: after →
        0 < request.limit ∧ request.limit ≤ engine.cfg.maxEvents - scannedEvents before) ∧
      (∀ before time limit reply after,
        trace = before ++ ⟨.listPayloadCandidates time limit, reply⟩ :: after →
        0 < limit ∧ limit ≤ engine.cfg.maxPayloads - (taken before).card) ∧
      completed trace ≤ taken trace ∧
      ((∀ exchange ∈ trace, Bounded exchange) → (taken trace).card ≤ engine.cfg.maxPayloads) := by
  refine ⟨fun now remaining result history => engine.collectRound_lowers now remaining result history,
    fun now result more => ?_, fun trace outcome ran => ?_⟩
  · induction more with
    | zero => rfl
    | succ more ih =>
      rw [← ih]
      exact engine.collectLoop_fuel now (engine.cfg.maxPayloads.toNat + 1 + more) _ _ (by omega) (by omega)
  · obtain ⟨calls, final⟩ := (engine.run_budget dryRun).trace ran
    have spent := final outcome rfl
    refine ⟨spent.scans, ?_, ?_, spent.completed, spent.bounded⟩
    · exact fun before request reply after split => calls before _ after split
    · exact fun before time limit reply after split => calls before _ after split

/-! ### A store that returns more than was asked for -/

def singleConfig : Config := { defaultEventTTL := 1, maxPayloads := 1, archiver := true }

/-- An engine that may process one payload. -/
def singleEngine : Engine where
  cfg := singleConfig.withDefaults
  payloads := []
  quote := id
  bounded := singleConfig.bounded_withDefaults (by decide) (by decide)
  validated := by decide

/-- A store without events that lists the given candidates, all of them still referenced. -/
def listing (candidates : List Candidate) : (op : Call) → op.Reply
  | .now => (10 : Time)
  | .ctxErr => (none : Option GoError)
  | .reconcileRetention => (none : Option GoError)
  | .scanRetentionEvents _ => .ok ⟨[], [], false⟩
  | .loadArchiveEvents _ => .ok []
  | .write _ => .ok expiredReceipt
  | .recordArchive _ => (none : Option GoError)
  | .deleteRetentionEvents _ => ((⟨0, 0⟩ : DeleteResult), (none : Option GoError))
  | .listPayloadCandidates _ _ => .ok candidates
  | .referencedPayloads _ => .ok fun _ => true
  | .completePayloadCandidate _ _ => (none : Option GoError)
  | .delete _ => (none : Option GoError)
  | .schedule _ => (0 : Nat)

def someCandidate : Candidate := ⟨{ store := ascii "s", key := ascii "k" }, ascii "archive", 0, 0, 0, []⟩

theorem single_evaluated :
    (completed ((singleEngine.run false).play (listing [someCandidate])).1).card = 1 ∧
      (completed ((singleEngine.run false).play (listing [someCandidate, someCandidate])).1).card =
        2 := by
  decide

theorem collection_within_budget_single : ∃ trace outcome,
    (singleEngine.run false).Trace trace (some outcome) ∧ (completed trace).card = 1 ∧
      (completed trace).card ≤ singleEngine.cfg.maxPayloads := by
  have ran := Prog.play_trace (σ := signature) (listing [someCandidate]) (singleEngine.run false)
  obtain ⟨_, _, lists, among, bounded⟩ :=
    (collection_within_budget singleEngine false).2.2 _ _ ran
  refine ⟨_, _, ran, single_evaluated.1, ?_⟩
  have few := bounded fun exchange member before limit page same => by
    subst same
    obtain ⟨earlier, later, split⟩ := List.append_of_mem member
    have asked := (lists earlier before limit _ later split).1
    have one : Except.ok page = .ok [someCandidate] := Prog.play_reply _ _ member
    cases one
    exact asked
  have le := Multiset.card_le_card among
  omega

/-- **A page of two candidates where one was asked for**: both are processed, though `MaxPayloads` is
one. -/
theorem page_beyond_budget : singleEngine.cfg.maxPayloads = 1 ∧ ∃ trace outcome,
    (singleEngine.run false).Trace trace (some outcome) ∧ (completed trace).card = 2 :=
  ⟨rfl, _, _, Prog.play_trace (σ := signature) (listing [someCandidate, someCandidate])
    (singleEngine.run false), single_evaluated.2⟩

end Trail.Retention
