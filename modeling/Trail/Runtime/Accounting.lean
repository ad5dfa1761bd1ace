/-
**Accounting: every `Log` call is written, dropped or buffered.**

`State.pending` is what `counters.buffered` stands for: the queued events, the batches whose
`publish` has not made its decrement, and the calls between their `buffered.Add(1)` and their send
or their own decrement. The counters are `uint64`, so each of them is compared with a natural
number that cannot wrap:

* `Balanced.buffered`: `buffered` is the number of pending events;
* `Balanced.total`: written, dropped and pending events are the calls counted so far, plus the
  batches counted twice between the two counter updates of `publish`.
-/

import Trail.Runtime.Delivery

namespace Trail.Runtime

open Library

/-! ### What a call and a writer account for -/

namespace LogPoint

/-- Between `buffered.Add(1)` and the send or the decrement. -/
def reserved : LogPoint → Nat
  | .within _ .offer | .within _ .unreserve => 1
  | _ => 0

/-- The call is in one of the counters `written`, `dropped` and `buffered`, or its event is. -/
def counted : LogPoint → Nat
  | .within _ .offer | .within _ .unreserve | .within _ .leave | .within _ .wake | .returned => 1
  | _ => 0

end LogPoint

/-- What a call adds to `buffered`. -/
def Call.reserved (call : Call) : Nat := call.point.reserved

/-- What a call adds to the calls counted. -/
def Call.counted (call : Call) : Nat := call.point.counted

/-- The last `publish` of the goroutine, if any, has made its decrement. -/
def RunPoint.settled : RunPoint → Bool
  | .closeCall | .closeWait | .exiting | .exited => true
  | _ => false

/-- The queued events and the batch whose decrement is still to come. -/
def Writer.pending (x : Writer) : Nat :=
  x.queue.items.length + if x.point.settled then 0 else x.batch.length

/-- The batch between the two counter updates of `publish`. -/
def Writer.overlap (x : Writer) : Nat :=
  match x.point with
  | .publish _ .settle => x.batch.length
  | _ => 0

/-- What `buffered` stands for. -/
def State.pending (s : State) : Nat :=
  tally Writer.pending s.writers + tally Call.reserved s.calls

/-- What the counters add up to: the calls counted, and the batches counted twice. -/
def State.credit (s : State) : Nat :=
  tally Call.counted s.calls + tally Writer.overlap s.writers

/-- **The accounts of the process.** -/
structure Balanced (s : State) (writes drops : Nat) : Prop where
  written : s.counters.written = .ofNat writes
  dropped : s.counters.dropped = .ofNat drops
  buffered : s.counters.buffered = .ofNat s.pending
  total : writes + drops + s.pending = s.credit

theorem balanced_start : Balanced start 0 0 := ⟨rfl, rfl, rfl, rfl⟩

/-! ### One step -/

section Counters

variable (counters : Counters) (count : UInt64)

@[simp] theorem addBuffered_written : (counters.addBuffered count).written = counters.written := rfl

@[simp] theorem addBuffered_dropped : (counters.addBuffered count).dropped = counters.dropped := rfl

@[simp] theorem addBuffered_buffered :
    (counters.addBuffered count).buffered = counters.buffered + count := rfl

@[simp] theorem addDropped_written : (counters.addDropped count).written = counters.written := rfl

@[simp] theorem addDropped_dropped :
    (counters.addDropped count).dropped = counters.dropped + count := rfl

@[simp] theorem addDropped_buffered : (counters.addDropped count).buffered = counters.buffered := rfl

end Counters

theorem ofNat_succ_add_not (rest : Nat) : UInt64.ofNat (rest + 1) + ~~~0 = UInt64.ofNat rest := by
  have one : UInt64.ofNat 1 - 1 = 0 := by decide
  rw [← ofNat_add_not rest 1, one]

/-- **What a call does to the accounts**: the two sides of the balance move together. -/
theorem stepStage_accounts {w index : Nat} {x x' : Writer} {counters counters' : Counters}
    {event : Event} {stage : Stage} {choice : Choice} {point : LogPoint} {shown : Option Obs}
    (step : stepStage w index x counters event stage choice = some (x', counters', point, shown)) :
    x'.overlap = x.overlap ∧ counters'.written = counters.written ∧
      ∃ drops : Nat, counters'.dropped = counters.dropped + .ofNat drops ∧
        (∀ rest, counters.buffered = .ofNat (rest + (x.pending + (LogPoint.within w stage).reserved)) →
          counters'.buffered = .ofNat (rest + (x'.pending + point.reserved))) ∧
        drops + (x'.pending + point.reserved) + (LogPoint.within w stage).counted =
          x.pending + (LogPoint.within w stage).reserved + point.counted := by
  cases stage <;> cases choice <;> simp only [stepStage, reduceCtorEq] at step
  case offer.send =>
    obtain ⟨queue, sent, same⟩ := Option.map_eq_some_iff.mp step
    cases same
    have items := (Channel.send_items sent).1
    have grown : Writer.pending { x with queue := queue } = x.pending + 1 := by
      unfold Writer.pending
      dsimp only
      rw [items, List.length_append, List.length_singleton]
      omega
    refine ⟨rfl, rfl, 0, by simp, fun rest before => ?_, ?_⟩
    · rw [before, grown]
      rfl
    · rw [grown]
      simp [LogPoint.reserved, LogPoint.counted]
  case offer.stop | offer.default =>
    split at step
    · cases step
      exact ⟨rfl, rfl, 0, by simp, fun rest before => before, by
        simp [LogPoint.reserved, LogPoint.counted]⟩
    · cases step
  case checkAccepting.step | recheck.step =>
    cases step
    refine ⟨rfl, rfl, 0, by simp, fun rest before => ?_, ?_⟩ <;>
      cases x.accepting <;> simp_all [LogPoint.reserved, LogPoint.counted]
  case reserve.step =>
    cases step
    refine ⟨rfl, addBuffered_written _ _, 0, by simp, fun rest before => ?_, ?_⟩
    · rw [addBuffered_buffered, before]
      exact (UInt64.ofNat_add (rest + x.pending) 1).symm
    · simp [LogPoint.reserved, LogPoint.counted]
  case unreserve.step =>
    cases step
    refine ⟨rfl, addBuffered_written _ _, 0, ?_, fun rest before => ?_, ?_⟩
    · rw [addBuffered_dropped]
      exact (UInt64.add_zero _).symm
    · rw [addBuffered_buffered, before, LogPoint.reserved, ← Nat.add_assoc, ofNat_succ_add_not]
      rfl
    · simp [LogPoint.reserved, LogPoint.counted]
  case dropRefused.step | dropUnsent.step =>
    cases step
    exact ⟨rfl, rfl, 1, rfl, fun rest before => before, by
      simp [LogPoint.reserved, LogPoint.counted, Nat.add_comm]⟩
  all_goals
    cases step
    exact ⟨rfl, rfl, 0, by simp, fun rest before => before, by
      simp [LogPoint.reserved, LogPoint.counted, Writer.pending]⟩

/-- **What the goroutine does to the accounts.** -/
theorem RunStep.accounts {w : Nat} {x x' : Writer} {counters counters' : Counters}
    {shown : Option Obs} (step : RunStep w x counters x' counters' shown) :
    ∃ writes drops : Nat, counters'.written = counters.written + .ofNat writes ∧
      counters'.dropped = counters.dropped + .ofNat drops ∧
      (∀ rest, counters.buffered = .ofNat (rest + x.pending) →
        counters'.buffered = .ofNat (rest + x'.pending)) ∧
      writes + drops + x'.pending + x.overlap = x.pending + x'.overlap := by
  -- most steps move no counter
  have still : counters' = counters → x'.pending = x.pending → x'.overlap = x.overlap →
      ∃ writes drops : Nat, counters'.written = counters.written + .ofNat writes ∧
        counters'.dropped = counters.dropped + .ofNat drops ∧
        (∀ rest, counters.buffered = .ofNat (rest + x.pending) →
          counters'.buffered = .ofNat (rest + x'.pending)) ∧
        writes + drops + x'.pending + x.overlap = x.pending + x'.overlap := by
    rintro rfl pending overlap
    exact ⟨0, 0, by simp, by simp, fun rest before => by rw [pending, before], by omega⟩
  cases step with
  | receive resume event queue here taken =>
    have items := (Channel.receive_items taken).1
    refine still rfl ?_ ?_
    · rcases here with ⟨here, rfl⟩ | ⟨here, rfl⟩ <;> unfold Writer.pending <;> dsimp only <;>
        rw [here, items] <;> split <;> simp [RunPoint.settled] <;> omega
    · rcases here with ⟨here, rfl⟩ | ⟨here, rfl⟩ <;>
        by_cases full : x.batch.length + 1 = x.settings.batchSize <;>
        simp [Writer.overlap, here, full]
  | tick here =>
    refine still rfl ?_ ?_ <;> by_cases nothing : x.batch = [] <;>
      simp [Writer.pending, Writer.overlap, here, nothing, RunPoint.settled]
  | load here =>
    refine still rfl ?_ ?_ <;> by_cases nobody : x.inflight = 0 <;>
      simp [Writer.pending, Writer.overlap, here, nobody, RunPoint.settled]
  | drained here empty =>
    refine still rfl ?_ ?_ <;> by_cases nothing : x.batch = [] <;>
      simp [Writer.pending, Writer.overlap, here, nothing, RunPoint.settled]
  | wrote resume phase here outcome =>
    rcases outcome with rfl | ⟨error, rfl⟩ <;> refine still rfl ?_ ?_ <;>
      simp [Writer.pending, Writer.overlap, here, RunPoint.settled]
  | countError resume error here =>
    exact ⟨0, 0, by simp, by simp, fun rest before => by
      simpa [Writer.pending, here, RunPoint.settled] using before, by
      simp [Writer.pending, Writer.overlap, here, RunPoint.settled]⟩
  | drop resume error here =>
    refine ⟨0, x.batch.length, by simp, rfl, fun rest before => ?_, ?_⟩
    · simpa [Writer.pending, here, RunPoint.settled] using before
    · simp [Writer.pending, Writer.overlap, here, RunPoint.settled]
      omega
  | write resume here =>
    refine ⟨x.batch.length, 0, rfl, by simp, fun rest before => ?_, ?_⟩
    · simpa [Writer.pending, here, RunPoint.settled] using before
    · simp [Writer.pending, Writer.overlap, here, RunPoint.settled]
      omega
  | settle resume here =>
    -- the decrement takes the batch out of the pending events
    have before : x.pending = x.queue.items.length + x.batch.length := by
      simp [Writer.pending, here, RunPoint.settled]
    have after : (x.resume resume).pending = x.queue.items.length := by
      cases resume <;> simp [Writer.pending, Writer.resume, RunPoint.settled]
    have overlap : (x.resume resume).overlap = 0 := by
      cases resume <;> simp [Writer.overlap, Writer.resume]
    refine ⟨0, 0, by simp, by simp,
      fun rest buffered => ?_, ?_⟩
    · rw [addBuffered_buffered, buffered, before, after, ← Nat.add_assoc]
      exact ofNat_add_not _ _
    · rw [before, after, overlap]
      simp [Writer.overlap, here]
  | stop here | wake wake here | writeBatch resume here | closeSink here | closed error here
  | exit here =>
    refine still rfl ?_ ?_ <;> simp [Writer.pending, Writer.overlap, here, RunPoint.settled]

/-! ### Every step keeps the balance -/

/-- **A step of one thread keeps the balance** when its own part of the pending events goes from
`old` to `fresh`, its part of the credit from `due` to `paid`, and the counters follow. -/
theorem Balanced.move {s s' : State} {writes drops : Nat} (balanced : Balanced s writes drops)
    (old fresh due paid writes' drops' : Nat)
    (written : s'.counters.written = s.counters.written + .ofNat writes')
    (dropped : s'.counters.dropped = s.counters.dropped + .ofNat drops')
    (buffered : ∀ rest, s.counters.buffered = .ofNat (rest + old) →
      s'.counters.buffered = .ofNat (rest + fresh))
    (least : old ≤ s.pending) (pending : s'.pending + old = s.pending + fresh)
    (credit : s'.credit + due = s.credit + paid)
    (moves : writes' + drops' + fresh + due = old + paid) :
    Balanced s' (writes + writes') (drops + drops') := by
  have total := balanced.total
  refine ⟨?_, ?_, ?_, by omega⟩
  · rw [written, balanced.written, UInt64.ofNat_add]
  · rw [dropped, balanced.dropped, UInt64.ofNat_add]
  · have before : s.counters.buffered = .ofNat (s.pending - old + old) := by
      rw [balanced.buffered, Nat.sub_add_cancel least]
    rw [buffered _ before]
    congr 1
    omega

theorem Balanced.callStep {s s' : State} {index : Nat} {shown : Option Obs} {writes drops : Nat}
    (balanced : Balanced s writes drops) (step : CallStep s index s' shown) :
    ∃ drops', Balanced s' writes drops' := by
  -- the part of the call in the two totals, before and after it moves
  have parts : ∀ {call : Call} (point : LogPoint), s.calls[index]? = some call →
      tally Call.reserved (s.calls.set index { call with point := point }) + call.point.reserved =
        tally Call.reserved s.calls + point.reserved ∧
      tally Call.counted (s.calls.set index { call with point := point }) + call.point.counted =
        tally Call.counted s.calls + point.counted ∧
      call.point.reserved ≤ tally Call.reserved s.calls :=
    fun {call} point here => ⟨tally_set Call.reserved here { call with point := point },
      tally_set Call.counted here { call with point := point }, weigh_le_tally Call.reserved here⟩
  have same : ∀ value : UInt64, value = value + .ofNat 0 := fun value => (UInt64.add_zero value).symm
  cases step with
  | load call here stands =>
    have loaded : ∀ point : LogPoint, point.reserved = 0 → point.counted = 0 →
        Balanced { s with calls := s.calls.set index { call with point := point } } writes drops := by
      intro point free uncounted
      obtain ⟨reserved, counted, _⟩ := parts point here
      rw [stands, free] at reserved
      rw [stands, uncounted] at counted
      refine balanced.move 0 0 0 0 0 0 (same _) (same _) (fun _ same => same)
        (Nat.zero_le _) ?_ ?_ rfl
      all_goals
        simp only [State.pending, State.credit]
        simp only [LogPoint.reserved, LogPoint.counted] at reserved counted
        omega
    refine ⟨drops, loaded _ ?_ ?_⟩ <;> cases s.current <;> rfl
  | dropInactive call here stands =>
    obtain ⟨reserved, counted, _⟩ := parts .returned here
    rw [stands] at reserved counted
    simp only [LogPoint.reserved, LogPoint.counted] at reserved counted
    refine ⟨drops + 1, balanced.move 0 0 0 1 0 1 (same _) rfl (fun _ same => same)
      (Nat.zero_le _) ?_ ?_ rfl⟩
    all_goals
      simp only [State.pending, State.credit]
      omega
  | @within call w stage choice x x' counters point shown here stands writer moved =>
    obtain ⟨reserved, counted, least⟩ := parts point here
    obtain ⟨overlap, written, drops', dropped, buffered, moves⟩ := stepStage_accounts moved
    have pending := tally_set Writer.pending writer x'
    have twice := tally_set Writer.overlap writer x'
    have held := weigh_le_tally Writer.pending writer
    rw [stands] at reserved counted least
    refine ⟨drops + drops', balanced.move _ _ (LogPoint.within w stage).counted point.counted 0
      drops' (written.trans (same _)) dropped buffered ?_ ?_ ?_ (by omega)⟩
    all_goals
      simp only [State.pending, State.credit]
      omega

theorem Balanced.holderStep {s s' : State} {shown : Option Obs} {writes drops : Nat}
    (good : Good s) (balanced : Balanced s writes drops) (step : HolderStep s s' shown) :
    Balanced s' writes drops := by
  have replaced : ∀ {w : Nat} {x x' : Writer} {s' : State}, s.writers[w]? = some x →
      s'.writers = s.writers.set w x' → s'.calls = s.calls → s'.counters = s.counters →
      x'.pending = x.pending → x'.overlap = x.overlap → Balanced s' writes drops := by
    intro w x x' s' writer writers calls counters pending overlap
    have first := tally_set Writer.pending writer x'
    have second := tally_set Writer.overlap writer x'
    have samePending : s'.pending = s.pending := by
      rw [State.pending, State.pending, writers, calls]
      omega
    have sameCredit : s'.credit = s.credit := by
      rw [State.credit, State.credit, writers, calls]
      omega
    refine ⟨counters ▸ balanced.written, counters ▸ balanced.dropped, ?_, ?_⟩
    · rw [counters, samePending, balanced.buffered]
    · rw [samePending, sameCredit, balanced.total]
  cases step with
  | initStore cfg settings holds none accepted =>
    have pending : tally Writer.pending (s.writers ++ [newWriter settings]) =
        tally Writer.pending s.writers := tally_append _ _ _
    have overlap : tally Writer.overlap (s.writers ++ [newWriter settings]) =
        tally Writer.overlap s.writers := tally_append _ _ _
    refine ⟨balanced.written, balanced.dropped, ?_, ?_⟩
    · rw [State.pending, pending]
      exact balanced.buffered
    · rw [State.pending, State.credit, pending, overlap]
      exact balanced.total
  | spawn w x holds writer =>
    have idle : x.point = .idle := by
      have fits := good.fits w x writer
      rw [State.role, holds] at fits
      simp only [if_true] at fits
      exact fits.2.2
    refine replaced writer rfl rfl rfl ?_ ?_
    · simp [Writer.pending, idle, RunPoint.settled]
    · simp [Writer.overlap, idle]
  | refuse w x holds writer => exact replaced writer rfl rfl rfl rfl rfl
  | stop w x holds writer => exact replaced writer rfl rfl rfl rfl rfl
  | initFailed | closeInactive | swap | closed =>
    exact ⟨balanced.written, balanced.dropped, balanced.buffered, balanced.total⟩

/-- **Every step keeps the balance.** -/
theorem Balanced.step {s s' : State} {shown : Option Obs} {writes drops : Nat} (good : Good s)
    (balanced : Balanced s writes drops) (step : Step s s' shown) :
    ∃ writes' drops', Balanced s' writes' drops' := by
  cases step with
  | log event =>
    have reserved : tally Call.reserved (s.calls ++ [⟨event, .load⟩]) =
        tally Call.reserved s.calls := tally_append _ _ _
    have counted : tally Call.counted (s.calls ++ [⟨event, .load⟩]) =
        tally Call.counted s.calls := tally_append _ _ _
    refine ⟨writes, drops, balanced.written, balanced.dropped, ?_, ?_⟩
    · rw [State.pending, reserved]
      exact balanced.buffered
    · rw [State.pending, State.credit, reserved, counted]
      exact balanced.total
  | call index moved => exact ⟨writes, balanced.callStep moved⟩
  | @run x x' counters shown w writer moved =>
    obtain ⟨writes', drops', written, dropped, buffered, moves⟩ := moved.accounts
    have pending := tally_set Writer.pending writer x'
    have overlap := tally_set Writer.overlap writer x'
    have held := weigh_le_tally Writer.pending writer
    refine ⟨_, _, balanced.move _ _ x.overlap x'.overlap writes' drops' written dropped buffered
      ?_ ?_ ?_ (by omega)⟩
    all_goals
      simp only [State.pending, State.credit]
      omega
  | lock holder =>
    exact ⟨writes, drops, balanced.written, balanced.dropped, balanced.buffered, balanced.total⟩
  | hold moved => exact ⟨writes, drops, balanced.holderStep good moved⟩

/-- **The accounts balance in every reachable state.** -/
theorem balanced_of_reaches {trace : List Obs} {s : State} (reach : machine.Reaches trace s) :
    ∃ writes drops, Balanced s writes drops :=
  reach.invariant (fun _ s => ∃ writes drops, Balanced s writes drops) ⟨0, 0, balanced_start⟩
    fun _ _ _ _ _ before ⟨_, _, balanced⟩ step =>
      balanced.step (good_of_reaches before) (step_cases step)

/-! ### Rest and shutdown -/

/-- No `Log` call and no `publish` is in progress. -/
def State.AtRest (s : State) : Prop :=
  (∀ call ∈ s.calls, call.point = .returned) ∧
    ∀ x ∈ s.writers, ∀ (resume : Resume) (phase : Phase), x.point ≠ .publish resume phase

theorem State.AtRest.credit {s : State} (rest : s.AtRest) : s.credit = s.calls.length := by
  have counted : tally Call.counted s.calls = s.calls.length := by
    refine tally_eq_length _ fun call member => ?_
    rw [Call.counted, rest.1 call member]
    rfl
  have overlap : tally Writer.overlap s.writers = 0 := by
    refine tally_eq_zero _ fun x member => ?_
    unfold Writer.overlap
    split
    · exact absurd ‹_› (rest.2 x member _ _)
    · rfl
  rw [State.credit, counted, overlap, Nat.add_zero]

/-- Only `Init` ends a shutdown. -/
theorem State.Shut.step {s s' : State} {shown : Option Obs} (shut : s.Shut) (step : Step s s' shown)
    (silent : ∀ w, shown ≠ some (.initialized w)) : s'.Shut := by
  obtain ⟨none, holder⟩ := shut
  cases step with
  | log event => exact ⟨none, holder⟩
  | call index moved => cases moved <;> exact ⟨none, holder⟩
  | run w writer moved => exact ⟨none, holder⟩
  | lock taken free kind => exact ⟨none, .inr kind⟩
  | hold moved =>
    cases moved with
    | initFailed cfg error holds => exact ⟨none, .inl rfl⟩
    | initStore => exact absurd rfl (silent _)
    | closeInactive holds => exact ⟨none, .inl rfl⟩
    | swap w holds current =>
      rw [none] at current
      cases current
    | spawn w x holds | refuse w x holds | stop w x holds | closed w x holds =>
      rw [holds] at holder
      simp at holder

/-- While the process is shut nothing is pending, whoever still holds a closed writer. -/
theorem Good.pending_eq_zero {s : State} (good : Good s) (shut : s.Shut) : s.pending = 0 := by
  have writers : tally Writer.pending s.writers = 0 := by
    refine tally_eq_zero _ fun x member => ?_
    obtain ⟨w, writer⟩ := List.mem_iff_getElem?.mp member
    have exited := good.exited shut writer
    have emptied := (good.sound w x writer).emptied (by rw [exited]; rfl)
    simp [Writer.pending, exited, emptied, RunPoint.settled]
  have calls : tally Call.reserved s.calls = 0 := by
    refine tally_eq_zero _ fun call member => ?_
    obtain ⟨index, here⟩ := List.mem_iff_getElem?.mp member
    -- a call with a reservation would hold a writer past its drain
    cases stands : call.point with
    | within w stage =>
      have writer := List.getElem?_eq_getElem (good.loaded index call w stage here stands)
      have drained := (good.sound w _ writer).drained (by rw [good.exited shut writer]; rfl)
      have weight : call.point.weight Stage.holding w ≤ s.census Stage.holding w :=
        weigh_le_tally (fun call : Call => call.point.weight Stage.holding w) here
      rw [drained, stands] at weight
      rw [Call.reserved, stands]
      cases stage <;> first | rfl | simp [LogPoint.weight, Stage.holding] at weight
    | _ =>
      rw [Call.reserved, stands]
      rfl
  rw [State.pending, writers, calls]

/-- **Accounting.** In every reachable state `buffered` is the number of queued events, batch
events without their decrement and calls with a reservation, and no decrement takes more than that;
at rest the calls made are those written, dropped and buffered; and from the return of a `Close` to
the next `Init` that installs a writer, `buffered` is zero. -/
theorem accounting {trace : List Obs} {s : State} (reach : machine.Reaches trace s) :
    s.counters.buffered = .ofNat s.pending ∧
    (s.pending < 2 ^ 64 → s.counters.buffered.toNat = s.pending) ∧
    (∀ x ∈ s.writers, ∀ resume, x.point = .publish resume .settle → x.batch.length ≤ s.pending) ∧
    (∀ call ∈ s.calls, ∀ w, call.point = .within w .unreserve → 1 ≤ s.pending) ∧
    (s.AtRest → .ofNat s.calls.length =
        s.counters.written + s.counters.dropped + s.counters.buffered ∧
      (s.calls.length < 2 ^ 64 → s.calls.length =
        s.counters.written.toNat + s.counters.dropped.toNat + s.counters.buffered.toNat)) ∧
    (∀ (before after : List Obs) (closed : Option Nat) (errors : List GoError),
      trace = before ++ .closeReturned closed errors :: after → (∀ w, .initialized w ∉ after) →
      s.counters.buffered = 0) := by
  obtain ⟨writes, drops, balanced⟩ := balanced_of_reaches reach
  have exact : ∀ count : Nat, count < 2 ^ 64 → (UInt64.ofNat count).toNat = count :=
    fun count small => UInt64.toNat_ofNat_of_lt' small
  refine ⟨balanced.buffered, fun small => by rw [balanced.buffered, exact _ small], ?_, ?_, ?_, ?_⟩
  · intro x member resume here
    obtain ⟨w, writer⟩ := List.mem_iff_getElem?.mp member
    have held := weigh_le_tally Writer.pending writer
    simp only [Writer.pending, here, RunPoint.settled, Bool.false_eq_true, if_false] at held
    unfold State.pending
    omega
  · intro call member w here
    obtain ⟨index, there⟩ := List.mem_iff_getElem?.mp member
    have held := weigh_le_tally Call.reserved there
    rw [Call.reserved, here] at held
    exact held.trans (Nat.le_add_left _ _)
  · intro rest
    have total := balanced.total
    rw [rest.credit] at total
    refine ⟨?_, fun small => ?_⟩
    · rw [← total, UInt64.ofNat_add, UInt64.ofNat_add, balanced.written, balanced.dropped,
        balanced.buffered]
    · rw [balanced.written, balanced.dropped, balanced.buffered, exact _ (by omega),
        exact _ (by omega), exact _ (by omega), total]
  · intro before after closed errors cut quiet
    obtain ⟨middle, next, action, early, step, late⟩ := Machine.Runs.split reach cut
    have start := ((step_cases step).closeReturned (good_of_reaches early) rfl).1
    have shut := late.invariant (fun trace s => (∀ w, .initialized w ∉ trace) → s.Shut)
      (fun _ => start) (fun trace s next action shown _ before moved silent => by
        refine (before fun w member => silent w (List.mem_append_left _ member)).step
          (step_cases moved) ?_
        rintro w rfl
        exact silent w (List.mem_append_right _ (List.mem_singleton_self _))) quiet
    rw [balanced.buffered, (good_of_reaches reach).pending_eq_zero shut]
    rfl

theorem accounting_lifecycle : ∃ s, machine.Reaches lifecycleTrace s ∧ s.counters.buffered = 0 := by
  obtain ⟨s, reach⟩ := reaches_lifecycle
  refine ⟨s, reach, (accounting reach).2.2.2.2.2 (lifecycleTrace.take 5) [] (some 0) [] ?_ ?_⟩
  · decide
  · simp

end Trail.Runtime
