/-
**What holds in every state of the runtime.**

The invariant of one writer, `Sound`, sees the rest of the process through three tallies over the
`Log` calls that have loaded this writer:

* `section`: the calls between their `inflight.Add(1)` and their deferred decrement,
* `holding`: those of them that have passed the second accepting check and not yet been refused,
* `owing`: those that have still to offer a token to `wake`.

A call in the section is counted by `inflight`; once `waitForProducers` has read zero no call is
holding, and none can start to, because `accepting` is false by then. That is what makes the final
drain final.

`Role` says which of the writers the mutex and `global.current` concern: at most one writer is not
retired. `Good` is the whole invariant and `good` proves it of every reachable state.
-/

import Trail.Runtime.Steps

namespace Trail.Runtime

open Library

/-! ### Tallies over the calls of one writer -/

namespace Stage

/-- Between `inflight.Add(1)` and `inflight.Add(-1)`. -/
def inSection : Stage → Nat
  | .checkAccepting | .enter | .wake => 0
  | _ => 1

/-- Past the accepting check of `enqueue`, and not done with the queue. -/
def holding : Stage → Nat
  | .reserve | .offer | .unreserve | .dropUnsent => 1
  | _ => 0

/-- Between `inflight.Add(1)` and the offer of a token to `wake`. -/
def owing : Stage → Nat
  | .checkAccepting | .enter => 0
  | _ => 1

end Stage

/-- The weight of a point, for one writer. -/
def LogPoint.weight (weigh : Stage → Nat) (w : Nat) : LogPoint → Nat
  | .within v stage => if v = w then weigh stage else 0
  | _ => 0

/-- A weight summed over the calls that have loaded the writer. -/
def State.census (s : State) (weigh : Stage → Nat) (w : Nat) : Nat :=
  tally (fun call => call.point.weight weigh w) s.calls

/-! ### The invariant of one writer -/

namespace RunPoint

/-- Past the `w.stop` case of the loop. -/
def afterStop : RunPoint → Bool
  | .waitLoad | .waitWake | .drain | .publish .drain _ | .publish .finish _ => true
  | .closeCall | .closeWait | .exiting | .exited => true
  | _ => false

/-- Past `waitForProducers`. -/
def afterWait : RunPoint → Bool
  | .waitLoad | .waitWake => false
  | point => point.afterStop

/-- Past the final drain of the queue. -/
def afterDrain : RunPoint → Bool
  | .publish .finish _ | .closeCall | .closeWait | .exiting | .exited => true
  | _ => false

end RunPoint

/-- There is room in the batch. -/
def Writer.Filling (x : Writer) : Prop := x.batch.length < x.settings.batchSize

/-- The batch can be published. -/
def Writer.Ready (x : Writer) : Prop := 0 < x.batch.length ∧ x.batch.length ≤ x.settings.batchSize

/-- What holds of a writer while its goroutine stands at a point. -/
def Writer.Facts (x : Writer) (holding owing : Nat) : RunPoint → Prop
  | .idle | .select => x.Filling
  | .publish .loop _ => x.Ready
  | .waitLoad => x.stopClosed = true ∧ x.Filling
  | .waitWake => x.stopClosed = true ∧ x.Filling ∧ (x.wake.items ≠ [] ∨ 0 < owing)
  | .drain => x.stopClosed = true ∧ holding = 0 ∧ x.Filling
  | .publish .drain _ => x.stopClosed = true ∧ holding = 0 ∧ x.Ready
  | .publish .finish _ => x.stopClosed = true ∧ holding = 0 ∧ x.queue.items = [] ∧ x.Ready
  | .closeCall | .closeWait | .exiting | .exited =>
    x.stopClosed = true ∧ holding = 0 ∧ x.queue.items = []

/-- **The invariant of one writer**, given the tallies of the calls that have loaded it. -/
structure Sound (x : Writer) (inSection holding owing : Nat) : Prop where
  queueCapacity : x.queue.capacity = x.settings.capacity
  wakeCapacity : x.wake.capacity = 1
  inflight : x.inflight = inSection
  refuses : x.stopClosed = true → x.accepting = false
  done : x.doneClosed = true ↔ x.point = .exited
  facts : x.Facts holding owing x.point

theorem sound_newWriter (settings : Settings) : Sound (newWriter settings) 0 0 0 := by
  refine ⟨rfl, rfl, rfl, ?_, ?_, settings.batchSize_pos⟩ <;> simp [newWriter]

/-- A token is in `wake` after it was offered. -/
theorem wake_offered {wake : Channel Unit} (capacity : wake.capacity = 1) :
    ((wake.send ()).getD wake).items ≠ [] ∧ ((wake.send ()).getD wake).capacity = 1 := by
  cases sent : wake.send () with
  | some after =>
    obtain ⟨items, same⟩ := Channel.send_items sent
    rw [Option.getD_some, items, same]
    exact ⟨by simp, capacity⟩
  | none =>
    have full : ¬ (wake.send ()).isSome := by rw [sent]; simp
    rw [Channel.send_isSome_iff, capacity] at full
    refine ⟨fun empty => full ?_, capacity⟩
    rw [Option.getD_none] at empty
    rw [empty]
    exact Nat.one_pos

section Facts

variable {x : Writer} {inSection holding owing : Nat}

theorem Sound.stopped (sound : Sound x inSection holding owing)
    (late : x.point.afterStop = true) : x.stopClosed = true := by
  have facts := sound.facts
  cases here : x.point with
  | publish resume phase =>
    rw [here] at facts late
    cases resume with
    | loop => cases late
    | drain => exact facts.1
    | finish => exact facts.1
  | idle | select =>
    rw [here] at late
    cases late
  | _ =>
    rw [here] at facts
    exact facts.1

theorem Sound.drained (sound : Sound x inSection holding owing)
    (late : x.point.afterWait = true) : holding = 0 := by
  have facts := sound.facts
  cases here : x.point with
  | publish resume phase =>
    rw [here] at facts late
    cases resume with
    | loop => cases late
    | drain => exact facts.2.1
    | finish => exact facts.2.1
  | idle | select | waitLoad | waitWake =>
    rw [here] at late
    cases late
  | _ =>
    rw [here] at facts
    exact facts.2.1

theorem Sound.emptied (sound : Sound x inSection holding owing)
    (late : x.point.afterDrain = true) : x.queue.items = [] := by
  have facts := sound.facts
  cases here : x.point with
  | publish resume phase =>
    rw [here] at facts late
    cases resume with
    | loop | drain => cases late
    | finish => exact facts.2.2.1
  | idle | select | waitLoad | waitWake | drain =>
    rw [here] at late
    cases late
  | _ =>
    rw [here] at facts
    exact facts.2.2

theorem Writer.Facts.transfer {y : Writer} {holding' owing' : Nat} {point : RunPoint}
    (facts : x.Facts holding owing point) (settings : y.settings = x.settings)
    (batch : y.batch = x.batch) (stop : y.stopClosed = x.stopClosed)
    (drained : point.afterWait = true → holding = 0 → holding' = 0)
    (emptied : point.afterDrain = true → x.queue.items = [] → y.queue.items = [])
    (waiting : point = .waitWake → x.wake.items ≠ [] ∨ 0 < owing →
      y.wake.items ≠ [] ∨ 0 < owing') : y.Facts holding' owing' point := by
  have filling : x.Filling → y.Filling := by
    unfold Writer.Filling
    rw [settings, batch]
    exact id
  have ready : x.Ready → y.Ready := by
    unfold Writer.Ready
    rw [settings, batch]
    exact id
  cases point with
  | idle | select => exact filling facts
  | publish resume phase =>
    cases resume with
    | loop => exact ready facts
    | drain => exact ⟨stop ▸ facts.1, drained rfl facts.2.1, ready facts.2.2⟩
    | finish =>
      exact ⟨stop ▸ facts.1, drained rfl facts.2.1, emptied rfl facts.2.2.1, ready facts.2.2.2⟩
  | waitLoad => exact ⟨stop ▸ facts.1, filling facts.2⟩
  | waitWake => exact ⟨stop ▸ facts.1, filling facts.2.1, waiting rfl facts.2.2⟩
  | drain => exact ⟨stop ▸ facts.1, drained rfl facts.2.1, filling facts.2.2⟩
  | _ => exact ⟨stop ▸ facts.1, drained rfl facts.2.1, emptied rfl facts.2.2⟩

theorem RunPoint.afterStop_of_afterWait {point : RunPoint} (late : point.afterWait = true) :
    point.afterStop = true := by
  cases point with
  | publish resume phase => exact late
  | _ => first | exact late | cases late

theorem RunPoint.afterWait_of_afterDrain {point : RunPoint} (late : point.afterDrain = true) :
    point.afterWait = true := by
  cases point with
  | publish resume phase => cases resume <;> first | rfl | cases late
  | _ => first | rfl | cases late

end Facts

/-! ### A step of a `Log` call -/

section StepStage

variable {w index : Nat} {x x' : Writer} {counters counters' : Counters} {event : Event}
  {stage : Stage} {choice : Choice} {point : LogPoint} {shown : Option Obs}

/-- `inflight` follows the calls in the section. -/
theorem stepStage_inflight
    (step : stepStage w index x counters event stage choice = some (x', counters', point, shown)) :
    x'.inflight + stage.inSection = x.inflight + point.weight Stage.inSection w := by
  cases stage <;> cases choice <;> simp only [stepStage, reduceCtorEq] at step
  case offer.send =>
    obtain ⟨queue, _, same⟩ := Option.map_eq_some_iff.mp step
    cases same
    simp [LogPoint.weight, Stage.inSection]
  case offer.stop | offer.default =>
    split at step
    · cases step
      simp [LogPoint.weight, Stage.inSection]
    · cases step
  case checkAccepting.step | recheck.step =>
    cases step
    cases x.accepting <;> simp [LogPoint.weight, Stage.inSection]
  all_goals
    cases step
    simp [LogPoint.weight, Stage.inSection]

theorem stepStage_holding
    (step : stepStage w index x counters event stage choice = some (x', counters', point, shown))
    (refusing : x.accepting = false) (free : stage.holding = 0) :
    point.weight Stage.holding w = 0 := by
  cases stage <;> cases choice <;> simp only [stepStage, reduceCtorEq] at step
  case offer.send | offer.stop | offer.default => cases free
  all_goals
    cases step
    simp_all [LogPoint.weight, Stage.holding]

/-- A call that stops owing a token has left one in `wake`. -/
theorem stepStage_wake
    (step : stepStage w index x counters event stage choice = some (x', counters', point, shown))
    (capacity : x.wake.capacity = 1) :
    x'.wake.capacity = 1 ∧ (x'.wake.items ≠ [] ∨
      (x'.wake = x.wake ∧ stage.owing ≤ point.weight Stage.owing w)) := by
  cases stage <;> cases choice <;> simp only [stepStage, reduceCtorEq] at step
  case offer.send =>
    obtain ⟨queue, _, same⟩ := Option.map_eq_some_iff.mp step
    cases same
    exact ⟨capacity, .inr ⟨rfl, by simp [LogPoint.weight, Stage.owing]⟩⟩
  case offer.stop | offer.default =>
    split at step
    · cases step
      exact ⟨capacity, .inr ⟨rfl, by simp [LogPoint.weight, Stage.owing]⟩⟩
    · cases step
  case wake.step =>
    cases step
    exact ⟨(wake_offered capacity).2, .inl (wake_offered capacity).1⟩
  case checkAccepting.step | recheck.step =>
    cases step
    refine ⟨capacity, .inr ⟨rfl, ?_⟩⟩
    cases x.accepting <;> simp [LogPoint.weight, Stage.owing]
  all_goals
    cases step
    exact ⟨capacity, .inr ⟨rfl, by simp [LogPoint.weight, Stage.owing]⟩⟩

/-- **A call keeps the invariant of its writer.** Each tally loses the weight of the old point and
gains that of the new one. -/
theorem Sound.stepStage {inSection holding owing inSection' holding' owing' : Nat}
    (sound : Sound x inSection holding owing)
    (step : Runtime.stepStage w index x counters event stage choice =
      some (x', counters', point, shown))
    (sectionMoves : inSection' + stage.inSection = inSection + point.weight Stage.inSection w)
    (holdingMoves : holding' + stage.holding = holding + point.weight Stage.holding w)
    (owingMoves : owing' + stage.owing = owing + point.weight Stage.owing w)
    (held : stage.holding ≤ holding) : Sound x' inSection' holding' owing' := by
  have frame := stepStage_frame step
  have inflight := stepStage_inflight step
  have wake := stepStage_wake step sound.wakeCapacity
  have refusing : x.point.afterWait = true → x.accepting = false := fun late =>
    sound.refuses (sound.stopped (RunPoint.afterStop_of_afterWait late))
  have queue := stepStage_queue step
  -- past the drain no call holds the writer, so none can be at the queue
  have unheld : x.point.afterDrain = true → stage.holding = 0 := fun late =>
    Nat.le_zero.mp (sound.drained (RunPoint.afterWait_of_afterDrain late) ▸ held)
  have samePoint : x'.point = x.point := by rw [frame]
  refine ⟨?_, wake.1, ?_, ?_, ?_, ?_⟩
  · rcases queue with ⟨_, same⟩ | ⟨_, _, _, sent⟩
    · rw [same, frame]
      exact sound.queueCapacity
    · rw [(Channel.send_items sent).2, frame]
      exact sound.queueCapacity
  · have := sound.inflight
    omega
  · rw [frame]
    exact sound.refuses
  · rw [frame]
    exact sound.done
  · rw [samePoint]
    refine sound.facts.transfer (by rw [frame]) (by rw [frame]) (by rw [frame]) ?_ ?_ ?_
    · intro late none
      have free : stage.holding = 0 := by omega
      have := stepStage_holding step (refusing late) free
      omega
    · intro late empty
      rcases queue with ⟨_, same⟩ | ⟨rfl, _⟩
      · rw [same]
        exact empty
      · cases unheld late
    · intro _ before
      rcases wake.2 with token | ⟨same, stays⟩
      · exact .inl token
      · rcases before with token | some
        · exact .inl (same ▸ token)
        · right
          omega

end StepStage

/-! ### A step of the goroutine -/

section StepRun

variable {w : Nat} {x x' : Writer} {counters counters' : Counters} {shown : Option Obs}

/-- `done` is closed when the goroutine exits. -/
theorem RunStep.done (step : RunStep w x counters x' counters' shown)
    (before : x.doneClosed = true ↔ x.point = .exited) :
    x'.doneClosed = true ↔ x'.point = .exited := by
  obtain ⟨_, _, _, _, _, running, _⟩ := step.frame
  have notDone : x.doneClosed ≠ true := fun closed => running (before.mp closed)
  cases step with
  | receive resume event queue here =>
    dsimp only
    split <;> simp [notDone, running]
  | tick here | load here | drained here =>
    dsimp only
    split <;> simp [notDone]
  | settle resume here => cases resume <;> simp [Writer.resume, notDone]
  | exit here => simp
  | _ => simp [notDone]

theorem Writer.Filling.receive {event : Event} {queue : Channel Event} {point : RunPoint}
    (filling : x.Filling) :
    ((x.batch ++ [event]).length = x.settings.batchSize →
        Writer.Ready { x with queue := queue, batch := x.batch ++ [event], point := point }) ∧
      ((x.batch ++ [event]).length ≠ x.settings.batchSize →
        Writer.Filling { x with queue := queue, batch := x.batch ++ [event], point := point }) := by
  have grown : (x.batch ++ [event]).length = x.batch.length + 1 := by simp
  unfold Writer.Filling at filling
  refine ⟨fun full => ⟨?_, full.le⟩, fun room => ?_⟩
  · dsimp only
    omega
  · unfold Writer.Filling
    dsimp only
    omega

theorem Writer.Filling.ready (filling : x.Filling) (nonempty : x.batch ≠ []) : x.Ready :=
  ⟨List.length_pos_iff.mpr nonempty, filling.le⟩

theorem facts_receive {holding owing : Nat} {resume : Resume} {event : Event}
    {queue : Channel Event} (facts : x.Facts holding owing x.point)
    (here : x.point = .select ∧ resume = .loop ∨ x.point = .drain ∧ resume = .drain) :
    Writer.Facts { x with
      queue := queue
      batch := x.batch ++ [event]
      point := if (x.batch ++ [event]).length = x.settings.batchSize then .publish resume .call
        else x.point } holding owing
      (if (x.batch ++ [event]).length = x.settings.batchSize then .publish resume .call
        else x.point) := by
  rcases here with ⟨here, rfl⟩ | ⟨here, rfl⟩
  · rw [here] at facts ⊢
    split
    · exact facts.receive.1 ‹_›
    · exact facts.receive.2 ‹_›
  · rw [here] at facts ⊢
    split
    · exact ⟨facts.1, facts.2.1, facts.2.2.receive.1 ‹_›⟩
    · exact ⟨facts.1, facts.2.1, facts.2.2.receive.2 ‹_›⟩

/-- **The goroutine keeps the facts of its point.** -/
theorem RunStep.facts {inSection holding owing : Nat}
    (step : RunStep w x counters x' counters' shown) (before : x.Facts holding owing x.point)
    (inflight : x.inflight = inSection) (quiet : inSection = 0 → holding = 0)
    (owed : inSection ≤ owing) : x'.Facts holding owing x'.point := by
  cases step with
  | receive resume event queue here => exact facts_receive before here
  | tick here =>
    rw [here] at before
    dsimp only
    split
    · exact Writer.Filling.ready before ‹_›
    · exact before
  | stop here stopped =>
    rw [here] at before
    exact ⟨stopped, before⟩
  | load here =>
    rw [here] at before
    dsimp only
    split
    · -- some call is in the section, so it still owes a token
      refine ⟨before.1, before.2, .inr ?_⟩
      omega
    · exact ⟨before.1, quiet (by omega), before.2⟩
  | wake wake here taken =>
    rw [here] at before
    exact ⟨before.1, before.2.1⟩
  | drained here empty =>
    rw [here] at before
    dsimp only
    split
    · exact ⟨before.1, before.2.1, empty, before.2.2.ready ‹_›⟩
    · exact ⟨before.1, before.2.1, empty⟩
  | settle resume here =>
    have positive := x.settings.batchSize_pos
    rw [here] at before
    cases resume with
    | loop => exact positive
    | drain => exact ⟨before.1, before.2.1, positive⟩
    | finish => exact ⟨before.1, before.2.1, before.2.2.1⟩
  | writeBatch resume here | wrote resume phase here | countError resume error here
  | drop resume error here | write resume here =>
    rw [here] at before
    cases resume <;> exact before
  | closeSink here | closed error here | exit here =>
    rw [here] at before
    exact before

/-- **The goroutine keeps the invariant of its writer.** -/
theorem Sound.stepRun {inSection holding owing : Nat} (sound : Sound x inSection holding owing)
    (quiet : inSection = 0 → holding = 0) (owed : inSection ≤ owing)
    (step : RunStep w x counters x' counters' shown) : Sound x' inSection holding owing := by
  obtain ⟨settings, accepting, stop, inflight, _⟩ := step.frame
  refine ⟨?_, ?_, inflight.trans sound.inflight, ?_, step.done sound.done,
    step.facts sound.facts sound.inflight quiet owed⟩
  · have capacity : x'.queue.capacity = x.queue.capacity := by
      cases step with
      | receive resume event queue here taken => exact (Channel.receive_items taken).2
      | settle resume here => cases resume <;> rfl
      | _ => rfl
    rw [capacity, settings]
    exact sound.queueCapacity
  · have capacity : x'.wake.capacity = x.wake.capacity := by
      cases step with
      | wake wake here taken => exact (Channel.receive_items taken).2
      | settle resume here => cases resume <;> rfl
      | _ => rfl
    rw [capacity]
    exact sound.wakeCapacity
  · rw [stop, accepting]
    exact sound.refuses

end StepRun

/-! ### Which writer the mutex and `global.current` concern -/

/-- The standing of a writer in the process. -/
inductive Role
  | active
  | spawning
  | refusing
  | stopping
  | awaiting
  | retired
  deriving DecidableEq, Repr

def State.role (s : State) (w : Nat) : Role :=
  match s.holder with
  | .spawning v => if v = w then .spawning else .retired
  | .refusing v => if v = w then .refusing else .retired
  | .stopping v => if v = w then .stopping else .retired
  | .awaiting v => if v = w then .awaiting else .retired
  | _ => if s.current = some w then .active else .retired

/-- What a writer's standing says about it. A retired writer has exited. -/
def Role.Fits (x : Writer) : Role → Prop
  | .active | .refusing => x.accepting = true ∧ x.stopClosed = false ∧ x.point ≠ .idle
  | .spawning => x.accepting = true ∧ x.stopClosed = false ∧ x.point = .idle
  | .stopping => x.accepting = false ∧ x.stopClosed = false ∧ x.point ≠ .idle
  | .awaiting => x.accepting = false ∧ x.stopClosed = true ∧ x.point ≠ .idle
  | .retired => x.accepting = false ∧ x.stopClosed = true ∧ x.point = .exited

/-- What the holder of the mutex knows about `global.current`. -/
def Holder.Links (current : Option Nat) (count : Nat) : Holder → Prop
  | .spawning w => current = some w
  | .refusing w | .stopping w | .awaiting w => current = none ∧ w < count
  | _ => True

/-- **The invariant of the runtime.** -/
structure Good (s : State) : Prop where
  sound : ∀ (w : Nat) (x : Writer), s.writers[w]? = some x →
    Sound x (s.census Stage.inSection w) (s.census Stage.holding w) (s.census Stage.owing w)
  fits : ∀ (w : Nat) (x : Writer), s.writers[w]? = some x → (s.role w).Fits x
  loaded : ∀ (index : Nat) (call : Call) (w : Nat) (stage : Stage), s.calls[index]? = some call →
    call.point = .within w stage → w < s.writers.length
  current : ∀ w : Nat, s.current = some w → w < s.writers.length
  links : s.holder.Links s.current s.writers.length

theorem good_start : Good start := by
  refine ⟨?_, ?_, ?_, ?_, trivial⟩ <;> simp [start]

/-! ### Every step keeps it -/

theorem census_set {s : State} {index : Nat} {call : Call} (here : s.calls[index]? = some call)
    (point : LogPoint) (weigh : Stage → Nat) (w : Nat) :
    tally (fun call => call.point.weight weigh w) (s.calls.set index { call with point := point }) +
        call.point.weight weigh w =
      s.census weigh w + point.weight weigh w :=
  tally_set (fun call => call.point.weight weigh w) here { call with point := point }

/-- A call in the section owes a token, and a call that holds the writer is in the section. -/
theorem census_le (s : State) (w : Nat) :
    s.census Stage.holding w ≤ s.census Stage.inSection w ∧
      s.census Stage.inSection w ≤ s.census Stage.owing w := by
  have weights : ∀ point : LogPoint,
      point.weight Stage.holding w ≤ point.weight Stage.inSection w ∧
        point.weight Stage.inSection w ≤ point.weight Stage.owing w := by
    intro point
    cases point with
    | within v stage =>
      simp only [LogPoint.weight]
      split
      · cases stage <;> simp [Stage.holding, Stage.inSection, Stage.owing]
      · exact ⟨le_rfl, le_rfl⟩
    | _ => exact ⟨le_rfl, le_rfl⟩
  unfold State.census tally
  exact ⟨List.sum_le_sum fun call _ => (weights call.point).1,
    List.sum_le_sum fun call _ => (weights call.point).2⟩

theorem weight_other {point : LogPoint} {w : Nat} {weigh : Stage → Nat}
    (away : ∀ stage, point ≠ .within w stage) : point.weight weigh w = 0 := by
  cases point with
  | within v stage => exact if_neg fun same => away stage (by rw [same])
  | _ => rfl

theorem Good.moveCall {s : State} (good : Good s) {index : Nat} {call : Call} {point : LogPoint}
    (here : s.calls[index]? = some call) (counters : Counters)
    (old : ∀ (weigh : Stage → Nat) (w : Nat), call.point.weight weigh w = 0)
    (new : ∀ w : Nat, point.weight Stage.inSection w = 0 ∧ point.weight Stage.holding w = 0 ∧
      point.weight Stage.owing w = 0)
    (loaded : ∀ (w : Nat) (stage : Stage), point = .within w stage → w < s.writers.length) :
    Good { s with
      calls := s.calls.set index { call with point := point }
      counters := counters } := by
  refine ⟨fun w x writer => ?_, good.fits, fun other moved w stage there stands => ?_,
    good.current, good.links⟩
  · have same : ∀ weigh : Stage → Nat, point.weight weigh w = 0 →
        tally (fun call => call.point.weight weigh w)
          (s.calls.set index { call with point := point }) = s.census weigh w := by
      intro weigh zero
      have moves := census_set here point weigh w
      rwa [old, zero] at moves
    have sound := good.sound w x writer
    rw [← same _ (new w).1, ← same _ (new w).2.1, ← same _ (new w).2.2] at sound
    exact sound
  · rcases calls_set_cases there with rfl | old
    · exact loaded w stage stands
    · exact good.loaded other moved w stage old stands

theorem Good.callStep {s s' : State} {index : Nat} {shown : Option Obs} (good : Good s)
    (step : CallStep s index s' shown) : Good s' := by
  cases step with
  | load call here stands =>
    refine good.moveCall here s.counters (by simp [stands, LogPoint.weight]) (fun w => ?_)
      fun w stage there => ?_
    · split <;> simp [LogPoint.weight, Stage.inSection, Stage.holding, Stage.owing]
    · split at there
      · rename_i v current
        cases there
        exact good.current _ current
      · cases there
  | dropInactive call here stands =>
    refine good.moveCall here _ (by simp [stands, LogPoint.weight])
      (by simp [LogPoint.weight]) fun w stage there => ?_
    cases there
  | @within call w stage choice x x' counters point shown here stands writer moved =>
    have old : ∀ weigh : Stage → Nat, call.point.weight weigh w = weigh stage := by
      simp [stands, LogPoint.weight]
    have move : ∀ weigh : Stage → Nat,
        tally (fun call => call.point.weight weigh w)
            (s.calls.set index { call with point := point }) + weigh stage =
          s.census weigh w + point.weight weigh w := fun weigh =>
      old weigh ▸ census_set here point weigh w
    have held : stage.holding ≤ s.census Stage.holding w :=
      old Stage.holding ▸ weigh_le_tally (fun call => call.point.weight Stage.holding w) here
    have frame := stepStage_frame moved
    refine ⟨fun v y there => ?_, fun v y there => ?_, fun other called v next there at' => ?_,
      fun v current => ?_, ?_⟩
    · rcases getElem?_set_cases there with ⟨rfl, rfl⟩ | ⟨different, same⟩
      · exact (good.sound v x writer).stepStage moved (move _) (move _) (move _) held
      · -- the call has no weight for another writer, before or after
        have away : ∀ weigh : Stage → Nat, call.point.weight weigh v = 0 ∧
            point.weight weigh v = 0 := fun weigh =>
          ⟨weight_other fun next at' => different (by rw [stands] at at'; cases at'; rfl),
            weight_other fun next at' => different (stepStage_point moved at')⟩
        have keep : ∀ weigh : Stage → Nat,
            tally (fun call => call.point.weight weigh v)
              (s.calls.set index { call with point := point }) = s.census weigh v := by
          intro weigh
          have moves := census_set here point weigh v
          rwa [(away weigh).1, (away weigh).2] at moves
        have sound := good.sound v y same
        rw [← keep, ← keep, ← keep] at sound
        exact sound
    · rcases getElem?_set_cases there with ⟨rfl, rfl⟩ | ⟨_, same⟩
      · have fits := good.fits v x writer
        show (s.role v).Fits y
        rw [frame]
        cases role : s.role v <;> rw [role] at fits <;> exact fits
      · exact good.fits v y same
    · rw [List.length_set]
      rcases calls_set_cases there with rfl | old
      · rw [stepStage_point moved at']
        exact good.loaded index call w stage here stands
      · exact good.loaded other called v next old at'
    · rw [List.length_set]
      exact good.current v current
    · have links := good.links
      dsimp only
      rwa [List.length_set]

theorem Good.setWriter {s s' : State} (good : Good s) {w : Nat} {x' : Writer}
    (writers : s'.writers = s.writers.set w x') (calls : s'.calls = s.calls)
    (sound : Sound x' (s.census Stage.inSection w) (s.census Stage.holding w)
      (s.census Stage.owing w))
    (fits : (s'.role w).Fits x') (roles : ∀ v, v ≠ w → s'.role v = s.role v)
    (current : ∀ v, s'.current = some v → s.current = some v)
    (links : s'.holder.Links s'.current s.writers.length) : Good s' := by
  have census : ∀ weigh v, s'.census weigh v = s.census weigh v := fun weigh v => by
    unfold State.census
    rw [calls]
  have length : s'.writers.length = s.writers.length := by rw [writers, List.length_set]
  refine ⟨fun v y there => ?_, fun v y there => ?_, fun index call v stage there stands => ?_,
    fun v there => ?_, ?_⟩
  · rw [census, census, census]
    rw [writers] at there
    rcases getElem?_set_cases there with ⟨rfl, rfl⟩ | ⟨_, same⟩
    · exact sound
    · exact good.sound v y same
  · rw [writers] at there
    rcases getElem?_set_cases there with ⟨rfl, rfl⟩ | ⟨different, same⟩
    · exact fits
    · rw [roles v different]
      exact good.fits v y same
  · rw [length]
    exact good.loaded index call v stage (calls ▸ there) stands
  · rw [length]
    exact good.current v (current v there)
  · rw [length]
    exact links

theorem RunStep.fits {w : Nat} {x x' : Writer} {counters counters' : Counters}
    {shown : Option Obs} (step : RunStep w x counters x' counters' shown) {role : Role}
    (fits : role.Fits x) : role.Fits x' := by
  obtain ⟨_, accepting, stop, _, started, running, stays⟩ := step.frame
  cases role with
  | spawning => exact absurd fits.2.2 started
  | retired => exact absurd fits.2.2 running
  | _ => exact ⟨accepting ▸ fits.1, stop ▸ fits.2.1, stays⟩

theorem Good.runStep {s : State} {w : Nat} {x x' : Writer} {counters : Counters}
    {shown : Option Obs} (good : Good s) (writer : s.writers[w]? = some x)
    (step : RunStep w x s.counters x' counters shown) :
    Good { s with writers := s.writers.set w x', counters := counters } := by
  have counts := census_le s w
  refine good.setWriter rfl rfl ?_ (step.fits (good.fits w x writer)) (fun _ _ => rfl)
    (fun _ same => same) good.links
  exact (good.sound w x writer).stepRun (fun none => by omega) counts.2 step

/-! ### The holder of the mutex -/

theorem Good.setHolder {s s' : State} (good : Good s) (writers : s'.writers = s.writers)
    (calls : s'.calls = s.calls) (roles : ∀ w x, s.writers[w]? = some x → (s.role w).Fits x →
      (s'.role w).Fits x) (current : ∀ w, s'.current = some w → s.current = some w)
    (links : s'.holder.Links s'.current s.writers.length) : Good s' := by
  have census : ∀ weigh v, s'.census weigh v = s.census weigh v := fun weigh v => by
    unfold State.census
    rw [calls]
  refine ⟨fun w x there => ?_, fun w x there => ?_, fun index call w stage there stands => ?_,
    fun w there => ?_, ?_⟩
  · rw [census, census, census]
    exact good.sound w x (writers ▸ there)
  · exact roles w x (writers ▸ there) (good.fits w x (writers ▸ there))
  · rw [writers]
    exact good.loaded index call w stage (calls ▸ there) stands
  · rw [writers]
    exact good.current w (current w there)
  · rw [writers]
    exact links

theorem Good.setHeldWriter {s s' : State} (good : Good s) {w : Nat} {x' : Writer}
    (writers : s'.writers = s.writers.set w x') (calls : s'.calls = s.calls)
    (sound : Sound x' (s.census Stage.inSection w) (s.census Stage.holding w)
      (s.census Stage.owing w))
    (fits : (s'.role w).Fits x') (before : ∀ v, v ≠ w → s.role v = .retired)
    (after : ∀ v, v ≠ w → s'.role v = .retired) (current : s'.current = s.current)
    (links : s'.holder.Links s'.current s.writers.length) : Good s' :=
  good.setWriter writers calls sound fits (fun v other => (after v other).trans (before v other).symm)
    (fun _ there => current ▸ there) links

theorem Good.census_fresh {s : State} (good : Good s) {w : Nat} (fresh : s.writers.length ≤ w)
    (weigh : Stage → Nat) : s.census weigh w = 0 := by
  refine tally_eq_zero _ fun call member => weight_other fun stage stands => ?_
  obtain ⟨index, here⟩ := List.mem_iff_getElem?.mp member
  exact absurd (good.loaded index call w stage here stands) (Nat.not_lt.mpr fresh)

theorem Good.initStore {s : State} (good : Good s) {cfg : Config} (settings : Settings)
    (holds : s.holder = .initializing cfg) (inactive : s.current = none) :
    Good { s with
      writers := s.writers ++ [newWriter settings]
      current := some s.writers.length
      holder := .spawning s.writers.length } := by
  have split : ∀ {v : Nat} {y : Writer}, (s.writers ++ [newWriter settings])[v]? = some y →
      s.writers[v]? = some y ∧ v < s.writers.length ∨
        y = newWriter settings ∧ v = s.writers.length := by
    intro v y there
    rw [List.getElem?_append] at there
    split at there
    · exact .inl ⟨there, ‹_›⟩
    · obtain ⟨zero, same⟩ := List.getElem?_eq_some_iff.mp there
      rw [List.length_singleton] at zero
      refine .inr ⟨?_, by omega⟩
      rw [← same]
      simp
  refine ⟨fun v y there => ?_, fun v y there => ?_, fun index call v stage there stands => ?_,
    fun v there => ?_, rfl⟩
  · rcases split there with ⟨old, _⟩ | ⟨rfl, rfl⟩
    · exact good.sound v y old
    · have none := good.census_fresh le_rfl
      show Sound _ (s.census _ _) (s.census _ _) (s.census _ _)
      rw [none, none, none]
      exact sound_newWriter settings
  · rcases split there with ⟨old, less⟩ | ⟨rfl, rfl⟩
    · have fits := good.fits v y old
      have retired : s.role v = .retired := by simp [State.role, holds, inactive]
      rw [retired] at fits
      have other : s.writers.length ≠ v := less.ne'
      simpa [State.role, other] using fits
    · simp [State.role, Role.Fits, newWriter]
  · rw [List.length_append]
    exact Nat.lt_add_right _ (good.loaded index call v stage there stands)
  · cases there
    simp

theorem Good.holderStep {s s' : State} {shown : Option Obs} (good : Good s)
    (step : HolderStep s s' shown) : Good s' := by
  have links := good.links
  cases step with
  | initFailed cfg error holds | closeInactive holds inactive =>
    refine good.setHolder rfl rfl (fun w x _ fits => ?_) (fun _ same => same) trivial
    simpa only [State.role, holds] using fits
  | initStore cfg settings holds inactive accepted => exact good.initStore settings holds inactive
  | spawn w x holds writer =>
    have current : s.current = some w := by rwa [holds] at links
    have fits := good.fits w x writer
    have sound := good.sound w x writer
    have role : s.role w = .spawning := by simp [State.role, holds]
    rw [role] at fits
    have facts := sound.facts
    have done := sound.done
    rw [fits.2.2] at facts done
    refine good.setHeldWriter rfl rfl ?_ ?_ (fun v other => ?_) (fun v other => ?_) rfl trivial
    · exact ⟨sound.queueCapacity, sound.wakeCapacity, sound.inflight, sound.refuses,
        by simpa using done, facts⟩
    · simpa [State.role, current, Role.Fits] using ⟨fits.1, fits.2.1⟩
    · simp [State.role, holds, other.symm]
    · simp [State.role, current, other.symm]
  | swap w holds active =>
    refine good.setHolder rfl rfl (fun v x _ fits => ?_) (fun _ same => by cases same)
      ⟨rfl, good.current w active⟩
    by_cases same : w = v
    · subst same
      simpa [State.role, holds, active, Role.Fits] using fits
    · simpa [State.role, holds, active, same] using fits
  | refuse w x holds writer =>
    have known : s.current = none ∧ w < s.writers.length := by rwa [holds] at links
    have fits := good.fits w x writer
    have sound := good.sound w x writer
    have role : s.role w = .refusing := by simp [State.role, holds]
    rw [role] at fits
    refine good.setHeldWriter rfl rfl ?_ ?_ (fun v other => ?_) (fun v other => ?_) rfl known
    · exact ⟨sound.queueCapacity, sound.wakeCapacity, sound.inflight, fun _ => rfl, sound.done,
        sound.facts.transfer rfl rfl rfl (fun _ => id) (fun _ => id) (fun _ => id)⟩
    · simpa [State.role, Role.Fits] using fits.2
    · simp [State.role, holds, other.symm]
    · simp [State.role, other.symm]
  | stop w x holds writer =>
    have known : s.current = none ∧ w < s.writers.length := by rwa [holds] at links
    have fits := good.fits w x writer
    have sound := good.sound w x writer
    have role : s.role w = .stopping := by simp [State.role, holds]
    rw [role] at fits
    have early : x.point.afterStop ≠ true := fun late => by
      have stopped := sound.stopped late
      rw [fits.2.1] at stopped
      cases stopped
    refine good.setHeldWriter rfl rfl ?_ ?_ (fun v other => ?_) (fun v other => ?_) rfl known
    · refine ⟨sound.queueCapacity, sound.wakeCapacity, sound.inflight, fun _ => fits.1, sound.done,
        ?_⟩
      have facts := sound.facts
      cases here : x.point with
      | idle | select =>
        rw [here] at facts
        exact facts
      | publish resume phase =>
        rw [here] at facts early
        cases resume with
        | loop => exact facts
        | _ => exact absurd rfl early
      | _ =>
        rw [here] at early
        exact absurd rfl early
    · simpa [State.role, Role.Fits] using ⟨fits.1, fits.2.2⟩
    · simp [State.role, holds, other.symm]
    · simp [State.role, other.symm]
  | closed w x holds writer done =>
    have known : s.current = none ∧ w < s.writers.length := by rwa [holds] at links
    refine good.setHolder rfl rfl (fun v y there fits => ?_) (fun _ same => same) trivial
    by_cases same : w = v
    · subst same
      cases writer.symm.trans there
      have exited := (good.sound w x writer).done.mp done
      have awaiting : s.role w = .awaiting := by simp [State.role, holds]
      rw [awaiting] at fits
      simpa [State.role, known.1, Role.Fits, exited] using ⟨fits.1, fits.2.1⟩
    · simpa [State.role, holds, known.1, same] using fits

/-! ### Every reachable state -/

/-- **One step keeps the invariant.** -/
theorem Good.step {s s' : State} {shown : Option Obs} (good : Good s) (step : Step s s' shown) :
    Good s' := by
  cases step with
  | log event =>
    have census : ∀ weigh w, tally (fun call => call.point.weight weigh w)
        (s.calls ++ [⟨event, .load⟩]) = s.census weigh w := by
      intro weigh w
      rw [tally_append]
      rfl
    refine ⟨fun w x writer => ?_, good.fits, fun index call w stage there stands => ?_,
      good.current, good.links⟩
    · have sound := good.sound w x writer
      rw [← census, ← census, ← census] at sound
      exact sound
    · rw [List.getElem?_append] at there
      split at there
      · exact good.loaded index call w stage there stands
      · have member := List.mem_of_getElem? there
        cases List.mem_singleton.mp member
        cases stands
  | call index moved => exact good.callStep moved
  | run w writer moved => exact good.runStep writer moved
  | lock holder free taken =>
    refine good.setHolder rfl rfl (fun w x _ fits => ?_) (fun _ same => same) ?_
    · rcases taken with rfl | ⟨cfg, rfl⟩ <;> simpa only [State.role, free] using fits
    · rcases taken with rfl | ⟨cfg, rfl⟩ <;> trivial
  | hold moved => exact good.holderStep moved

/-- **The invariant holds in every reachable state.** -/
theorem good_of_reaches {trace : List Obs} {s : State} (reach : machine.Reaches trace s) :
    Good s :=
  reach.invariant (fun _ s => Good s) good_start
    fun _ _ _ _ _ _ good step => good.step (step_cases step)

end Trail.Runtime
