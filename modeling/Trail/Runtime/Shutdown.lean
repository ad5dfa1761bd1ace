/-
**Shutdown: no wake-up is lost and `Close` cannot deadlock.**

A goroutine blocked in `waitForProducers` finds a token in `wake`, or a call that still owes one.
Such a call can always go on alone: the writer's `stop` is closed by then, so a full queue does not
hold it (`stepStage_progress`), and it ends by leaving a token (`canWake`). Every other point of the
goroutine and of the `Close` call has an enabled step, once the sink's calls return.
-/

import Trail.Runtime.Accounting

namespace Trail.Runtime

open Library

/-! ### A call that owes a token -/

/-- The number of steps a call in the section has left, at most. -/
def Stage.rank : Stage → Nat
  | .wake => 1
  | .leave => 2
  | .dropRefused | .dropUnsent => 3
  | .unreserve => 4
  | .offer => 5
  | .reserve => 6
  | .recheck => 7
  | .enter => 8
  | .checkAccepting => 9

/-- **A call is not stuck on a full queue once `stop` is closed**: it has a step, and the step
either brings it nearer to the offer of its token or is that offer. -/
theorem stepStage_progress (w index : Nat) {x : Writer} (counters : Counters) (event : Event)
    {stage : Stage} (stopped : x.stopClosed = true) (owes : stage.owing = 1) :
    ∃ choice x' counters' point shown,
      stepStage w index x counters event stage choice = some (x', counters', point, shown) ∧
        (stage = .wake ∧ point = .returned ∨
          ∃ next : Stage, point = .within w next ∧ next.owing = 1 ∧ next.rank < stage.rank) := by
  cases stage with
  | checkAccepting | enter => cases owes
  | wake => exact ⟨.step, _, _, _, _, rfl, .inl ⟨rfl, rfl⟩⟩
  | offer =>
    cases room : x.queue.send event with
    | some queue =>
      refine ⟨.send, { x with queue := queue }, counters, .within w .leave,
        some (.sent w index event), ?_, .inr ⟨.leave, rfl, rfl, by decide⟩⟩
      simp [stepStage, room]
    | none =>
      -- the `Block` select has the `stop` case, the `Drop` select its default
      cases blocks : x.settings.blocks with
      | true =>
        refine ⟨.stop, x, counters, .within w .unreserve, none, ?_,
          .inr ⟨.unreserve, rfl, rfl, by decide⟩⟩
        simp [stepStage, blocks, stopped]
      | false =>
        refine ⟨.default, x, counters, .within w .unreserve, none, ?_,
          .inr ⟨.unreserve, rfl, rfl, by decide⟩⟩
        simp [stepStage, blocks, room]
  | recheck =>
    refine ⟨.step, _, _, _, _, rfl, .inr ⟨_, rfl, ?_⟩⟩
    cases x.accepting <;> decide
  | dropRefused | reserve | unreserve | dropUnsent | leave =>
    exact ⟨.step, _, _, _, _, rfl, .inr ⟨_, rfl, rfl, by decide⟩⟩

/-- The call has incremented `inflight` and not yet offered its token to `wake`. -/
def State.Owes (s : State) (w index : Nat) (stage : Stage) : Prop :=
  ∃ call, s.calls[index]? = some call ∧ call.point = .within w stage ∧ stage.owing = 1

/-- By its own steps alone the call can decrement `inflight`, if it has not, and return with a
token in `wake`. -/
def State.CanWake (s : State) (w index : Nat) (stage : Stage) : Prop :=
  ∃ (choices : List Choice) (trace : List Obs) (s' : State) (x x' : Writer),
    machine.exec s (choices.map (Action.call index)) = some (trace, s') ∧
    (∃ call, s'.calls[index]? = some call ∧ call.point = .returned) ∧
    s.writers[w]? = some x ∧ s'.writers[w]? = some x' ∧
    x'.inflight + stage.inSection = x.inflight ∧ x'.wake.items ≠ []

theorem step_call_within {s : State} {w index : Nat} {call : Call} {stage : Stage} {choice : Choice}
    {x x' : Writer} {counters : Counters} {point : LogPoint} {shown : Option Obs}
    (here : s.calls[index]? = some call) (stands : call.point = .within w stage)
    (writer : s.writers[w]? = some x)
    (moved : stepStage w index x s.counters call.event stage choice =
      some (x', counters, point, shown)) :
    machine.step s (.call index choice) = some ({ s with
      writers := s.writers.set w x'
      calls := s.calls.set index { call with point := point }
      counters := counters }, shown) := by
  simp [machine, step, stepCall, here, stands, writer, moved]

/-- **A call that owes a token can leave it**, by induction on the steps it has left. -/
theorem canWake {s : State} {w index : Nat} {stage : Stage} {x : Writer}
    (writer : s.writers[w]? = some x) (stopped : x.stopClosed = true)
    (capacity : x.wake.capacity = 1) (owes : s.Owes w index stage) : s.CanWake w index stage := by
  induction remaining : stage.rank using Nat.strong_induction_on generalizing s stage x with
  | _ rank ih =>
    obtain ⟨call, here, stands, owing⟩ := owes
    obtain ⟨choice, x', counters, point, shown, moved, ends⟩ :=
      stepStage_progress w index s.counters call.event stopped owing
    let after : State := { s with
      writers := s.writers.set w x'
      calls := s.calls.set index { call with point := point }
      counters := counters }
    have stepped : machine.step s (.call index choice) = some (after, shown) :=
      step_call_within here stands writer moved
    have writer' : after.writers[w]? = some x' :=
      List.getElem?_set_self (List.getElem?_eq_some_iff.mp writer).1
    have here' : after.calls[index]? = some { call with point := point } :=
      List.getElem?_set_self (List.getElem?_eq_some_iff.mp here).1
    have inflight := stepStage_inflight moved
    have wake := stepStage_wake moved capacity
    rcases ends with ⟨rfl, rfl⟩ | ⟨next, rfl, owing', less⟩
    · refine ⟨[choice], shown.toList, after, x, x', ?_, ⟨_, here', rfl⟩, writer, writer', ?_, ?_⟩
      · simp [Machine.exec, stepped]
      · simpa [LogPoint.weight] using inflight
      · rcases wake.2 with token | ⟨_, less⟩
        · exact token
        · simp [LogPoint.weight, Stage.owing] at less
    · have frame := stepStage_frame moved
      obtain ⟨choices, trace, s', y, y', ran, returned, start, final, count, token⟩ :=
        ih next.rank (remaining ▸ less) writer' (by rw [frame]; exact stopped) wake.1
          ⟨_, here', rfl, owing'⟩ rfl
      cases start.symm.trans writer'
      refine ⟨choice :: choices, shown.toList ++ trace, s', x, y', ?_, returned, writer, final, ?_,
        token⟩
      · simp [Machine.exec, stepped, ran]
      · simp only [LogPoint.weight, if_true] at inflight
        omega

/-! ### Enabled steps during a `Close` -/

/-- The action is a step of the threads that a `Close` of the writer depends on: the `Close` call,
the goroutine apart from its ticker, and the `Log` calls that have loaded the writer. -/
def Action.Serves (s : State) (w : Nat) : Action → Prop
  | .hold => True
  | .run v choice => v = w ∧ choice ≠ .tick
  | .call index _ => ∃ call stage, s.calls[index]? = some call ∧ call.point = .within w stage
  | _ => False

/-- The action can be taken now. -/
def State.Enabled (s : State) (action : Action) : Prop := (machine.step s action).isSome = true

theorem enabled_run {s : State} {w : Nat} {x : Writer} {choice : RunChoice}
    (writer : s.writers[w]? = some x) (able : (stepRun w x s.counters choice).isSome = true) :
    s.Enabled (.run w choice) := by
  obtain ⟨⟨x', counters, shown⟩, moved⟩ := Option.isSome_iff_exists.mp able
  simp [State.Enabled, machine, step, writer, moved]

/-- **Once `stop` is closed the goroutine has a step**, or it has exited, or it waits for a token
that is not there. -/
theorem stepRun_enabled {w : Nat} {x : Writer} (counters : Counters) (stopped : x.stopClosed = true)
    (started : x.point ≠ .idle) (running : x.point ≠ .exited)
    (token : x.point = .waitWake → x.wake.items ≠ []) :
    ∃ choice : RunChoice, choice ≠ .tick ∧ (stepRun w x counters choice).isSome = true := by
  cases here : x.point with
  | idle => exact absurd here started
  | exited => exact absurd here running
  | select => exact ⟨.stop, by decide, by simp [stepRun, here, stopped]⟩
  | publish resume phase =>
    cases phase with
    | wait => exact ⟨.returned none, by decide, by simp [stepRun, here]⟩
    | _ => exact ⟨.step, by decide, by simp [stepRun, here]⟩
  | waitWake =>
    refine ⟨.step, by decide, ?_⟩
    have received := (Channel.receive_isSome_iff x.wake).mpr (token here)
    obtain ⟨⟨_, wake⟩, taken⟩ := Option.isSome_iff_exists.mp received
    simp [stepRun, here, taken]
  | drain =>
    by_cases empty : x.queue.items = []
    · have none := (Channel.receive_eq_none_iff x.queue).mpr empty
      exact ⟨.default, by decide, by simp [stepRun, here, none]⟩
    · have received := (Channel.receive_isSome_iff x.queue).mpr empty
      obtain ⟨⟨event, queue⟩, taken⟩ := Option.isSome_iff_exists.mp received
      exact ⟨.receive, by decide, by simp [stepRun, here, Writer.receive, taken]⟩
  | closeWait => exact ⟨.returned none, by decide, by simp [stepRun, here]⟩
  | waitLoad | closeCall | exiting => exact ⟨.step, by decide, by simp [stepRun, here]⟩

/-- A goroutine blocked on `wake` finds a token there or a call that owes one. -/
theorem Good.token_or_owes {s : State} (good : Good s) {w : Nat} {x : Writer}
    (writer : s.writers[w]? = some x) (blocked : x.point = .waitWake) :
    x.wake.items ≠ [] ∨ ∃ index stage, s.Owes w index stage := by
  have facts := (good.sound w x writer).facts
  rw [blocked] at facts
  refine facts.2.2.imp id fun positive => ?_
  obtain ⟨index, call, here, weight⟩ := exists_of_tally_pos _ positive
  cases stands : call.point with
  | within v stage =>
    rw [stands] at weight
    simp only [LogPoint.weight] at weight
    split at weight
    · rename_i same
      refine ⟨index, stage, call, here, same ▸ stands, ?_⟩
      cases stage <;> first | rfl | cases weight
    · cases weight
  | _ =>
    rw [stands] at weight
    cases weight

/-- **Shutdown.** In every reachable state: a goroutine blocked on `wake` finds a token there or a
call that owes one, and every call that owes one can leave it by its own steps; and while a `Close`
call is under way, that call, the goroutine of its writer or a `Log` call on this writer has a
step. -/
theorem shutdown {trace : List Obs} {s : State} (reach : machine.Reaches trace s) :
    (∀ w x, s.writers[w]? = some x → x.point = .waitWake →
      (x.wake.items ≠ [] ∨ ∃ index stage, s.Owes w index stage) ∧
      ∀ index stage, s.Owes w index stage → s.CanWake w index stage) ∧
    (s.holder = .closing → s.Enabled .hold) ∧
    (∀ w, s.holder = .refusing w ∨ s.holder = .stopping w ∨ s.holder = .awaiting w →
      ∃ action, action.Serves s w ∧ s.Enabled action) := by
  have good := good_of_reaches reach
  refine ⟨fun w x writer blocked => ⟨good.token_or_owes writer blocked, fun index stage owes => ?_⟩,
    fun closing => ?_, fun w held => ?_⟩
  · have sound := good.sound w x writer
    exact canWake writer (sound.stopped (by rw [blocked]; rfl)) sound.wakeCapacity owes
  · cases current : s.current <;>
      simp [State.Enabled, machine, step, stepHolder, closing, current]
  · have inside : w < s.writers.length := by
      have links := good.links
      rcases held with held | held | held <;> rw [held] at links <;> exact links.2
    have writer := List.getElem?_eq_getElem inside
    rcases held with held | held | held
    · exact ⟨.hold, trivial, by simp [State.Enabled, machine, step, stepHolder, held, writer]⟩
    · exact ⟨.hold, trivial, by simp [State.Enabled, machine, step, stepHolder, held, writer]⟩
    · have fits := good.fits w _ writer
      simp only [State.role, held, if_true] at fits
      have sound := good.sound w _ writer
      by_cases exited : (s.writers[w]).point = .exited
      · have done := sound.done.mpr exited
        exact ⟨.hold, trivial, by simp [State.Enabled, machine, step, stepHolder, held, writer, done]⟩
      · by_cases stuck : (s.writers[w]).point = .waitWake ∧ (s.writers[w]).wake.items = []
        · -- blocked without a token: a call that owes one has a step
          have owes := (good.token_or_owes writer stuck.1).resolve_left (fun some => some stuck.2)
          obtain ⟨index, stage, call, here, stands, owing⟩ := owes
          obtain ⟨choice, x', counters, point, shown, moved, _⟩ :=
            stepStage_progress w index s.counters call.event fits.2.1 owing
          refine ⟨.call index choice, ⟨call, stage, here, stands⟩, ?_⟩
          rw [State.Enabled, step_call_within here stands writer moved]
          rfl
        · obtain ⟨choice, external, able⟩ := stepRun_enabled s.counters fits.2.1 fits.2.2 exited
            fun waiting empty => stuck ⟨waiting, empty⟩
          exact ⟨.run w choice, ⟨rfl, external⟩, enabled_run writer able⟩

/-- A `Close` while a `Log` call stands at the queue: the goroutine comes to wait for it. -/
def blockedClose : List Action :=
  List.flatten [
    [.init { service := ascii "svc", sink := some 0 }, .hold, .hold,
      .log (Bytes.zero 16) 1 (ascii "kind") []],
    List.replicate 5 (Action.call 0 .step), [.close, .hold, .hold, .hold],
    [.run 0 .stop, .run 0 .step]]

theorem shutdown_blockedClose : ∃ trace s, machine.Reaches trace s ∧
    (∃ x, s.writers[0]? = some x ∧ x.point = .waitWake ∧
      (x.wake.items ≠ [] ∨ ∃ index stage, s.Owes 0 index stage)) ∧
    ∃ action, action.Serves s 0 ∧ s.Enabled action := by
  have ran : (machine.exec machine.start blockedClose).map (fun run =>
      (run.2.holder, run.2.writers[0]?.map Writer.point)) =
        some (.awaiting 0, some .waitWake) := by rfl
  obtain ⟨⟨trace, s⟩, done, same⟩ := Option.map_eq_some_iff.mp ran
  have reach : machine.Reaches trace s := Machine.exec_runs done
  obtain ⟨held, waits⟩ := Prod.mk.inj same
  obtain ⟨x, writer, blocked⟩ := Option.map_eq_some_iff.mp waits
  exact ⟨trace, s, reach, ⟨x, writer, blocked, ((shutdown reach).1 0 x writer blocked).1⟩,
    (shutdown reach).2.2 0 (.inr (.inr held))⟩

end Trail.Runtime
