/-
**What one step of the runtime can do.**

The step functions, turned around once: `CallStep`, `RunStep` and `HolderStep` list what a `Log`
call, a goroutine and the holder of the mutex can do, with the guards, and `Step` is the union that
`step_cases` obtains from an enabled action. Every invariant is a case analysis of these. A step of
a `Log` call on its writer stays the function `stepStage`, described by what it does to the queue
(`stepStage_queue`) and what it leaves alone (`stepStage_frame`).
-/

import Trail.Runtime.Machine

namespace Trail.Runtime

open Library

/-! ### A step of a `Log` call -/

section StepStage

variable {w index : Nat} {x x' : Writer} {counters counters' : Counters} {event : Event}
  {stage : Stage} {choice : Choice} {point : LogPoint} {shown : Option Obs}

/-- A call changes only the queue, `wake` and `inflight` of the writer. -/
theorem stepStage_frame
    (step : stepStage w index x counters event stage choice = some (x', counters', point, shown)) :
    x' = { x with queue := x'.queue, wake := x'.wake, inflight := x'.inflight } := by
  cases stage <;> cases choice <;> simp only [stepStage, reduceCtorEq] at step
  case offer.send =>
    obtain ⟨queue, _, same⟩ := Option.map_eq_some_iff.mp step
    cases same
    rfl
  case offer.stop | offer.default =>
    split at step
    · cases step
      rfl
    · cases step
  all_goals
    cases step
    rfl

/-- A call either leaves the queue alone and shows nothing, or its send has succeeded. -/
theorem stepStage_queue
    (step : stepStage w index x counters event stage choice = some (x', counters', point, shown)) :
    (shown = none ∧ x'.queue = x.queue) ∨
      (stage = .offer ∧ point = .within w .leave ∧ shown = some (.sent w index event) ∧
        x.queue.send event = some x'.queue) := by
  cases stage <;> cases choice <;> simp only [stepStage, reduceCtorEq] at step
  case offer.send =>
    obtain ⟨queue, sent, same⟩ := Option.map_eq_some_iff.mp step
    cases same
    exact .inr ⟨rfl, rfl, rfl, sent⟩
  case offer.stop | offer.default =>
    split at step
    · cases step
      exact .inl ⟨rfl, rfl⟩
    · cases step
  all_goals
    cases step
    exact .inl ⟨rfl, rfl⟩

/-- The next point of a call that has loaded a writer is at that writer, or at none. -/
theorem stepStage_point {v : Nat} {next : Stage}
    (step : stepStage w index x counters event stage choice = some (x', counters', point, shown))
    (there : point = .within v next) : v = w := by
  cases stage <;> cases choice <;> simp only [stepStage, reduceCtorEq] at step
  case offer.send =>
    obtain ⟨queue, _, same⟩ := Option.map_eq_some_iff.mp step
    cases same
    cases there
    rfl
  case offer.stop | offer.default =>
    split at step
    · cases step
      cases there
      rfl
    · cases step
  case checkAccepting.step =>
    cases step
    split at there
    · cases there
      rfl
    · cases there
  case wake.step =>
    cases step
    cases there
  all_goals
    cases step
    cases there
    rfl

end StepStage

/-- **What a `Log` call can do.** -/
inductive CallStep (s : State) (index : Nat) : State → Option Obs → Prop
  | load (call : Call) : s.calls[index]? = some call → call.point = .load →
      CallStep s index { s with calls := s.calls.set index { call with
        point := match s.current with
          | some w => .within w .checkAccepting
          | none => .dropInactive } } none
  | dropInactive (call : Call) : s.calls[index]? = some call → call.point = .dropInactive →
      CallStep s index { s with
        calls := s.calls.set index { call with point := .returned }
        counters := s.counters.addDropped 1 } none
  | within {call : Call} {w : Nat} {stage : Stage} {choice : Choice} {x x' : Writer}
      {counters : Counters} {point : LogPoint} {shown : Option Obs} :
      s.calls[index]? = some call → call.point = .within w stage → s.writers[w]? = some x →
      stepStage w index x s.counters call.event stage choice = some (x', counters, point, shown) →
      CallStep s index { s with
        writers := s.writers.set w x'
        calls := s.calls.set index { call with point := point }
        counters := counters } shown

theorem stepCall_cases {s s' : State} {index : Nat} {choice : Choice} {shown : Option Obs}
    (step : stepCall s index choice = some (s', shown)) : CallStep s index s' shown := by
  unfold stepCall at step
  obtain ⟨call, here, step⟩ := Option.bind_eq_some_iff.mp step
  split at step
  · cases step
    exact .load call here ‹_›
  · cases step
    exact .dropInactive call here ‹_›
  · obtain ⟨x, writer, step⟩ := Option.bind_eq_some_iff.mp step
    obtain ⟨⟨x', counters, point, shown⟩, moved, step⟩ := Option.bind_eq_some_iff.mp step
    cases step
    exact .within here ‹_› writer moved
  · cases step

/-! ### A step of the goroutine -/

section StepRun

variable {w : Nat} {x x' : Writer} {counters counters' : Counters} {choice : RunChoice}
  {shown : Option Obs}

theorem Writer.receive_eq_some {resume : Resume} {stay : RunPoint}
    (received : x.receive resume stay = some x') :
    ∃ event queue, x.queue.receive = some (event, queue) ∧ x' = { x with
      queue := queue
      batch := x.batch ++ [event]
      point := if (x.batch ++ [event]).length = x.settings.batchSize then .publish resume .call
        else stay } := by
  obtain ⟨⟨event, queue⟩, taken, rfl⟩ := Option.map_eq_some_iff.mp received
  exact ⟨event, queue, taken, rfl⟩

/-- **What the goroutine can do**, one case for each operation of `run`. -/
inductive RunStep (w : Nat) (x : Writer) (counters : Counters) :
    Writer → Counters → Option Obs → Prop
  | receive (resume : Resume) (event : Event) (queue : Channel Event) :
      (x.point = .select ∧ resume = .loop ∨ x.point = .drain ∧ resume = .drain) →
      x.queue.receive = some (event, queue) →
      RunStep w x counters { x with
        queue := queue
        batch := x.batch ++ [event]
        point := if (x.batch ++ [event]).length = x.settings.batchSize then .publish resume .call
          else x.point } counters none
  | tick : x.point = .select →
      RunStep w x counters
        { x with point := if x.batch ≠ [] then .publish .loop .call else .select } counters none
  | stop : x.point = .select → x.stopClosed = true →
      RunStep w x counters { x with point := .waitLoad } counters none
  | load : x.point = .waitLoad →
      RunStep w x counters
        { x with point := if x.inflight ≠ 0 then .waitWake else .drain } counters none
  | wake (wake : Channel Unit) : x.point = .waitWake → x.wake.receive = some ((), wake) →
      RunStep w x counters { x with wake := wake, point := .waitLoad } counters none
  | drained : x.point = .drain → x.queue.items = [] →
      RunStep w x counters
        { x with point := if x.batch ≠ [] then .publish .finish .call else .closeCall } counters none
  | writeBatch (resume : Resume) : x.point = .publish resume .call →
      RunStep w x counters { x with point := .publish resume .wait } counters
        (some (.writeBatch w ⟨x.settings.metadata, x.batch⟩))
  | wrote (resume : Resume) (phase : Phase) : x.point = .publish resume .wait →
      (phase = .write ∨ ∃ error, phase = .countError error) →
      RunStep w x counters { x with point := .publish resume phase } counters none
  | countError (resume : Resume) (error : GoError) : x.point = .publish resume (.countError error) →
      RunStep w x counters { x with point := .publish resume (.drop error) }
        { counters with publishErrors := counters.publishErrors + 1 } none
  | drop (resume : Resume) (error : GoError) : x.point = .publish resume (.drop error) →
      RunStep w x counters
        { x with point := .publish resume .settle, publishErr := x.publishErr <|> some error }
        (counters.addDropped (.ofNat x.batch.length)) none
  | write (resume : Resume) : x.point = .publish resume .write →
      RunStep w x counters { x with point := .publish resume .settle }
        { counters with written := counters.written + .ofNat x.batch.length } none
  | settle (resume : Resume) : x.point = .publish resume .settle →
      RunStep w x counters (x.resume resume)
        (counters.addBuffered (~~~(.ofNat x.batch.length - 1))) none
  | closeSink : x.point = .closeCall →
      RunStep w x counters { x with point := .closeWait } counters (some (.sinkClose w))
  | closed (error : Option GoError) : x.point = .closeWait →
      RunStep w x counters { x with point := .exiting, closeErr := error <|> x.closeErr }
        counters none
  | exit : x.point = .exiting →
      RunStep w x counters { x with point := .exited, doneClosed := true } counters none

theorem stepRun_cases (step : stepRun w x counters choice = some (x', counters', shown)) :
    RunStep w x counters x' counters' shown := by
  unfold stepRun at step
  split at step
  case h_1 here =>
    obtain ⟨y, received, same⟩ := Option.map_eq_some_iff.mp step
    obtain ⟨event, queue, taken, rfl⟩ := Writer.receive_eq_some received
    cases same
    rw [← here]
    exact .receive .loop event queue (.inl ⟨here, rfl⟩) taken
  case h_2 here =>
    cases step
    exact .tick here
  case h_3 here =>
    split at step
    · rename_i stopped
      cases step
      exact .stop here stopped
    · cases step
  case h_4 here =>
    cases step
    exact .load here
  case h_5 here =>
    obtain ⟨⟨_, wake⟩, taken, same⟩ := Option.map_eq_some_iff.mp step
    cases same
    exact .wake wake here taken
  case h_6 here =>
    obtain ⟨y, received, same⟩ := Option.map_eq_some_iff.mp step
    obtain ⟨event, queue, taken, rfl⟩ := Writer.receive_eq_some received
    cases same
    rw [← here]
    exact .receive .drain event queue (.inr ⟨here, rfl⟩) taken
  case h_7 here =>
    split at step
    · rename_i empty
      cases step
      exact .drained here (Channel.receive_eq_none_iff _ |>.mp (Option.isNone_iff_eq_none.mp empty))
    · cases step
  case h_8 resume here =>
    cases step
    exact .writeBatch resume here
  case h_9 resume error here =>
    cases step
    refine .wrote resume _ here ?_
    cases error with
    | none => exact .inl rfl
    | some error => exact .inr ⟨error, rfl⟩
  case h_10 resume error here =>
    cases step
    exact .countError resume error here
  case h_11 resume error here =>
    cases step
    exact .drop resume error here
  case h_12 resume here =>
    cases step
    exact .write resume here
  case h_13 resume here =>
    cases step
    exact .settle resume here
  case h_14 here =>
    cases step
    exact .closeSink here
  case h_15 error here =>
    cases step
    exact .closed error here
  case h_16 here =>
    cases step
    exact .exit here
  case h_17 => cases step

/-- The goroutine leaves `accepting`, `stop`, `inflight` and the configuration alone, and runs only
between its start and its exit. -/
theorem RunStep.frame (step : RunStep w x counters x' counters' shown) :
    x'.settings = x.settings ∧ x'.accepting = x.accepting ∧ x'.stopClosed = x.stopClosed ∧
      x'.inflight = x.inflight ∧ x.point ≠ .idle ∧ x.point ≠ .exited ∧ x'.point ≠ .idle := by
  cases step with
  | receive resume event queue here =>
    refine ⟨rfl, rfl, rfl, rfl, ?_, ?_, ?_⟩
    · rcases here with ⟨here, _⟩ | ⟨here, _⟩ <;> rw [here] <;> simp
    · rcases here with ⟨here, _⟩ | ⟨here, _⟩ <;> rw [here] <;> simp
    · rcases here with ⟨here, _⟩ | ⟨here, _⟩ <;> rw [here] <;> split <;> simp
  | settle resume here => cases resume <;> simp [here, Writer.resume]
  | tick here | load here | drained here =>
    refine ⟨rfl, rfl, rfl, rfl, by simp [here], by simp [here], ?_⟩
    dsimp only
    split <;> simp
  | _ => simp_all

end StepRun

/-! ### The holder of the mutex -/

/-- **What the holder of the mutex can do.** -/
inductive HolderStep (s : State) : State → Option Obs → Prop
  | initFailed (cfg : Config) (error : GoError) : s.holder = .initializing cfg →
      HolderStep s { s with holder := .free } (some (.initReturned (some error)))
  | initStore (cfg : Config) (settings : Settings) : s.holder = .initializing cfg →
      s.current = none → normalizeConfig cfg = .ok settings →
      HolderStep s { s with
        writers := s.writers ++ [newWriter settings]
        current := some s.writers.length
        holder := .spawning s.writers.length } (some (.initialized s.writers.length))
  | spawn (w : Nat) (x : Writer) : s.holder = .spawning w → s.writers[w]? = some x →
      HolderStep s { s with writers := s.writers.set w { x with point := .select }, holder := .free }
        (some (.initReturned none))
  | closeInactive : s.holder = .closing → s.current = none →
      HolderStep s { s with holder := .free } (some (.closeReturned none []))
  | swap (w : Nat) : s.holder = .closing → s.current = some w →
      HolderStep s { s with current := none, holder := .refusing w } none
  | refuse (w : Nat) (x : Writer) : s.holder = .refusing w → s.writers[w]? = some x →
      HolderStep s { s with
        writers := s.writers.set w { x with accepting := false }
        holder := .stopping w } none
  | stop (w : Nat) (x : Writer) : s.holder = .stopping w → s.writers[w]? = some x →
      HolderStep s { s with
        writers := s.writers.set w { x with stopClosed := true }
        holder := .awaiting w } none
  | closed (w : Nat) (x : Writer) : s.holder = .awaiting w → s.writers[w]? = some x →
      x.doneClosed = true →
      HolderStep s { s with holder := .free }
        (some (.closeReturned (some w) (x.publishErr.toList ++ x.closeErr.toList)))

theorem stepHolder_cases {s s' : State} {shown : Option Obs}
    (step : stepHolder s = some (s', shown)) : HolderStep s s' shown := by
  unfold stepHolder at step
  split at step
  case h_1 => cases step
  case h_2 cfg holds =>
    split at step
    · cases step
      exact .initFailed cfg _ holds
    · cases step
      exact .initFailed cfg _ holds
    · cases step
      exact .initStore cfg _ holds ‹_› ‹_›
  case h_3 w holds =>
    obtain ⟨x, writer, step⟩ := Option.bind_eq_some_iff.mp step
    cases step
    exact .spawn w x holds writer
  case h_4 holds =>
    split at step
    · cases step
      exact .closeInactive holds ‹_›
    · cases step
      exact .swap _ holds ‹_›
  case h_5 w holds =>
    obtain ⟨x, writer, step⟩ := Option.bind_eq_some_iff.mp step
    cases step
    exact .refuse w x holds writer
  case h_6 w holds =>
    obtain ⟨x, writer, step⟩ := Option.bind_eq_some_iff.mp step
    cases step
    exact .stop w x holds writer
  case h_7 w holds =>
    obtain ⟨x, writer, step⟩ := Option.bind_eq_some_iff.mp step
    split at step
    · cases step
      exact .closed w x holds writer ‹_›
    · cases step

/-! ### The machine -/

/-- **What the machine can do.** -/
inductive Step (s : State) : State → Option Obs → Prop
  | log (event : Event) : Step s { s with calls := s.calls ++ [⟨event, .load⟩] } none
  | call {s' : State} {shown : Option Obs} (index : Nat) : CallStep s index s' shown → Step s s' shown
  | run {x x' : Writer} {counters : Counters} {shown : Option Obs} (w : Nat) :
      s.writers[w]? = some x → RunStep w x s.counters x' counters shown →
      Step s { s with writers := s.writers.set w x', counters := counters } shown
  | lock (holder : Holder) : s.holder = .free →
      (holder = .closing ∨ ∃ cfg, holder = .initializing cfg) →
      Step s { s with holder := holder } none
  | hold {s' : State} {shown : Option Obs} : HolderStep s s' shown → Step s s' shown

theorem step_cases {s s' : State} {action : Action} {shown : Option Obs}
    (step : machine.step s action = some (s', shown)) : Step s s' shown := by
  cases action with
  | log id timestamp kind options =>
    cases step
    exact .log _
  | call index choice => exact .call index (stepCall_cases step)
  | run w choice =>
    obtain ⟨x, writer, step⟩ := Option.bind_eq_some_iff.mp step
    obtain ⟨⟨x', counters, shown⟩, moved, step⟩ := Option.bind_eq_some_iff.mp step
    cases step
    exact .run w writer (stepRun_cases moved)
  | init cfg =>
    simp only [machine, Runtime.step] at step
    split at step
    · cases step
      exact .lock _ ‹_› (.inr ⟨cfg, rfl⟩)
    · cases step
  | close =>
    simp only [machine, Runtime.step] at step
    split at step
    · cases step
      exact .lock _ ‹_› (.inl rfl)
    · cases step
  | hold => exact .hold (stepHolder_cases step)

/-! ### Lists with one entry replaced -/

/-- A writer of a list with one writer replaced is the new one or another old one. -/
theorem getElem?_set_cases {writers : List Writer} {w v : Nat} {x' y : Writer}
    (here : (writers.set w x')[v]? = some y) : (v = w ∧ y = x') ∨ (v ≠ w ∧ writers[v]? = some y) := by
  rw [List.getElem?_set] at here
  split at here
  · rename_i same
    split at here
    · cases here
      exact .inl ⟨same.symm, rfl⟩
    · cases here
  · rename_i different
    exact .inr ⟨fun same => different same.symm, here⟩

theorem calls_set_cases {calls : List Call} {index other : Nat} {moved call : Call}
    (here : (calls.set index moved)[other]? = some call) :
    call = moved ∨ calls[other]? = some call := by
  rw [List.getElem?_set] at here
  split at here
  · split at here
    · cases here
      exact .inl rfl
    · cases here
  · exact .inr here

end Trail.Runtime
