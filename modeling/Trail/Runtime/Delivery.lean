/-
**Delivery: what was sent is written, once, in order, before the sink is closed.**

The books of one writer compare the sends on its queue with the batches passed to its sink, read
off the trace: `Books.flow` says that the events sent are the events passed to `WriteBatch`,
followed by the batch not yet passed, followed by the queue. At `sink.Close` the last two are empty
and no call holds the writer, so nothing can follow (`Closed`).
-/

import Trail.Runtime.Invariant

namespace Trail.Runtime

open Library

/-! ### Reading a trace -/

/-- The event of a successful send on the writer's queue. -/
def Obs.sentEvent (w : Nat) : Obs → Option Event
  | .sent v _ event => if v = w then some event else none
  | _ => none

/-- The batch of a `WriteBatch` call on the writer's sink. -/
def Obs.writtenBatch (w : Nat) : Obs → Option Batch
  | .writeBatch v batch => if v = w then some batch else none
  | _ => none

/-- The events whose send on the writer's queue succeeded, in queue order. -/
def sentTo (w : Nat) (trace : List Obs) : List Event := trace.filterMap (Obs.sentEvent w)

/-- The batches passed to the writer's sink, in order. -/
def batchesOf (w : Nat) (trace : List Obs) : List Batch := trace.filterMap (Obs.writtenBatch w)

/-- The events passed to the writer's sink, in order. -/
def passedTo (w : Nat) (trace : List Obs) : List Event := (batchesOf w trace).flatMap Batch.events

/-- How often `sink.Close` was called for the writer. -/
def closesOf (w : Nat) (trace : List Obs) : Nat := trace.count (.sinkClose w)

/-- The observation is a send to the writer or a call of its sink. -/
def Obs.Concerns (w : Nat) : Obs → Prop
  | .sent v _ _ | .writeBatch v _ | .sinkClose v => v = w
  | _ => False

section Reading

variable {w : Nat} {trace : List Obs}

theorem sentTo_append (first second : List Obs) :
    sentTo w (first ++ second) = sentTo w first ++ sentTo w second :=
  List.filterMap_append

theorem batchesOf_append (first second : List Obs) :
    batchesOf w (first ++ second) = batchesOf w first ++ batchesOf w second :=
  List.filterMap_append

theorem passedTo_append (first second : List Obs) :
    passedTo w (first ++ second) = passedTo w first ++ passedTo w second := by
  rw [passedTo, batchesOf_append, List.flatMap_append]
  rfl

theorem closesOf_append (first second : List Obs) :
    closesOf w (first ++ second) = closesOf w first + closesOf w second :=
  List.count_append

theorem silent_of_not_concerns (silent : ∀ shown ∈ trace, ¬ shown.Concerns w) :
    sentTo w trace = [] ∧ batchesOf w trace = [] ∧ passedTo w trace = [] ∧ closesOf w trace = 0 := by
  have batches : batchesOf w trace = [] := by
    refine List.filterMap_eq_nil_iff.mpr fun shown member => ?_
    have away := silent shown member
    cases shown with
    | writeBatch v batch => exact if_neg away
    | _ => rfl
  refine ⟨List.filterMap_eq_nil_iff.mpr fun shown member => ?_, batches, by rw [passedTo, batches]; rfl,
    List.count_eq_zero.mpr fun member => silent _ member rfl⟩
  have away := silent shown member
  cases shown with
  | sent v index event => exact if_neg away
  | _ => rfl

end Reading

/-! ### The books of one writer -/

/-- `sink.Close` has been called. -/
def RunPoint.afterClose : RunPoint → Bool
  | .closeWait | .exiting | .exited => true
  | _ => false

theorem RunPoint.afterDrain_of_afterClose {point : RunPoint} (late : point.afterClose = true) :
    point.afterDrain = true := by
  cases point with
  | closeWait | exiting | exited => rfl
  | _ => cases late

/-- The events of the batch that have not been passed to `WriteBatch`. -/
def Writer.unpassed (x : Writer) : List Event :=
  match x.point with
  | .idle | .select | .waitLoad | .waitWake | .drain | .publish _ .call => x.batch
  | _ => []

/-- **The books of one writer.** -/
structure Books (w : Nat) (trace : List Obs) (x : Writer) : Prop where
  flow : sentTo w trace = passedTo w trace ++ (x.unpassed ++ x.queue.items)
  sizes : ∀ batch ∈ batchesOf w trace, 1 ≤ batch.events.length ∧
    batch.events.length ≤ x.settings.batchSize ∧ batch.metadata = x.settings.metadata
  closes : closesOf w trace = if x.point.afterClose then 1 else 0

/-- Steps that show nothing of a writer and leave its events in place keep its books. -/
theorem Books.silent {w : Nat} {trace : List Obs} {x x' : Writer} {shown : Option Obs}
    (books : Books w trace x) (silent : ∀ seen ∈ shown, ¬ seen.Concerns w)
    (settings : x'.settings = x.settings)
    (events : x'.unpassed ++ x'.queue.items = x.unpassed ++ x.queue.items)
    (closed : x'.point.afterClose = x.point.afterClose) : Books w (trace ++ shown.toList) x' := by
  have away : ∀ seen ∈ shown.toList, ¬ seen.Concerns w := fun seen member =>
    silent seen (Option.mem_toList.mp member)
  obtain ⟨sent, batches, passed, closes⟩ := silent_of_not_concerns away
  refine ⟨?_, ?_, ?_⟩
  · rw [sentTo_append, passedTo_append, sent, passed, List.append_nil, List.append_nil, events]
    exact books.flow
  · rw [batchesOf_append, batches, List.append_nil, settings]
    exact books.sizes
  · rw [closesOf_append, closes, Nat.add_zero, closed]
    exact books.closes

/-- **The goroutine keeps its books.** -/
theorem Books.runStep {w : Nat} {trace : List Obs} {x x' : Writer} {counters counters' : Counters}
    {shown : Option Obs} {inSection holding owing : Nat} (books : Books w trace x)
    (sound : Sound x inSection holding owing) (step : RunStep w x counters x' counters' shown) :
    Books w (trace ++ shown.toList) x' := by
  cases step with
  | receive resume event queue here taken =>
    have items := (Channel.receive_items taken).1
    refine books.silent (by simp) rfl ?_ ?_
    · -- the oldest event of the queue becomes the last of the batch
      rcases here with ⟨here, rfl⟩ | ⟨here, rfl⟩ <;> unfold Writer.unpassed <;> dsimp only <;>
        rw [here, items] <;> split <;> simp_all
    · rcases here with ⟨here, rfl⟩ | ⟨here, rfl⟩ <;> dsimp only <;> rw [here] <;> split <;> rfl
  | tick here =>
    refine books.silent (by simp) rfl ?_ ?_ <;> by_cases nothing : x.batch = [] <;>
      simp [Writer.unpassed, here, nothing, RunPoint.afterClose]
  | load here =>
    refine books.silent (by simp) rfl ?_ ?_ <;> by_cases nobody : x.inflight = 0 <;>
      simp [Writer.unpassed, here, nobody, RunPoint.afterClose]
  | drained here empty =>
    refine books.silent (by simp) rfl ?_ ?_ <;> by_cases nothing : x.batch = [] <;>
      simp [Writer.unpassed, here, nothing, RunPoint.afterClose]
  | settle resume here =>
    refine books.silent (by simp) ?_ ?_ ?_
    all_goals
      cases resume <;> simp [Writer.unpassed, Writer.resume, here, RunPoint.afterClose]
  | writeBatch resume here =>
    have ready : x.Ready := by
      have facts := sound.facts
      rw [here] at facts
      cases resume with
      | loop => exact facts
      | drain => exact facts.2.2
      | finish => exact facts.2.2.2
    have batch : batchesOf w [Obs.writeBatch w ⟨x.settings.metadata, x.batch⟩] =
        [⟨x.settings.metadata, x.batch⟩] := by
      simp [batchesOf, Obs.writtenBatch]
    refine ⟨?_, ?_, ?_⟩
    · have flow := books.flow
      simp only [Writer.unpassed, here] at flow
      rw [Option.toList_some, sentTo_append, passedTo_append, flow, passedTo, passedTo, batch]
      simp [Writer.unpassed, sentTo, Obs.sentEvent]
    · rw [Option.toList_some, batchesOf_append, batch]
      intro written member
      rcases List.mem_append.mp member with old | new
      · exact books.sizes written old
      · rw [List.mem_singleton.mp new]
        exact ⟨ready.1, ready.2, rfl⟩
    · have closes := books.closes
      rw [here] at closes
      rw [closesOf_append, closes]
      rfl
  | closeSink here =>
    refine ⟨?_, ?_, ?_⟩
    · have flow := books.flow
      simp only [Writer.unpassed, here] at flow
      have nothing : sentTo w [.sinkClose w] = [] ∧ passedTo w [.sinkClose w] = [] := ⟨rfl, rfl⟩
      rw [Option.toList_some, sentTo_append, passedTo_append, flow, nothing.1, nothing.2]
      simp [Writer.unpassed]
    · simpa [batchesOf_append, batchesOf, Obs.writtenBatch] using books.sizes
    · have closes := books.closes
      rw [here] at closes
      rw [closesOf_append, closes]
      simp [closesOf, RunPoint.afterClose]
  | wrote resume phase here outcome =>
    rcases outcome with rfl | ⟨error, rfl⟩ <;> refine books.silent (by simp) rfl ?_ ?_ <;>
      simp [Writer.unpassed, here, RunPoint.afterClose]
  | stop here | wake wake here | countError resume error here | drop resume error here
  | write resume here | closed error here | exit here =>
    refine books.silent (by simp) rfl ?_ ?_
    · simp [Writer.unpassed, here]
    · simp [here, RunPoint.afterClose]

/-! ### The books of all writers -/

/-- **The books of the process**: those of every writer, and nothing shown of any other. -/
structure Ledger (trace : List Obs) (s : State) : Prop where
  books : ∀ (w : Nat) (x : Writer), s.writers[w]? = some x → Books w trace x
  known : ∀ w : Nat, .initialized w ∈ trace ↔ w < s.writers.length
  fresh : ∀ w : Nat, s.writers.length ≤ w → ∀ shown ∈ trace, ¬ shown.Concerns w

theorem ledger_start : Ledger [] start := by
  refine ⟨?_, ?_, ?_⟩ <;> simp [start]

theorem Ledger.setWriter {trace : List Obs} {s s' : State} {w : Nat} {x x' : Writer}
    {shown : Option Obs} (ledger : Ledger trace s) (writer : s.writers[w]? = some x)
    (writers : s'.writers = s.writers.set w x') (books : Books w (trace ++ shown.toList) x')
    (own : ∀ seen ∈ shown, (∀ v, seen.Concerns v → v = w) ∧ ∀ v, seen ≠ .initialized v) :
    Ledger (trace ++ shown.toList) s' := by
  have inside : w < s.writers.length := (List.getElem?_eq_some_iff.mp writer).1
  refine ⟨fun v y there => ?_, fun v => ?_, fun v beyond seen member => ?_⟩
  · rw [writers] at there
    rcases getElem?_set_cases there with ⟨rfl, rfl⟩ | ⟨different, same⟩
    · exact books
    · exact (ledger.books v y same).silent (fun seen member about => different
        ((own seen member).1 v about)) rfl rfl rfl
  · rw [writers, List.length_set, ← ledger.known v, List.mem_append, or_iff_left]
    exact fun member => (own _ (Option.mem_toList.mp member)).2 v rfl
  · rw [writers, List.length_set] at beyond
    rcases List.mem_append.mp member with old | new
    · exact ledger.fresh v beyond seen old
    · intro about
      have same := (own seen (Option.mem_toList.mp new)).1 v about
      omega

theorem Ledger.still {trace : List Obs} {s s' : State} {shown : Option Obs}
    (ledger : Ledger trace s) (writers : s'.writers = s.writers)
    (silent : ∀ seen ∈ shown, (∀ v, ¬ seen.Concerns v) ∧ ∀ v, seen ≠ .initialized v) :
    Ledger (trace ++ shown.toList) s' := by
  refine ⟨fun v y there => ?_, fun v => ?_, fun v beyond seen member => ?_⟩
  · rw [writers] at there
    exact (ledger.books v y there).silent (fun seen member => (silent seen member).1 v) rfl rfl rfl
  · rw [writers, ← ledger.known v, List.mem_append, or_iff_left]
    exact fun member => (silent _ (Option.mem_toList.mp member)).2 v rfl
  · rw [writers] at beyond
    rcases List.mem_append.mp member with old | new
    · exact ledger.fresh v beyond seen old
    · exact (silent seen (Option.mem_toList.mp new)).1 v

/-- `Init` opens the books of a new writer. -/
theorem Ledger.initStore {trace : List Obs} {s : State} (ledger : Ledger trace s)
    (settings : Settings) (holder : Holder) :
    Ledger (trace ++ [.initialized s.writers.length]) { s with
      writers := s.writers ++ [newWriter settings]
      current := some s.writers.length
      holder := holder } := by
  have quiet : ∀ v, ∀ seen ∈ some (Obs.initialized s.writers.length), ¬ seen.Concerns v := by
    intro v seen member
    cases member
    exact id
  refine ⟨fun v y there => ?_, fun v => ?_, fun v beyond seen member => ?_⟩
  · rcases Nat.lt_or_ge v s.writers.length with old | new
    · rw [List.getElem?_append_left old] at there
      exact (ledger.books v y there).silent (quiet v) rfl rfl rfl
    · rw [List.getElem?_append_right new] at there
      have member := List.mem_of_getElem? there
      cases List.mem_singleton.mp member
      obtain ⟨sent, batches, passed, closes⟩ := silent_of_not_concerns (ledger.fresh v new)
      have opened : Books v trace (newWriter settings) := by
        refine ⟨?_, ?_, ?_⟩
        · rw [sent, passed]
          rfl
        · simp [batches]
        · rw [closes]
          rfl
      exact opened.silent (quiet v) rfl rfl rfl
  · rw [List.mem_append, List.mem_singleton, ledger.known v, Obs.initialized.injEq,
      List.length_append, List.length_singleton]
    omega
  · rw [List.length_append, List.length_singleton] at beyond
    rcases List.mem_append.mp member with old | new
    · exact ledger.fresh v (by omega) seen old
    · rw [List.mem_singleton.mp new]
      exact id

theorem Books.stepStage {w index : Nat} {x x' : Writer} {counters counters' : Counters}
    {event : Event} {stage : Stage} {choice : Choice} {point : LogPoint} {shown : Option Obs}
    {trace : List Obs} (books : Books w trace x)
    (step : stepStage w index x counters event stage choice = some (x', counters', point, shown)) :
    Books w (trace ++ shown.toList) x' := by
  have frame := stepStage_frame step
  have settings : x'.settings = x.settings := by rw [frame]
  have samePoint : x'.point = x.point := by rw [frame]
  have unpassed : x'.unpassed = x.unpassed := by
    unfold Writer.unpassed
    rw [samePoint, frame]
  rcases stepStage_queue step with ⟨rfl, queue⟩ | ⟨_, _, rfl, sent⟩
  · exact books.silent (by simp) settings (by rw [unpassed, queue]) (by rw [samePoint])
  · -- the event joins the trace and the end of the queue
    have items := (Channel.send_items sent).1
    have shown : sentTo w [.sent w index event] = [event] := by simp [sentTo, Obs.sentEvent]
    have batches : batchesOf w [.sent w index event] = [] := rfl
    refine ⟨?_, ?_, ?_⟩
    · rw [Option.toList_some, sentTo_append, passedTo_append, passedTo, passedTo, batches, shown,
        unpassed, items, books.flow]
      simp [passedTo]
    · rw [Option.toList_some, batchesOf_append, batches, List.append_nil, settings]
      exact books.sizes
    · rw [closesOf_append, samePoint, books.closes]
      rfl

theorem RunStep.own {w : Nat} {x x' : Writer} {counters counters' : Counters} {shown : Option Obs}
    (step : RunStep w x counters x' counters' shown) :
    ∀ seen ∈ shown, (∀ v, seen.Concerns v → v = w) ∧ ∀ v, seen ≠ .initialized v := by
  cases step with
  | writeBatch resume here | closeSink here =>
    intro seen member
    cases member
    exact ⟨fun v about => about.symm, fun v same => by cases same⟩
  | _ => simp

/-- **Every step keeps the books.** -/
theorem Ledger.step {trace : List Obs} {s s' : State} {shown : Option Obs} (good : Good s)
    (ledger : Ledger trace s) (step : Step s s' shown) : Ledger (trace ++ shown.toList) s' := by
  cases step with
  | log event => exact ledger.still rfl (by simp)
  | lock holder => exact ledger.still rfl (by simp)
  | call index moved =>
    cases moved with
    | load call here stands => exact ledger.still rfl (by simp)
    | dropInactive call here stands => exact ledger.still rfl (by simp)
    | within here stands writer moved =>
      refine ledger.setWriter writer rfl ((ledger.books _ _ writer).stepStage moved) ?_
      rcases stepStage_queue moved with ⟨rfl, _⟩ | ⟨_, _, rfl, _⟩
      · simp
      · intro seen member
        cases member
        exact ⟨fun v about => about.symm, fun v same => by cases same⟩
  | run w writer moved =>
    exact ledger.setWriter writer rfl
      ((ledger.books w _ writer).runStep (good.sound w _ writer) moved) moved.own
  | hold moved =>
    cases moved with
    | initStore cfg settings holds none accepted => exact ledger.initStore settings _
    | spawn w x holds writer =>
      have idle : x.point = .idle := by
        have fits := good.fits w x writer
        rw [State.role, holds] at fits
        simp only [if_true] at fits
        exact fits.2.2
      refine ledger.setWriter writer rfl ((ledger.books w x writer).silent ?_ rfl ?_ ?_) ?_
      · simp [Obs.Concerns]
      · simp [Writer.unpassed, idle]
      · simp [idle, RunPoint.afterClose]
      · simp [Obs.Concerns]
    | refuse w x holds writer =>
      exact ledger.setWriter writer rfl
        ((ledger.books w x writer).silent (by simp) rfl rfl rfl) (by simp)
    | stop w x holds writer =>
      exact ledger.setWriter writer rfl
        ((ledger.books w x writer).silent (by simp) rfl rfl rfl) (by simp)
    | swap w holds => exact ledger.still rfl (by simp)
    | initFailed | closeInactive | closed => exact ledger.still rfl (by simp [Obs.Concerns])

/-- **The books balance in every reachable state.** -/
theorem ledger_of_reaches {trace : List Obs} {s : State} (reach : machine.Reaches trace s) :
    Ledger trace s :=
  reach.invariant Ledger ledger_start fun _ _ _ _ _ before ledger step =>
    ledger.step (good_of_reaches before) (step_cases step)

/-- **What was passed to a sink is a first part of what was sent.** -/
theorem Ledger.passedTo_prefix {trace : List Obs} {s : State} (ledger : Ledger trace s) (w : Nat) :
    passedTo w trace <+: sentTo w trace := by
  rcases Nat.lt_or_ge w s.writers.length with inside | beyond
  · rw [(ledger.books w _ (List.getElem?_eq_getElem inside)).flow]
    exact List.prefix_append _ _
  · rw [(silent_of_not_concerns (ledger.fresh w beyond)).2.2.1]
    exact List.nil_prefix

/-! ### After `sink.Close` -/

/-- `sink.Close` has been called for the writer. -/
def State.Closed (s : State) (w : Nat) : Prop :=
  ∃ x, s.writers[w]? = some x ∧ x.point.afterClose = true

/-- The goroutine goes from `sink.Close` to its exit. -/
theorem RunStep.afterClose {w : Nat} {x x' : Writer} {counters counters' : Counters}
    {shown : Option Obs} (step : RunStep w x counters x' counters' shown)
    (closed : x.point.afterClose = true) : shown = none ∧ x'.point.afterClose = true := by
  cases step with
  | receive resume event queue here =>
    rcases here with ⟨here, _⟩ | ⟨here, _⟩ <;> rw [here] at closed <;> cases closed
  | closed error here | exit here => exact ⟨rfl, rfl⟩
  | tick here | stop here | load here | wake wake here | drained here | writeBatch resume here
  | wrote resume phase here | countError resume error here | drop resume error here
  | write resume here | settle resume here | closeSink here =>
    rw [here] at closed
    cases closed

/-- **Nothing follows `sink.Close`**: no call can send any more and the goroutine only exits. -/
theorem Step.afterClose {s s' : State} {w : Nat} {shown : Option Obs} (good : Good s)
    (closed : s.Closed w) (step : Step s s' shown) :
    s'.Closed w ∧ ∀ seen ∈ shown, ¬ seen.Concerns w := by
  obtain ⟨x, writer, late⟩ := closed
  have inside : w < s.writers.length := (List.getElem?_eq_some_iff.mp writer).1
  have other : ∀ {v : Nat} {y' : Writer}, v ≠ w → (s.writers.set v y')[w]? = some x :=
    fun different => by rw [List.getElem?_set_ne different, writer]
  have own : ∀ {y' : Writer}, (s.writers.set w y')[w]? = some y' :=
    fun {y'} => List.getElem?_set_self inside
  cases step with
  | log event => exact ⟨⟨x, writer, late⟩, by simp⟩
  | lock holder => exact ⟨⟨x, writer, late⟩, by simp⟩
  | call index moved =>
    cases moved with
    | load call here stands => exact ⟨⟨x, writer, late⟩, by simp⟩
    | dropInactive call here stands => exact ⟨⟨x, writer, late⟩, by simp⟩
    | @within call v stage choice y y' counters point shown here stands there moved =>
      by_cases same : v = w
      · subst same
        cases there.symm.trans writer
        have samePoint : y'.point = x.point := by rw [stepStage_frame moved]
        refine ⟨⟨y', own, samePoint ▸ late⟩, ?_⟩
        rcases stepStage_queue moved with ⟨rfl, _⟩ | ⟨rfl, _⟩
        · simp
        · -- a call at the queue would hold the writer
          have weight : call.point.weight Stage.holding v ≤ s.census Stage.holding v :=
            weigh_le_tally (fun call : Call => call.point.weight Stage.holding v) here
          have drained := (good.sound v x writer).drained
            (RunPoint.afterWait_of_afterDrain (RunPoint.afterDrain_of_afterClose late))
          rw [drained, stands] at weight
          simp [LogPoint.weight, Stage.holding] at weight
      · refine ⟨⟨x, other same, late⟩, ?_⟩
        rcases stepStage_queue moved with ⟨rfl, _⟩ | ⟨_, _, rfl, _⟩
        · simp
        · intro seen member about
          cases member
          exact same about
  | @run y y' counters shown v there moved =>
    by_cases same : v = w
    · subst same
      cases there.symm.trans writer
      obtain ⟨rfl, after⟩ := moved.afterClose late
      exact ⟨⟨y', own, after⟩, by simp⟩
    · exact ⟨⟨x, other same, late⟩, fun seen member about => same ((moved.own seen member).1 w about).symm⟩
  | hold moved =>
    have replaced : ∀ {v : Nat} {y y' : Writer}, s.writers[v]? = some y →
        (y.point.afterClose = true → y'.point.afterClose = true) →
        ∃ x, (s.writers.set v y')[w]? = some x ∧ x.point.afterClose = true := by
      intro v y y' there keeps
      by_cases same : v = w
      · subst same
        cases there.symm.trans writer
        exact ⟨y', own, keeps late⟩
      · exact ⟨x, other same, late⟩
    cases moved with
    | initStore cfg settings holds none accepted =>
      exact ⟨⟨x, by rw [List.getElem?_append_left inside, writer], late⟩, by simp [Obs.Concerns]⟩
    | spawn v y holds there =>
      have fits := good.fits v y there
      rw [State.role, holds] at fits
      simp only [if_true] at fits
      refine ⟨replaced there fun after => ?_, by simp [Obs.Concerns]⟩
      rw [fits.2.2] at after
      cases after
    | refuse v y holds there => exact ⟨replaced there fun after => after, by simp⟩
    | stop v y holds there => exact ⟨replaced there fun after => after, by simp⟩
    | swap v holds => exact ⟨⟨x, writer, late⟩, by simp⟩
    | initFailed | closeInactive | closed => exact ⟨⟨x, writer, late⟩, by simp [Obs.Concerns]⟩

/-- **Nothing of a writer follows the call of `sink.Close`**, in any run. -/
theorem runs_afterClose {s last : State} {w : Nat} {trace : List Obs}
    (run : machine.Runs s trace last) (good : Good s) (closed : s.Closed w) :
    ∀ seen ∈ trace, ¬ seen.Concerns w := by
  have kept := run.invariant
    (fun trace s => Good s ∧ s.Closed w ∧ ∀ seen ∈ trace, ¬ seen.Concerns w)
    ⟨good, closed, by simp⟩ ?_
  · exact kept.2.2
  · rintro trace s next action shown _ ⟨good, closed, silent⟩ step
    obtain ⟨stays, quiet⟩ := (step_cases step).afterClose good closed
    refine ⟨good.step (step_cases step), stays, fun seen member => ?_⟩
    rcases List.mem_append.mp member with old | new
    · exact silent seen old
    · exact quiet seen (Option.mem_toList.mp new)

/-- `sink.Close` is called by the goroutine of the writer, at its point. -/
theorem Step.sinkClose {s s' : State} {w : Nat} {shown : Option Obs} (step : Step s s' shown)
    (seen : shown = some (.sinkClose w)) :
    (∃ x, s.writers[w]? = some x ∧ x.point = .closeCall) ∧ s'.Closed w := by
  cases step with
  | call index moved =>
    cases moved with
    | within here stands writer moved =>
      rcases stepStage_queue moved with ⟨rfl, _⟩ | ⟨_, _, rfl, _⟩ <;> cases seen
    | _ => cases seen
  | run v writer moved =>
    cases moved with
    | closeSink here =>
      cases seen
      refine ⟨⟨_, writer, here⟩, ⟨_, List.getElem?_set_self ?_, rfl⟩⟩
      exact (List.getElem?_eq_some_iff.mp writer).1
    | _ => cases seen
  | hold moved => cases moved <;> cases seen
  | _ => cases seen

/-- No writer is installed or on its way in or out. -/
def State.Shut (s : State) : Prop :=
  s.current = none ∧ (s.holder = .free ∨ s.holder = .closing ∨ ∃ cfg, s.holder = .initializing cfg)

theorem Good.exited {s : State} (good : Good s) (shut : s.Shut) {w : Nat} {x : Writer}
    (writer : s.writers[w]? = some x) : x.point = .exited := by
  have fits := good.fits w x writer
  obtain ⟨none, holder⟩ := shut
  rcases holder with holder | holder | ⟨cfg, holder⟩ <;>
    simp only [State.role, holder, none, reduceCtorEq, if_false] at fits <;> exact fits.2.2

/-- When a `Close` call returns the process is shut. -/
theorem Step.closeReturned {s s' : State} {closed : Option Nat} {errors : List GoError}
    {shown : Option Obs} (good : Good s) (step : Step s s' shown)
    (seen : shown = some (.closeReturned closed errors)) :
    s'.Shut ∧ s'.writers = s.writers := by
  cases step with
  | call index moved =>
    cases moved with
    | within here stands writer moved =>
      rcases stepStage_queue moved with ⟨rfl, _⟩ | ⟨_, _, rfl, _⟩ <;> cases seen
    | _ => cases seen
  | run v writer moved => cases moved <;> cases seen
  | hold moved =>
    cases moved with
    | closeInactive holds none => exact ⟨⟨none, .inl rfl⟩, rfl⟩
    | closed w x holds writer done =>
      have links := good.links
      rw [holds] at links
      exact ⟨⟨links.1, .inl rfl⟩, rfl⟩
    | _ => cases seen
  | _ => cases seen

theorem Books.settled {w : Nat} {trace : List Obs} {x : Writer} {inSection holding owing : Nat}
    (books : Books w trace x) (sound : Sound x inSection holding owing)
    (late : x.point = .closeCall ∨ x.point.afterClose = true) :
    passedTo w trace = sentTo w trace := by
  have flow := books.flow
  have emptied : x.queue.items = [] := by
    refine sound.emptied ?_
    rcases late with here | late
    · rw [here]
      rfl
    · exact RunPoint.afterDrain_of_afterClose late
  have unpassed : x.unpassed = [] := by
    unfold Writer.unpassed
    rcases late with here | late
    · rw [here]
    · cases here : x.point <;> rw [here] at late <;> first | rfl | cases late
  rw [flow, emptied, unpassed, List.append_nil, List.append_nil]

/-- **Delivery.** In every run of any number of `Log` calls, goroutines, `Init` and `Close` calls,
for every writer: every batch passed to its sink has between one and `BatchSize` events; what was
passed is, in order, a first part of what was sent; when `sink.Close` is called everything that is
ever sent has been passed on and nothing follows; and when any `Close` call returns this has
happened, once, to every writer installed before. -/
theorem delivery {trace : List Obs} {s : State} (reach : machine.Reaches trace s) (w : Nat) :
    (∀ x, s.writers[w]? = some x → ∀ batch ∈ batchesOf w trace,
      1 ≤ batch.events.length ∧ batch.events.length ≤ x.settings.batchSize) ∧
    passedTo w trace <+: sentTo w trace ∧
    closesOf w trace ≤ 1 ∧
    (∀ before after : List Obs, trace = before ++ .sinkClose w :: after →
      passedTo w before = sentTo w trace ∧ ∀ shown ∈ after, ¬ shown.Concerns w) ∧
    (∀ (before after : List Obs) (closed : Option Nat) (errors : List GoError),
      trace = before ++ .closeReturned closed errors :: after → .initialized w ∈ before →
      closesOf w before = 1 ∧ passedTo w before = sentTo w trace) := by
  have ledger := ledger_of_reaches reach
  -- what follows a closed writer shows nothing of it
  have rest : ∀ (before after : List Obs) (shown : Obs), ¬ shown.Concerns w ∨
      shown = .sinkClose w → trace = before ++ shown :: after →
      (∀ seen ∈ after, ¬ seen.Concerns w) → sentTo w trace = sentTo w before := by
    rintro before after shown plain rfl silent
    have none : sentTo w [shown] = [] := by
      rcases plain with away | rfl
      · exact (silent_of_not_concerns (by simpa using away)).1
      · rfl
    rw [← List.singleton_append, sentTo_append, sentTo_append, none,
      (silent_of_not_concerns silent).1, List.append_nil, List.append_nil]
  refine ⟨fun x writer batch member => ?_, ledger.passedTo_prefix w, ?_, fun before after cut => ?_,
    fun before after closed errors cut known => ?_⟩
  · obtain ⟨least, most, _⟩ := (ledger.books w x writer).sizes batch member
    exact ⟨least, most⟩
  · rcases Nat.lt_or_ge w s.writers.length with inside | beyond
    · rw [(ledger.books w _ (List.getElem?_eq_getElem inside)).closes]
      split <;> omega
    · rw [(silent_of_not_concerns (ledger.fresh w beyond)).2.2.2]
      omega
  · obtain ⟨middle, next, action, early, step, late⟩ := Machine.Runs.split reach cut
    obtain ⟨⟨x, writer, here⟩, after⟩ := (step_cases step).sinkClose rfl
    have good := good_of_reaches early
    have silent := runs_afterClose late (good.step (step_cases step)) after
    refine ⟨?_, silent⟩
    rw [rest before _ _ (.inr rfl) cut silent]
    exact ((ledger_of_reaches early).books w x writer).settled (good.sound w x writer) (.inl here)
  · obtain ⟨middle, next, action, early, step, late⟩ := Machine.Runs.split reach cut
    have good := good_of_reaches early
    have before := ledger_of_reaches early
    obtain ⟨shut, same⟩ := (step_cases step).closeReturned good rfl
    have inside := (before.known w).mp known
    have writer := List.getElem?_eq_getElem inside
    have goodNext := good.step (step_cases step)
    have still : next.writers[w]? = some middle.writers[w] := by rw [same, writer]
    have exited := goodNext.exited shut still
    have after : RunPoint.afterClose (middle.writers[w]).point = true := by
      rw [exited]
      rfl
    have silent := runs_afterClose late goodNext ⟨_, still, after⟩
    have books := before.books w _ writer
    refine ⟨?_, ?_⟩
    · rw [books.closes, after]
      rfl
    · rw [rest _ _ _ (.inl id) cut silent]
      exact books.settled (good.sound w _ writer) (.inr after)

/-! ### Services -/

/-- Every writer has a service. -/
def Named (writers : List Writer) : Prop :=
  ∀ (w : Nat) (x : Writer), writers[w]? = some x → x.settings.metadata.service ≠ []

theorem service_of_normalizeConfig {cfg : Config} {settings : Settings}
    (accepted : normalizeConfig cfg = .ok settings) : settings.metadata.service ≠ [] := by
  unfold normalizeConfig at accepted
  split at accepted
  · cases accepted
  · rename_i service
    split at accepted
    · cases accepted
    · split_ifs at accepted
      cases accepted
      exact service

theorem Named.set {writers : List Writer} {w : Nat} {x x' : Writer} (named : Named writers)
    (writer : writers[w]? = some x) (settings : x'.settings = x.settings) :
    Named (writers.set w x') := by
  intro v y here
  rcases getElem?_set_cases here with ⟨rfl, rfl⟩ | ⟨_, old⟩
  · rw [settings]
    exact named v x writer
  · exact named v y old

/-- **Every step leaves each writer its service.** -/
theorem Named.step {s s' : State} {shown : Option Obs} (named : Named s.writers)
    (step : Step s s' shown) : Named s'.writers := by
  cases step with
  | log event => exact named
  | lock holder => exact named
  | call index moved =>
    cases moved with
    | load call here stands => exact named
    | dropInactive call here stands => exact named
    | within here stands writer moved =>
      have kept := congrArg Writer.settings (stepStage_frame moved)
      exact named.set writer kept
  | run w writer moved => exact named.set writer moved.frame.1
  | hold moved =>
    cases moved with
    | initStore cfg settings holds none accepted =>
      intro w x here
      rcases Nat.lt_or_ge w s.writers.length with old | new
      · rw [List.getElem?_append_left old] at here
        exact named w x here
      · rw [List.getElem?_append_right new] at here
        have made := List.mem_of_getElem? here
        rw [List.mem_singleton.mp made]
        exact service_of_normalizeConfig accepted
    | spawn w x holds writer => exact named.set writer rfl
    | refuse w x holds writer => exact named.set writer rfl
    | stop w x holds writer => exact named.set writer rfl
    | swap w holds => exact named
    | initFailed | closeInactive | closed => exact named

/-- **What is passed to a sink** has a service and an event. -/
theorem batch_of_reaches {trace : List Obs} {s : State} (reach : machine.Reaches trace s) {w : Nat}
    {batch : Batch} (passed : batch ∈ batchesOf w trace) :
    batch.metadata.service ≠ [] ∧ batch.events ≠ [] := by
  have named : Named s.writers :=
    reach.invariant (fun _ s => Named s.writers) (fun w x none => by simp [machine, start] at none)
      fun _ _ _ _ _ _ named step => named.step (step_cases step)
  have ledger := ledger_of_reaches reach
  rcases Nat.lt_or_ge w s.writers.length with inside | beyond
  · have writer := List.getElem?_eq_getElem inside
    obtain ⟨some, _, metadata⟩ := (ledger.books w _ writer).sizes batch passed
    rw [metadata]
    exact ⟨named w _ writer, List.length_pos_iff.mp some⟩
  · rw [(silent_of_not_concerns (ledger.fresh w beyond)).2.1] at passed
    cases passed

/-- `Init`, one `Log` call that returns, and `Close`, with a batch size of one. -/
def lifecycle : List Action :=
  let logs : List Choice := [.step, .step, .step, .step, .step, .send, .step, .step]
  let runs : List RunChoice := [.receive, .step, .returned none, .step, .step, .stop, .step,
    .default, .step, .returned none, .step]
  List.flatten [
    [.init { service := ascii "svc", sink := some 0, batchSize := 1 }, .hold, .hold,
      .log (Bytes.zero 16) 1 (ascii "kind") []],
    logs.map (Action.call 0), [.close, .hold, .hold, .hold], runs.map (Action.run 0), [.hold]]

/-- What a run of `lifecycle` shows. -/
def lifecycleTrace : List Obs :=
  let event := buildEvent (Bytes.zero 16) 1 (ascii "kind") []
  [.initialized 0, .initReturned none, .sent 0 0 event,
    .writeBatch 0 ⟨⟨ascii "svc", [], []⟩, [event]⟩, .sinkClose 0, .closeReturned (some 0) []]

theorem reaches_lifecycle : ∃ s, machine.Reaches lifecycleTrace s := by
  have ran : (machine.exec machine.start lifecycle).map Prod.fst = some lifecycleTrace := by rfl
  obtain ⟨⟨trace, s⟩, done, same⟩ := Option.map_eq_some_iff.mp ran
  cases same
  exact ⟨s, Machine.exec_runs done⟩

theorem delivery_lifecycle : ∃ s, machine.Reaches lifecycleTrace s ∧
    closesOf 0 (lifecycleTrace.take 5) = 1 ∧
    passedTo 0 (lifecycleTrace.take 5) = [buildEvent (Bytes.zero 16) 1 (ascii "kind") []] := by
  obtain ⟨s, reach⟩ := reaches_lifecycle
  obtain ⟨once, all⟩ := (delivery reach 0).2.2.2.2 (lifecycleTrace.take 5) [] (some 0) []
    (by decide) (by decide)
  exact ⟨s, reach, once, all.trans (by decide)⟩

end Trail.Runtime
