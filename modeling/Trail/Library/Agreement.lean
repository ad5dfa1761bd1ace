/-
**Programs that agree against one backend.**

A `Backend` answers every call by a state, except for the calls that are `free` to be answered in any
way, such as the choices of a scheduler. Two programs agree when any two finished runs of them against
the backend, from the same state, end in the same state, have emitted the same, and return related
values.

* `agree_pure`, `agree_call`, `agree_bind`: the rules along a program.
* `agree_self`: a program without free calls agrees with itself.
* `agree_pool`: two pools of the same threads agree, whatever their widths and schedules are, when the
  calls of the threads are answered by themselves and their effects commute.
-/

import Trail.Library.Pools

namespace Trail.Library

variable {σ : Signature} {S γ : Type}

/-- A backend with a state. -/
structure Backend (σ : Signature) (S : Type) where
  reply : S → (op : σ.Call) → σ.Reply op
  next : S → σ.Call → S
  /-- Calls that are answered in any way. -/
  free : σ.Call → Prop

namespace Backend

variable (backend : Backend σ S)

/-- The exchanges are with the backend, from a state on. -/
def Answers : S → List σ.Exchange → Prop
  | _, [] => True
  | state, exchange :: rest =>
    (¬ backend.free exchange.op → exchange.reply = backend.reply state exchange.op) ∧
      Answers (backend.next state exchange.op) rest

/-- The state after some exchanges. -/
def after (state : S) (trace : List σ.Exchange) : S :=
  trace.foldl (fun state exchange => backend.next state exchange.op) state

theorem after_append (state : S) (first second : List σ.Exchange) :
    backend.after state (first ++ second) = backend.after (backend.after state first) second :=
  List.foldl_append

theorem answers_append {state : S} {first second : List σ.Exchange} :
    backend.Answers state (first ++ second) ↔
      backend.Answers state first ∧ backend.Answers (backend.after state first) second := by
  induction first generalizing state with
  | nil => exact ⟨fun answers => ⟨trivial, answers⟩, fun answers => answers.2⟩
  | cons exchange first ih =>
    show _ ∧ backend.Answers _ (first ++ second) ↔ (_ ∧ _) ∧ _
    rw [ih]
    exact and_assoc.symm

/-- A run answered by a function is with a backend that does not change and answers like it. -/
theorem answers_play {α : Type} {answer : (op : σ.Call) → σ.Reply op} {state : S}
    (still : ∀ op, backend.next state op = state)
    (same : ∀ op, ¬ backend.free op → answer op = backend.reply state op) (program : Prog σ α) :
    backend.Answers state (program.play answer).1 := by
  induction program with
  | pure value => trivial
  | call op next ih =>
    refine ⟨same op, ?_⟩
    show backend.Answers (backend.next state op) _
    rw [still]
    exact ih _

/-- Calls that are answered by themselves, and whose effects commute. -/
structure Workers (works : σ.Call → Prop) : Prop where
  fixed : ∀ first second op, works op → backend.reply first op = backend.reply second op
  commute : ∀ state first second, works first → works second →
    backend.next (backend.next state first) second = backend.next (backend.next state second) first
  bound : ∀ op, works op → ¬ backend.free op
  idle : ∀ state op, backend.free op → backend.next state op = state

section Agree

variable (emit : σ.Call → Multiset γ) {α β α' β' : Type}

/-- **Two programs agree**: finished runs from one state end alike. -/
def Agree (left : Prog σ α) (right : Prog σ β) (related : α → β → Prop) : Prop :=
  ∀ state first second one two, left.Trace first (some one) → backend.Answers state first →
    right.Trace second (some two) → backend.Answers state second →
    backend.after state first = backend.after state second ∧
      Prog.emitted emit first = Prog.emitted emit second ∧ related one two

variable {backend emit}

theorem agree_pure {related : α → β → Prop} {one : α} {two : β} (holds : related one two) :
    backend.Agree emit (.pure one) (.pure two) related := by
  intro state first second _ _ left _ right _
  obtain ⟨rfl, rfl⟩ := left.pure_inv
  obtain ⟨rfl, rfl⟩ := right.pure_inv
  exact ⟨rfl, rfl, holds⟩

theorem agree_call {op : σ.Call} (bound : ¬ backend.free op) {left : σ.Reply op → Prog σ α}
    {right : σ.Reply op → Prog σ β} {related : α → β → Prop}
    (rest : ∀ reply, backend.Agree emit (left reply) (right reply) related) :
    backend.Agree emit (.call op left) (.call op right) related := by
  intro state first second one two ranLeft ansLeft ranRight ansRight
  obtain ⟨reply, first, rfl, goesLeft⟩ := ranLeft.call_inv
  obtain ⟨other, second, rfl, goesRight⟩ := ranRight.call_inv
  -- the backend gives both the same reply
  obtain rfl : reply = other := (ansLeft.1 bound).trans (ansRight.1 bound).symm
  obtain ⟨states, emits, holds⟩ := rest reply _ _ _ _ _ goesLeft ansLeft.2 goesRight ansRight.2
  refine ⟨states, ?_, holds⟩
  show (_ :: _).sum = (_ :: _).sum
  rw [List.sum_cons, List.sum_cons]
  exact congrArg (emit op + ·) emits

theorem agree_bind {left : Prog σ α} {right : Prog σ β} {next : α → Prog σ α'}
    {next' : β → Prog σ β'} {related : α → β → Prop} {related' : α' → β' → Prop}
    (programs : backend.Agree emit left right related)
    (rest : ∀ one two, related one two → backend.Agree emit (next one) (next' two) related') :
    backend.Agree emit (left.bind next) (right.bind next') related' := by
  intro state first second one two ranLeft ansLeft ranRight ansRight
  obtain ⟨middle, before, later, goes, ends, rfl⟩ := ranLeft.bind_inv
  obtain ⟨middle', before', later', goes', ends', rfl⟩ := ranRight.bind_inv
  obtain ⟨answers, answersLater⟩ := backend.answers_append.mp ansLeft
  obtain ⟨answers', answersLater'⟩ := backend.answers_append.mp ansRight
  obtain ⟨states, emits, holds⟩ := programs _ _ _ _ _ goes answers goes' answers'
  rw [← states] at answersLater'
  obtain ⟨statesLater, emitsLater, final⟩ :=
    rest _ _ holds _ _ _ _ _ ends answersLater ends' answersLater'
  refine ⟨?_, ?_, final⟩
  · rw [backend.after_append, backend.after_append, ← states, statesLater]
  · rw [Prog.emitted_append, Prog.emitted_append, emits, emitsLater]

theorem agree_self {program : Prog σ α} {history : List σ.Exchange}
    {post : List σ.Exchange → α → Prop}
    (bound : program.Obeys (fun _ op => ¬ backend.free op) history post) :
    backend.Agree emit program program (· = ·) := by
  induction program generalizing history with
  | pure value => exact agree_pure rfl
  | call op next ih => exact agree_call bound.1 fun reply => ih reply (bound.2 reply)

end Agree

/-! ### Pools -/

section Pools

variable {backend} {works : σ.Call → Prop} [DecidablePred works]

/-- The effect of a call of the workers. -/
def work (backend : Backend σ S) (works : σ.Call → Prop) [DecidablePred works] (state : S)
    (op : σ.Call) : S :=
  if works op then backend.next state op else state

theorem Workers.rightCommutative (workers : backend.Workers works) :
    RightCommutative (backend.work works) := by
  refine ⟨fun state first second => ?_⟩
  unfold work
  by_cases one : works first
  · by_cases two : works second
    · simp only [if_pos one, if_pos two]
      exact workers.commute state first second one two
    · simp only [if_neg two]
  · simp only [if_neg one]

/-- The calls of the workers. -/
def workCalls (works : σ.Call → Prop) [DecidablePred works] (op : σ.Call) : Multiset σ.Call :=
  if works op then {op} else 0

/-- The state after exchanges of workers and free calls is what the workers' calls made of it. -/
theorem Workers.after_eq (workers : backend.Workers works) {trace : List σ.Exchange}
    (only : ∀ exchange ∈ trace, works exchange.op ∨ backend.free exchange.op) (state : S) :
    have := workers.rightCommutative
    backend.after state trace =
      (Prog.emitted (workCalls works) trace).foldl (backend.work works) state := by
  have commutes := workers.rightCommutative
  induction trace generalizing state with
  | nil => rfl
  | cons exchange trace ih =>
    have rest := ih (fun other member => only other (List.mem_cons_of_mem _ member))
      (backend.next state exchange.op)
    have split : Prog.emitted (workCalls works) (exchange :: trace) =
        workCalls works exchange.op + Prog.emitted (workCalls works) trace := List.sum_cons
    show backend.after (backend.next state exchange.op) trace = _
    rw [rest, split, Multiset.foldl_add]
    congr 1
    unfold workCalls
    by_cases here : works exchange.op
    · rw [if_pos here]
      exact (if_pos here).symm
    · rw [if_neg here]
      rcases only exchange List.mem_cons_self with other | free
      · exact absurd other here
      · exact workers.idle state _ free

omit [DecidablePred works] in
theorem Workers.answered (workers : backend.Workers works) (fixed : S) {state : S}
    {trace : List σ.Exchange} (answers : backend.Answers state trace) {exchange : σ.Exchange}
    (member : exchange ∈ trace) (here : works exchange.op) :
    exchange.reply = backend.reply fixed exchange.op := by
  induction trace generalizing state with
  | nil => cases member
  | cons first trace ih =>
    rcases List.mem_cons.mp member with rfl | later
    · rw [answers.1 (workers.bound _ here)]
      exact workers.fixed _ _ _ here
    · exact ih answers.2 later

/-- **Pools of the same threads agree**, whatever their widths and schedules are. -/
theorem agree_pool {α β δ : Type} {emit : σ.Call → Multiset γ} {chooser : Prog.Chooser σ}
    {merge : β → α → β} (workers : backend.Workers works)
    (silent : ∀ count, emit (chooser.op count) = 0) (free : ∀ count, backend.free (chooser.op count))
    (view : β → δ) (step : δ → α → δ) [RightCommutative step]
    (seen : ∀ total value, view (merge total value) = step (view total) value)
    (width width' calls fuel fuel' : Nat) {threads : List (Prog σ α)}
    (always : ∀ thread ∈ threads, thread.Always (fun _ op => works op) fun _ => True)
    (short : ∀ thread ∈ threads, thread.Within calls)
    (enough : threads.length * (calls + 2) ≤ fuel) (enough' : threads.length * (calls + 2) ≤ fuel')
    {total total' : β} (start : view total = view total') :
    backend.Agree emit (Prog.pool chooser width merge fuel threads [] total)
      (Prog.pool chooser width' merge fuel' threads [] total')
      fun one two => view one = view two := by
  intro state first second one two ranLeft ansLeft ranRight ansRight
  have commutes := workers.rightCommutative
  -- the calls of a pool are the choices and those of its threads
  have only : ∀ {width fuel : Nat} {total value : β} {trace : List σ.Exchange},
      (Prog.pool chooser width merge fuel threads [] total).Trace trace (some value) →
      ∀ exchange ∈ trace, works exchange.op ∨ backend.free exchange.op := by
    intro width fuel total value trace ran
    have obeys := (@Prog.pool_total σ α β (fun _ => True) (fun op => works op ∨ backend.free op)
      chooser width merge (fun count => .inr (free count)) (fun _ _ _ => trivial) fuel threads []
      total (fun thread member => (always thread member).weaken fun _ _ works => .inl works)
      (fun _ member => (List.not_mem_nil member).elim) trivial []).extends
    obtain ⟨new, same, every, _⟩ := (obeys.trace ran).2 value rfl
    rw [List.nil_append, List.nil_append] at same
    exact same ▸ every
  have played : ∀ {γ : Type} (emit : σ.Call → Multiset γ),
      (∀ count, emit (chooser.op count) = 0) → ∀ {width fuel : Nat} {total value : β}
      {trace : List σ.Exchange}, threads.length * (calls + 2) ≤ fuel →
      (Prog.pool chooser width merge fuel threads [] total).Trace trace (some value) →
      backend.Answers state trace →
      Prog.emitted emit trace = (threads.map fun thread =>
          Prog.emitted emit (thread.play (backend.reply state)).1).sum ∧
        view value = (threads.map fun thread =>
          (thread.play (backend.reply state)).2).foldl step (view total) := by
    intro γ emit silent width fuel total value trace enough ran answers
    exact @Prog.pool_played σ α β γ δ (backend.reply state) emit works
      (fun x => works x.op → x.reply = backend.reply state x.op) chooser merge view step _ seen silent
      (fun op reply here answered => answered here) width calls fuel threads always short enough
      total value trace ran fun x member here => workers.answered state answers member here
  have quiet : ∀ count, workCalls works (chooser.op count) = 0 :=
    fun count => if_neg fun here => workers.bound _ here (free count)
  obtain ⟨emitsLeft, valueLeft⟩ := played emit silent enough ranLeft ansLeft
  obtain ⟨emitsRight, valueRight⟩ := played emit silent enough' ranRight ansRight
  obtain ⟨callsLeft, _⟩ := played (workCalls works) quiet enough ranLeft ansLeft
  obtain ⟨callsRight, _⟩ := played (workCalls works) quiet enough' ranRight ansRight
  refine ⟨?_, emitsLeft.trans emitsRight.symm, ?_⟩
  · rw [workers.after_eq (only ranLeft), workers.after_eq (only ranRight), callsLeft, callsRight]
  · show view one = view two
    rw [valueLeft, valueRight, start]

end Pools

end Backend

end Trail.Library
