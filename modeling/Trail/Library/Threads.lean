/-
**Programs that share a world.**

A `Service` answers the calls of programs from a world they share and a state of each thread's own;
which answer, among those possible, is a choice of the environment. The `machine` of a service runs
any number of threads, one call at a time and in any order: threads are started at any time, each
with the program of a job, and may crash at any time, losing their own state.

`Discipline` is the rule for what such a machine keeps. An invariant of the world and facts of each
thread are proved one call at a time, assuming that the call was allowed; the facts must outlive
whatever the others do, that is every way in which the world grows.
-/

import Trail.Library.Interaction
import Trail.Library.Machine

namespace Trail.Library

/-- How calls are answered from a shared world. -/
structure Service (σ : Signature) where
  World : Type
  /-- What a thread has of its own, lost when it crashes. -/
  Own : Type
  /-- What the environment decides when it answers. -/
  Choice : Type
  world : World
  own : Own
  respond : World → Own → (op : σ.Call) → Choice → Option (World × Own × σ.Reply op)

namespace Service

variable {σ : Signature} (service : Service σ)

/-- A thread: what is left of its program, its own state, and the exchanges it has made. -/
structure Thread where
  program : Prog σ Unit
  own : service.Own
  history : List σ.Exchange

structure State where
  world : service.World
  threads : List service.Thread

inductive Action (Job : Type)
  | spawn (job : Job)
  | step (index : Nat) (choice : service.Choice)
  | crash (index : Nat)

variable {Job : Type} (program : Job → Prog σ Unit)

def step (state : service.State) : service.Action Job → Option (service.State × Option Empty)
  | .spawn job =>
    some ({ state with threads := state.threads ++ [⟨program job, service.own, []⟩] }, none)
  | .step index choice =>
    match state.threads[index]? with
    | some ⟨.call op next, own, history⟩ =>
      match service.respond state.world own op choice with
      | some (world, own, reply) =>
        some (⟨world, state.threads.set index ⟨next reply, own, history ++ [⟨op, reply⟩]⟩⟩, none)
      | none => none
    | _ => none
  | .crash index => some ({ state with threads := state.threads.eraseIdx index }, none)

def machine : Machine service.State (service.Action Job) Empty where
  start := ⟨service.world, []⟩
  step := service.step program

/-- What the threads of a service may call, what the world keeps, and what a thread knows. -/
structure Discipline where
  allow : List σ.Exchange → σ.Call → Prop
  good : service.World → Prop
  knows : service.World → service.Own → List σ.Exchange → Prop
  grows : service.World → service.World → Prop
  /-- What a thread knows outlives the growth of the world. -/
  stable : ∀ {world later own history}, grows world later → knows world own history →
    knows later own history
  /-- One allowed call. -/
  answer : ∀ {world own history op choice later next reply}, good world → knows world own history →
    allow history op → service.respond world own op choice = some (later, next, reply) →
    good later ∧ grows world later ∧ knows later next (history ++ [⟨op, reply⟩])
  start : good service.world
  fresh : ∀ world, knows world service.own []

variable {service} {program}

/-- What holds in every state: the world is good, every thread keeps the discipline and knows what
it knows. -/
def Discipline.Holds (discipline : service.Discipline) (state : service.State) : Prop :=
  discipline.good state.world ∧ ∀ thread ∈ state.threads,
    discipline.knows state.world thread.own thread.history ∧
    thread.program.Obeys discipline.allow thread.history fun _ _ => True

theorem Discipline.step (discipline : service.Discipline)
    (jobs : ∀ job, (program job).Obeys discipline.allow [] fun _ _ => True)
    {state next : service.State} {action : service.Action Job} {shown : Option Empty}
    (holds : discipline.Holds state)
    (taken : service.step program state action = some (next, shown)) : discipline.Holds next := by
  obtain ⟨good, threads⟩ := holds
  cases action with
  | spawn job =>
    cases taken
    refine ⟨good, fun thread member => ?_⟩
    rcases List.mem_append.mp member with old | new
    · exact threads thread old
    · rw [List.mem_singleton.mp new]
      exact ⟨discipline.fresh _, jobs job⟩
  | crash index =>
    cases taken
    exact ⟨good, fun thread member => threads thread (List.mem_of_mem_eraseIdx member)⟩
  | step index choice =>
    unfold Service.step at taken
    dsimp only at taken
    split at taken
    · rename_i op rest own history here
      split at taken
      · rename_i world next reply answered
        cases taken
        obtain ⟨knows, allowed, obeys⟩ := threads _ (List.mem_of_getElem? here)
        obtain ⟨still, grows, known⟩ := discipline.answer good knows allowed answered
        refine ⟨still, fun thread member => ?_⟩
        rcases List.mem_or_eq_of_mem_set member with old | rfl
        · exact ⟨discipline.stable grows (threads thread old).1, (threads thread old).2⟩
        · exact ⟨known, obeys reply⟩
      · cases taken
    · cases taken

/-- **What the discipline says holds in every state reached.** -/
theorem Discipline.holds (discipline : service.Discipline)
    (jobs : ∀ job, (program job).Obeys discipline.allow [] fun _ _ => True)
    {trace : List Empty} {state : service.State}
    (reach : (service.machine program).Reaches trace state) : discipline.Holds state := by
  refine reach.invariant (fun _ state => discipline.Holds state) ?_ ?_
  · exact ⟨discipline.start, fun thread member => by cases member⟩
  · intro trace state next action shown _ holds taken
    exact discipline.step jobs holds taken

end Service

end Trail.Library
