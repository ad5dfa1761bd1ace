/-
**Machines: what holds along every run of a step function.**

A machine is a starting state and a partial step function: an action that is enabled in a state
yields the next state and at most one observation. Interleavings need nothing more, since the
scheduler is the choice of the next action.

* `Runs` relates a state, the observations made since, and the state reached; `Reaches` starts it
  at the machine's own start.
* `Reaches.invariant` is the induction every safety theorem uses: true at the start, kept by one
  step, hence true of every trace and state reached.
* `exec` is the computable reading of a run, with `exec_runs` to get a run from a computation.
* `Reaches.split` cuts a run at one of its observations.
-/

import Mathlib.Data.List.Basic

namespace Trail.Library

/-- A starting state and what an enabled action does and shows. -/
structure Machine (State Action Obs : Type) where
  start : State
  step : State → Action → Option (State × Option Obs)

namespace Machine

variable {State Action Obs : Type} (machine : Machine State Action Obs)

/-- **The runs of a machine**, with the observations made on the way. -/
inductive Runs (first : State) : List Obs → State → Prop
  | refl : Runs first [] first
  | snoc {middle last : State} {trace : List Obs} {shown : Option Obs} (action : Action) :
      Runs first trace middle → machine.step middle action = some (last, shown) →
      Runs first (trace ++ shown.toList) last

/-- The traces and states reached from the start. -/
def Reaches (trace : List Obs) (state : State) : Prop :=
  machine.Runs machine.start trace state

variable {machine}

theorem Runs.trans {first middle last : State} {before after : List Obs}
    (one : machine.Runs first before middle) (two : machine.Runs middle after last) :
    machine.Runs first (before ++ after) last := by
  induction two with
  | refl => rwa [List.append_nil]
  | snoc action _ step ih =>
    rw [← List.append_assoc]
    exact .snoc action ih step

/-- **Induction over a run**: what one step keeps, a run keeps. -/
theorem Runs.invariant {first last : State} {trace : List Obs}
    (run : machine.Runs first trace last) (holds : List Obs → State → Prop)
    (start : holds [] first)
    (keep : ∀ (trace : List Obs) (state next : State) (action : Action) (shown : Option Obs),
      machine.Runs first trace state → holds trace state →
      machine.step state action = some (next, shown) → holds (trace ++ shown.toList) next) :
    holds trace last := by
  induction run with
  | refl => exact start
  | snoc action before step ih => exact keep _ _ _ action _ before ih step

/-- **Invariants of a machine**: true at the start, kept by every step. -/
theorem Reaches.invariant {trace : List Obs} {state : State} (reach : machine.Reaches trace state)
    (holds : List Obs → State → Prop) (start : holds [] machine.start)
    (keep : ∀ (trace : List Obs) (state next : State) (action : Action) (shown : Option Obs),
      machine.Reaches trace state → holds trace state →
      machine.step state action = some (next, shown) → holds (trace ++ shown.toList) next) :
    holds trace state :=
  Runs.invariant reach holds start keep

/-- Every observation of a run was shown by a step of it, between a run before and a run after. -/
theorem Runs.split {first last : State} {trace : List Obs} (run : machine.Runs first trace last)
    {before after : List Obs} {shown : Obs} (cut : trace = before ++ shown :: after) :
    ∃ (middle next : State) (action : Action), machine.Runs first before middle ∧
      machine.step middle action = some (next, some shown) ∧ machine.Runs next after last := by
  induction run generalizing after with
  | refl => simp at cut
  | @snoc middle last trace seen action run step ih =>
    rcases List.eq_nil_or_concat after with rfl | ⟨init, tail, rfl⟩
    · cases seen with
      | none =>
        rw [Option.toList_none, List.append_nil] at cut
        obtain ⟨state, next, act, one, here, two⟩ := ih cut
        exact ⟨state, next, act, one, here, by simpa using two.snoc action step⟩
      | some value =>
        obtain ⟨rfl, same⟩ := List.append_inj' cut rfl
        cases same
        exact ⟨middle, last, action, run, step, .refl⟩
    · rw [List.concat_eq_append] at cut
      cases seen with
      | none =>
        rw [Option.toList_none, List.append_nil] at cut
        obtain ⟨state, next, act, one, here, two⟩ := @ih (init ++ [tail]) cut
        refine ⟨state, next, act, one, here, ?_⟩
        rw [List.concat_eq_append]
        simpa using two.snoc action step
      | some value =>
        have regroup : trace ++ [value] = (before ++ shown :: init) ++ [tail] := by
          rw [List.append_assoc, List.cons_append]
          exact cut
        obtain ⟨earlier, same⟩ := List.append_inj' regroup rfl
        cases same
        obtain ⟨state, next, act, one, here, two⟩ := ih earlier
        refine ⟨state, next, act, one, here, ?_⟩
        rw [List.concat_eq_append]
        exact two.snoc action step

/-- The run of a list of actions, when each is enabled in its turn. -/
def exec (machine : Machine State Action Obs) : State → List Action → Option (List Obs × State)
  | state, [] => some ([], state)
  | state, action :: actions => do
      let (next, shown) ← machine.step state action
      let (trace, last) ← exec machine next actions
      return (shown.toList ++ trace, last)

theorem exec_runs {state last : State} {actions : List Action} {trace : List Obs}
    (done : machine.exec state actions = some (trace, last)) : machine.Runs state trace last := by
  induction actions generalizing state trace with
  | nil =>
    cases done
    exact .refl
  | cons action actions ih =>
    simp only [exec, Option.bind_eq_bind, Option.bind_eq_some_iff] at done
    obtain ⟨⟨next, shown⟩, step, ⟨rest, final⟩, tail, finish⟩ := done
    cases finish
    have first : machine.Runs state shown.toList next := by
      simpa using Runs.refl.snoc action step
    exact first.trans (ih tail)

end Machine

end Trail.Library
