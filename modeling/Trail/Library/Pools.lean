/-
**Accounts of a pool.**

A pool runs its threads in an order the environment chooses. An `Account` gives each thread a token
that says what it still has to do, and relates the history, the tokens of all threads that have not
handed in their result, and the total. What it asks is said of one call of one thread and of one
result; `obeys_pool_account` is the rule for the whole pool in every order.

* `Emits`: on every path a program emits the same things, whatever the replies are; the threads of a
  pool then emit, together, what each of them emits (`pool_emits`).
* `pool_played`: when every call of a thread is answered by a function of the call, and the order of
  merging does not matter for what is seen of the total, the pool ends as if its threads had run one
  after another.
-/

import Mathlib.Algebra.BigOperators.Group.Multiset.Basic
import Mathlib.Data.List.Perm.Basic
import Trail.Library.Interaction

namespace Trail.Library

namespace Prog

variable {σ : Signature} {α β γ : Type}

/-- **An account of the threads of a pool.** -/
structure Account (allow : List σ.Exchange → σ.Call → Prop) (chooser : Chooser σ)
    (merge : β → α → β) (Token : Type) where
  /-- The token says what the thread still does. -/
  fits : Token → Prog σ α → Prop
  /-- The history, the tokens of the threads that are not done, and the total. -/
  holds : List σ.Exchange → Multiset Token → β → Prop
  chooses : ∀ {history tokens total} count, holds history tokens total →
    allow history (chooser.op count) ∧
      ∀ reply, holds (history ++ [⟨chooser.op count, reply⟩]) tokens total
  calls : ∀ {history token rest total op next}, fits token (.call op next) →
    holds history (token ::ₘ rest) total → allow history op ∧
      ∀ reply, ∃ later, fits later (next reply) ∧
        holds (history ++ [⟨op, reply⟩]) (later ::ₘ rest) total
  returns : ∀ {history token rest total value}, fits token (.pure value) →
    holds history (token ::ₘ rest) total → holds history rest (merge total value)

section Tokens

variable {Token : Type} {waiting running : List Token} {index : Nat} {token : Token}

theorem coe_eraseIdx (here : running[index]? = some token) :
    (↑(waiting ++ running) : Multiset Token) = token ::ₘ ↑(waiting ++ running.eraseIdx index) := by
  obtain ⟨bound, rfl⟩ := List.getElem?_eq_some_iff.mp here
  rw [Multiset.cons_coe, Multiset.coe_eq_coe]
  refine ((List.getElem_cons_eraseIdx_perm bound).symm.append_left waiting).trans ?_
  exact List.perm_middle

theorem coe_set (here : running[index]? = some token) (later : Token) :
    (↑(waiting ++ running.set index later) : Multiset Token) =
      later ::ₘ ↑(waiting ++ running.eraseIdx index) := by
  obtain ⟨bound, rfl⟩ := List.getElem?_eq_some_iff.mp here
  rw [Multiset.cons_coe, Multiset.coe_eq_coe]
  refine ((List.set_perm_cons_eraseIdx bound later).append_left waiting).trans ?_
  exact List.perm_middle

theorem coe_start : (↑(token :: waiting ++ running) : Multiset Token) =
    ↑(waiting ++ (running ++ [token])) := by
  rw [Multiset.coe_eq_coe, ← List.append_assoc]
  exact (List.perm_append_singleton token (waiting ++ running)).symm

end Tokens

/-- **The rule for accounts.** With enough fuel for every thread, an account that holds at the start
holds, with every token spent, at the end. -/
theorem obeys_pool_account {allow : List σ.Exchange → σ.Call → Prop} {chooser : Chooser σ}
    {merge : β → α → β} {Token : Type} (account : Account allow chooser merge Token) (width calls fuel : Nat)
    {waiting running : List (Prog σ α)} {total : β} {history : List σ.Exchange}
    {post : List σ.Exchange → β → Prop}
    (done : ∀ history total, account.holds history 0 total → post history total)
    {first second : List Token} (awaits : List.Forall₂ account.fits first waiting)
    (runs : List.Forall₂ account.fits second running)
    (short : ∀ thread ∈ waiting, thread.Within calls) {left : List Nat}
    (bounds : List.Forall₂ Within left running)
    (enough : left.sum + running.length + waiting.length * (calls + 2) ≤ fuel)
    (start : account.holds history ↑(first ++ second) total) :
    (pool chooser width merge fuel waiting running total).Obeys allow history post := by
  induction fuel generalizing waiting running total history first second left with
  | zero =>
    have idle : waiting = [] ∧ running = [] := by
      rw [← List.length_eq_zero_iff, ← List.length_eq_zero_iff]
      have none : waiting.length * (calls + 2) = 0 := by omega
      rcases Nat.mul_eq_zero.mp none with empty | impossible
      · exact ⟨empty, by omega⟩
      · omega
    obtain ⟨rfl, rfl⟩ := idle
    cases awaits
    cases runs
    exact done history total start
  | succ fuel ih =>
    unfold pool
    split
    · rename_i idle
      obtain ⟨rfl, rfl⟩ := idle
      cases awaits
      cases runs
      exact done history total start
    · rename_i busy
      refine ⟨(account.chooses _ start).1, fun reply => ?_⟩
      have chosen := (account.chooses _ start).2 reply
      dsimp only
      split
      · rename_i value here
        obtain ⟨token, spent, fits⟩ := forall₂_getElem? runs here
        obtain ⟨bound, there, _⟩ := forall₂_getElem? bounds here
        refine ih awaits (forall₂_eraseIdx runs _) short (forall₂_eraseIdx bounds _) ?_ ?_
        · have sum := sum_eraseIdx there
          have within := (List.getElem?_eq_some_iff.mp here).1
          have length := List.length_eraseIdx_of_lt within
          omega
        · rw [coe_eraseIdx spent] at chosen
          exact account.returns fits chosen
      · rename_i op next here
        obtain ⟨token, spent, fits⟩ := forall₂_getElem? runs here
        obtain ⟨bound, there, within⟩ := forall₂_getElem? bounds here
        rw [coe_eraseIdx spent] at chosen
        obtain ⟨allowed, goes⟩ := account.calls fits chosen
        refine ⟨allowed, fun answer => ?_⟩
        obtain ⟨later, fits, holds⟩ := goes answer
        cases bound with
        | zero => cases within
        | succ bound =>
          refine ih awaits (forall₂_set runs _ fits) short
            (forall₂_set bounds _ (within answer)) ?_ ?_
          · have sum := sum_set there
            rw [List.length_set]
            omega
          · rw [coe_set spent]
            exact holds
      · rename_i none
        cases awaits with
        | nil =>
          -- some thread runs, so the pick is one of them
          have some : 0 < running.length := by
            rw [List.length_pos_iff]
            exact fun empty => busy ⟨rfl, empty⟩
          rw [List.getElem?_eq_none_iff] at none
          simp only [ne_eq, not_true_eq_false, false_and, if_false, Nat.add_zero] at none
          exact absurd (Nat.mod_lt _ some) (Nat.not_lt.mpr none)
        | @cons token thread tokens threads fits awaits =>
          refine ih awaits (List.rel_append runs (.cons fits .nil))
            (fun other member => short other (List.mem_cons_of_mem _ member))
            (List.rel_append bounds (.cons (short thread (List.mem_cons_self ..)) .nil)) ?_ ?_
          · simp only [List.sum_append, List.sum_singleton, List.length_append,
              List.length_nil, List.length_cons, Nat.succ_mul] at enough ⊢
            omega
          · rw [← coe_start]
            exact chosen

/-! ### What a program emits -/

section Emits

variable (emit : σ.Call → Multiset γ)

/-- The program emits the same on every path. -/
def Emits : Prog σ α → Multiset γ → Prop
  | .pure _, left => left = 0
  | .call op next, left => ∃ later, left = emit op + later ∧ ∀ reply, (next reply).Emits later

/-- What was emitted in a history. -/
def emitted (history : List σ.Exchange) : Multiset γ := (history.map fun x => emit x.op).sum

theorem emitted_append (first second : List σ.Exchange) :
    emitted emit (first ++ second) = emitted emit first + emitted emit second := by
  unfold emitted
  rw [List.map_append, List.sum_append]

theorem emitted_snoc (history : List σ.Exchange) (exchange : σ.Exchange) :
    emitted emit (history ++ [exchange]) = emitted emit history + emit exchange.op := by
  rw [emitted_append]
  unfold emitted
  rw [List.map_singleton, List.sum_singleton]

variable {emit}

/-- The account of what the threads still emit. -/
def emitting {chooser : Chooser σ} (merge : β → α → β)
    (target : Multiset γ) (silent : ∀ count, emit (chooser.op count) = 0) :
    Account (fun history _ => emitted emit history ≤ target) chooser merge (Multiset γ) where
  fits token thread := thread.Emits emit token
  holds history tokens _ := emitted emit history + tokens.sum = target
  chooses := by
    intro history tokens total count sum
    refine ⟨sum ▸ Multiset.le_add_right _ _, fun reply => ?_⟩
    rw [emitted_snoc, silent, add_zero, sum]
  calls := by
    rintro history token rest total op next ⟨later, rfl, fits⟩ sum
    refine ⟨sum ▸ Multiset.le_add_right _ _, fun reply => ⟨later, fits reply, ?_⟩⟩
    rw [emitted_snoc, Multiset.sum_cons, ← sum, Multiset.sum_cons]
    ac_rfl
  returns := by
    rintro history token rest total value rfl sum
    rwa [Multiset.sum_cons, zero_add] at sum

/-- **The threads of a pool emit, together, what each of them emits.** -/
theorem pool_emits {chooser : Chooser σ} (silent : ∀ count, emit (chooser.op count) = 0)
    (width calls fuel : Nat) (merge : β → α → β) {threads : List (Prog σ α)}
    {tokens : List (Multiset γ)} (emits : List.Forall₂ (fun token thread => thread.Emits emit token)
      tokens threads) (short : ∀ thread ∈ threads, thread.Within calls)
    (enough : threads.length * (calls + 2) ≤ fuel) (total : β) (history : List σ.Exchange) :
    (pool chooser width merge fuel threads [] total).Obeys
      (fun later _ => emitted emit later ≤ emitted emit history + tokens.sum) history
      fun later _ => emitted emit later = emitted emit history + tokens.sum := by
  refine obeys_pool_account (emitting merge (emitted emit history + tokens.sum) silent) width calls
    fuel ?_ emits .nil short .nil (by simpa using enough) ?_
  · intro later total (sum : _ + _ = _)
    rwa [Multiset.sum_zero, add_zero] at sum
  · show _ + _ = _
    rw [List.append_nil, Multiset.sum_coe]

end Emits

/-! ### Threads whose answers do not depend on the order -/

section Played

variable {δ : Type} (answer : (op : σ.Call) → σ.Reply op) (emit : σ.Call → Multiset γ)
  {works : σ.Call → Prop} {answered : σ.Exchange → Prop}

/-- The account of what the threads still do when they are answered by a function. -/
def playing {chooser : Chooser σ} {merge : β → α → β} (view : β → δ) (step : δ → α → δ)
    [RightCommutative step] (seen : ∀ total value, view (merge total value) = step (view total) value)
    (silent : ∀ count, emit (chooser.op count) = 0)
    (replies : ∀ op reply, works op → answered ⟨op, reply⟩ → reply = answer op)
    (base : List σ.Exchange) (all : Multiset γ) (target : δ) :
    Account (fun _ _ => True) chooser merge (Multiset γ × α) where
  fits token thread := thread.Always (fun _ op => works op) (fun _ => True) ∧
    token = (emitted emit (thread.play answer).1, (thread.play answer).2)
  holds history tokens total := ∃ new, history = base ++ new ∧ ((∀ x ∈ new, answered x) →
    emitted emit new + (tokens.map Prod.fst).sum = all ∧
      (tokens.map Prod.snd).foldl step (view total) = target)
  chooses := by
    rintro history tokens total count ⟨new, rfl, holds⟩
    refine ⟨trivial, fun reply => ⟨new ++ [⟨chooser.op count, reply⟩], List.append_assoc _ _ _,
      fun every => ?_⟩⟩
    rw [emitted_snoc, silent, add_zero]
    exact holds fun x member => every x (List.mem_append_left _ member)
  calls := by
    rintro history token rest total op next ⟨always, rfl⟩ ⟨new, rfl, holds⟩
    refine ⟨trivial, fun reply => ⟨_, ⟨always.2.2 reply, rfl⟩, new ++ [⟨op, reply⟩],
      List.append_assoc _ _ _, fun every => ?_⟩⟩
    obtain rfl := replies op reply (always.1 [] trivial)
      (every _ (List.mem_append_right _ (List.mem_singleton_self _)))
    obtain ⟨sum, fold⟩ := holds fun x member => every x (List.mem_append_left _ member)
    refine ⟨?_, ?_⟩
    · rw [Multiset.map_cons, Multiset.sum_cons] at sum ⊢
      rw [emitted_snoc, ← sum]
      show _ = _ + (emitted emit (⟨op, answer op⟩ :: ((next (answer op)).play answer).1) + _)
      have split : emitted emit (⟨op, answer op⟩ :: ((next (answer op)).play answer).1) =
          emit op + emitted emit ((next (answer op)).play answer).1 := List.sum_cons
      rw [split]
      dsimp only
      ac_rfl
    · rw [Multiset.map_cons, Multiset.foldl_cons] at fold ⊢
      exact fold
  returns := by
    rintro history token rest total value ⟨_, rfl⟩ ⟨new, rfl, holds⟩
    refine ⟨new, rfl, fun every => ?_⟩
    obtain ⟨sum, fold⟩ := holds every
    rw [Multiset.map_cons, Multiset.sum_cons] at sum
    rw [Multiset.map_cons, Multiset.foldl_cons] at fold
    refine ⟨?_, ?_⟩
    · rw [← sum]
      exact congrArg (emitted emit new + ·) (zero_add _).symm
    · rw [seen]
      exact fold

/-- **A pool answered by a function ends as if its threads had run one after another.** -/
theorem pool_played {chooser : Chooser σ} {merge : β → α → β} (view : β → δ) (step : δ → α → δ)
    [RightCommutative step] (seen : ∀ total value, view (merge total value) = step (view total) value)
    (silent : ∀ count, emit (chooser.op count) = 0)
    (replies : ∀ op reply, works op → answered ⟨op, reply⟩ → reply = answer op)
    (width calls fuel : Nat) {threads : List (Prog σ α)}
    (always : ∀ thread ∈ threads, thread.Always (fun _ op => works op) fun _ => True)
    (short : ∀ thread ∈ threads, thread.Within calls)
    (enough : threads.length * (calls + 2) ≤ fuel) {total value : β} {trace : List σ.Exchange}
    (ran : (pool chooser width merge fuel threads [] total).Trace trace (some value))
    (every : ∀ x ∈ trace, answered x) :
    emitted emit trace = (threads.map fun thread => emitted emit (thread.play answer).1).sum ∧
      view value = (threads.map fun thread => (thread.play answer).2).foldl step (view total) := by
  have awaits : List.Forall₂ (fun (token : Multiset γ × α) (thread : Prog σ α) =>
      thread.Always (fun _ op => works op) (fun _ => True) ∧
        token = (emitted emit (thread.play answer).1, (thread.play answer).2))
      (threads.map fun thread => (emitted emit (thread.play answer).1, (thread.play answer).2))
      threads := by
    rw [List.forall₂_map_left_iff]
    exact List.forall₂_same.mpr fun thread member => ⟨always thread member, rfl⟩
  have obeys : (pool chooser width merge fuel threads [] total).Obeys (fun _ _ => True) []
      fun later value => (∀ x ∈ later, answered x) →
        emitted emit later = (threads.map fun thread => emitted emit (thread.play answer).1).sum ∧
          view value = (threads.map fun thread => (thread.play answer).2).foldl step (view total) := by
    refine obeys_pool_account (playing answer emit view step seen silent replies []
      (threads.map fun thread => emitted emit (thread.play answer).1).sum
      ((threads.map fun thread => (thread.play answer).2).foldl step (view total))) width calls fuel
      ?_ awaits .nil short .nil (by simpa using enough) ⟨[], rfl, fun _ => ⟨?_, ?_⟩⟩
    · rintro later value ⟨new, rfl, holds⟩ every
      obtain ⟨sum, fold⟩ := holds every
      rw [Multiset.map_zero, Multiset.sum_zero, add_zero] at sum
      exact ⟨sum, fold⟩
    · rw [List.append_nil, Multiset.map_coe, Multiset.sum_coe, List.map_map]
      exact zero_add _
    · rw [List.append_nil, Multiset.map_coe, Multiset.coe_foldl, List.map_map]
      rfl
  exact (obeys.trace ran).2 value rfl every

end Played

end Prog

end Trail.Library
