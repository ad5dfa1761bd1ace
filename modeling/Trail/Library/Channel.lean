/-
**Buffered channels, and tallies over the threads that use them.**

* `Channel` is a bounded FIFO buffer with its bound as a field, so that no operation can overfill
  it. `send` refuses a full channel, `receive` an empty one.
* `tally weigh threads` sums a weight over a list of threads. A step of one thread replaces one
  entry of the list; `tally_set` says what that does to every tally at once.
* `ofNat_add_not` is the machine word's subtraction by adding a complement.
-/

import Mathlib.Algebra.GroupWithZero.Nat
import Mathlib.Algebra.Order.BigOperators.Group.List
import Mathlib.Algebra.Order.Group.Nat

namespace Trail.Library

/-! ### Channels -/

/-- A bounded buffer in order of arrival. -/
structure Channel (α : Type) where
  capacity : Nat
  items : List α
  within : items.length ≤ capacity

namespace Channel

variable {α : Type}

/-- A new channel. -/
def make (capacity : Nat) : Channel α := ⟨capacity, [], Nat.zero_le _⟩

/-- A send, when there is room. -/
def send (channel : Channel α) (item : α) : Option (Channel α) :=
  if room : channel.items.length < channel.capacity then
    some ⟨channel.capacity, channel.items ++ [item], by
      rw [List.length_append]
      exact room⟩
  else none

/-- A receive, when there is something to receive. -/
def receive (channel : Channel α) : Option (α × Channel α) :=
  match held : channel.items with
  | [] => none
  | item :: rest => some (item, ⟨channel.capacity, rest, by
      have := channel.within
      rw [held, List.length_cons] at this
      omega⟩)

theorem send_items {channel after : Channel α} {item : α} (sent : channel.send item = some after) :
    after.items = channel.items ++ [item] ∧ after.capacity = channel.capacity := by
  unfold send at sent
  split at sent
  · cases sent
    exact ⟨rfl, rfl⟩
  · cases sent

theorem send_isSome_iff (channel : Channel α) (item : α) :
    (channel.send item).isSome ↔ channel.items.length < channel.capacity := by
  unfold send
  split <;> simp_all

theorem receive_items {channel after : Channel α} {item : α}
    (received : channel.receive = some (item, after)) :
    channel.items = item :: after.items ∧ after.capacity = channel.capacity := by
  unfold receive at received
  split at received
  · cases received
  · rename_i held
    cases received
    exact ⟨held, rfl⟩

theorem receive_isSome_iff (channel : Channel α) :
    channel.receive.isSome ↔ channel.items ≠ [] := by
  unfold receive
  split
  · rename_i held
    simp [held]
  · rename_i held
    simp [held]

theorem receive_eq_none_iff (channel : Channel α) :
    channel.receive = none ↔ channel.items = [] := by
  rw [← Option.not_isSome_iff_eq_none, receive_isSome_iff, not_not]

end Channel

/-! ### Tallies -/

/-- The sum of a weight over a list of threads. -/
def tally {α : Type} (weigh : α → Nat) (threads : List α) : Nat := (threads.map weigh).sum

section Tally

variable {α : Type} (weigh : α → Nat)

@[simp] theorem tally_nil : tally weigh [] = 0 := rfl

@[simp] theorem tally_cons (thread : α) (threads : List α) :
    tally weigh (thread :: threads) = weigh thread + tally weigh threads := by
  simp [tally]

@[simp] theorem tally_append (first second : List α) :
    tally weigh (first ++ second) = tally weigh first + tally weigh second := by
  simp [tally]

/-- **One thread steps**: its old weight leaves the tally and its new weight enters. -/
theorem tally_set {threads : List α} {index : Nat} {old : α} (here : threads[index]? = some old)
    (new : α) : tally weigh (threads.set index new) + weigh old = tally weigh threads + weigh new := by
  induction threads generalizing index with
  | nil => simp at here
  | cons thread threads ih =>
    cases index with
    | zero =>
      cases here
      simp only [List.set_cons_zero, tally_cons]
      omega
    | succ index =>
      have rest := ih (by simpa using here)
      simp only [List.set_cons_succ, tally_cons]
      omega

theorem weigh_le_tally {threads : List α} {index : Nat} {thread : α}
    (here : threads[index]? = some thread) : weigh thread ≤ tally weigh threads := by
  induction threads generalizing index with
  | nil => simp at here
  | cons first threads ih =>
    cases index with
    | zero =>
      cases here
      exact Nat.le_add_right _ _
    | succ index => exact le_trans (ih (by simpa using here)) (Nat.le_add_left _ _)

theorem tally_eq_zero {threads : List α} (none : ∀ thread ∈ threads, weigh thread = 0) :
    tally weigh threads = 0 := by
  refine List.sum_eq_zero fun weight member => ?_
  obtain ⟨thread, inside, rfl⟩ := List.mem_map.mp member
  exact none thread inside

theorem exists_of_tally_pos {threads : List α} (some : 0 < tally weigh threads) :
    ∃ (index : Nat) (thread : α), threads[index]? = .some thread ∧ 0 < weigh thread := by
  by_contra absent
  push Not at absent
  refine some.ne' (tally_eq_zero weigh fun thread member => ?_)
  obtain ⟨index, here⟩ := List.mem_iff_getElem?.mp member
  exact Nat.le_zero.mp (absent index thread here)

theorem tally_eq_length {threads : List α} (each : ∀ thread ∈ threads, weigh thread = 1) :
    tally weigh threads = threads.length := by
  induction threads with
  | nil => rfl
  | cons thread threads ih =>
    rw [tally_cons, each thread List.mem_cons_self,
      ih fun other member => each other (List.mem_cons_of_mem _ member), List.length_cons]
    omega

end Tally

/-- **Subtraction by complement**: adding `^(n - 1)` takes `n` away. -/
theorem ofNat_add_not (rest amount : Nat) :
    UInt64.ofNat (rest + amount) + ~~~(UInt64.ofNat amount - 1) = UInt64.ofNat rest := by
  apply UInt64.eq_of_toBitVec_eq
  rw [UInt64.toBitVec_add, UInt64.toBitVec_not, UInt64.toBitVec_sub, BitVec.not_eq_neg_add]
  simp only [UInt64.toBitVec_ofNat', UInt64.toBitVec_one, BitVec.ofNat_add]
  bv_omega

end Trail.Library
