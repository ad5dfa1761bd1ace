/-
**Lists with the same history of every key.**

Two lists have the same histories when they list the items of each key in the same order; how the items
of different keys are mixed is left open.

* `SameHistories.foldl`: updates that commute for different keys come out the same.
* `SameHistories.filterMap`: histories of a finer list, when its keys can be read from the old ones.
* `latest_concat`: the last item of a key.
-/

import Mathlib.Data.List.Basic

namespace Trail.Library

section Histories

variable {Item Key : Type} [DecidableEq Key] {key : Item → Key}

/-- The items of a key, in order. -/
def history (key : Item → Key) (items : List Item) (k : Key) : List Item :=
  items.filter fun item => key item = k

/-- Every key has the same history. -/
def SameHistories (key : Item → Key) (first second : List Item) : Prop :=
  ∀ k, history key first k = history key second k

/-- The last item of a key. -/
def latest (key : Item → Key) (items : List Item) (k : Key) : Option Item :=
  (history key items k).getLast?

variable {items : List Item} {k : Key} {item : Item}

theorem mem_history : item ∈ history key items k ↔ item ∈ items ∧ key item = k := by
  simp [history]

theorem history_append (first second : List Item) :
    history key (first ++ second) k = history key first k ++ history key second k :=
  List.filter_append ..

theorem history_cons_self (item : Item) (items : List Item) :
    history key (item :: items) (key item) = item :: history key items (key item) := by
  simp [history]

theorem history_cons_ne (other : key item ≠ k) (items : List Item) :
    history key (item :: items) k = history key items k := by
  simp [history, other]

theorem history_eq_nil (none : ∀ item ∈ items, key item ≠ k) : history key items k = [] := by
  simpa [history] using none

theorem latest_concat (items : List Item) (item : Item) :
    latest key (items ++ [item]) k = if key item = k then some item else latest key items k := by
  unfold latest
  rw [history_append]
  by_cases same : key item = k
  · rw [if_pos same, ← same, history_cons_self, List.getLast?_append]
    rfl
  · rw [if_neg same, history_cons_ne same]
    simp [history]

namespace SameHistories

variable {first second : List Item}

theorem mem_iff (same : SameHistories key first second) (item : Item) :
    item ∈ first ↔ item ∈ second := by
  have one : item ∈ history key first (key item) ↔ item ∈ history key second (key item) := by
    rw [same]
  rw [mem_history, mem_history] at one
  simpa using one

theorem split (same : SameHistories key (item :: first) second) :
    ∃ before after, second = before ++ item :: after ∧ (∀ other ∈ before, key other ≠ key item) ∧
      SameHistories key first (before ++ after) := by
  have own := same (key item)
  rw [history_cons_self] at own
  obtain ⟨before, after, rfl, earlier, _, later⟩ := List.filter_eq_cons_iff.mp own.symm
  have others : ∀ other ∈ before, key other ≠ key item := by simpa using earlier
  refine ⟨before, after, rfl, others, fun k => ?_⟩
  by_cases mine : key item = k
  · subst mine
    rw [history_append, history_eq_nil others, List.nil_append]
    exact later.symm
  · have here := same k
    rw [history_cons_ne mine, history_append, history_cons_ne mine] at here
    rw [history_append]
    exact here

/-- **Updates that commute for different keys** make the same of lists with the same histories. -/
theorem foldl {State : Type} {step : State → Item → State}
    (commutes : ∀ state one two, key one ≠ key two →
      step (step state one) two = step (step state two) one)
    (same : SameHistories key first second) (state : State) :
    first.foldl step state = second.foldl step state := by
  -- An item moves to the front past items of other keys.
  have front : ∀ (item : Item) (before : List Item), (∀ other ∈ before, key other ≠ key item) →
      ∀ state, step (before.foldl step state) item = before.foldl step (step state item) := by
    intro item before
    induction before with
    | nil =>
      intro _ state
      rfl
    | cons other before ih =>
      intro others state
      obtain ⟨differs, rest⟩ := List.forall_mem_cons.mp others
      rw [List.foldl_cons, List.foldl_cons, ih rest, commutes state other item differs]
  induction first generalizing second state with
  | nil =>
    have nothing : second = [] := by
      refine List.eq_nil_iff_forall_not_mem.mpr fun item member => ?_
      exact absurd ((same.mem_iff item).mpr member) List.not_mem_nil
    rw [nothing]
  | cons item first ih =>
    obtain ⟨before, after, rfl, others, rest⟩ := same.split
    rw [List.foldl_cons, ih rest, List.foldl_append, List.foldl_append, List.foldl_cons,
      front item before others]

/-- **The histories of a finer list**: each of its keys comes from one key. -/
theorem filterMap {Finer FinerKey : Type} [DecidableEq FinerKey] {finer : Finer → FinerKey}
    {make : Item → Option Finer} (keyOf : FinerKey → Key)
    (keyed : ∀ item made, make item = some made → key item = keyOf (finer made))
    (finely : ∀ item made k, make item = some made → key item = keyOf k → finer made = k)
    (same : SameHistories key first second) :
    SameHistories finer (first.filterMap make) (second.filterMap make) := by
  have through : ∀ items k, history finer (items.filterMap make) k =
      (history key items (keyOf k)).filterMap make := by
    intro items k
    unfold history
    rw [List.filter_filterMap, List.filterMap_filter]
    refine List.filterMap_congr fun item _ => ?_
    cases made : make item with
    | none => simp
    | some one =>
      by_cases mine : finer one = k
      · simp [keyed item one made, mine]
      · have other : key item ≠ keyOf k := fun same => mine (finely item one k made same)
        simp [mine, other]
  intro k
  rw [through, through, same]

end SameHistories

end Histories

end Trail.Library
