/-
**Aggregates that can be merged.**

An aggregate state is an element of a join-semilattice with a least element: a row has a state of its
own, and the state of rows is the join of theirs. So it does not matter how often a row is taken, in
which order, or over which blocks (`aggregate_append`, `aggregate_congr`). A table of states has
any number of parts for a key, and what is read is their join (`merged`); `groupBy` is the insertion
of a block, one part for each of its keys.

* `merged_append_groupBy`: an insertion joins the state of its rows to what is read.
* `merged_mergeParts`: merging two parts of a key changes nothing that is read.
-/

import Mathlib.Data.List.Dedup
import Mathlib.Data.List.Perm.Basic
import Mathlib.Order.BoundedOrder.Lattice
import Mathlib.Order.WithBot
import Trail.Library.Groups

namespace Trail.Library

variable {Row Key State : Type} [SemilatticeSup State] [OrderBot State]

/-- The join of states. -/
def joinAll (states : List State) : State := states.foldr (· ⊔ ·) ⊥

@[simp] theorem joinAll_nil : joinAll ([] : List State) = ⊥ := rfl

@[simp] theorem joinAll_cons (state : State) (states : List State) :
    joinAll (state :: states) = state ⊔ joinAll states := rfl

theorem joinAll_append (first second : List State) :
    joinAll (first ++ second) = joinAll first ⊔ joinAll second := by
  induction first with
  | nil => exact (bot_sup_eq _).symm
  | cons state states ih => rw [List.cons_append, joinAll_cons, joinAll_cons, ih, sup_assoc]

theorem joinAll_le {states : List State} {bound : State} :
    joinAll states ≤ bound ↔ ∀ state ∈ states, state ≤ bound := by
  induction states with
  | nil => simp
  | cons state states ih => rw [joinAll_cons, sup_le_iff, ih, List.forall_mem_cons]

theorem le_joinAll {states : List State} {state : State} (member : state ∈ states) :
    state ≤ joinAll states :=
  joinAll_le.mp le_rfl state member

/-! ### Rows -/

section Rows

variable (single : Row → State)

/-- The state of rows. -/
def aggregate (rows : List Row) : State := joinAll (rows.map single)

theorem aggregate_append (first second : List Row) :
    aggregate single (first ++ second) = aggregate single first ⊔ aggregate single second := by
  unfold aggregate
  rw [List.map_append, joinAll_append]

theorem single_le_aggregate {rows : List Row} {row : Row} (member : row ∈ rows) :
    single row ≤ aggregate single rows :=
  le_joinAll (List.mem_map_of_mem member)

theorem aggregate_mono {first second : List Row}
    (among : ∀ row ∈ first, ∃ other ∈ second, single other = single row) :
    aggregate single first ≤ aggregate single second := by
  refine joinAll_le.mpr fun state member => ?_
  obtain ⟨row, inside, rfl⟩ := List.mem_map.mp member
  obtain ⟨other, here, same⟩ := among row inside
  rw [← same]
  exact single_le_aggregate single here

/-- **The state of rows depends on which states they have only.** -/
theorem aggregate_congr {first second : List Row}
    (left : ∀ row ∈ first, ∃ other ∈ second, single other = single row)
    (right : ∀ row ∈ second, ∃ other ∈ first, single other = single row) :
    aggregate single first = aggregate single second :=
  le_antisymm (aggregate_mono single left) (aggregate_mono single right)

theorem aggregate_prod {Other : Type} [SemilatticeSup Other] [OrderBot Other] (other : Row → Other)
    (rows : List Row) :
    aggregate (fun row => (single row, other row)) rows = (aggregate single rows, aggregate other rows) := by
  induction rows with
  | nil => rfl
  | cons row rows ih =>
    unfold aggregate at ih ⊢
    rw [List.map_cons, joinAll_cons, ih]
    rfl

theorem aggregate_ite_bot (keep : Row → Prop) [DecidablePred keep] (rows : List Row) :
    aggregate (fun row => if keep row then single row else ⊥) rows =
      aggregate single (rows.filter keep) := by
  induction rows with
  | nil => rfl
  | cons row rows ih =>
    unfold aggregate at ih ⊢
    by_cases kept : keep row
    · rw [List.filter_cons_of_pos (by simpa using kept), List.map_cons, List.map_cons, joinAll_cons,
        joinAll_cons, if_pos kept, ih]
    · rw [List.filter_cons_of_neg (by simpa using kept), List.map_cons, joinAll_cons, if_neg kept,
        bot_sup_eq, ih]

end Rows

/-- **The state of a greatest value** is that of the last row. -/
theorem aggregate_of_isLast {Value : Type} [LinearOrder Value] {value : Row → Value} {rows : List Row}
    {row : Row} (last : IsLast value rows row) :
    aggregate (fun row => (value row : WithBot Value)) rows = value row := by
  refine le_antisymm (joinAll_le.mpr fun state member => ?_)
    (single_le_aggregate (fun row => (value row : WithBot Value)) last.member)
  obtain ⟨other, here, rfl⟩ := List.mem_map.mp member
  exact WithBot.coe_le_coe.mpr (last.after other here)

/-! ### Parts -/

variable [DecidableEq Key]

/-- What is read for a key. -/
def merged (parts : List (Key × State)) (key : Key) : State :=
  joinAll ((parts.filter fun part => part.1 = key).map Prod.snd)

theorem merged_append (first second : List (Key × State)) (key : Key) :
    merged (first ++ second) key = merged first key ⊔ merged second key := by
  unfold merged
  rw [List.filter_append, List.map_append, joinAll_append]

theorem merged_cons (part : Key × State) (parts : List (Key × State)) (key : Key) :
    merged (part :: parts) key = (if part.1 = key then part.2 else ⊥) ⊔ merged parts key := by
  unfold merged
  by_cases same : part.1 = key
  · rw [List.filter_cons_of_pos (by simpa using same), if_pos same]
    rfl
  · rw [List.filter_cons_of_neg (by simpa using same), if_neg same, bot_sup_eq]

/-- `GROUP BY`: one part for each key of the rows. -/
def groupBy (keyOf : Row → Key) (single : Row → State) (rows : List Row) : List (Key × State) :=
  (rows.map keyOf).dedup.map fun key => (key, aggregate single (rows.filter fun row => keyOf row = key))

theorem merged_map_of_nodup {keys : List Key} (distinct : keys.Nodup) (state : Key → State)
    (key : Key) :
    merged (keys.map fun key => (key, state key)) key = if key ∈ keys then state key else ⊥ := by
  induction keys with
  | nil => rfl
  | cons first keys ih =>
    obtain ⟨absent, rest⟩ := List.nodup_cons.mp distinct
    rw [List.map_cons, merged_cons, ih rest]
    by_cases same : first = key
    · subst same
      simp [absent]
    · rw [if_neg same, bot_sup_eq]
      simp [Ne.symm same]

theorem merged_groupBy (keyOf : Row → Key) (single : Row → State) (rows : List Row) (key : Key) :
    merged (groupBy keyOf single rows) key =
      aggregate single (rows.filter fun row => keyOf row = key) := by
  unfold groupBy
  rw [merged_map_of_nodup (List.nodup_dedup _)]
  split
  · rfl
  · rename_i absent
    rw [List.mem_dedup] at absent
    rw [List.filter_eq_nil_iff.mpr fun row member => by
      simpa using fun same : keyOf row = key => absent (same ▸ List.mem_map_of_mem member)]
    rfl

/-- **An insertion joins the state of its rows to what is read.** -/
theorem merged_append_groupBy (parts : List (Key × State)) (keyOf : Row → Key)
    (single : Row → State) (rows : List Row) (key : Key) :
    merged (parts ++ groupBy keyOf single rows) key =
      merged parts key ⊔ aggregate single (rows.filter fun row => keyOf row = key) := by
  rw [merged_append, merged_groupBy]

theorem merged_perm {first second : List (Key × State)} (same : first.Perm second) (key : Key) :
    merged first key = merged second key := by
  unfold merged
  have states := (same.filter fun part => part.1 = key).map Prod.snd
  refine le_antisymm (joinAll_le.mpr fun state member => ?_) (joinAll_le.mpr fun state member => ?_)
  · exact le_joinAll (states.mem_iff.mp member)
  · exact le_joinAll (states.mem_iff.mpr member)

/-- Two parts of one key become one: the part at the first index, and the part at the second among
those that are left. -/
def mergeParts (parts : List (Key × State)) (first second : Nat) : Option (List (Key × State)) :=
  match parts[first]?, (parts.eraseIdx first)[second]? with
  | some one, some two =>
    if one.1 = two.1 then
      some ((one.1, one.2 ⊔ two.2) :: (parts.eraseIdx first).eraseIdx second)
    else none
  | _, _ => none

/-- **A merge of parts keeps what is read.** -/
theorem merged_mergeParts {parts later : List (Key × State)} {first second : Nat}
    (done : mergeParts parts first second = some later) (key : Key) :
    merged later key = merged parts key := by
  unfold mergeParts at done
  split at done
  · rename_i one two here there
    split at done
    · rename_i same
      cases done
      obtain ⟨bound, rfl⟩ := List.getElem?_eq_some_iff.mp here
      obtain ⟨inside, rfl⟩ := List.getElem?_eq_some_iff.mp there
      have whole := (List.getElem_cons_eraseIdx_perm inside).cons parts[first] |>.trans
        (List.getElem_cons_eraseIdx_perm bound)
      rw [← merged_perm whole key, merged_cons, merged_cons, merged_cons, ← same]
      by_cases this : parts[first].1 = key
      · rw [if_pos this, if_pos this, if_pos this, sup_assoc]
      · rw [if_neg this, if_neg this, if_neg this, bot_sup_eq, bot_sup_eq]
    · cases done
  · cases done

omit [OrderBot State] in
theorem keys_mergeParts {parts later : List (Key × State)} {first second : Nat}
    (done : mergeParts parts first second = some later) (key : Key) :
    key ∈ later.map Prod.fst ↔ key ∈ parts.map Prod.fst := by
  unfold mergeParts at done
  split at done
  · rename_i one two here there
    split at done
    · rename_i same
      cases done
      obtain ⟨bound, rfl⟩ := List.getElem?_eq_some_iff.mp here
      obtain ⟨inside, rfl⟩ := List.getElem?_eq_some_iff.mp there
      have whole := (List.getElem_cons_eraseIdx_perm inside).cons parts[first] |>.trans
        (List.getElem_cons_eraseIdx_perm bound)
      rw [← (whole.map Prod.fst).mem_iff, List.map_cons, List.map_cons, List.map_cons, ← same]
      simp only [List.mem_cons, or_self_left]
    · cases done
  · cases done

end Trail.Library
