/-
**Retry chains.**

`GetRetryChain` looks one link up from an execution, and one link down from there. This is all of the
chain when every attempt names the first one; an attempt that names the attempt before it is out of
sight from the other end.

* `Looks`: what `GetRetryChain` answers, for both stores.
* `Looks.complete_iff`: when this is the whole chain.
-/

import Trail.ClickHouse.Finalised
import Trail.ClickHouse.Ingested
import Trail.Postgres.Summaries
import Trail.Stores.FlowDetail

namespace Trail.Stores

open Library Storage
open ClickHouse (viewKey)
open Warehouse (Fed Ingested executionIn)

/-! ### Links -/

section Chains

variable (rows : List EventRecord) (answer : ExecutionID → Except GoError (List ExecutionSummary))

/-- The rows have the execution. -/
def Recorded (id : ExecutionID) : Prop := id ≠ Bytes.zero 16 ∧ ∃ e ∈ rows, e.executionID = id

/-- An execution of the rows names another one as the one it retries. -/
def Retries (id other : ExecutionID) : Prop :=
  id ≠ Bytes.zero 16 ∧ other ≠ Bytes.zero 16 ∧
    ∃ e ∈ rows, e.executionID = id ∧ e.retryOfExecutionID = other

/-- All events of an execution name the same one that it retries, which was there before it. -/
structure Chained : Prop where
  same : ∀ e ∈ rows, ∀ e' ∈ rows, e.executionID = e'.executionID →
    e.retryOfExecutionID = e'.retryOfExecutionID
  before : ∃ rank : ExecutionID → Nat, ∀ a b, Retries rows a b → rank b < rank a

/-- The execution a chain is looked up from: the retried one, or the execution itself. -/
def Root (id root : ExecutionID) : Prop :=
  Retries rows id root ∨ root = id ∧ ∀ other, ¬ Retries rows id other

/-- The answers are the executions that are the root, or retry it. -/
def Looks : Prop :=
  ∀ id, Recorded rows id → ∃ root chain, Root rows id root ∧ answer id = .ok chain ∧
    ∀ x, (∃ v ∈ chain, v.id = x) ↔ Recorded rows x ∧ (x = root ∨ Retries rows x root)

/-- The answer for an execution has exactly the executions that links connect it with. -/
def Complete : Prop :=
  ∀ id, Recorded rows id → ∃ chain, answer id = .ok chain ∧
    ∀ x, (∃ v ∈ chain, v.id = x) ↔ Recorded rows x ∧ Relation.EqvGen (Retries rows) id x

variable {rows answer} {a b c : ExecutionID}

theorem Chained.unique (chained : Chained rows) (one : Retries rows a b) (two : Retries rows a c) :
    b = c := by
  obtain ⟨-, -, e, here, named, rfl⟩ := one
  obtain ⟨-, -, e', there, named', rfl⟩ := two
  exact chained.same e here e' there (named.trans named'.symm)

/-- Without two links in a row, connected executions have the same root. -/
theorem root_of_connected (chained : Chained rows)
    (flat : ∀ a b c, Retries rows a b → ¬ Retries rows b c)
    (connected : Relation.EqvGen (Retries rows) a b) :
    ∀ root, Root rows a root ↔ Root rows b root := by
  induction connected with
  | rel a b link =>
    intro root
    have top : ∀ other, ¬ Retries rows b other := fun other => flat a b other link
    constructor
    · rintro (up | ⟨-, none⟩)
      · exact .inr ⟨chained.unique up link, top⟩
      · exact absurd link (none b)
    · rintro (up | ⟨rfl, -⟩)
      · exact absurd up (top root)
      · exact .inl link
  | refl a => exact fun _ => Iff.rfl
  | symm a b _ ih => exact fun root => (ih root).symm
  | trans a b c _ _ first second => exact fun root => (first root).trans (second root)

/-- **The answers are whole chains** exactly when no execution retries one that retries another. -/
theorem Looks.complete_iff (looks : Looks rows answer) (chained : Chained rows) :
    Complete rows answer ↔ ∀ a b c, Retries rows a b → ¬ Retries rows b c := by
  constructor
  · intro complete a b c first second
    obtain ⟨rank, before⟩ := chained.before
    have recorded : Recorded rows b := ⟨second.1, second.2.2.imp fun e link => ⟨link.1, link.2.1⟩⟩
    obtain ⟨root, chain, up, answered, seen⟩ := looks b recorded
    obtain ⟨chain', again, connected⟩ := complete b recorded
    cases answered.symm.trans again
    have top : root = c := by
      rcases up with link | ⟨-, none⟩
      · exact chained.unique link second
      · exact absurd second (none c)
    -- The attempt below is connected with the one in the middle, and is not seen from there.
    have here := (connected a).mpr ⟨⟨first.1, first.2.2.imp fun e link => ⟨link.1, link.2.1⟩⟩,
      .symm _ _ (.rel _ _ first)⟩
    have down := before a b first
    have up := before b c second
    rcases ((seen a).mp here).2 with same | link
    · rw [same, top] at down
      omega
    · rw [chained.unique first link, top] at up
      omega
  · intro flat id recorded
    obtain ⟨root, chain, up, answered, seen⟩ := looks id recorded
    refine ⟨chain, answered, fun x => (seen x).trans (and_congr_right fun _ => ?_)⟩
    have reached : Relation.EqvGen (Retries rows) id root := by
      rcases up with link | ⟨rfl, -⟩
      · exact .rel _ _ link
      · exact .refl _
    constructor
    · rintro (rfl | link)
      · exact reached
      · exact reached.trans _ _ _ (.symm _ _ (.rel _ _ link))
    · intro connected
      rcases (root_of_connected chained flat connected root).mp up with link | ⟨same, -⟩
      · exact .inr link
      · exact .inl same.symm

theorem root_retryRoot {e : EventRecord} {detail : ExecutionSummary} (chained : Chained rows)
    (member : e ∈ rows) (set : e.executionID ≠ Bytes.zero 16)
    (retried : detail.retryOfExecutionID = e.retryOfExecutionID) :
    Root rows e.executionID (retryRoot e.executionID detail) := by
  unfold retryRoot isZeroID
  rw [retried]
  by_cases zero : e.retryOfExecutionID = Bytes.zero 16
  · rw [if_pos (decide_eq_true zero)]
    refine .inr ⟨rfl, ?_⟩
    rintro other ⟨-, nonzero, e', here, named, rfl⟩
    exact nonzero ((chained.same e' here e member named).trans zero)
  · rw [if_neg (by simpa using zero)]
    exact .inl ⟨set, zero, e, member, rfl, rfl⟩

theorem Root.nonzero {id root : ExecutionID} (up : Root rows id root) (set : id ≠ Bytes.zero 16) :
    root ≠ Bytes.zero 16 := by
  rcases up with link | ⟨rfl, -⟩
  · exact link.2.1
  · exact set

/-- **The executions of the rows that a chain selects.** -/
theorem seen_iff {root x : ExecutionID} (set : root ≠ Bytes.zero 16) :
    (∃ e ∈ rows, e.executionID ≠ Bytes.zero 16 ∧
      (e.executionID = root ∨ e.retryOfExecutionID = root) ∧ e.executionID = x) ↔
      Recorded rows x ∧ (x = root ∨ Retries rows x root) := by
  constructor
  · rintro ⟨e, member, nonzero, selected, rfl⟩
    exact ⟨⟨nonzero, e, member, rfl⟩, selected.imp id fun link => ⟨nonzero, set, e, member, rfl, link⟩⟩
  · rintro ⟨⟨nonzero, e, member, rfl⟩, rfl | ⟨-, -, e', here, named, link⟩⟩
    · exact ⟨e, member, nonzero, .inl rfl, rfl⟩
    · exact ⟨e', here, named ▸ nonzero, .inr link, named⟩

end Chains

/-! ### The stores -/

theorem postgres_looks {table : Postgres.Events} (chained : Chained table.rows)
    (order order' : RowOrder) : Looks table.rows (table.getRetryChain order order') := by
  rintro _ ⟨nonzero, e, member, rfl⟩
  obtain ⟨detail, found⟩ := @Postgres.Events.exists_getExecution table order e member nonzero
  obtain ⟨e', here, named, grouped⟩ := Postgres.Events.of_getExecution nonzero found
  rw [← named] at nonzero found ⊢
  have retried : detail.retryOfExecutionID = e'.retryOfExecutionID := by
    rw [grouped]
    refine Postgres.newest_of_all (List.ne_nil_of_mem (mem_group.mpr ⟨here, rfl⟩)) ?_
    intro other inside
    obtain ⟨there, key⟩ := mem_group.mp inside
    exact chained.same other there e' here (congrArg Prod.fst key)
  have up := root_retryRoot chained here nonzero retried
  refine ⟨_, _, up, by rw [Postgres.Events.getRetryChain, found], fun x => ?_⟩
  have set := up.nonzero nonzero
  rw [← seen_iff set]
  generalize retryRoot e'.executionID detail = root at set ⊢
  have selects : ∀ row, Postgres.chainSelects root row = true ↔ row.executionID ≠ Bytes.zero 16 ∧
      (row.executionID = root ∨ row.retryOfExecutionID = root) := by
    intro row
    simp only [Postgres.chainSelects, sameID, decide_eq_true_iff]
    exact and_congr_right fun some => or_congr (and_iff_left some)
      (and_iff_left_of_imp fun link => link ▸ set)
  constructor
  · rintro ⟨v, listed, rfl⟩
    obtain ⟨_, grouped, rfl⟩ := List.mem_map.mp ((order'.perm _).mem_iff.mp (mem_orderBy.mp listed))
    obtain ⟨row, selected, rfl⟩ := mem_groups.mp grouped
    obtain ⟨there, passes⟩ := List.mem_filter.mp selected
    exact ⟨row, there, ((selects row).mp passes).1, ((selects row).mp passes).2, rfl⟩
  · rintro ⟨row, there, some, selected, rfl⟩
    have passes := List.mem_filter.mpr ⟨there, (selects row).mpr ⟨some, selected⟩⟩
    exact ⟨_, mem_orderBy.mpr ((order'.perm _).mem_iff.mpr
      (List.mem_map.mpr ⟨_, mem_groups.mpr ⟨row, passes, rfl⟩, rfl⟩)), rfl⟩

theorem clickhouse_looks {names : EventID → EventRecord} {tables : Warehouse.Tables}
    (fed : Fed names tables) (chained : Chained tables.events) (order order' : RowOrder) :
    Looks tables.events (tables.getRetryChain order order') := by
  have retried : ∀ e ∈ tables.events,
      (executionIn tables.events e).retryOfExecutionID = e.retryOfExecutionID := by
    intro e member
    have inside := mem_group.mpr ⟨member, (rfl : viewKey EventRecord.executionID e = _)⟩
    obtain ⟨last, ends⟩ := exists_isLast Retention.rowKey (List.ne_nil_of_mem inside)
    have same : ∀ row ∈ group (viewKey EventRecord.executionID) tables.events
        (viewKey EventRecord.executionID e), row.retryOfExecutionID = e.retryOfExecutionID := by
      intro row here
      obtain ⟨there, key⟩ := mem_group.mp here
      exact chained.same row there e member (congrArg Prod.fst key)
    unfold executionIn ClickHouse.executionSingle
    simp only [aggregate_prod]
    unfold Warehouse.executionOf
    dsimp only
    rw [Warehouse.argMaxMerge_of_last ends fun one here two there _ => by
      rw [same one here, same two there], copyID_self, same last ends.member]
  rintro _ ⟨nonzero, e, member, rfl⟩
  obtain ⟨detail, found⟩ := @Fed.exists_getExecution _ _ order fed e member nonzero
  obtain ⟨e', here, -, named, rfl⟩ := fed.of_getExecution found
  rw [← named] at nonzero found ⊢
  have up := root_retryRoot chained here nonzero (retried e' here)
  refine ⟨_, _, up, by rw [Warehouse.Tables.getRetryChain, found], fun x => ?_⟩
  rw [← seen_iff (up.nonzero nonzero)]
  generalize retryRoot e'.executionID _ = root
  constructor
  · rintro ⟨v, listed, rfl⟩
    obtain ⟨inside, selected⟩ := List.mem_filter.mp ((order'.perm _).mem_iff.mp (mem_orderBy.mp listed))
    obtain ⟨row, there, some, rfl⟩ := fed.mem_executionRows.mp inside
    have link := of_decide_eq_true selected
    rw [retried row there] at link
    exact ⟨row, there, some, link, rfl⟩
  · rintro ⟨row, there, some, selected, rfl⟩
    rw [← retried row there] at selected
    exact ⟨executionIn tables.events row, mem_orderBy.mpr ((order'.perm _).mem_iff.mpr
      (List.mem_filter.mpr ⟨fed.mem_executionRows.mpr ⟨row, there, some, rfl⟩,
        decide_eq_true selected⟩)), rfl⟩

/-- **Retry chains are whole**, from whichever execution they are read and in both stores, exactly when no
execution retries one that retries another. -/
theorem retry_chains_complete_iff (order order' : RowOrder) :
    (∀ table : Postgres.Events, Chained table.rows →
      (Complete table.rows (table.getRetryChain order order') ↔
        ∀ a b c, Retries table.rows a b → ¬ Retries table.rows b c)) ∧
    ∀ names tables, Ingested names tables → Chained tables.events →
      (Complete tables.events (tables.getRetryChain order order') ↔
        ∀ a b c, Retries tables.events a b → ¬ Retries tables.events b c) :=
  ⟨fun _ chained => (postgres_looks chained order order').complete_iff chained,
    fun _ _ ingested chained => (clickhouse_looks ingested.fed chained order order').complete_iff chained⟩

/-- A second attempt names the first. -/
def attemptsTable : Postgres.Events :=
  ⟨[{ id := endingID 1, timestamp := 1000, kind := [], executionID := endingID 7 },
    { id := endingID 2, timestamp := 2000, kind := [], executionID := endingID 8,
      retryOfExecutionID := endingID 7 }],
    by decide, by decide, by simp [Retention.InRange]⟩

theorem attempts_links {a b : ExecutionID} (link : Retries attemptsTable.rows a b) :
    a = endingID 8 ∧ b = endingID 7 := by
  obtain ⟨-, nonzero, e, member, rfl, rfl⟩ := link
  simp only [attemptsTable, List.mem_cons, List.not_mem_nil, or_false] at member
  rcases member with rfl | rfl
  · exact absurd rfl nonzero
  · exact ⟨rfl, rfl⟩

theorem attempts_complete :
    Complete attemptsTable.rows (attemptsTable.getRetryChain .given .given) := by
  refine ((retry_chains_complete_iff .given .given).1 attemptsTable ⟨by decide, ?_⟩).mpr ?_
  · refine ⟨fun id => if id = endingID 8 then 1 else 0, fun a b link => ?_⟩
    obtain ⟨rfl, rfl⟩ := attempts_links link
    decide
  · intro a b c first second
    exact absurd ((attempts_links first).2.symm.trans (attempts_links second).1) (by decide)

-- From the first of three attempts that each name the one before, the third is out of sight.
example : (Postgres.Events.getRetryChain ⟨[
    { id := endingID 1, timestamp := 1000, kind := [], executionID := endingID 7 },
    { id := endingID 2, timestamp := 2000, kind := [], executionID := endingID 8,
      retryOfExecutionID := endingID 7 },
    { id := endingID 3, timestamp := 3000, kind := [], executionID := endingID 9,
      retryOfExecutionID := endingID 8 }], by decide, by decide, by simp [Retention.InRange]⟩
    .given .given (endingID 7)).map (·.map (·.id)) = .ok [endingID 7, endingID 8] := by
  decide

end Trail.Stores
