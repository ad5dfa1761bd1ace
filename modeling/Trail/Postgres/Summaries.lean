/-
**Listed summaries and details.**

A listing applies its conditions to the rows before it groups them, a detail has all rows of its
identifier. The number of events alone tells whether rows were left out.

* `getFlow_of_origin`, `getExecution_of_origin`: the detail of an identifier whose events have one
  service and environment is the summary of all of them.
* `summary_eq_iff`: a summary of selected rows is that of all rows when all are selected.
* `listed_as_detailed_iff`: when a listed summary is the one of the detail.
-/

import Trail.Postgres.Listings

namespace Trail.Postgres

open Library Storage
open Retention (Adapter RowKey keyOf rowKey)

/-! ### The rows of an identifier -/

section Origin

variable {idOf : EventRecord → Bytes 16} {rows : List EventRecord} {id : Bytes 16}

/-- The events of an identifier come from one service and environment. -/
def OneOrigin (idOf : EventRecord → Bytes 16) (rows : List EventRecord) (id : Bytes 16) : Prop :=
  ∀ first ∈ rows, ∀ second ∈ rows, idOf first = id → idOf second = id →
    first.metadata.service = second.metadata.service ∧
      first.metadata.environment = second.metadata.environment

/-- The columns of a grouping by an identifier. -/
def originKey (idOf : EventRecord → Bytes 16) (e : EventRecord) : Bytes 16 × GoString × GoString :=
  (idOf e, e.metadata.service, e.metadata.environment)

theorem detail_rows (nonzero : id ≠ Bytes.zero 16) :
    (rows.filter fun e => idOf e ≠ Bytes.zero 16 ∧ sameID .postgres (idOf e) id) =
      rows.filter fun e => idOf e = id := by
  refine List.filter_congr fun e _ => ?_
  by_cases same : idOf e = id
  · simp [sameID, same, nonzero]
  · simp [sameID, same]

/-- **The rows of an identifier are one group.** -/
theorem group_of_origin (origin : OneOrigin idOf rows id) {e : EventRecord} (member : e ∈ rows)
    (named : idOf e = id) :
    group (originKey idOf) rows (originKey idOf e) = rows.filter fun other => idOf other = id := by
  refine List.filter_congr fun other here => ?_
  by_cases same : idOf other = id
  · obtain ⟨service, environment⟩ := origin other here e member same named
    simp [originKey, same, named, service, environment]
  · simp [originKey, same, named]

theorem groups_of_origin (origin : OneOrigin idOf rows id) {e : EventRecord} (member : e ∈ rows)
    (named : idOf e = id) :
    groups (originKey idOf) (rows.filter fun other => idOf other = id) =
      [(originKey idOf e, group (originKey idOf) rows (originKey idOf e))] := by
  rw [group_of_origin origin member named]
  refine groups_of_one (List.ne_nil_of_mem (List.mem_filter.mpr ⟨member, by simpa using named⟩)) ?_
  intro other here
  obtain ⟨inside, same⟩ := List.mem_filter.mp here
  obtain ⟨service, environment⟩ := origin other inside e member (of_decide_eq_true same) named
  unfold originKey
  rw [of_decide_eq_true same, named, service, environment]

theorem count_filter_iff (distinct : (rows.map (·.id)).Nodup) (keep : EventRecord → Bool) :
    countDistinct (·.id) (rows.filter keep) = countDistinct (·.id) rows ↔
      ∀ e ∈ rows, keep e = true := by
  rw [countDistinct_eq distinct, countDistinct_eq (distinct.sublist (List.filter_sublist.map _))]
  exact List.length_filter_eq_length_iff

/-- **A summary of selected rows** is the one of all rows exactly when all are selected, whatever else
it has beside the number of events. -/
theorem summary_eq_iff {Summary : Type} (summary : Group → Summary) (count : Summary → Nat)
    (counts : ∀ group, count (summary group) = countDistinct (·.id) group)
    (distinct : (rows.map (·.id)).Nodup) (keep : EventRecord → Bool) :
    summary rows = summary (rows.filter keep) ↔ ∀ e ∈ rows, keep e = true := by
  constructor
  · intro same
    have number := congrArg count same
    rw [counts, counts] at number
    exact (count_filter_iff distinct keep).mp number.symm
  · intro all
    rw [List.filter_eq_self.mpr all]

/-- The summary of the selected rows of an identifier against that of all its rows. -/
theorem group_summary_iff {Summary : Type} (summary : Group → Summary) (count : Summary → Nat)
    (counts : ∀ group, count (summary group) = countDistinct (·.id) group)
    (distinct : (rows.map (·.id)).Nodup) (keep : EventRecord → Bool)
    {e : EventRecord} (member : e ∈ rows) (origin : OneOrigin idOf rows (idOf e)) :
    summary (group (originKey idOf) rows (originKey idOf e)) =
        summary (group (originKey idOf) (rows.filter keep) (originKey idOf e)) ↔
      ∀ other ∈ rows, idOf other = idOf e → keep other = true := by
  rw [group_filter, group_of_origin origin member rfl,
    summary_eq_iff summary count counts (distinct.sublist (List.filter_sublist.map _))]
  simp only [List.mem_filter, decide_eq_true_eq, and_imp]

end Origin

/-! ### Newest values -/

/-- **The newest value of a column** is that of the last row that has one. -/
theorem newest_spec {Value : Type} [DecidableEq Value] (group : Group) (unset : Value)
    (column : EventRecord → Value) :
    group.newest unset column = unset ∧ (∀ e ∈ group, column e = unset) ∨
      ∃ e, IsLast rowKey (group.filter fun e => column e ≠ unset) e ∧
        group.newest unset column = column e := by
  unfold Group.newest Group.newestFirst
  by_cases empty : (group.filter fun e => column e ≠ unset) = []
  · rw [empty]
    refine .inl ⟨rfl, fun e member => ?_⟩
    have unkept := List.filter_eq_nil_iff.mp empty e member
    simpa using unkept
  · obtain ⟨e, head⟩ := exists_head?_orderBy (directed rowKey true) empty
    have first := isFirst_of_head? head
    refine .inr ⟨e, ⟨first.member, first.before⟩, ?_⟩
    rw [head]
    rfl

theorem newest_of_all {Value : Type} [DecidableEq Value] {group : Group} {unset value : Value}
    {column : EventRecord → Value} (some : group ≠ []) (all : ∀ e ∈ group, column e = value) :
    group.newest unset column = value := by
  rcases newest_spec group unset column with ⟨nothing, empty⟩ | ⟨e, last, newest⟩
  · obtain ⟨e, rest, rfl⟩ := List.exists_cons_of_ne_nil some
    rw [nothing, ← empty e List.mem_cons_self, all e List.mem_cons_self]
  · rw [newest, all e (List.mem_of_mem_filter last.member)]

/-! ### Details -/

namespace Events

variable {table : Events} {order : RowOrder}

theorem getFlow_of_origin {e : EventRecord} (member : e ∈ table.rows)
    (nonzero : e.flowID ≠ Bytes.zero 16) (origin : OneOrigin (·.flowID) table.rows e.flowID) :
    table.getFlow order e.flowID =
      .ok (Group.flow (group flowKey table.rows (flowKey e)) (flowKey e)) := by
  unfold getFlow flowsOf
  have single := groups_of_origin origin member rfl
  rw [detail_rows nonzero]
  dsimp only
  rw [show flowKey = originKey (·.flowID) from rfl, single, List.map_singleton,
    order.arrange_singleton]
  rfl

theorem getExecution_of_origin {e : EventRecord} (member : e ∈ table.rows)
    (nonzero : e.executionID ≠ Bytes.zero 16)
    (origin : OneOrigin (·.executionID) table.rows e.executionID) :
    table.getExecution order e.executionID =
      .ok (Group.execution (group executionKey table.rows (executionKey e)) (executionKey e)) := by
  unfold getExecution executionsOf
  have single := groups_of_origin origin member rfl
  rw [detail_rows nonzero]
  dsimp only
  rw [show executionKey = originKey (·.executionID) from rfl, single, List.map_singleton,
    order.arrange_singleton]
  rfl

/-- **The detail of a flow** is that of one of its groups. -/
theorem of_getFlow {id : FlowID} (nonzero : id ≠ Bytes.zero 16) {detail : FlowDetail}
    (found : table.getFlow order id = .ok detail) :
    ∃ e ∈ table.rows, e.flowID = id ∧
      detail = Group.flow (group flowKey table.rows (flowKey e)) (flowKey e) := by
  unfold getFlow flowsOf at found
  rw [detail_rows nonzero] at found
  dsimp only at found
  split at found
  · cases found
  · rename_i first
    cases found
    obtain ⟨entry, here, rfl⟩ := List.mem_map.mp (order.mem_of_head? first)
    obtain ⟨e, selected, rfl⟩ := mem_groups.mp here
    obtain ⟨member, named⟩ := List.mem_filter.mp selected
    refine ⟨e, member, of_decide_eq_true named, ?_⟩
    rw [group_filter_of_all]
    intro row _ same
    exact decide_eq_true ((congrArg Prod.fst same).trans (of_decide_eq_true named))

theorem exists_getFlow {e : EventRecord} (member : e ∈ table.rows)
    (nonzero : e.flowID ≠ Bytes.zero 16) : ∃ detail, table.getFlow order e.flowID = .ok detail := by
  unfold getFlow flowsOf
  rw [detail_rows nonzero]
  dsimp only
  split
  · rename_i nothing
    have empty := List.map_eq_nil_iff.mp (order.eq_nil_of_head? nothing)
    have selected : e ∈ table.rows.filter fun other => other.flowID = e.flowID :=
      List.mem_filter.mpr ⟨member, decide_eq_true rfl⟩
    exact absurd (empty ▸ mem_groups.mpr ⟨e, selected, rfl⟩) List.not_mem_nil
  · exact ⟨_, rfl⟩

/-- **The detail of an execution** is that of one of its groups. -/
theorem of_getExecution {id : ExecutionID} (nonzero : id ≠ Bytes.zero 16) {detail : ExecutionSummary}
    (found : table.getExecution order id = .ok detail) :
    ∃ e ∈ table.rows, e.executionID = id ∧
      detail = Group.execution (group executionKey table.rows (executionKey e)) (executionKey e) := by
  unfold getExecution executionsOf at found
  rw [detail_rows nonzero] at found
  dsimp only at found
  split at found
  · cases found
  · rename_i first
    cases found
    obtain ⟨entry, here, rfl⟩ := List.mem_map.mp (order.mem_of_head? first)
    obtain ⟨e, selected, rfl⟩ := mem_groups.mp here
    obtain ⟨member, named⟩ := List.mem_filter.mp selected
    refine ⟨e, member, of_decide_eq_true named, ?_⟩
    rw [group_filter_of_all]
    intro row _ same
    exact decide_eq_true ((congrArg Prod.fst same).trans (of_decide_eq_true named))

theorem exists_getExecution {e : EventRecord} (member : e ∈ table.rows)
    (nonzero : e.executionID ≠ Bytes.zero 16) :
    ∃ detail, table.getExecution order e.executionID = .ok detail := by
  unfold getExecution executionsOf
  rw [detail_rows nonzero]
  dsimp only
  split
  · rename_i nothing
    have empty := List.map_eq_nil_iff.mp (order.eq_nil_of_head? nothing)
    have selected : e ∈ table.rows.filter fun other => other.executionID = e.executionID :=
      List.mem_filter.mpr ⟨member, decide_eq_true rfl⟩
    exact absurd (empty ▸ mem_groups.mpr ⟨e, selected, rfl⟩) List.not_mem_nil
  · exact ⟨_, rfl⟩

/-- **A flow of selected rows** is the one of the detail exactly when all its events are selected. -/
theorem flow_iff {keep : EventRecord → Bool} {v : FlowDetail}
    (set : ∀ e, keep e = true → e.flowID ≠ Bytes.zero 16)
    (listed : v ∈ flowsOf (table.rows.filter keep))
    (origin : OneOrigin (·.flowID) table.rows v.id) :
    (table.getFlow order v.id).map FlowDetail.toFlowSummary = .ok v.toFlowSummary ↔
      ∀ e ∈ table.rows, e.flowID = v.id → keep e = true := by
  obtain ⟨entry, here, rfl⟩ := List.mem_map.mp listed
  obtain ⟨e, selected, rfl⟩ := mem_groups.mp here
  obtain ⟨member, kept⟩ := List.mem_filter.mp selected
  have summary := group_summary_iff (fun group => (Group.flow group (flowKey e)).toFlowSummary)
    FlowSummary.eventCount (fun _ => rfl) table.distinct keep member origin
  show (table.getFlow order e.flowID).map FlowDetail.toFlowSummary = _ ↔ _
  rw [getFlow_of_origin member (set e kept) origin]
  show Except.ok _ = Except.ok _ ↔ _
  rw [Except.ok.injEq]
  exact summary

/-- **An execution of selected rows** is the one of the detail exactly when all its events are
selected. -/
theorem execution_iff {keep : EventRecord → Bool} {v : ExecutionSummary}
    (set : ∀ e, keep e = true → e.executionID ≠ Bytes.zero 16)
    (listed : v ∈ executionsOf (table.rows.filter keep))
    (origin : OneOrigin (·.executionID) table.rows v.id) :
    table.getExecution order v.id = .ok v ↔
      ∀ e ∈ table.rows, e.executionID = v.id → keep e = true := by
  obtain ⟨entry, here, rfl⟩ := List.mem_map.mp listed
  obtain ⟨e, selected, rfl⟩ := mem_groups.mp here
  obtain ⟨member, kept⟩ := List.mem_filter.mp selected
  have summary := group_summary_iff (fun group => Group.execution group (executionKey e))
    ExecutionSummary.eventCount (fun _ => rfl) table.distinct keep member origin
  show table.getExecution order e.executionID = _ ↔ _
  rw [getExecution_of_origin member (set e kept) origin, Except.ok.injEq]
  exact summary

/-! ### Listings -/

theorem flow_of_listFlows {f : FlowFilter} {p : PageRequest} {page : Page FlowSummary}
    {v : FlowSummary} (answered : table.listFlows order f p = .ok page) (listed : v ∈ page.items) :
    ∃ detail ∈ flowsOf (table.rows.filter (flowSelects f)), detail.toFlowSummary = v := by
  unfold listFlows at answered
  split at answered
  · cases answered
    exact List.mem_map.mp (List.mem_of_mem_filter (mem_of_listing listed))
  · cases answered

theorem execution_of_listExecutions {f : ExecutionFilter} {p : PageRequest}
    {page : Page ExecutionSummary} {v : ExecutionSummary}
    (answered : table.listExecutions order f p = .ok page) (listed : v ∈ page.items) :
    v ∈ executionsOf (table.rows.filter (executionSelects f)) := by
  unfold listExecutions at answered
  split at answered
  · cases answered
    exact List.mem_of_mem_filter (mem_of_listing listed)
  · cases answered

theorem execution_of_getRetryChain {order' : RowOrder} {id : ExecutionID} {detail v : ExecutionSummary}
    {chain : List ExecutionSummary} (found : table.getExecution order id = .ok detail)
    (answered : table.getRetryChain order order' id = .ok chain) (listed : v ∈ chain) :
    v ∈ executionsOf (table.rows.filter (chainSelects (retryRoot id detail))) := by
  unfold getRetryChain at answered
  rw [found] at answered
  cases answered
  exact (order'.perm _).mem_iff.mp (mem_orderBy.mp listed)

theorem flowSelects_set {f : FlowFilter} (e : EventRecord) (passes : flowSelects f e = true) :
    e.flowID ≠ Bytes.zero 16 :=
  (of_decide_eq_true passes).1

theorem executionSelects_set {f : ExecutionFilter} (e : EventRecord)
    (passes : executionSelects f e = true) : e.executionID ≠ Bytes.zero 16 :=
  (of_decide_eq_true passes).1

theorem chainSelects_set {root : ExecutionID} (e : EventRecord)
    (passes : chainSelects root e = true) : e.executionID ≠ Bytes.zero 16 :=
  (of_decide_eq_true passes).1

/-- **When a listed summary is the one of the detail**: exactly when every event of its identifier passes
the conditions that the listing puts on rows. -/
theorem listed_as_detailed_iff (table : Events) :
    (∀ order order' f p page, table.listFlows order f p = .ok page → ∀ v ∈ page.items,
      OneOrigin (·.flowID) table.rows v.id →
        ((table.getFlow order' v.id).map FlowDetail.toFlowSummary = .ok v ↔
          ∀ e ∈ table.rows, e.flowID = v.id → flowSelects f e = true)) ∧
    (∀ order order' f p page, table.listExecutions order f p = .ok page → ∀ v ∈ page.items,
      OneOrigin (·.executionID) table.rows v.id →
        (table.getExecution order' v.id = .ok v ↔
          ∀ e ∈ table.rows, e.executionID = v.id → executionSelects f e = true)) ∧
    (∀ order order' order'' id detail chain, table.getExecution order id = .ok detail →
      table.getRetryChain order order' id = .ok chain → ∀ v ∈ chain,
      OneOrigin (·.executionID) table.rows v.id →
        (table.getExecution order'' v.id = .ok v ↔
          ∀ e ∈ table.rows, e.executionID = v.id →
            chainSelects (retryRoot id detail) e = true)) := by
  refine ⟨?_, ?_, ?_⟩
  · intro order order' f p page answered v listed origin
    obtain ⟨detail, here, rfl⟩ := flow_of_listFlows answered listed
    exact flow_iff flowSelects_set here origin
  · intro order order' f p page answered v listed origin
    exact execution_iff executionSelects_set (execution_of_listExecutions answered listed) origin
  · intro order order' order'' id detail chain found answered v listed origin
    exact execution_iff chainSelects_set (execution_of_getRetryChain found answered listed) origin

end Events

/-! ### An import that failed -/

/-- The execution of an import: its first event has the kind, the second has the status. -/
def importRows : List EventRecord :=
  [{ id := endingID 1, timestamp := 1000, kind := ascii "import.started", flowID := endingID 7,
     executionID := endingID 9, executionKind := ascii "import" },
   { id := endingID 2, timestamp := 2000, kind := ascii "import.failed", flowID := endingID 7,
     executionID := endingID 9, executionStatus := ascii "failed" }]

def importTable : Events :=
  ⟨importRows, by decide, by decide, by unfold Retention.InRange; decide⟩

/-- The import as it is listed by its kind. -/
def listedImport : ExecutionSummary :=
  Group.execution (importRows.take 1) (endingID 9, [], [])

/-- The import as its detail has it. -/
def detailedImport : ExecutionSummary := Group.execution importRows (endingID 9, [], [])

theorem listExecutions_import : importTable.listExecutions .given { kind := ascii "import" }
    { limit := 100 } = .ok { items := [listedImport] } := by
  unfold Events.listExecutions
  rw [if_pos ((wellFormed_listExecutions _ _).mpr (.inr rfl))]
  exact congrArg Except.ok (by decide)

theorem getExecution_import : importTable.getExecution .given (endingID 9) = .ok detailedImport := by
  decide

/-- **The listing of imports shows another execution than its detail.** -/
theorem import_listed_without_failure :
    importTable.listExecutions .given { kind := ascii "import" } { limit := 100 } =
      .ok { items := [listedImport] } ∧
    importTable.getExecution .given listedImport.id = .ok detailedImport ∧
    (listedImport.status, listedImport.eventCount) = ([], 1) ∧
    (detailedImport.status, detailedImport.eventCount) = (ascii "failed", 2) :=
  ⟨listExecutions_import, getExecution_import, by decide, by decide⟩

theorem importRows_origin (idOf : EventRecord → Bytes 16) (id : Bytes 16) :
    OneOrigin idOf importRows id := by
  have one : ∀ e ∈ importRows, e.metadata = ⟨[], [], []⟩ := by decide
  intro first here second there _ _
  rw [one first here, one second there]
  exact ⟨rfl, rfl⟩

/-- The flow and the retry chain of the import are as in the details, the import listed by its kind is
not. -/
theorem listed_as_detailed_import :
    (∃ page, importTable.listFlows .given {} { limit := 100 } = .ok page ∧ page.items ≠ [] ∧
      ∀ v ∈ page.items,
        (importTable.getFlow .given v.id).map FlowDetail.toFlowSummary = .ok v) ∧
    importTable.getExecution .given listedImport.id ≠ .ok listedImport ∧
    ∀ chain, importTable.getRetryChain .given .given (endingID 9) = .ok chain → ∀ v ∈ chain,
      importTable.getExecution .given v.id = .ok v := by
  obtain ⟨flows, executions, chains⟩ := Events.listed_as_detailed_iff importTable
  refine ⟨?_, ?_, ?_⟩
  · have answered : ∃ page, importTable.listFlows .given {} { limit := 100 } = .ok page ∧
        page.items ≠ [] := by
      unfold Events.listFlows
      rw [if_pos ((wellFormed_listFlows _ _).mpr (.inl rfl))]
      exact ⟨_, rfl, by decide⟩
    obtain ⟨page, answered, some⟩ := answered
    refine ⟨page, answered, some, fun v listed => ?_⟩
    refine (flows _ .given _ _ page answered v listed (importRows_origin _ _)).mpr ?_
    intro e member _
    exact (by decide : ∀ e ∈ importRows, flowSelects {} e = true) e member
  · intro same
    have all := (executions _ .given _ _ _ listExecutions_import listedImport List.mem_cons_self
      (importRows_origin _ _)).mp same
    exact absurd all (by decide)
  · intro chain answered v listed
    refine (chains _ _ .given _ _ chain getExecution_import answered v listed
      (importRows_origin _ _)).mpr ?_
    intro e member _
    exact (by decide : ∀ e ∈ importRows,
      chainSelects (retryRoot (endingID 9) detailedImport) e = true) e member

end Trail.Postgres
