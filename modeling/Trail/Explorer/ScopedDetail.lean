/-
**What a scoped listing shows, and the scoped details.**

A listing puts the scope into its statement; a detail compares the scope of what it read. PostgreSQL
reads the newest scope of the rows of a group. ClickHouse keeps no scope in its summaries: the listings
fill in the scope they were asked for, the details have none.

* `scope_of_group`: the scope of a group whose events share one.
* `listed_then_found_iff`: the details find what the listings show in PostgreSQL, and in ClickHouse
  exactly when they show nothing.
-/

import Trail.ClickHouse.FlowPaging
import Trail.ClickHouse.Ingested
import Trail.Explorer.Server
import Trail.Postgres.Summaries

namespace Trail.Explorer

open Library Storage
open Postgres (Group flowKey executionKey flowsOf executionsOf flowSelects executionSelects
  chainSelects)

/-! ### PostgreSQL -/

section Postgres

variable {table : Postgres.Events} {order order' : RowOrder}

theorem scope_of_inScope {scope : Scope} {e : EventRecord} (asked : ¬ isZero scope)
    (inside : inScope scope e = true) : e.scope = scope := by
  rcases of_decide_eq_true inside with zero | ⟨type, id⟩
  · exact absurd zero asked
  · show (⟨e.scope.type, e.scope.id⟩ : Scope) = ⟨scope.type, scope.id⟩
    rw [type, id]

/-- **The scope of a group** whose events share one. -/
theorem scope_of_group {group : Group} {scope : Scope} (some : group ≠ [])
    (all : ∀ e ∈ group, e.scope = scope) :
    (⟨group.newestText (·.scope.type), group.newestText (·.scope.id)⟩ : Scope) = scope := by
  have type : group.newestText (·.scope.type) = scope.type :=
    Postgres.newest_of_all some fun e member => congrArg Scope.type (all e member)
  have id : group.newestText (·.scope.id) = scope.id :=
    Postgres.newest_of_all some fun e member => congrArg Scope.id (all e member)
  rw [type, id]

theorem getFlow_scope {e : EventRecord} (member : e ∈ table.rows) (set : e.flowID ≠ Bytes.zero 16)
    {scope : Scope} (all : ∀ other ∈ table.rows, other.flowID = e.flowID → other.scope = scope) :
    ∃ detail, table.getFlow order e.flowID = .ok detail ∧ detail.id = e.flowID ∧
      detail.scope = scope := by
  obtain ⟨detail, found⟩ := @Postgres.Events.exists_getFlow table order e member set
  obtain ⟨row, here, named, rfl⟩ := Postgres.Events.of_getFlow set found
  refine ⟨_, found, named, scope_of_group (List.ne_nil_of_mem (mem_group.mpr ⟨here, rfl⟩)) ?_⟩
  intro other grouped
  obtain ⟨inside, same⟩ := mem_group.mp grouped
  exact all other inside ((congrArg Prod.fst same).trans named)

theorem getExecution_scope {e : EventRecord} (member : e ∈ table.rows)
    (set : e.executionID ≠ Bytes.zero 16) {scope : Scope}
    (all : ∀ other ∈ table.rows, other.executionID = e.executionID → other.scope = scope) :
    ∃ detail, table.getExecution order e.executionID = .ok detail ∧ detail.id = e.executionID ∧
      detail.scope = scope := by
  obtain ⟨detail, found⟩ := @Postgres.Events.exists_getExecution table order e member set
  obtain ⟨row, here, named, rfl⟩ := Postgres.Events.of_getExecution set found
  refine ⟨_, found, named, scope_of_group (List.ne_nil_of_mem (mem_group.mpr ⟨here, rfl⟩)) ?_⟩
  intro other grouped
  obtain ⟨inside, same⟩ := mem_group.mp grouped
  exact all other inside ((congrArg Prod.fst same).trans named)

theorem event_of_flow {rows : List EventRecord} {v : FlowDetail} (listed : v ∈ flowsOf rows) :
    ∃ e ∈ rows, e.flowID = v.id := by
  obtain ⟨entry, here, rfl⟩ := List.mem_map.mp listed
  obtain ⟨e, member, rfl⟩ := mem_groups.mp here
  exact ⟨e, member, rfl⟩

theorem event_of_execution {rows : List EventRecord} {v : ExecutionSummary}
    (listed : v ∈ executionsOf rows) : ∃ e ∈ rows, e.executionID = v.id := by
  obtain ⟨entry, here, rfl⟩ := List.mem_map.mp listed
  obtain ⟨e, member, rfl⟩ := mem_groups.mp here
  exact ⟨e, member, rfl⟩

theorem scope_of_execution {keep : EventRecord → Bool} {v : ExecutionSummary}
    (listed : v ∈ executionsOf (table.rows.filter keep)) {scope : Scope}
    (all : ∀ e ∈ table.rows, e.executionID = v.id → e.scope = scope) : v.scope = scope := by
  obtain ⟨entry, here, rfl⟩ := List.mem_map.mp listed
  have some := group_ne_nil here
  obtain ⟨e, _, rfl⟩ := mem_groups.mp here
  refine scope_of_group some fun other grouped => ?_
  obtain ⟨inside, same⟩ := mem_group.mp grouped
  exact all other (List.mem_of_mem_filter inside) (congrArg Prod.fst same)

end Postgres

/-! ### ClickHouse -/

section ClickHouse

variable {tables : Warehouse.Tables} {order order' : RowOrder}

theorem flowRows_scope {v : FlowDetail} (row : v ∈ tables.flowRows) : v.scope = ⟨[], []⟩ := by
  obtain ⟨key, _, rfl⟩ := Warehouse.mem_mergedRows.mp row
  rfl

theorem executionRows_scope {v : ExecutionSummary} (row : v ∈ tables.executionRows) :
    v.scope = ⟨[], []⟩ := by
  obtain ⟨key, _, rfl⟩ := Warehouse.mem_mergedRows.mp row
  rfl

/-- **No flow of ClickHouse is found in a scope.** -/
theorem flow_refused {q : Query} (asked : ¬ isZero (scopeFilter q)) (id : FlowID) (detail : FlowDetail) :
    flow (clickhouse tables order order') q (encodeID id) ≠ .ok detail := by
  intro answered
  unfold flow at answered
  rw [withID_encodeID, respond_eq_ok] at answered
  unfold clickhouse at answered
  dsimp only at answered
  cases found : tables.getFlow order id with
  | error error =>
    rw [found] at answered
    cases answered
  | ok v =>
    have row := (Warehouse.Tables.mem_of_getFlow found).1
    have refused : checkScope q (fun v : FlowDetail => v.scope) (.ok v) = .error errNotFound :=
      checkScope_unset asked (flowRows_scope row)
    rw [found, refused] at answered
    cases answered

/-- **No execution of ClickHouse is found in a scope.** -/
theorem execution_refused {q : Query} (asked : ¬ isZero (scopeFilter q)) (id : ExecutionID)
    (detail : ExecutionSummary) :
    execution (clickhouse tables order order') q (encodeID id) ≠ .ok detail := by
  intro answered
  unfold execution at answered
  rw [withID_encodeID, respond_eq_ok] at answered
  unfold clickhouse at answered
  dsimp only at answered
  cases found : tables.getExecution order id with
  | error error =>
    rw [found] at answered
    cases answered
  | ok v =>
    have row := (Warehouse.Tables.mem_of_getExecution found).1
    rw [found, checkScope_unset asked (executionRows_scope row)] at answered
    cases answered

end ClickHouse

/-! ### What is listed is found -/

/-- The events of an identifier share a scope. -/
def OneScope (idOf : EventRecord → Bytes 16) (rows : List EventRecord) : Prop :=
  ∀ first ∈ rows, ∀ second ∈ rows, idOf first ≠ Bytes.zero 16 → idOf first = idOf second →
    first.scope = second.scope

/-- **What the listings show in a scope, the details find in it**; the retries of an execution when the
events of all executions of its chain have the scope. -/
structure ListedFound (codecs : Codecs) (rows : List EventRecord) (lists details : ExplorerStore)
    (scope : Scope) : Prop where
  flows : ∀ q q', scopeFilter q = scope → scopeFilter q' = scope →
    ∀ body, flows codecs lists q = .ok body → ∀ v ∈ body.items,
      ∃ detail, flow details q' (encodeID v.id) = .ok detail ∧ detail.id = v.id
  executions : ∀ q q', scopeFilter q = scope → scopeFilter q' = scope →
    ∀ body, executions codecs lists q = .ok body → ∀ v ∈ body.items,
      ∃ detail, execution details q' (encodeID v.id) = .ok detail ∧ detail.id = v.id
  retries : ∀ q q', scopeFilter q = scope → scopeFilter q' = scope →
    ∀ body, Explorer.executions codecs lists q = .ok body → ∀ v ∈ body.items,
      (∀ chain, details.getRetryChain v.id = .ok chain → ∀ member ∈ chain, ∀ e ∈ rows,
        e.executionID = member.id → e.scope = scope) →
      ∃ chain, Explorer.retries details q' (encodeID v.id) = .ok chain

section Postgres

variable {codecs : Codecs} {table : Postgres.Events} {collation : Collation}
  {first second third fourth : RowOrder} {q q' : Query}

/-- **PostgreSQL finds the flows that it lists.** -/
theorem postgres_flows (same : OneScope EventRecord.flowID table.rows)
    (asked : ¬ isZero (scopeFilter q)) (also : scopeFilter q' = scopeFilter q)
    {body : PageBody FlowSummary}
    (answered : flows codecs (postgres table collation first second) q = .ok body)
    {v : FlowSummary} (listed : v ∈ body.items) :
    ∃ detail, flow (postgres table collation third fourth) q' (encodeID v.id) = .ok detail ∧
      detail.id = v.id := by
  obtain ⟨p, result, _, read, items⟩ := of_listed answered
  rw [items] at listed
  obtain ⟨shown, here, rfl⟩ := Postgres.Events.flow_of_listFlows read listed
  obtain ⟨e, selected, named⟩ := event_of_flow here
  obtain ⟨member, passes⟩ := List.mem_filter.mp selected
  obtain ⟨set, _, inside, _⟩ := of_decide_eq_true passes
  have all : ∀ other ∈ table.rows, other.flowID = e.flowID → other.scope = scopeFilter q' := by
    intro other there ids
    rw [also, ← same e member other there set ids.symm]
    exact scope_of_inScope asked inside
  obtain ⟨detail, found, id, scope⟩ := @getFlow_scope table third e member set _ all
  refine ⟨detail, ?_, id.trans named⟩
  unfold flow
  rw [withID_encodeID, respond_eq_ok, ← named]
  show checkScope q' (fun v : FlowDetail => v.scope) (table.getFlow third e.flowID) = .ok detail
  rw [found]
  exact checkScope_of scope

theorem event_of_executions (same : OneScope EventRecord.executionID table.rows)
    (asked : ¬ isZero (scopeFilter q)) {body : PageBody ExecutionSummary}
    (answered : executions codecs (postgres table collation first second) q = .ok body)
    {v : ExecutionSummary} (listed : v ∈ body.items) :
    ∃ e ∈ table.rows, e.executionID ≠ Bytes.zero 16 ∧ e.executionID = v.id ∧
      ∀ other ∈ table.rows, other.executionID = e.executionID → other.scope = scopeFilter q := by
  obtain ⟨p, result, _, read, items⟩ := of_listed answered
  rw [items] at listed
  have here := Postgres.Events.execution_of_listExecutions read listed
  obtain ⟨e, selected, named⟩ := event_of_execution here
  obtain ⟨member, passes⟩ := List.mem_filter.mp selected
  obtain ⟨set, _, inside, _⟩ := of_decide_eq_true passes
  refine ⟨e, member, set, named, fun other there ids => ?_⟩
  rw [← same e member other there set ids.symm]
  exact scope_of_inScope asked inside

/-- **PostgreSQL finds the executions that it lists.** -/
theorem postgres_executions (same : OneScope EventRecord.executionID table.rows)
    (asked : ¬ isZero (scopeFilter q)) (also : scopeFilter q' = scopeFilter q)
    {body : PageBody ExecutionSummary}
    (answered : executions codecs (postgres table collation first second) q = .ok body)
    {v : ExecutionSummary} (listed : v ∈ body.items) :
    ∃ detail, execution (postgres table collation third fourth) q' (encodeID v.id) = .ok detail ∧
      detail.id = v.id := by
  obtain ⟨e, member, set, named, all⟩ := event_of_executions same asked answered listed
  rw [← also] at all
  obtain ⟨detail, found, id, scope⟩ := @getExecution_scope table third e member set _ all
  refine ⟨detail, ?_, id.trans named⟩
  unfold execution
  rw [withID_encodeID, respond_eq_ok, ← named]
  show checkScope q' (fun v : ExecutionSummary => v.scope) (table.getExecution third e.executionID) =
    .ok detail
  rw [found]
  exact checkScope_of scope

/-- **PostgreSQL finds the retries of the executions that it lists.** -/
theorem postgres_retries (same : OneScope EventRecord.executionID table.rows)
    (asked : ¬ isZero (scopeFilter q)) (also : scopeFilter q' = scopeFilter q)
    {body : PageBody ExecutionSummary}
    (answered : executions codecs (postgres table collation first second) q = .ok body)
    {v : ExecutionSummary} (listed : v ∈ body.items)
    (members : ∀ chain, table.getRetryChain third fourth v.id = .ok chain → ∀ member ∈ chain,
      ∀ e ∈ table.rows, e.executionID = member.id → e.scope = scopeFilter q) :
    ∃ chain, retries (postgres table collation third fourth) q' (encodeID v.id) = .ok chain := by
  obtain ⟨e, member, set, named, _⟩ := event_of_executions same asked answered listed
  obtain ⟨detail, found⟩ := @Postgres.Events.exists_getExecution table third e member set
  rw [named] at found
  obtain ⟨chain, read⟩ : ∃ chain, table.getRetryChain third fourth v.id = .ok chain := by
    unfold Postgres.Events.getRetryChain
    rw [found]
    exact ⟨_, rfl⟩
  have allowed : (chain.all fun execution => scopeAllowed (scopeFilter q') execution.scope) = true := by
    refine List.all_eq_true.mpr fun w here => decide_eq_true (.inr ?_)
    have grouped := Postgres.Events.execution_of_getRetryChain found read here
    rw [also, scope_of_execution grouped (members chain read w here)]
  refine ⟨chain, ?_⟩
  unfold retries postgres
  dsimp only
  rw [withID_encodeID, respond_eq_ok, read]
  exact if_pos allowed

end Postgres

section ClickHouse

variable {names : EventID → EventRecord} {tables : Warehouse.Tables}

/-- A request with nothing but a scope. -/
def scopeQuery (scope : Scope) : Query :=
  ⟨[(ascii "scope_type", scope.type), (ascii "scope_id", scope.id)]⟩

theorem page_scopeQuery (codecs : Codecs) (scope : Scope) :
    page codecs (scopeQuery scope) = .ok ⟨100, {}, true⟩ := rfl

theorem timeRange_scopeQuery (codecs : Codecs) (scope : Scope) :
    timeRange codecs (scopeQuery scope) = {} := by
  show (⟨(codecs.parseTime []).getD zeroTime, (codecs.parseTime []).getD zeroTime⟩ : TimeRange) = {}
  rw [codecs.parseTime_nil]
  rfl

theorem flowFilter_scopeQuery (codecs : Codecs) (scope : Scope) :
    flowFilter codecs (scopeQuery scope) = { scope } := by
  unfold flowFilter
  rw [timeRange_scopeQuery]
  rfl

theorem executionFilter_scopeQuery (codecs : Codecs) (scope : Scope) :
    executionFilter codecs (scopeQuery scope) = { scope } := by
  unfold executionFilter
  rw [timeRange_scopeQuery]
  rfl

theorem exists_flows (codecs : Codecs) (fed : Warehouse.Fed names tables) (order order' : RowOrder)
    {e : EventRecord} (member : e ∈ tables.events) (ended : Warehouse.Terminal e) :
    ∃ body, flows codecs (clickhouse tables order order') (scopeQuery e.scope) = .ok body ∧
      ∃ v, v ∈ body.items := by
  have limited : PageRequest.Limited ⟨100, {}, true⟩ := ⟨by decide, by decide⟩
  obtain ⟨row, here, named, _⟩ := fed.latest e member ended
  have selected : row ∈ tables.selectedTerminals { scope := e.scope } := by
    have inside : tables.hasScope EventRecord.flowID e.scope row.flowID = true := by
      refine decide_eq_true (.inr (List.mem_map.mpr ⟨e, ?_, named.symm⟩))
      exact List.mem_filter.mpr ⟨member, decide_eq_true (.inr ⟨rfl, rfl⟩)⟩
    refine List.mem_filter.mpr ⟨here, decide_eq_true ⟨?_, inside, ?_⟩⟩
    · simp [inWindow]
    · simp [isZeroID]
  have consumed : tables.consumedTerminals order { scope := e.scope } ⟨100, {}, true⟩ ≠ [] :=
    take_keyset_ne_nil limited.size_pos (List.ne_nil_of_mem selected)
  obtain ⟨shown, first⟩ := List.exists_mem_of_ne_nil _ consumed
  have ids := @Warehouse.Tables.pageFlows_ids tables order order' { scope := e.scope } ⟨100, {}, true⟩
    fed.summarised
  have among : shown.flowID ∈ (tables.pageFlows order order' { scope := e.scope }
      ⟨100, {}, true⟩).map FlowSummary.id := ids ▸ List.mem_map_of_mem first
  obtain ⟨v, listed, _⟩ := List.mem_map.mp among
  have answered := @listed_of _ codecs (scopeQuery e.scope)
    (fun p => .ok (tables.listFlows order order' { scope := e.scope } p)) _ _
    (page_scopeQuery codecs e.scope) rfl
  rw [← flowFilter_scopeQuery codecs e.scope] at answered
  refine ⟨_, answered, v, ?_⟩
  rw [flowFilter_scopeQuery, Warehouse.Tables.listFlows_eq limited]
  exact listed

theorem exists_executions (codecs : Codecs) (fed : Warehouse.Fed names tables) (order order' : RowOrder)
    {e : EventRecord} (member : e ∈ tables.events) (set : e.executionID ≠ Bytes.zero 16) :
    ∃ body, executions codecs (clickhouse tables order order') (scopeQuery e.scope) = .ok body ∧
      ∃ v, v ∈ body.items := by
  have limited : PageRequest.Limited ⟨100, {}, true⟩ := ⟨by decide, by decide⟩
  have row := fed.mem_executionRows.mpr ⟨e, member, set, rfl⟩
  have selected : Warehouse.executionIn tables.events e ∈
      tables.executionRows.filter (tables.executionSelects { scope := e.scope }) := by
    have inside : tables.hasScope EventRecord.executionID e.scope e.executionID = true := by
      refine decide_eq_true (.inr (List.mem_map.mpr ⟨e, ?_, rfl⟩))
      exact List.mem_filter.mpr ⟨member, decide_eq_true (.inr ⟨rfl, rfl⟩)⟩
    refine List.mem_filter.mpr ⟨row, decide_eq_true ⟨?_, inside, .inl rfl, .inl rfl, .inl rfl⟩⟩
    simp [inWindow]
  have answered := @listed_of _ codecs (scopeQuery e.scope)
    (fun p => .ok (tables.listExecutions order { scope := e.scope } p)) _ _
    (page_scopeQuery codecs e.scope) rfl
  rw [← executionFilter_scopeQuery codecs e.scope] at answered
  refine ⟨_, answered, ?_⟩
  rw [executionFilter_scopeQuery]
  exact exists_of_listing limited (List.ne_nil_of_mem (List.mem_map_of_mem selected))

theorem event_of_hasScope {idOf : EventRecord → Bytes 16} {scope : Scope} {id : Bytes 16}
    (asked : ¬ isZero scope) (inside : tables.hasScope idOf scope id = true) :
    ∃ e ∈ tables.events, idOf e = id ∧ e.scope = scope := by
  obtain ⟨e, selected, named⟩ := List.mem_map.mp ((of_decide_eq_true inside).resolve_left asked)
  obtain ⟨member, passes⟩ := List.mem_filter.mp selected
  exact ⟨e, member, named, scope_of_inScope asked passes⟩

theorem ended_of_flows (codecs : Codecs) (fed : Warehouse.Fed names tables) {order order' : RowOrder}
    {q : Query} (asked : ¬ isZero (scopeFilter q)) {body : PageBody FlowSummary}
    (answered : flows codecs (clickhouse tables order order') q = .ok body)
    {v : FlowSummary} (listed : v ∈ body.items) :
    ∃ e ∈ tables.events, Warehouse.Terminal e ∧
      ∃ other ∈ tables.events, other.flowID = e.flowID ∧ other.scope = scopeFilter q := by
  obtain ⟨p, result, page, read, items⟩ := of_listed answered
  cases read
  rw [items] at listed
  have here : v ∈ (tables.listFlows order order' (flowFilter codecs q) p).items := listed
  rw [Warehouse.Tables.listFlows_eq (of_page page).1] at here
  obtain ⟨row, consumed, _⟩ := Warehouse.Tables.mem_pageFlows here
  have selected : row ∈ tables.selectedTerminals (flowFilter codecs q) :=
    (mem_afterCursor.mp (keyset_perm.mem_iff.mp (List.mem_of_mem_take consumed))).1
  obtain ⟨member, passes⟩ := List.mem_filter.mp selected
  obtain ⟨e, event, terminal, rfl⟩ := fed.terminals row member
  obtain ⟨_, inside, _⟩ := of_decide_eq_true passes
  obtain ⟨other, there, named, same⟩ := event_of_hasScope asked inside
  exact ⟨e, event, terminal, other, there, named, same⟩

theorem scoped_of_executions (codecs : Codecs) (fed : Warehouse.Fed names tables)
    {order order' : RowOrder} {q : Query} (asked : ¬ isZero (scopeFilter q))
    {body : PageBody ExecutionSummary}
    (answered : executions codecs (clickhouse tables order order') q = .ok body)
    {v : ExecutionSummary} (listed : v ∈ body.items) :
    ∃ e ∈ tables.events, e.executionID ≠ Bytes.zero 16 ∧ e.scope = scopeFilter q := by
  obtain ⟨p, result, _, read, items⟩ := of_listed answered
  cases read
  rw [items] at listed
  obtain ⟨row, selected, rfl⟩ := List.mem_map.mp (mem_of_listing listed)
  obtain ⟨member, passes⟩ := List.mem_filter.mp selected
  obtain ⟨e, _, set, rfl⟩ := fed.mem_executionRows.mp member
  obtain ⟨_, inside, _⟩ := of_decide_eq_true passes
  obtain ⟨other, there, named, same⟩ := event_of_hasScope asked inside
  exact ⟨other, there, named ▸ set, same⟩

/-- **ClickHouse finds what it lists** exactly when it lists nothing in the scope. -/
theorem clickhouse_listedFound_iff (codecs : Codecs) (fed : Warehouse.Fed names tables)
    (oneFlow : OneScope EventRecord.flowID tables.events) {scope : Scope} (asked : ¬ isZero scope)
    (first second third fourth : RowOrder) :
    ListedFound codecs tables.events (clickhouse tables first second) (clickhouse tables third fourth)
        scope ↔
      ∀ e ∈ tables.events, e.scope = scope →
        ¬ Warehouse.Terminal e ∧ e.executionID = Bytes.zero 16 := by
  constructor
  · rintro found e member rfl
    have set : ¬ isZero (scopeFilter (scopeQuery e.scope)) := asked
    refine ⟨fun ended => ?_, ?_⟩
    · obtain ⟨body, answered, v, listed⟩ := exists_flows codecs fed first second member ended
      obtain ⟨detail, shown, _⟩ := found.flows _ (scopeQuery e.scope) rfl rfl body answered v listed
      exact flow_refused set v.id detail shown
    · by_contra named
      obtain ⟨body, answered, v, listed⟩ := exists_executions codecs fed first second member named
      obtain ⟨detail, shown, _⟩ :=
        found.executions _ (scopeQuery e.scope) rfl rfl body answered v listed
      exact execution_refused set v.id detail shown
  · intro nothing
    have noExecution : ∀ q, scopeFilter q = scope → ∀ body,
        executions codecs (clickhouse tables first second) q = .ok body → ∀ v, v ∉ body.items := by
      rintro q rfl body answered v listed
      obtain ⟨e, member, set, same⟩ := scoped_of_executions codecs fed asked answered listed
      exact set (nothing e member same).2
    refine ⟨?_, ?_, ?_⟩
    · rintro q q' rfl _ body answered v listed
      obtain ⟨e, member, ended, other, there, named, same⟩ :=
        ended_of_flows codecs fed asked answered listed
      have scope := oneFlow e member other there ended.1 named.symm
      exact absurd ended (nothing e member (scope.trans same)).1
    · intro q q' here _ body answered v listed
      exact absurd listed (noExecution q here body answered v)
    · intro q q' here _ body answered v listed
      exact absurd listed (noExecution q here body answered v)

end ClickHouse

/-- **When the details find what the listings show in a scope**: in PostgreSQL always, in ClickHouse
exactly when no flow has ended in the scope and no execution has an event in it. -/
theorem listed_then_found_iff (codecs : Codecs) (scope : Scope) (asked : ¬ isZero scope)
    (first second third fourth : RowOrder) :
    (∀ (table : Postgres.Events) (collation : Collation),
      OneScope EventRecord.flowID table.rows → OneScope EventRecord.executionID table.rows →
      ListedFound codecs table.rows (postgres table collation first second)
        (postgres table collation third fourth) scope) ∧
    ∀ (names : EventID → EventRecord) (tables : Warehouse.Tables),
      Warehouse.Ingested names tables →
      OneScope EventRecord.flowID tables.events → OneScope EventRecord.executionID tables.events →
      (ListedFound codecs tables.events (clickhouse tables first second)
          (clickhouse tables third fourth) scope ↔
        ∀ e ∈ tables.events, e.scope = scope →
          ¬ Warehouse.Terminal e ∧ e.executionID = Bytes.zero 16) := by
  refine ⟨fun table collation oneFlow oneExecution => ⟨?_, ?_, ?_⟩,
    fun names tables ingested oneFlow _ =>
      clickhouse_listedFound_iff codecs ingested.fed oneFlow asked first second third fourth⟩
  · rintro q q' rfl also body answered v listed
    exact postgres_flows oneFlow asked also answered listed
  · rintro q q' rfl also body answered v listed
    exact postgres_executions oneExecution asked also answered listed
  · rintro q q' rfl also body answered v listed members
    exact postgres_retries oneExecution asked also answered listed members

/-! ### An order of a shop -/

/-- The codecs of nothing. -/
def noCodecs : Codecs := ⟨id, some, Wire.Codec.table [], fun _ => none, parse_none⟩

def shop : Scope := ⟨ascii "shop", ascii "12"⟩

/-- The last event of an order, in the scope of its shop. -/
def shopRow : EventRecord :=
  { id := endingID 1, timestamp := 1000, kind := ascii "order.done", scope := shop,
    flowID := endingID 7, flowStatus := ascii "succeeded", executionID := endingID 9 }

def shopTables : Warehouse.Tables := ({} : Warehouse.Tables).insertEvents [shopRow]

def shopTable : Postgres.Events :=
  ⟨[shopRow], by decide, by decide, by unfold Retention.InRange; decide⟩

/-- What a request for the details answers that finds nothing. -/
def notFound {Value : Type} : Answer Value :=
  .refused 404 (ascii "not_found") (ascii "resource not found")

/-- **ClickHouse lists the order and its execution in the scope of the shop, and finds neither in it.** -/
theorem shop_order_not_found :
    (∃ body, flows noCodecs (clickhouse shopTables .given .given) (scopeQuery shop) = .ok body ∧
      body.items.map FlowSummary.id = [endingID 7]) ∧
    flow (clickhouse shopTables .given .given) (scopeQuery shop) (encodeID (endingID 7)) = notFound ∧
    (∃ body, executions noCodecs (clickhouse shopTables .given .given) (scopeQuery shop) = .ok body ∧
      body.items.map ExecutionSummary.id = [endingID 9]) ∧
    execution (clickhouse shopTables .given .given) (scopeQuery shop) (encodeID (endingID 9)) =
      notFound ∧
    retries (clickhouse shopTables .given .given) (scopeQuery shop) (encodeID (endingID 9)) =
      notFound :=
  ⟨⟨_, rfl, by decide +kernel⟩, by decide +kernel, ⟨_, rfl, by decide +kernel⟩, by decide +kernel,
    by decide +kernel⟩

/-- PostgreSQL finds the order in the scope of the shop, and ClickHouse has nothing to find in another
scope. -/
theorem shop_order_found :
    (∃ detail, flow (postgres shopTable .bytes .given .given) (scopeQuery shop)
      (encodeID (endingID 7)) = .ok detail ∧ detail.id = endingID 7) ∧
    ListedFound noCodecs [shopRow] (clickhouse shopTables .given .given)
      (clickhouse shopTables .given .given) ⟨ascii "shop", ascii "13"⟩ := by
  have one : ∀ idOf, OneScope idOf [shopRow] := by
    intro idOf first here second there _ _
    rw [List.mem_singleton.mp here, List.mem_singleton.mp there]
  have ingested : Warehouse.Ingested (fun _ => shopRow) shopTables :=
    Warehouse.Ingested.empty.insert (by decide +kernel)
  constructor
  · have found := (listed_then_found_iff noCodecs shop (by decide) .given .given .given .given).1
      shopTable .bytes (one _) (one _)
    have item : ∃ body v, flows noCodecs (postgres shopTable .bytes .given .given) (scopeQuery shop) =
        .ok body ∧ v ∈ body.items ∧ v.id = endingID 7 := by
      have read : ∃ page v, shopTable.listFlows .given (flowFilter noCodecs (scopeQuery shop))
          ⟨100, {}, true⟩ = .ok page ∧ v ∈ page.items ∧ v.id = endingID 7 := by
        unfold Postgres.Events.listFlows
        rw [if_pos ((Postgres.wellFormed_listFlows _ _).mpr (.inr rfl))]
        exact ⟨_, (Group.flow [shopRow] (flowKey shopRow)).toFlowSummary, rfl, by decide +kernel,
          by decide +kernel⟩
      obtain ⟨page, v, read, listed, named⟩ := read
      have answered := @listed_of _ noCodecs (scopeQuery shop)
        (shopTable.listFlows .given (flowFilter noCodecs (scopeQuery shop))) ⟨100, {}, true⟩ page
        (page_scopeQuery noCodecs shop) read
      exact ⟨_, v, answered, listed, named⟩
    obtain ⟨body, v, answered, listed, named⟩ := item
    have shown := found.flows _ (scopeQuery shop) rfl rfl body answered v listed
    rw [named] at shown
    exact shown
  · refine ((listed_then_found_iff noCodecs _ (by decide) .given .given .given .given).2 _ _ ingested
      (one _) (one _)).mpr ?_
    intro e member same
    cases List.mem_singleton.mp member
    exact absurd same (by decide)

end Trail.Explorer
