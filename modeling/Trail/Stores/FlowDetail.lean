/-
**The detail of a flow and its timeline.**

`GetFlow` reads one row of a grouping by flow, service and environment; `ListFlowEvents` lists the events
of the flow from all services.

* `Covers`: what the detail says of the events that the listing shows.
* `covers_iff`: a group covers the flow exactly when it is all of it.
* `flow_detail_covers_iff`: for both stores, whatever order the database reads rows in.
-/

import Trail.ClickHouse.Finalised
import Trail.ClickHouse.Ingested
import Trail.ClickHouse.VisibleRows
import Trail.Postgres.Summaries

namespace Trail.Stores

open Library Storage
open Postgres (OneOrigin originKey group_of_origin)
open Retention (Adapter RowKey rowKey)
open Warehouse (Agree Fed Ingested Names flowIn flowOf_rows time_le)

/-! ### Covering -/

/-- The detail of a flow says of its events how many there are, when the first and the last of them
happened and what they are. -/
structure Covers (detail : FlowDetail) (events : List EventRecord) : Prop where
  count : detail.eventCount = countDistinct (·.id) events
  started : IsLeast {t | ∃ e ∈ events, e.timestamp = t} detail.startedAt
  finished : IsGreatest {t | ∃ e ∈ events, e.timestamp = t} detail.finishedAt
  first : ∃ e, IsFirst rowKey events e ∧ detail.firstKind = e.kind
  last : ∃ e, IsLast rowKey events e ∧ detail.lastKind = e.kind

section Covers

variable {detail : FlowDetail} {events others rows : List EventRecord} {id : FlowID}

theorem id_of_rowKey {one two : EventRecord} (same : rowKey one = rowKey two) :
    one.timestamp = two.timestamp ∧ one.id = two.id := by
  have pair := @Retention.keyOf_injective (one.timestamp, one.id.1) (two.timestamp, two.id.1) same
  exact ⟨(Prod.ext_iff.mp pair).1, Subtype.ext (Prod.ext_iff.mp pair).2⟩

/-- Every event of one list is in the other, with its time, identifier and kind. -/
def Among (events others : List EventRecord) : Prop :=
  ∀ e ∈ events, ∃ e' ∈ others, rowKey e' = rowKey e ∧ e'.kind = e.kind

theorem Among.times (among : Among events others) {t : Time} (there : ∃ e ∈ events, e.timestamp = t) :
    ∃ e ∈ others, e.timestamp = t := by
  obtain ⟨e, member, rfl⟩ := there
  obtain ⟨e', here, same, _⟩ := among e member
  exact ⟨e', here, (id_of_rowKey same).1⟩

theorem Among.ids (among : Among events others) {id : EventID} (there : ∃ e ∈ events, e.id = id) :
    ∃ e ∈ others, e.id = id := by
  obtain ⟨e, member, rfl⟩ := there
  obtain ⟨e', here, same, _⟩ := among e member
  exact ⟨e', here, (id_of_rowKey same).2⟩

/-- **A detail covers what it covers however often and in which order it is listed.** -/
theorem Covers.congr (covers : Covers detail events) (left : Among events others)
    (right : Among others events) : Covers detail others := by
  have times : {t | ∃ e ∈ others, e.timestamp = t} = {t | ∃ e ∈ events, e.timestamp = t} :=
    Set.ext fun t => ⟨right.times, left.times⟩
  refine ⟨?_, times ▸ covers.started, times ▸ covers.finished, ?_, ?_⟩
  · rw [covers.count]
    exact countDistinct_congr fun id => ⟨left.ids, right.ids⟩
  · obtain ⟨e, first, kind⟩ := covers.first
    obtain ⟨e', here, same, kinds⟩ := left e first.member
    refine ⟨e', ⟨here, fun other member => ?_⟩, kind.trans kinds.symm⟩
    obtain ⟨other', there, equal, _⟩ := right other member
    rw [same, ← equal]
    exact first.before other' there
  · obtain ⟨e, last, kind⟩ := covers.last
    obtain ⟨e', here, same, kinds⟩ := left e last.member
    refine ⟨e', ⟨here, fun other member => ?_⟩, kind.trans kinds.symm⟩
    obtain ⟨other', there, equal, _⟩ := right other member
    rw [same, ← equal]
    exact last.after other' there

/-- An identifier belongs to one event: rows that share it agree in what is asked here. -/
def Identified (rows : List EventRecord) : Prop :=
  ∀ one ∈ rows, ∀ two ∈ rows, one.id = two.id →
    originKey EventRecord.flowID one = originKey EventRecord.flowID two ∧ one.kind = two.kind

/-- **A group covers the flow exactly when the flow has one service and environment.** -/
theorem covers_iff (identified : Identified rows) {e : EventRecord} (member : e ∈ rows)
    (named : e.flowID = id)
    (covers : Covers detail (group (originKey EventRecord.flowID) rows (originKey EventRecord.flowID e)))
    {shown : List EventRecord} (left : Among (rows.filter fun e => e.flowID = id) shown)
    (right : Among shown (rows.filter fun e => e.flowID = id)) :
    Covers detail shown ↔ OneOrigin EventRecord.flowID rows id := by
  constructor
  · intro all
    have part : ∀ row ∈ group (originKey EventRecord.flowID) rows (originKey EventRecord.flowID e),
        row ∈ rows.filter fun e => e.flowID = id := by
      intro row here
      obtain ⟨inside, key⟩ := mem_group.mp here
      have flow : row.flowID = id := (congrArg Prod.fst key).trans named
      exact List.mem_filter.mpr ⟨inside, decide_eq_true flow⟩
    have counted : countDistinct (·.id) shown =
        countDistinct (·.id) (rows.filter fun e => e.flowID = id) :=
      countDistinct_congr fun _ => ⟨right.ids, left.ids⟩
    have number := covers.count.symm.trans (all.count.trans counted)
    have origin : ∀ row ∈ rows, row.flowID = id →
        originKey EventRecord.flowID row = originKey EventRecord.flowID e := by
      intro row inside flow
      obtain ⟨other, here, same⟩ := (countDistinct_eq_iff part).mp number row
        (List.mem_filter.mpr ⟨inside, decide_eq_true flow⟩)
      obtain ⟨there, key⟩ := mem_group.mp here
      rw [← key, (identified other there row inside same).1]
    intro first here second there one two
    have same := (origin first here one).trans (origin second there two).symm
    exact ⟨congrArg (·.2.1) same, congrArg (·.2.2) same⟩
  · intro origin
    rw [group_of_origin origin member named] at covers
    exact covers.congr left right

theorem Covers.of_ends {first last : EventRecord} (begins : IsFirst rowKey events first)
    (ends : IsLast rowKey events last) (count : detail.eventCount = countDistinct (·.id) events)
    (started : detail.startedAt = first.timestamp) (finished : detail.finishedAt = last.timestamp)
    (firstKind : detail.firstKind = first.kind) (lastKind : detail.lastKind = last.kind) :
    Covers detail events := by
  refine ⟨count, ?_, ?_, ⟨first, begins, firstKind⟩, ⟨last, ends, lastKind⟩⟩
  · rw [started]
    refine ⟨⟨first, begins.member, rfl⟩, ?_⟩
    rintro t ⟨e, member, rfl⟩
    exact time_le (begins.before e member)
  · rw [finished]
    refine ⟨⟨last, ends.member, rfl⟩, ?_⟩
    rintro t ⟨e, member, rfl⟩
    exact time_le (ends.after e member)

end Covers

/-! ### The stores -/

section Stores

variable {rows : List EventRecord}

/-- What does not depend on batch and delivery is the same in rows of one event. -/
theorem agree_of_names {names : EventID → EventRecord} {Value : Type} {value : EventRecord → Value}
    (named : ∀ e ∈ rows, Names names e)
    (blind : ∀ e batchID delivery, value { e with batchID, delivery } = value e) : Agree value rows := by
  intro one here two there same
  have redelivered := (named one here).redelivered (named two there) (id_of_rowKey same).2
  rw [← blind one two.batchID two.delivery, redelivered]

theorem filter_selects {adapter : Adapter} {id : FlowID} (nonzero : id ≠ Bytes.zero 16) :
    (rows.filter (EventFilter.selects adapter {} (some id))) = rows.filter fun e => e.flowID = id := by
  refine List.filter_congr fun e _ => ?_
  rw [selects_flow, selects_all, Bool.true_and]
  by_cases same : e.flowID = id
  · cases adapter <;> simp [sameID, same, nonzero]
  · cases adapter <;> simp [sameID, same]

theorem group_covers (some : rows ≠ []) (key : FlowID × GoString × GoString) :
    Covers (Postgres.Group.flow rows key) rows := by
  obtain ⟨first, head⟩ := exists_head?_orderBy rowKey some
  obtain ⟨last, newest⟩ := exists_head?_orderBy (directed rowKey true) some
  have begins := isFirst_of_head? head
  have ends : IsLast rowKey rows last :=
    ⟨(isFirst_of_head? newest).member, (isFirst_of_head? newest).before⟩
  have least : (rows.map (·.timestamp)).min? = .some first.timestamp :=
    List.min?_eq_some_iff.mpr ⟨List.mem_map_of_mem begins.member,
      List.forall_mem_map.mpr fun e member => time_le (begins.before e member)⟩
  have greatest : (rows.map (·.timestamp)).max? = .some last.timestamp :=
    List.max?_eq_some_iff.mpr ⟨List.mem_map_of_mem ends.member,
      List.forall_mem_map.mpr fun e member => time_le (ends.after e member)⟩
  refine .of_ends begins ends rfl ?_ ?_ ?_ ?_
  · exact congrArg (·.getD zeroTime) least
  · exact congrArg (·.getD zeroTime) greatest
  · exact congrArg (fun row : Option EventRecord => (row.map (·.kind)).getD []) head
  · exact congrArg (fun row : Option EventRecord => (row.map (·.kind)).getD []) newest

theorem flowIn_covers {names : EventID → EventRecord} (named : ∀ e ∈ rows, Names names e)
    {e : EventRecord} (member : e ∈ rows) :
    Covers (flowIn rows e) (group (originKey EventRecord.flowID) rows (originKey EventRecord.flowID e)) := by
  have some : group (originKey EventRecord.flowID) rows (originKey EventRecord.flowID e) ≠ [] :=
    List.ne_nil_of_mem (mem_group.mpr ⟨member, rfl⟩)
  obtain ⟨first, head⟩ := exists_head?_orderBy rowKey some
  obtain ⟨last, ends⟩ := exists_isLast rowKey some
  have begins := isFirst_of_head? head
  have inside : ∀ row ∈ group (originKey EventRecord.flowID) rows (originKey EventRecord.flowID e),
      Names names row := fun row here => named row (mem_group.mp here).1
  have spec := flowOf_rows (originKey EventRecord.flowID e) begins ends (agree_of_names inside fun _ _ _ => rfl)
    (agree_of_names inside fun _ _ _ => rfl) (agree_of_names inside fun _ _ _ => rfl)
    (agree_of_names inside fun _ _ _ => rfl)
  rw [show flowIn rows e = _ from spec]
  exact .of_ends begins ends rfl rfl rfl rfl rfl

/-- A listing shows every event of its rows, with the rest of what rows with the same key have. -/
theorem among_of_follow {limit : Int64} {desc : Bool} {position : PageRequest → Option RowKey}
    {list : PageRequest → Except GoError (Page EventRecord)} (agree : Agree EventRecord.kind rows)
    (lists : Lists rowKey limit desc rows EventRecord.cursor position list)
    (limited : PageRequest.Limited ⟨limit, {}, desc⟩) :
    ∃ pages, follow (stepFrom list limit desc) (rows.length + 1) {} = .ok (some pages) ∧
      Among rows pages.flatten ∧ Among pages.flatten rows := by
  obtain ⟨pages, walk, _, inside, reached, _⟩ := lists.follow limited
  refine ⟨pages, walk, fun e member => ?_, fun e member => ⟨e, inside e member, rfl, rfl⟩⟩
  obtain ⟨shown, here, same⟩ := reached e member
  exact ⟨shown, here, same, agree shown (inside shown here) e member same⟩

end Stores

theorem detail_covers_iff {rows : List EventRecord} {id : FlowID} {answer : Except GoError FlowDetail}
    {walk : Except GoError (Option (List (List EventRecord)))} (identified : Identified rows)
    (found : ∃ detail, answer = .ok detail)
    (grouped : ∀ detail, answer = .ok detail → ∃ e ∈ rows, e.flowID = id ∧ Covers detail
      (group (originKey EventRecord.flowID) rows (originKey EventRecord.flowID e)))
    (walked : ∃ pages, walk = .ok (some pages) ∧
      Among (rows.filter fun e => e.flowID = id) pages.flatten ∧
      Among pages.flatten (rows.filter fun e => e.flowID = id)) :
    (∃ detail pages, answer = .ok detail ∧ walk = .ok (some pages) ∧ Covers detail pages.flatten) ↔
      OneOrigin EventRecord.flowID rows id := by
  obtain ⟨detail, answered⟩ := found
  obtain ⟨e, member, named, covers⟩ := grouped detail answered
  obtain ⟨pages, done, left, right⟩ := walked
  have decided := covers_iff identified member named covers left right
  constructor
  · rintro ⟨detail', pages', answered', done', all⟩
    cases answered.symm.trans answered'
    cases done.symm.trans done'
    exact decided.mp all
  · intro origin
    exact ⟨detail, pages, answered, done, decided.mpr origin⟩

/-- A checkout: the shop starts the flow, the payment service ends it. -/
def checkoutRows (payment : GoString) : List EventRecord :=
  [{ id := endingID 1, timestamp := 1000, kind := ascii "checkout.started", flowID := endingID 7,
     metadata := ⟨ascii "shop", [], []⟩ },
   { id := endingID 2, timestamp := 2000, kind := ascii "payment.done", flowID := endingID 7,
     metadata := ⟨payment, [], []⟩ }]

def checkoutTable (payment : GoString) : Postgres.Events :=
  ⟨checkoutRows payment, by simp [checkoutRows]; decide, by simp [checkoutRows]; decide,
    by simp [checkoutRows, Retention.InRange]⟩

def checkoutTables (payment : GoString) : Warehouse.Tables :=
  ({} : Warehouse.Tables).insertEvents (checkoutRows payment)

/-- The events of the checkout by their identifiers. -/
def checkoutNames (payment : GoString) (id : EventID) : EventRecord :=
  ((checkoutRows payment).find? fun e => e.id = id).getD emptyRecord

theorem checkout_ingested :
    Ingested (checkoutNames (ascii "shop")) (checkoutTables (ascii "shop")) := by
  have fits : ∀ e ∈ checkoutRows (ascii "shop"), Names (checkoutNames (ascii "shop")) e := by
    decide
  exact Ingested.empty.insert fits

end Trail.Stores
