/-
**What the readers return.**

The results of the listings and details, the pages they come in, and the conditions that a filter puts
on the rows of `trail_events`. The two adapters build the same conditions; they differ in what their
columns hold: PostgreSQL has times of microseconds and `NULL` for an identifier that is not set.

* `listing_eq`: a page is what keyset paging reads, with more exactly when rows are left after it.
* `Lists.follow`: what following a listing from its first page gives.
-/

import Trail.Library.Groups
import Trail.Retention.Scan
import Trail.Storage.Columns
import Trail.Storage.Queries

namespace Trail.Storage

open Library
open Retention (Adapter RowKey keyOf rowKey)

/-! ### Results -/

/-- `FlowSummary`. -/
structure FlowSummary where
  id : FlowID
  service : GoString
  environment : GoString
  scope : Scope := ⟨[], []⟩
  entityType : GoString
  entityID : GoString
  executionID : ExecutionID
  status : GoString
  startedAt : Time
  finishedAt : Time
  eventCount : Nat
  deriving DecidableEq, Repr

/-- `FlowDetail`. -/
structure FlowDetail extends FlowSummary where
  firstKind : GoString
  lastKind : GoString
  deriving DecidableEq, Repr

/-- `ExecutionSummary`. -/
structure ExecutionSummary where
  id : ExecutionID
  service : GoString
  environment : GoString
  scope : Scope := ⟨[], []⟩
  kind : GoString
  source : GoString
  status : GoString
  attempt : Nat
  parentExecutionID : ExecutionID
  retryOfExecutionID : ExecutionID
  startedAt : Time
  finishedAt : Time
  eventCount : Nat
  flowCount : Nat
  deriving DecidableEq, Repr

/-- `EntitySummary`. -/
structure EntitySummary extends EntityKey where
  firstSeen : Time
  lastSeen : Time
  flowCount : Nat
  deriving DecidableEq, Repr

/-- `Page`. -/
structure Page (T : Type) where
  items : List T
  nextCursor : Cursor := {}
  hasMore : Bool := false
  deriving DecidableEq, Repr

/-- The cursors of `ListFlows`, `ListExecutions`, `SearchEntities` and `ListEvents`. -/
def FlowSummary.cursor (v : FlowSummary) : Cursor := ⟨v.startedAt, encodeID v.id⟩
def ExecutionSummary.cursor (v : ExecutionSummary) : Cursor := ⟨v.startedAt, encodeID v.id⟩
def EntitySummary.cursor (v : EntitySummary) : Cursor := ⟨v.firstSeen, v.id⟩
def EventRecord.cursor (v : EventRecord) : Cursor := ⟨v.timestamp, encodeID v.id⟩

/-- The first attempt of the chain of an execution, as `GetRetryChain` takes it from the detail. -/
def retryRoot (id : ExecutionID) (detail : ExecutionSummary) : ExecutionID :=
  if isZeroID detail.retryOfExecutionID then id else detail.retryOfExecutionID

/-! ### Conditions on rows -/

/-- A time as it is compared with a column. -/
def bound : Adapter → Time → Time
  | .postgres => microseconds
  | .clickhouse => id

/-- `column=value` for an identifier. -/
def sameID : Adapter → Bytes 16 → Bytes 16 → Bool
  | .postgres, column, value => column = value ∧ column ≠ Bytes.zero 16
  | .clickhouse, column, value => column = value

/-- The conditions of `applyCommon`, `commonCH` and `summaryCH` on a time, a service and an
environment. -/
def inWindow (adapter : Adapter) (t : TimeRange) (service environment : GoString)
    (time : Time) (service' environment' : GoString) : Bool :=
  (t.from_ = zeroTime ∨ bound adapter t.from_ ≤ time) ∧
  (t.to_ = zeroTime ∨ time < bound adapter t.to_) ∧
  (service = [] ∨ service' = service) ∧ (environment = [] ∨ environment' = environment)

/-- The conditions of `applyCommon` and `commonCH` on events. -/
def inCommon (adapter : Adapter) (t : TimeRange) (service environment : GoString)
    (e : EventRecord) : Bool :=
  inWindow adapter t service environment e.timestamp e.metadata.service e.metadata.environment

/-- The conditions of `applyScope` and `scopeCH`. -/
def inScope (scope : Scope) (e : EventRecord) : Bool :=
  isZero scope ∨ e.scope.type = scope.type ∧ e.scope.id = scope.id

instance (level : Option Level) (test : Level → Prop) [DecidablePred test] :
    Decidable (∀ found ∈ level, test found) :=
  Option.decidableForallMem level

/-- The conditions of `listEvents` and `listCHEvents`, those of the cursor apart; `flow` is the flow of
`ListFlowEvents`. -/
def EventFilter.selects (adapter : Adapter) (f : EventFilter) (flow : Option FlowID)
    (e : EventRecord) : Bool :=
  inCommon adapter f.time f.service f.environment e ∧ inScope f.scope e ∧
  (f.kind = [] ∨ e.kind = f.kind) ∧
  (∀ level ∈ f.level, Level.text e.level = Level.text level) ∧
  (0 < f.httpStatusClass → (f.httpStatusClass * 100).toInt ≤ adapter.statusCode e.http.statusCode ∧
    adapter.statusCode e.http.statusCode < ((f.httpStatusClass + 1) * 100).toInt) ∧
  (f.httpMethod = [] ∨ e.http.method = f.httpMethod) ∧
  (0 < f.httpStatus → adapter.statusCode e.http.statusCode = f.httpStatus.toInt) ∧
  (f.provider = [] ∨ e.provider = f.provider) ∧
  (∀ hasError ∈ f.hasError, e.hasError = hasError) ∧
  (isZeroID f.flowID ∨ sameID adapter e.flowID f.flowID) ∧
  (isZeroID f.executionID ∨ sameID adapter e.executionID f.executionID) ∧
  (f.entityType = [] ∨ e.entityType = f.entityType) ∧
  (f.entityID = [] ∨ e.entityID = f.entityID) ∧
  ∀ id ∈ flow, sameID adapter e.flowID id

/-! ### Groups of events -/

section Group

variable (group : List EventRecord)

/-- `min(event_time)`. -/
def minTime : Time := (group.map (·.timestamp)).min?.getD zeroTime

/-- `max(event_time)`. -/
def maxTime : Time := (group.map (·.timestamp)).max?.getD zeroTime

/-- `count(DISTINCT flow_id) FILTER(WHERE flow_id IS NOT NULL)`. -/
def flowCount : Nat := countDistinct (·.flowID) (group.filter fun e => e.flowID ≠ Bytes.zero 16)

/-- A row of `SearchEntities`. -/
def entitySummary (key : EntityKey) : EntitySummary where
  toEntityKey := key
  firstSeen := minTime group
  lastSeen := maxTime group
  flowCount := flowCount group

end Group

/-- The columns of `GROUP BY scope_type,scope_id,entity_type,entity_id`. -/
def entityKey (e : EventRecord) : EntityKey := ⟨e.scope, e.entityType, e.entityID⟩

/-- The entities of rows. -/
def entitiesOf (rows : List EventRecord) : List EntitySummary :=
  (groups entityKey rows).map fun entry => entitySummary entry.2 entry.1

/-! ### Pages -/

/-- `makePage`, and `pageCH`. -/
def makePage {T : Type} (items : List T) (p : PageRequest) (cursor : T → Cursor) : Page T :=
  if p.limit.toInt < items.length then
    let kept := items.take p.limit.toInt.toNat
    { items := kept, nextCursor := (kept.getLast?.map cursor).getD {}, hasMore := true }
  else { items }

/-- The position of the cursor in `applyCursor` and `cursorCH`: none when its identifier is not one. -/
def rowCursor (adapter : Adapter) (c : Cursor) : Option RowKey :=
  if c.id = [] then none
  else
    match parseEventID c.id with
    | .error _ => none
    | .ok raw => some (keyOf (bound adapter c.timestamp) raw.1)

theorem rowCursor_of (adapter : Adapter) (time : Time) (id : Bytes 16) :
    rowCursor adapter ⟨time, encodeID id⟩ = some (keyOf (bound adapter time) id.1) := by
  unfold rowCursor parseEventID
  rw [if_neg (encodeID_ne_nil id), decodeID_encodeID]

/-- The collation of a database: an order of texts that tells different texts apart. -/
structure Collation where
  Key : Type
  order : LinearOrder Key
  of : GoString → Key
  injective : Function.Injective of

instance (collation : Collation) : LinearOrder collation.Key := collation.order

theorem map_toNat_injective :
    Function.Injective fun text : GoString => text.map UInt8.toNat :=
  Function.Injective.list_map fun _ _ => UInt8.toNat_inj.mp

/-- The collation `C`, byte by byte. -/
def Collation.bytes : Collation where
  Key := List Nat
  order := inferInstance
  of text := text.map UInt8.toNat
  injective := map_toNat_injective

/-- `(min(event_time),entity_id)`. -/
abbrev EntityPosition (collation : Collation) := Lex (Time × collation.Key)

/-- The positions of flows, executions and entities in the orders of their listings. -/
def flowPosition (v : FlowSummary) : RowKey := keyOf v.startedAt v.id.1
def executionPosition (v : ExecutionSummary) : RowKey := keyOf v.startedAt v.id.1
def entityPosition (collation : Collation) (v : EntitySummary) : EntityPosition collation :=
  toLex (v.firstSeen, collation.of v.id)

/-- The position of the cursor in `SearchEntities`. -/
def entityCursor (adapter : Adapter) (collation : Collation) (c : Cursor) :
    Option (EntityPosition collation) :=
  if c.id = [] then none else some (toLex (bound adapter c.timestamp, collation.of c.id))

section Listing

variable {Item Key : Type} [LinearOrder Key]

/-- The key in the order of a request. -/
def directed (key : Item → Key) (desc : Bool) (item : Item) : Directed desc Key :=
  .of desc (key item)

/-- The rows after a cursor in the order of the request, as many as `LIMIT` lets through. -/
def fetch (key : Item → Key) (order : RowOrder) (p : PageRequest) (cursor : Option Key)
    (items : List Item) : List Item :=
  (keyset (directed key p.desc) order (cursor.map (.of p.desc)) items).take (p.limit + 1).toInt.toNat

/-- A page of rows. -/
def listing (key : Item → Key) (order : RowOrder) (p : PageRequest) (cursor : Option Key)
    (items : List Item) (cursorOf : Item → Cursor) : Page Item :=
  makePage (fetch key order p cursor items) p cursorOf

/-- A limit of at least one row, to which another one can be added. -/
def PageRequest.Limited (p : PageRequest) : Prop := 0 < p.limit ∧ p.limit < Int64.maxValue

/-- The number of rows of a page. -/
def PageRequest.size (p : PageRequest) : Nat := p.limit.toInt.toNat

theorem PageRequest.Limited.size_pos {p : PageRequest} (limited : p.Limited) : 0 < p.size := by
  have positive := Int64.lt_iff_toInt_lt.mp limited.1
  have zero : (0 : Int64).toInt = 0 := by decide
  unfold size
  omega

theorem PageRequest.Limited.ahead {p : PageRequest} (limited : p.Limited) :
    (p.limit + 1).toInt.toNat = p.size + 1 := by
  have positive := Int64.lt_iff_toInt_lt.mp limited.1
  have small := Int64.lt_iff_toInt_lt.mp limited.2
  have zero : (0 : Int64).toInt = 0 := by decide
  have most : Int64.maxValue.toInt = 2 ^ 63 - 1 := by decide
  have sum : (p.limit + 1).toInt = p.limit.toInt + 1 := by
    rw [Int64.toInt_add]
    have one : (1 : Int64).toInt = 1 := by decide
    rw [one]
    exact Int.bmod_eq_of_le (by omega) (by omega)
  unfold size
  omega

variable {key : Item → Key} {order : RowOrder} {p : PageRequest} {cursor : Option Key}
  {items : List Item} {cursorOf : Item → Cursor}

/-- The rows of a listing that are after its cursor. -/
def remaining (key : Item → Key) (p : PageRequest) (cursor : Option Key) (items : List Item) :
    List Item :=
  afterCursor (directed key p.desc) (cursor.map (.of p.desc)) items

/-- **A page of a listing.** -/
theorem listing_eq (limited : p.Limited) :
    listing key order p cursor items cursorOf =
      let sorted := keyset (directed key p.desc) order (cursor.map (.of p.desc)) items
      if p.size < (remaining key p cursor items).length then
        { items := sorted.take p.size
          nextCursor := ((sorted.take p.size).getLast?.map cursorOf).getD {}
          hasMore := true }
      else { items := sorted } := by
  have whole : (keyset (directed key p.desc) order (cursor.map (.of p.desc)) items).length =
      (remaining key p cursor items).length := keyset_perm.length_eq
  have positive := limited.size_pos
  have size : p.limit.toInt = p.size := by
    unfold PageRequest.size at positive ⊢
    omega
  unfold listing fetch makePage
  rw [limited.ahead, List.length_take, whole, size, Int.toNat_natCast]
  dsimp only
  by_cases more : p.size < (remaining key p cursor items).length
  · rw [if_pos (by omega), if_pos more, List.take_take, Nat.min_eq_left (by omega)]
  · rw [if_neg (by omega), if_neg more, List.take_of_length_le (by omega)]

/-- A page as it is followed: its rows, and the next cursor while there are more. -/
def Page.step {T : Type} (page : Page T) : List T × Option Cursor :=
  (page.items, if page.hasMore then some page.nextCursor else none)

/-- **A listing reads pages.** -/
theorem listing_step (limited : p.Limited) :
    (listing key order p cursor items cursorOf).step =
      let sorted := keyset (directed key p.desc) order (cursor.map (.of p.desc)) items
      (sorted.take p.size, if p.size < (remaining key p cursor items).length then
        (sorted.take p.size).getLast?.map cursorOf else none) := by
  rw [listing_eq limited]
  dsimp only
  by_cases more : p.size < (remaining key p cursor items).length
  · obtain ⟨last, _, _, ends, _, _, _⟩ := @keyset_split _ _ _ (directed key p.desc) _ items order
      (cursor.map (.of p.desc)) limited.size_pos more
    rw [if_pos more, if_pos more]
    unfold Page.step
    dsimp only
    rw [if_pos rfl, ends]
    rfl
  · have whole : (keyset (directed key p.desc) order (cursor.map (.of p.desc)) items).length ≤
        p.size := by
      rw [keyset_perm.length_eq]
      exact Nat.le_of_not_lt more
    rw [if_neg more, if_neg more, List.take_of_length_le whole]
    rfl

theorem mem_of_listing {item : Item} (member : item ∈ (listing key order p cursor items cursorOf).items) :
    item ∈ items := by
  have fetched : ∀ other ∈ fetch key order p cursor items, other ∈ items := by
    intro other here
    exact (mem_afterCursor.mp (keyset_perm.mem_iff.mp (List.mem_of_mem_take here))).1
  unfold listing makePage at member
  split at member
  · exact fetched item (List.mem_of_mem_take member)
  · exact fetched item member

theorem items_of_listing (limited : p.Limited) :
    (listing key order p cursor items cursorOf).items =
      (keyset (directed key p.desc) order (cursor.map (.of p.desc)) items).take p.size :=
  congrArg Prod.fst (listing_step limited)

/-- **What holds of a page of a listing holds of all rows that remain**, when it holds of every row after
one of which it holds. -/
theorem forall_listing (limited : p.Limited) {good : Item → Prop}
    (up : ∀ one two, directed key p.desc one ≤ directed key p.desc two → good one → good two) :
    (∀ item ∈ (listing key order p cursor items cursorOf).items, good item) ↔
      ∀ item ∈ remaining key p cursor items, good item := by
  rw [items_of_listing limited]
  exact forall_take_keyset limited.size_pos up

theorem exists_of_listing (limited : p.Limited) (some : items ≠ []) :
    ∃ item, item ∈ (listing key order p none items cursorOf).items := by
  rw [items_of_listing limited]
  exact List.exists_mem_of_ne_nil _ (take_keyset_ne_nil limited.size_pos some)

theorem nodup_of_listing {Value : Type} {value : Item → Value} (distinct : (items.map value).Nodup) :
    ((listing key order p cursor items cursorOf).items.map value).Nodup := by
  have fetched : ((fetch key order p cursor items).map value).Nodup := by
    have sorted : ((keyset (directed key p.desc) order (cursor.map (.of p.desc)) items).map
        value).Nodup :=
      (keyset_perm.map value).nodup_iff.mpr (distinct.sublist (List.filter_sublist.map value))
    exact sorted.sublist ((List.take_sublist _ _).map value)
  unfold listing makePage
  split
  · exact fetched.sublist ((List.take_sublist _ _).map value)
  · exact fetched

/-- What a reader of a listing has to say: for every cursor a page of the listing, and for every row that
its cursor stands for its place. -/
structure Lists (key : Item → Key) (limit : Int64) (desc : Bool) (items : List Item)
    (cursorOf : Item → Cursor) (position : PageRequest → Option Key)
    (list : PageRequest → Except GoError (Page Item)) : Prop where
  page : ∀ c, ∃ order, list ⟨limit, c, desc⟩ =
    .ok (listing key order ⟨limit, c, desc⟩ (position ⟨limit, c, desc⟩) items cursorOf)
  first : position ⟨limit, {}, desc⟩ = none
  next : ∀ item ∈ items, position ⟨limit, cursorOf item, desc⟩ = some (key item)

/-- The pages of a reader, each from its cursor. -/
def stepFrom (list : PageRequest → Except GoError (Page Item)) (limit : Int64) (desc : Bool)
    (c : Cursor) : Except GoError (List Item × Option Cursor) :=
  (list ⟨limit, c, desc⟩).map Page.step

/-- **Following a listing** from its first page: it ends, its rows come in the order of the request, every
key is among them, and each row comes once exactly when no page ends between two rows with the same
key. -/
theorem Lists.follow {limit : Int64} {desc : Bool} {position : PageRequest → Option Key}
    {list : PageRequest → Except GoError (Page Item)}
    (lists : Lists key limit desc items cursorOf position list)
    (limited : PageRequest.Limited ⟨limit, {}, desc⟩) :
    ∃ pages, Library.follow (stepFrom list limit desc) (items.length + 1) {} = .ok (some pages) ∧
      pages.flatten.Pairwise (fun one two => directed key desc one ≤ directed key desc two) ∧
      (∀ item ∈ pages.flatten, item ∈ items) ∧
      (∀ item ∈ items, ∃ shown ∈ pages.flatten, key shown = key item) ∧
      (pages.flatten.Perm items ↔
        Apart limit.toInt.toNat (keysAfter (directed key desc) none items)) := by
  have reads : Reads (directed key desc) limit.toInt.toNat items (stepFrom list limit desc)
      (fun c => (position ⟨limit, c, desc⟩).map (.of desc)) cursorOf (fun _ => True) := by
    refine ⟨fun c _ => ?_, fun item member => ⟨trivial, ?_⟩⟩
    · obtain ⟨order, answered⟩ := lists.page c
      refine ⟨order, ?_⟩
      unfold stepFrom
      rw [answered]
      exact congrArg Except.ok (listing_step (p := ⟨limit, c, desc⟩) limited)
    · rw [lists.next item member]
      rfl
  have start : (position ⟨limit, {}, desc⟩).map (Directed.of desc) = none := by
    rw [lists.first]
    rfl
  have walk := reads.follow limited.size_pos (items.length + 1) {} trivial
  rw [start, afterCursor_none] at walk
  exact walk (Nat.lt_succ_self _)

/-- **Following a listing of rows with different keys** gives all of them, in the order of the request. -/
theorem Lists.follow_distinct {limit : Int64} {desc : Bool} {position : PageRequest → Option Key}
    {list : PageRequest → Except GoError (Page Item)}
    (lists : Lists key limit desc items cursorOf position list)
    (limited : PageRequest.Limited ⟨limit, {}, desc⟩) (distinct : (items.map key).Nodup) :
    ∃ pages, Library.follow (stepFrom list limit desc) (items.length + 1) {} = .ok (some pages) ∧
      pages.flatten = orderBy (directed key desc) items := by
  obtain ⟨pages, walk, ordered, _, _, once⟩ := lists.follow limited
  have keyed : Keyed (directed key desc) items := distinct
  have all : pages.flatten.Perm items :=
    once.mpr (apart_of_nodup limited.size_pos (keysAfter_nodup keyed none))
  have strict : pages.flatten.Pairwise fun one two =>
      directed key desc one < directed key desc two := by
    have differ : (pages.flatten.map (directed key desc)).Nodup := (all.map _).nodup_iff.mpr keyed
    rw [List.Nodup, List.pairwise_map] at differ
    exact (ordered.and differ).imp fun both => lt_of_le_of_ne both.1 both.2
  exact ⟨pages, walk, eq_of_strict strict (orderBy_strict keyed) (all.trans (orderBy_perm _).symm)⟩

end Listing

theorem selects_all (adapter : Adapter) (e : EventRecord) :
    EventFilter.selects adapter {} none e = true := by
  simp [EventFilter.selects, inCommon, inWindow, inScope, isZeroID, isZero]

theorem selects_flow (adapter : Adapter) (f : EventFilter) (id : FlowID) (e : EventRecord) :
    f.selects adapter (some id) e = (f.selects adapter none e && sameID adapter e.flowID id) := by
  simp [EventFilter.selects, Bool.and_assoc]

/-- **The events of rows are listed**, when their times are as they are compared. -/
theorem events_listed {adapter : Adapter} {rows : List EventRecord} {limit : Int64} {desc : Bool}
    (precise : ∀ e ∈ rows, bound adapter e.timestamp = e.timestamp) (order : PageRequest → RowOrder) :
    Lists rowKey limit desc rows EventRecord.cursor (fun p => rowCursor adapter p.cursor) fun p =>
      .ok (listing rowKey (order p) p (rowCursor adapter p.cursor) rows EventRecord.cursor) := by
  refine ⟨fun c => ⟨order ⟨limit, c, desc⟩, rfl⟩, rfl, fun e member => ?_⟩
  have place := rowCursor_of adapter e.timestamp e.id
  rw [precise e member] at place
  exact place

theorem length_ending (last : UInt8) : (List.replicate 15 0 ++ [last]).length = 16 := rfl

/-- An identifier of zeros but for its last byte. -/
def endingID (last : UInt8) : Bytes 16 := ⟨List.replicate 15 0 ++ [last], length_ending last⟩

end Trail.Storage
