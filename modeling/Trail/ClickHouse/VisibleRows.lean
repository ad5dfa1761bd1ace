/-
**Rows that are not merged yet.**

The stream delivers a batch again when it was not acknowledged, and the ingestor writes it in another
group: the insertion has another token, so the server keeps it, and the row of an event is there twice
until ClickHouse merges its parts. `eventRows` does not say `FINAL`.

* `write_eq`: what one call of `WriteBatches` leaves.
* `writes_events`: the rows after any number of them.
* `listed_once_iff`: the listings show every event once exactly when no event was inserted twice.
-/

import Trail.ClickHouse.Events
import Trail.ClickHouse.Listings

namespace Trail.Warehouse

open Library Payload Storage
open ClickHouse (deduplicationToken Collects)
open Retention (Adapter RowKey keyOf rowKey)

/-! ### Insertions -/

/-- The tables with all rows that were inserted, the tokens of the insertions, the last one first, and the
open batch. -/
structure Shelf where
  tables : Tables := {}
  tokens : List GoString := []
  batch : Option (GoString × List EventRecord) := none

namespace Shelf

-- The number of insertions whose tokens the server remembers (`non_replicated_deduplication_window`,
-- which the migrations leave at the server's own value).
variable (window : Nat)

/-- An insertion: discarded when the server remembers its token. -/
def insert (shelf : Shelf) (token : GoString) (events : List EventRecord) : Shelf :=
  if token ∈ shelf.tokens.take window then { shelf with batch := none }
  else
    { tables := shelf.tables.insertEvents events
      tokens := token :: shelf.tokens
      batch := none }

/-- How the server answers the calls of `WriteBatches`. -/
def answer (shelf : Shelf) : (op : ClickHouse.Call) → Shelf × op.Reply
  | .prepareBatch token => ({ shelf with batch := some (token, []) }, (none : Option GoError))
  | .append event =>
    ({ shelf with batch := shelf.batch.map fun batch => (batch.1, batch.2 ++ [event]) },
      (none : Option GoError))
  | .abort => ({ shelf with batch := none }, ())
  | .send =>
    match shelf.batch with
    | none => (shelf, (none : Option GoError))
    | some (token, events) => (shelf.insert window token events, (none : Option GoError))

theorem collects : Collects (answer window)
    (fun shelf token events => { shelf with batch := some (token, events) }) (insert window)
    fun shelf => { shelf with batch := none } :=
  ⟨fun _ _ => rfl, fun _ _ _ _ => rfl, fun _ _ _ => rfl, fun _ _ _ => rfl⟩

variable (sha256 : List UInt8 → Bytes 32) (marshal : List PayloadLink → Option GoError)

/-- A call of `WriteBatches`. -/
def write (shelf : Shelf) (batches : List Storage.Batch) : Shelf :=
  ((ClickHouse.writeBatches sha256 marshal batches).execute (answer window) shelf).2.1

/-- The events of batches. -/
abbrev eventsIn (batches : List Storage.Batch) : List EventRecord := batches.flatMap (·.events)

/-- The group is inserted: it has a batch, all its events marshal, and the server does not remember
its token. -/
def Inserts (tokens : List GoString) (batches : List Storage.Batch) : Prop :=
  batches ≠ [] ∧ (∀ e ∈ eventsIn batches, marshal e.payloads = none) ∧
    deduplicationToken sha256 batches ∉ tokens.take window

instance (tokens : List GoString) (batches : List Storage.Batch) :
    Decidable (Inserts window sha256 marshal tokens batches) :=
  inferInstanceAs (Decidable (_ ∧ _ ∧ _))

/-- The events that groups of batches insert, one group after another. -/
def inserted : List GoString → List (List Storage.Batch) → List EventRecord
  | _, [] => []
  | tokens, batches :: groups =>
    if Inserts window sha256 marshal tokens batches then
      eventsIn batches ++ inserted (deduplicationToken sha256 batches :: tokens) groups
    else inserted tokens groups

variable {window sha256 marshal} {shelf : Shelf}

/-- **One call of `WriteBatches`**: an insertion, or nothing. -/
theorem write_eq (batches : List Storage.Batch) :
    ((shelf.write window sha256 marshal batches).tables.events,
      (shelf.write window sha256 marshal batches).tokens) =
      if Inserts window sha256 marshal shelf.tokens batches then
        (shelf.tables.events ++ eventsIn batches,
          deduplicationToken sha256 batches :: shelf.tokens)
      else (shelf.tables.events, shelf.tokens) := by
  by_cases nothing : batches = []
  · rw [if_neg fun inserts => inserts.1 nothing, nothing]
    rfl
  · by_cases marshals : ∀ e ∈ eventsIn batches, marshal e.payloads = none
    · have ran := @Collects.writeBatches _ _ _ _ _ sha256 marshal batches (collects window)
        nothing marshals shelf
      unfold write
      rw [ran]
      dsimp only
      unfold insert
      by_cases seen : deduplicationToken sha256 batches ∈ shelf.tokens.take window
      · rw [if_pos seen, if_neg fun inserts => inserts.2.2 seen]
      · rw [if_neg seen, if_pos ⟨nothing, marshals, seen⟩]
        rfl
    · have refused : ∃ e ∈ eventsIn batches, marshal e.payloads ≠ none := by
        simpa only [not_forall, exists_prop] using marshals
      obtain ⟨error, ran⟩ := @Collects.writeBatches_refused _ _ _ _ _ sha256 marshal batches
        (collects window) refused shelf
      unfold write
      rw [ran, if_neg fun inserts => marshals inserts.2.1]

/-- **The rows after any number of calls.** -/
theorem writes_events (groups : List (List Storage.Batch)) :
    (groups.foldl (write window sha256 marshal) shelf).tables.events =
      shelf.tables.events ++ inserted window sha256 marshal shelf.tokens groups := by
  induction groups generalizing shelf with
  | nil => exact (List.append_nil _).symm
  | cons batches groups ih =>
    have step := @write_eq window sha256 marshal shelf batches
    rw [List.foldl_cons, ih, inserted]
    by_cases inserts : Inserts window sha256 marshal shelf.tokens batches
    · rw [if_pos inserts, Prod.mk.injEq] at step
      rw [step.1, step.2, if_pos inserts, List.append_assoc]
    · rw [if_neg inserts, Prod.mk.injEq] at step
      rw [step.1, step.2, if_neg inserts]

end Shelf

/-! ### Listings -/

namespace Tables

/-- `ListEvents`, or `ListFlowEvents` of a flow, with an order for every query. -/
def eventReader (tables : Tables) (order : PageRequest → RowOrder) (f : EventFilter)
    (flow : Option FlowID) (p : PageRequest) : Except GoError (Page EventRecord) :=
  .ok (tables.listCHEvents (order p) f p flow)

/-- Every page has an event at most once, and the pages of a listing together have every event it selects
exactly once. -/
structure ListsOnce (tables : Tables) : Prop where
  page : ∀ order f flow p, p.Limited →
    ((tables.listCHEvents order f p flow).items.map (·.id)).Nodup
  whole : ∀ order f flow limit desc, PageRequest.Limited ⟨limit, {}, desc⟩ → ∃ pages,
    follow (stepFrom (tables.eventReader order f flow) limit desc)
      ((tables.events.filter (f.selects .clickhouse flow)).length + 1) {} = .ok (some pages) ∧
    (pages.flatten.map (·.id)).Nodup ∧
    ∀ e ∈ tables.events, f.selects .clickhouse flow e = true → ∃ shown ∈ pages.flatten, shown.id = e.id

variable {tables : Tables}

theorem eventReader_listed (tables : Tables) (order : PageRequest → RowOrder) (f : EventFilter) (flow : Option FlowID)
    (limit : Int64) (desc : Bool) :
    Lists rowKey limit desc (tables.events.filter (f.selects .clickhouse flow)) EventRecord.cursor
      (fun p => rowCursor .clickhouse p.cursor) (tables.eventReader order f flow) :=
  events_listed (fun _ _ => rfl) order

theorem ListsOnce.of_distinct (distinct : (tables.events.map (·.id)).Nodup) : tables.ListsOnce := by
  have kept : ∀ f flow,
      ((tables.events.filter (EventFilter.selects .clickhouse f flow)).map (·.id)).Nodup :=
    fun f flow => distinct.sublist (List.filter_sublist.map _)
  refine ⟨fun order f flow p limited => nodup_of_listing (kept f flow),
    fun order f flow limit desc limited => ?_⟩
  obtain ⟨pages, walk, sorted⟩ := (tables.eventReader_listed order f flow limit desc).follow_distinct limited
    (Retention.keyed_of_ids (kept f flow))
  have all := sorted ▸ orderBy_perm (tables.events.filter (f.selects .clickhouse flow))
  refine ⟨pages, walk, (all.map _).nodup_iff.mpr (kept f flow), fun e member selected => ?_⟩
  exact ⟨e, all.mem_iff.mpr (List.mem_filter.mpr ⟨member, selected⟩), rfl⟩

theorem exists_page_twice (shared : ¬ (tables.events.map rowKey).Nodup) :
    ∃ p, p.Limited ∧ ¬ ((tables.listCHEvents .given {} p none).items.map (·.id)).Nodup := by
  obtain ⟨cursor, place, twice⟩ := @exists_twice _ _ _ (directed rowKey false) tables.events shared
  obtain ⟨first, second, rest, sorted, same⟩ := twice .given
  have ids : first.id = second.id := by
    have pair := @Retention.keyOf_injective (first.timestamp, first.id.1)
      (second.timestamp, second.id.1) same
    exact Subtype.ext (Prod.ext_iff.mp pair).2
  obtain ⟨c, read⟩ : ∃ c, (rowCursor .clickhouse c).map (Directed.of false) = cursor := by
    cases cursor with
    | none => exact ⟨{}, rfl⟩
    | some key =>
      obtain ⟨row, _, rfl⟩ := place key rfl
      exact ⟨row.cursor, congrArg (Option.map _) (rowCursor_of .clickhouse row.timestamp row.id)⟩
  have positive : (0 : Int64) < 2 := by decide
  have small : (2 : Int64) < Int64.maxValue := by decide
  have limited : PageRequest.Limited ⟨2, c, false⟩ := ⟨positive, small⟩
  refine ⟨⟨2, c, false⟩, limited, fun distinct => ?_⟩
  have shown : ∃ others, (tables.listCHEvents .given {} ⟨2, c, false⟩ none).items =
      first :: second :: others := by
    unfold listCHEvents
    rw [listing_eq limited, List.filter_eq_self.mpr fun e _ => selects_all .clickhouse e]
    dsimp only
    rw [read, sorted]
    split
    · exact ⟨[], rfl⟩
    · exact ⟨rest, rfl⟩
  obtain ⟨others, shown⟩ := shown
  rw [shown, List.map_cons, List.map_cons, ids] at distinct
  exact (List.nodup_cons.mp distinct).1 List.mem_cons_self

/-- **When the listings show every event once.** -/
theorem listsOnce_iff : tables.ListsOnce ↔ (tables.events.map (·.id)).Nodup := by
  refine ⟨fun once => ?_, .of_distinct⟩
  by_cases keyed : (tables.events.map rowKey).Nodup
  · have whole : tables.events.filter (EventFilter.selects .clickhouse {} none) = tables.events :=
      List.filter_eq_self.mpr fun e _ => selects_all .clickhouse e
    have limited : PageRequest.Limited ⟨1, {}, false⟩ := ⟨by decide, by decide⟩
    obtain ⟨pages, walk, distinct, _⟩ := once.whole (fun _ => .given) {} none 1 false limited
    obtain ⟨pages', walk', sorted⟩ := (tables.eventReader_listed (fun _ => .given) {} none 1
      false).follow_distinct limited (by rw [whole]; exact keyed)
    cases Option.some.inj (Except.ok.inj (walk.symm.trans walk'))
    rw [sorted, whole] at distinct
    exact ((orderBy_perm _).map _).nodup_iff.mp distinct
  · obtain ⟨p, limited, twice⟩ := exists_page_twice keyed
    exact absurd (once.page .given {} none p limited) twice

end Tables

/-- A digest of the length of the data. -/
def lengthDigest (data : List UInt8) : Bytes 32 :=
  ⟨List.replicate 32 (UInt8.ofNat data.length), List.length_replicate⟩

/-- A delivered batch with one event. -/
def delivered (number : UInt8) : Storage.Batch where
  batchID := endingID number
  metadata := ⟨[], [], []⟩
  delivery := { stream := ascii "trail", streamSequence := number.toUInt64 }
  events := [{ id := endingID number, timestamp := number.toNat, kind := ascii "done" }]

end Trail.Warehouse
