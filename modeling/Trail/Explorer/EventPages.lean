/-
**Paging through events by the texts of cursors.**

A client of the Explorer API follows a listing by sending `next_cursor` back. The handler reads the
cursor from its text, and the store starts behind the row it was made from. The identifiers of events
tell rows apart, so pages meet without a gap or an overlap.

* `Readable.reads`: the answers to a client are pages of the listing.
* `events_enumerated`: the pages of a client, for both stores and both listings of events.
-/

import Trail.Explorer.Server
import Trail.Stores.FlowDetail

namespace Trail.Explorer

open Library Storage
open Retention (Adapter rowKey keyed_of_ids)

/-! ### Texts of cursors -/

/-- The codecs carry a cursor: it has a text, and the text is read back. -/
structure Carries (codecs : Codecs) (c : Cursor) : Prop where
  json : codecs.cursor.Inverts c
  base64 : ∀ data, codecs.cursor.marshal c = .ok data →
    codecs.encodeBase64 data ≠ [] ∧ codecs.decodeBase64 (codecs.encodeBase64 data) = some data

theorem Carries.decode_encode {codecs : Codecs} {c : Cursor} (carries : Carries codecs c)
    (named : c.id ≠ []) : decodeCursor codecs (encodeCursor codecs c) = .ok c := by
  obtain ⟨data, written, read⟩ := carries.json
  obtain ⟨shown, back⟩ := carries.base64 data written
  unfold decodeCursor encodeCursor
  rw [if_neg named, written]
  dsimp only
  rw [if_neg shown, back]
  dsimp only
  rw [read]

/-! ### Requests for pages -/

section Requests

variable {codecs : Codecs} {q : Query} {p : PageRequest} {raw : GoString}

/-- The request of a client for the page behind a cursor. -/
def Query.withCursor (q : Query) (raw : GoString) : Query := ⟨(ascii "cursor", raw) :: q.values⟩

theorem Query.get_cursor : (q.withCursor raw).get "cursor" = raw := by
  simp [get, withCursor]

theorem Query.get_withCursor {name : String} (other : ascii "cursor" ≠ ascii name) :
    (q.withCursor raw).get name = q.get name := by
  simp [get, withCursor, other]

theorem eventFilter_withCursor : eventFilter codecs (q.withCursor raw) = eventFilter codecs q := by
  unfold eventFilter timeRange scopeFilter
  simp (disch := decide) only [Query.get_withCursor]

theorem page_withCursor (asked : page codecs (q.withCursor []) = .ok p) {c : Cursor}
    (decoded : decodeCursor codecs raw = .ok c) :
    page codecs (q.withCursor raw) = .ok ⟨p.limit, c, p.desc⟩ := by
  unfold page at asked ⊢
  simp (disch := decide) only [Query.get_withCursor, Query.get_cursor] at asked ⊢
  split_ifs at asked ⊢ <;>
  · rw [decoded]
    cases asked
    rfl

end Requests

/-! ### The pages of a client -/

/-- What a client takes from an answer: the rows, and the text for the next page while there are more. -/
def Answer.step {T : Type} : Answer (PageBody T) → Except Nat (List T × Option GoString)
  | .ok body => .ok (body.items, if body.hasMore then some body.nextCursor else none)
  | .refused status _ _ => .error status

/-- The rows of a page of a listing, with the text of the next cursor: that of the last row. -/
theorem listing_texts {Item Key Text : Type} [LinearOrder Key] {key : Item → Key} {order : RowOrder}
    {p : PageRequest} {cursor : Option Key} {items : List Item} {cursorOf : Item → Cursor}
    (limited : p.Limited) (text : Cursor → Text) :
    let page := listing key order p cursor items cursorOf
    let sorted := keyset (directed key p.desc) order (cursor.map (.of p.desc)) items
    (page.items, if page.hasMore then some (text page.nextCursor) else none) =
      (sorted.take p.limit.toInt.toNat,
        if p.limit.toInt.toNat < (remaining key p cursor items).length then
          (sorted.take p.limit.toInt.toNat).getLast?.map fun item => text (cursorOf item) else none) := by
  have step := @listing_step _ _ _ key order p cursor items cursorOf limited
  rw [Page.step, Prod.mk.injEq] at step
  have texts := congrArg (Option.map text) step.2
  rw [apply_ite (Option.map _), apply_ite (Option.map _), Option.map_map] at texts
  exact Prod.ext step.1 texts

section Pages

variable (codecs : Codecs) (q : Query) (p : PageRequest) (adapter : Adapter)
  (rows : List EventRecord)

/-- The rows of a request behind a cursor. -/
def behind (p : PageRequest) : List EventRecord :=
  remaining rowKey p (rowCursor adapter p.cursor) rows

/-- A page of rows. -/
def pageOf (order : RowOrder) (p : PageRequest) : Page EventRecord :=
  listing rowKey order p (rowCursor adapter p.cursor) rows EventRecord.cursor

/-- A client gets all rows once, in the order of the request, and is told of more rows when there are
more behind the cursor than on the page. -/
structure Enumerated (answer : GoString → Answer (PageBody EventRecord)) : Prop where
  pages : ∃ pages, follow (fun raw => (answer raw).step) (rows.length + 1) [] = .ok (some pages) ∧
    pages.flatten = orderBy (directed rowKey p.desc) rows
  more : ∀ raw c, decodeCursor codecs raw = .ok c → ∃ body, answer raw = .ok body ∧
    (body.hasMore = true ↔ ∃ e ∈ behind adapter rows ⟨p.limit, c, p.desc⟩, e ∉ body.items)

/-- A client gets the events of a store that the request selects: all, and those of a flow. -/
structure EventsEnumerated (store : ExplorerStore) : Prop where
  all : Enumerated codecs p adapter (rows.filter ((eventFilter codecs q).selects adapter none))
    fun raw => events codecs store (q.withCursor raw)
  ofFlow : ∀ id, Enumerated codecs p adapter
    (rows.filter ((eventFilter codecs q).selects adapter (some id)))
    fun raw => flowEvents codecs store (q.withCursor raw) (encodeID id)

/-- The place of a text in the order of the request. -/
def placeOf (desc : Bool) (raw : GoString) : Option (Directed desc Retention.RowKey) :=
  (decodeCursor codecs raw).toOption.bind fun c => (rowCursor adapter c).map (.of desc)

/-- Rows of events with different identifiers and the times of their column, whose cursors the codecs
carry. -/
structure Readable : Prop where
  distinct : (rows.map (·.id)).Nodup
  precise : ∀ e ∈ rows, bound adapter e.timestamp = e.timestamp
  carries : ∀ e ∈ rows, Carries codecs e.cursor

variable {codecs q p adapter rows} {order : RowOrder}

/-- **There are more rows than the page has** exactly when it says so. -/
theorem hasMore_iff (limited : p.Limited) (distinct : (rows.map (·.id)).Nodup) :
    (pageOf adapter rows order p).hasMore = true ↔
      ∃ e ∈ behind adapter rows p, e ∉ (pageOf adapter rows order p).items := by
  unfold pageOf behind
  have whole : (keyset (directed rowKey p.desc) order
      ((rowCursor adapter p.cursor).map (.of p.desc)) rows).Perm
      (remaining rowKey p (rowCursor adapter p.cursor) rows) := keyset_perm
  rw [listing_eq limited]
  dsimp only
  by_cases more : p.size < (remaining rowKey p (rowCursor adapter p.cursor) rows).length
  · rw [if_pos more]
    refine iff_of_true rfl ?_
    -- The row behind the page is not on it: no row comes twice.
    have once := whole.nodup_iff.mpr (distinct.of_map.sublist List.filter_sublist)
    rw [← whole.length_eq] at more
    refine ⟨_, whole.mem_iff.mp (List.getElem_mem more), fun again => ?_⟩
    obtain ⟨index, before, same⟩ := List.mem_take_iff_getElem.mp again
    have equal := (List.Nodup.getElem_inj_iff once).mp same
    omega
  · rw [if_neg more]
    refine iff_of_false Bool.false_ne_true ?_
    rintro ⟨e, member, absent⟩
    exact absent (whole.mem_iff.mpr member)

theorem placeOf_eq {raw : GoString} {c : Cursor} (decoded : decodeCursor codecs raw = .ok c)
    (desc : Bool) : placeOf codecs adapter desc raw = (rowCursor adapter c).map (.of desc) := by
  unfold placeOf
  rw [decoded]
  rfl

theorem Readable.filter (readable : Readable codecs adapter rows) (keep : EventRecord → Bool) :
    Readable codecs adapter (rows.filter keep) :=
  ⟨readable.distinct.sublist (List.filter_sublist.map _),
    fun e member => readable.precise e (List.mem_of_mem_filter member),
    fun e member => readable.carries e (List.mem_of_mem_filter member)⟩

/-- **The answers to a client are pages of the rows.** -/
theorem Readable.reads (readable : Readable codecs adapter rows)
    (asked : page codecs (q.withCursor []) = .ok p) (order : RowOrder) :
    Reads (directed rowKey p.desc) p.limit.toInt.toNat rows
      (fun raw => (listed codecs (q.withCursor raw) fun p => .ok (pageOf adapter rows order p)).step)
      (placeOf codecs adapter p.desc) (fun e => encodeCursor codecs e.cursor)
      (fun raw => ∃ c, decodeCursor codecs raw = .ok c) := by
  refine ⟨?_, fun e member => ?_⟩
  · rintro raw ⟨c, decoded⟩
    refine ⟨order, ?_⟩
    have limited : PageRequest.Limited ⟨p.limit, c, p.desc⟩ := (of_page asked).1
    rw [listed_of (page_withCursor asked decoded) rfl, placeOf_eq decoded, Answer.step]
    exact congrArg Except.ok (listing_texts limited (encodeCursor codecs))
  · have back := (readable.carries e member).decode_encode (encodeID_ne_nil e.id)
    refine ⟨⟨_, back⟩, ?_⟩
    rw [placeOf_eq back, EventRecord.cursor, rowCursor_of, readable.precise e member]
    rfl

/-- **A client gets every row once.** -/
theorem Readable.enumerated (readable : Readable codecs adapter rows)
    (asked : page codecs (q.withCursor []) = .ok p) (order : RowOrder) :
    Enumerated codecs p adapter rows fun raw =>
      listed codecs (q.withCursor raw) fun p => .ok (pageOf adapter rows order p) := by
  have keyed : Keyed (directed rowKey p.desc) rows := keyed_of_ids readable.distinct
  have limited := (of_page asked).1
  refine ⟨?_, fun raw c decoded => ?_⟩
  · have walk := (readable.reads asked order).follow limited.size_pos (rows.length + 1) [] ⟨{}, rfl⟩
    have start : placeOf codecs adapter p.desc [] = none := rfl
    rw [start, afterCursor_none] at walk
    obtain ⟨pages, done, ordered, -, -, once⟩ := walk (Nat.lt_succ_self _)
    have all := once.mpr (apart_of_nodup limited.size_pos (keysAfter_nodup keyed none))
    have differ : (pages.flatten.map (directed rowKey p.desc)).Nodup :=
      (all.map _).nodup_iff.mpr keyed
    rw [List.Nodup, List.pairwise_map] at differ
    refine ⟨pages, done, eq_of_strict ?_ (orderBy_strict keyed) (all.trans (orderBy_perm _).symm)⟩
    exact (ordered.and differ).imp fun both => lt_of_le_of_ne both.1 both.2
  · exact ⟨_, listed_of (page_withCursor asked decoded) rfl, hasMore_iff limited readable.distinct⟩

theorem Readable.selected (readable : Readable codecs adapter rows)
    (asked : page codecs (q.withCursor []) = .ok p) (order : RowOrder) (flow : Option FlowID) :
    Enumerated codecs p adapter (rows.filter ((eventFilter codecs q).selects adapter flow)) fun raw =>
      listed codecs (q.withCursor raw) fun p => .ok (pageOf adapter
        (rows.filter ((eventFilter codecs (q.withCursor raw)).selects adapter flow)) order p) := by
  simp only [eventFilter_withCursor]
  exact (readable.filter _).enumerated asked order

/-- **Paging through events**: a client that sends back the text of the next cursor while there are more
gets every selected event once, in the order of times and identifiers, and no others; from both stores,
when no two rows have the same identifier. -/
theorem events_enumerated (asked : page codecs (q.withCursor []) = .ok p) :
    (∀ (table : Postgres.Events) (collation : Collation) (order order' : RowOrder),
      (∀ e ∈ table.rows, Carries codecs e.cursor) →
      EventsEnumerated codecs q p .postgres table.rows (postgres table collation order order')) ∧
    ∀ (tables : Warehouse.Tables) (order order' : RowOrder), (tables.events.map (·.id)).Nodup →
      (∀ e ∈ tables.events, Carries codecs e.cursor) →
      EventsEnumerated codecs q p .clickhouse tables.events (clickhouse tables order order') := by
  refine ⟨fun table collation order order' carries => ?_, fun tables order order' distinct carries => ?_⟩
  · have readable : Readable codecs .postgres table.rows := ⟨table.distinct, table.precise, carries⟩
    refine ⟨readable.selected asked order none, fun id => ?_⟩
    simp only [flowEvents, withID_encodeID]
    exact readable.selected asked order (some id)
  · have readable : Readable codecs .clickhouse tables.events := ⟨distinct, fun _ _ => rfl, carries⟩
    refine ⟨readable.selected asked order none, fun id => ?_⟩
    simp only [flowEvents, withID_encodeID]
    exact readable.selected asked order (some id)

end Pages

open Stores (checkoutRows checkoutTable)

/-- Codecs that carry the cursors of the checkout. -/
def checkoutCodecs : Codecs :=
  ⟨id, some, .table ((checkoutRows (ascii "shop")).map fun e => (e.cursor, e.kind)), fun _ => none,
    parse_none⟩

theorem checkout_carried :
    ∀ e ∈ checkoutRows (ascii "shop"), Carries checkoutCodecs e.cursor := by
  intro e member
  simp only [checkoutRows, List.mem_cons, List.not_mem_nil, or_false] at member
  rcases member with rfl | rfl <;>
  · refine ⟨⟨_, rfl, rfl⟩, fun data written => ?_⟩
    cases written
    exact ⟨by decide, rfl⟩

/-- The checkout in pages of one event. -/
theorem checkout_enumerated :
    EventsEnumerated checkoutCodecs ⟨[(ascii "limit", ascii "1")]⟩ ⟨1, {}, true⟩ .postgres
      (checkoutRows (ascii "shop")) (postgres (checkoutTable (ascii "shop")) .bytes .given .given) :=
  (events_enumerated rfl).1 (checkoutTable (ascii "shop")) .bytes .given .given checkout_carried

end Trail.Explorer
