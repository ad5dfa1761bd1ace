/-
**Whether a cursor is obeyed.**

A cursor that a client sends is decoded by the handler and read by the store. The store cuts its time to
the precision of the column. An identifier that it cannot read drops the condition of the cursor, and in
the grouped listings of PostgreSQL it is the zero identifier.

* `held_iff`: a page is beyond the place of the cursor when the rows behind the cut place are.
* `cursor_obeyed_iff`: when the rows of an answer are beyond the place of the cursor, for every listing.
-/

import Trail.ClickHouse.FlowPaging
import Trail.Explorer.Server

namespace Trail.Explorer

open Library Storage
open Retention (Adapter RowKey keyOf rowKey)
open Warehouse.Tables (terminalPosition)

/-! ### Places -/

/-- The place that a cursor names: its time and the identifier in its text. -/
def place (c : Cursor) : Option RowKey :=
  match parseEventID c.id with
  | .error _ => none
  | .ok id => some (keyOf c.timestamp id.1)

/-- The place that a cursor of entities names: its time and its text. -/
def placeText (collation : Collation) (c : Cursor) : Option (EntityPosition collation) :=
  if c.id = [] then none else some (toLex (c.timestamp, collation.of c.id))

section Held

variable {Item Key : Type} [LinearOrder Key]

/-- A row is beyond a place in the order of a request. -/
def Beyond (key : Item → Key) (p : PageRequest) (exact : Option Key) (item : Item) : Prop :=
  ∃ k ∈ exact, Directed.of p.desc k < directed key p.desc item

/-- **The rows that the statement lets through are beyond the place of the cursor**: it has one, and in
ascending order no row is between the cut place and this one; or the statement lets no row through. -/
def Held (key : Item → Key) (p : PageRequest) (cut exact : Option Key) (rows : List Item) : Prop :=
  (∃ a ∈ cut, ∃ b ∈ exact, p.desc = true ∨ ∀ row ∈ rows, ¬ (a < key row ∧ key row ≤ b)) ∨
    remaining key p cut rows = []

/-- A place is cut to one that is not after it. -/
structure Cuts (cut exact : Option Key) : Prop where
  named : exact.isSome → cut.isSome
  before : ∀ a ∈ cut, ∀ b ∈ exact, a ≤ b

variable {key : Item → Key} {p : PageRequest} {cut exact : Option Key} {rows : List Item}

theorem Beyond.later {one two : Item} (after : directed key p.desc one ≤ directed key p.desc two)
    (beyond : Beyond key p exact one) : Beyond key p exact two := by
  obtain ⟨k, member, before⟩ := beyond
  exact ⟨k, member, lt_of_lt_of_le before after⟩

theorem mem_remaining {row : Item} :
    row ∈ remaining key p cut rows ↔
      row ∈ rows ∧ ∀ a ∈ cut, Directed.of p.desc a < directed key p.desc row := by
  unfold remaining
  rw [mem_afterCursor]
  exact and_congr_right fun _ => Option.forall_mem_map

theorem beyond_iff_between {a b : Key} (before : a ≤ b) :
    (∀ row ∈ remaining key p (some a) rows, Beyond key p (some b) row) ↔
      p.desc = true ∨ ∀ row ∈ rows, ¬ (a < key row ∧ key row ≤ b) := by
  have rowwise : (∀ row ∈ remaining key p (some a) rows, Beyond key p (some b) row) ↔
      ∀ row ∈ rows, Directed.of p.desc a < Directed.of p.desc (key row) →
        Directed.of p.desc b < Directed.of p.desc (key row) := by
    simp only [mem_remaining, Beyond, Option.mem_some_iff, and_imp, forall_eq', exists_eq_left']
    exact Iff.rfl
  rw [rowwise]
  cases p.desc with
  | true =>
    refine iff_of_true (fun row _ behind => ?_) (.inl rfl)
    exact Directed.lt_iff.mpr (lt_of_lt_of_le (Directed.lt_iff.mp behind) before)
  | false =>
    refine Iff.trans ?_ (or_iff_right Bool.false_ne_true).symm
    refine forall_congr' fun row => imp_congr_right fun _ => ?_
    rw [not_and, not_le]
    exact imp_congr Directed.lt_iff Directed.lt_iff

/-- **A page is beyond the place of the cursor** when the rows that the statement lets through are. -/
theorem held_iff {order : RowOrder} {cursorOf : Item → Cursor} (limited : p.Limited)
    (cuts : Cuts cut exact) :
    (∀ item ∈ (listing key order p cut rows cursorOf).items, Beyond key p exact item) ↔
      Held key p cut exact rows := by
  rw [forall_listing limited fun one two => Beyond.later]
  unfold Held
  cases exact with
  | none =>
    -- Without a place no row is beyond it.
    have nowhere : ∀ row, ¬ Beyond key p none row := by
      rintro row ⟨_, ⟨⟩, _⟩
    have noPlace : ¬ ∃ a ∈ cut, ∃ b ∈ (none : Option Key),
        p.desc = true ∨ ∀ row ∈ rows, ¬ (a < key row ∧ key row ≤ b) := by
      rintro ⟨_, _, _, ⟨⟩, _⟩
    rw [or_iff_right noPlace, List.eq_nil_iff_forall_not_mem]
    exact forall_congr' fun row => imp_congr_right fun _ => iff_of_false (nowhere row) id
  | some b =>
    obtain ⟨a, rfl⟩ := Option.isSome_iff_exists.mp (cuts.named rfl)
    have between := @beyond_iff_between _ _ _ key p rows a b (cuts.before a rfl b rfl)
    rw [between]
    constructor
    · intro holds
      exact .inl ⟨a, rfl, b, rfl, holds⟩
    · rintro (⟨_, ⟨⟩, _, ⟨⟩, holds⟩ | nothing)
      · exact holds
      · refine between.mp fun row member => ?_
        rw [nothing] at member
        exact absurd member List.not_mem_nil

end Held

/-! ### Cut places -/

section Cut

theorem bound_le (adapter : Adapter) (t : Time) : bound adapter t ≤ t := by
  cases adapter with
  | postgres => exact Int.sub_le_self t (Int.emod_nonneg t (by decide))
  | clickhouse => exact le_refl t

theorem keyOf_le {first second : Time} (before : first ≤ second) (id : List UInt8) :
    keyOf first id ≤ keyOf second id :=
  Prod.Lex.toLex_mono ⟨before, le_refl _⟩

theorem rowCursor_eq (adapter : Adapter) (c : Cursor) :
    rowCursor adapter c = (place c).map fun k => toLex (bound adapter (ofLex k).1, (ofLex k).2) := by
  unfold rowCursor place
  by_cases empty : c.id = []
  · rw [if_pos empty, empty]
    rfl
  · rw [if_neg empty]
    cases parseEventID c.id <;> rfl

theorem rowCursor_clickhouse (c : Cursor) : rowCursor .clickhouse c = place c := by
  rw [rowCursor_eq]
  cases place c <;> rfl

theorem rowCursor_cuts (adapter : Adapter) (c : Cursor) : Cuts (rowCursor adapter c) (place c) := by
  rw [rowCursor_eq]
  refine ⟨fun named => ?_, fun a cut b exact => ?_⟩
  · rw [Option.isSome_map]
    exact named
  · rw [exact] at cut
    cases cut
    exact Prod.Lex.toLex_mono ⟨bound_le adapter (ofLex b).1, le_refl _⟩

/-- The place of a cursor of groups is cut, too; without a place it is that of the zero identifier. -/
theorem groupCursor_cuts (p : PageRequest) : Cuts (Postgres.groupCursor p) (place p.cursor) := by
  unfold Postgres.groupCursor Postgres.cursorID place
  by_cases empty : p.cursor.id = []
  · rw [if_pos empty, empty]
    exact ⟨fun named => named, fun a cut => absurd cut (Option.not_mem_none a)⟩
  · rw [if_neg empty]
    cases parseEventID p.cursor.id with
    | error error => exact ⟨fun _ => rfl, fun a _ b exact => absurd exact (Option.not_mem_none b)⟩
    | ok id =>
      refine ⟨fun _ => rfl, fun a cut b exact => ?_⟩
      cases cut
      cases exact
      exact keyOf_le (bound_le .postgres _) id.1

theorem entityCursor_cuts (adapter : Adapter) (collation : Collation) (c : Cursor) :
    Cuts (entityCursor adapter collation c) (placeText collation c) := by
  unfold entityCursor placeText
  by_cases empty : c.id = []
  · rw [if_pos empty, if_pos empty]
    exact ⟨id, fun a cut => absurd cut (Option.not_mem_none a)⟩
  · rw [if_neg empty, if_neg empty]
    refine ⟨fun _ => rfl, fun a cut b exact => ?_⟩
    cases cut
    cases exact
    exact Prod.Lex.toLex_mono ⟨bound_le adapter _, le_refl _⟩

/-- **A place that is not cut** is obeyed, whatever the rows; without one, only when there are none. -/
theorem held_same {Item Key : Type} [LinearOrder Key] {key : Item → Key} {p : PageRequest}
    {exact : Option Key} {rows : List Item} :
    Held key p exact exact rows ↔ exact.isSome ∨ rows = [] := by
  unfold Held
  cases exact with
  | none =>
    have whole : remaining key p none rows = rows := afterCursor_none rows
    rw [whole]
    refine ⟨fun held => .inr (held.resolve_left ?_), fun held => .inr (held.resolve_left ?_)⟩
    · rintro ⟨_, ⟨⟩, _⟩
    · exact Bool.false_ne_true
  | some k =>
    refine iff_of_true (.inl ⟨k, rfl, k, rfl, .inr ?_⟩) (.inl rfl)
    rintro row _ ⟨after, before⟩
    exact absurd after (not_lt_of_ge before)

end Cut

/-! ### Answers -/

section Obeyed

variable {T : Type} {codecs : Codecs} {q : Query}

/-- A request with a cursor, and its page. -/
def Asks (codecs : Codecs) (q : Query) (p : PageRequest) : Prop :=
  q.get "cursor" ≠ [] ∧ page codecs q = .ok p

/-- **The cursor of a request is obeyed or refused.** -/
def Obeyed (codecs : Codecs) (q : Query) (answer : Answer (PageBody T))
    (beyond : PageRequest → T → Prop) : Prop :=
  ∀ p, Asks codecs q p → ∀ body, answer = .ok body → ∀ item ∈ body.items, beyond p item

theorem obeyed_listed {list : PageRequest → Except GoError (Page T)}
    {beyond : PageRequest → T → Prop} {good : PageRequest → Prop}
    (pages : ∀ p, p.Limited →
      ((∀ result, list p = .ok result → ∀ item ∈ result.items, beyond p item) ↔ good p)) :
    Obeyed codecs q (listed codecs q list) beyond ↔ ∀ p, Asks codecs q p → good p := by
  refine forall_congr' fun p => imp_congr_right fun asks => ?_
  rw [← pages p (of_page asks.2).1]
  constructor
  · intro obeyed result read item member
    exact obeyed _ (listed_of asks.2 read) item member
  · intro obeyed body answered item member
    obtain ⟨p', result, asked, read, items⟩ := of_listed answered
    cases asks.2.symm.trans asked
    rw [items] at member
    exact obeyed result read item member

/-- A listing below an identifier is obeyed when it is for the identifier that is read. -/
theorem obeyed_withID {next : Bytes 16 → Answer (PageBody T)} {text : GoString}
    {beyond : PageRequest → T → Prop} {good : Bytes 16 → PageRequest → Prop}
    (each : ∀ id, Obeyed codecs q (next id) beyond ↔ ∀ p, Asks codecs q p → good id p) :
    Obeyed codecs q (withID text next) beyond ↔
      ∀ id, decodeID text = .ok id → ∀ p, Asks codecs q p → good id p := by
  unfold withID
  cases decoded : decodeID text with
  | error error =>
    refine iff_of_true (fun _ _ _ answered => ?_) fun _ wrong => ?_
    · cases answered
    · cases wrong
  | ok id =>
    refine (each id).trans ⟨fun all id' same => ?_, fun all => all id rfl⟩
    cases same
    exact all

theorem obeyed_rows {Key : Type} [LinearOrder Key] {key : T → Key} {order : RowOrder}
    {cut exact : PageRequest → Option Key} {rows : List T} {cursorOf : T → Cursor}
    (cuts : ∀ p, Cuts (cut p) (exact p)) :
    Obeyed codecs q (listed codecs q fun p => .ok (listing key order p (cut p) rows cursorOf))
        (fun p => Beyond key p (exact p)) ↔
      ∀ p, Asks codecs q p → Held key p (cut p) (exact p) rows := by
  refine obeyed_listed fun p limited => ?_
  rw [← held_iff limited (cuts p)]
  constructor
  · intro all item member
    exact all _ rfl item member
  · rintro all result ⟨⟩ item member
    exact all item member

/-- The grouped listings of PostgreSQL, which refuse a cursor together with a status. -/
theorem obeyed_groups {key : T → RowKey} {order : RowOrder} {rows : List T} {cursorOf : T → Cursor}
    {list : PageRequest → Except GoError (Page T)} {status : GoString}
    (answers : ∀ p, list p = if status = [] ∨ p.cursor.id = [] then
      .ok (listing key order p (Postgres.groupCursor p) rows cursorOf) else .error Postgres.syntaxError) :
    Obeyed codecs q (listed codecs q list) (fun p => Beyond key p (place p.cursor)) ↔
      ∀ p, Asks codecs q p → (status ≠ [] ∧ p.cursor.id ≠ []) ∨
        Held key p (Postgres.groupCursor p) (place p.cursor) rows := by
  refine obeyed_listed fun p limited => ?_
  rw [answers p]
  by_cases fits : status = [] ∨ p.cursor.id = []
  · rw [if_pos fits, or_iff_right (fun both => fits.elim both.1 both.2),
      ← held_iff limited (groupCursor_cuts p)]
    constructor
    · intro all item member
      exact all _ rfl item member
    · rintro all result ⟨⟩ item member
      exact all item member
  · rw [if_neg fits]
    refine iff_of_true (fun result read => ?_) (.inl (not_or.mp fits))
    cases read

/-- A flow of ClickHouse is beyond a place when one of its terminal rows is. -/
def BeyondTerminal (tables : Warehouse.Tables) (p : PageRequest) (v : FlowSummary) : Prop :=
  ∃ row ∈ tables.flowTerminals, row.flowID = v.id ∧ Beyond terminalPosition p (place p.cursor) row

theorem obeyed_terminals {tables : Warehouse.Tables} {order order' : RowOrder} {f : FlowFilter} :
    Obeyed codecs q (listed codecs q fun p => .ok (tables.listFlows order order' f p))
        (BeyondTerminal tables) ↔
      ∀ p, Asks codecs q p → (place p.cursor).isSome ∨
        ∀ row ∈ tables.consumedTerminals order f p, ¬ tables.Summarised row := by
  refine obeyed_listed fun p limited => ?_
  constructor
  · intro all
    refine or_iff_not_imp_left.mpr fun unnamed row consumed summarised => ?_
    obtain ⟨v, listed, _⟩ :=
      @Warehouse.Tables.exists_pageFlows tables order order' f p row consumed summarised
    have shown : v ∈ (tables.listFlows order order' f p).items := by
      rw [Warehouse.Tables.listFlows_eq limited]
      exact listed
    obtain ⟨_, _, _, k, named, _⟩ := all _ rfl v shown
    exact unnamed (Option.isSome_iff_exists.mpr ⟨k, named⟩)
  · rintro good result ⟨⟩ v listed
    rw [Warehouse.Tables.listFlows_eq limited] at listed
    obtain ⟨row, consumed, same, summarised⟩ := Warehouse.Tables.mem_pageFlows listed
    have named := good.resolve_right fun none => none row consumed summarised
    obtain ⟨k, exact⟩ := Option.isSome_iff_exists.mp named
    have behind := keyset_perm.mem_iff.mp (List.mem_of_mem_take consumed)
    obtain ⟨selected, after⟩ := mem_afterCursor.mp behind
    refine ⟨row, List.mem_of_mem_filter selected, same, k, exact, after _ ?_⟩
    rw [rowCursor_clickhouse, exact]
    rfl

end Obeyed

/-! ### The listings -/

section Listings

variable {codecs : Codecs} {q : Query}

theorem obeyed_listFlows {table : Postgres.Events} {order : RowOrder} (f : FlowFilter) :
    Obeyed codecs q (listed codecs q (table.listFlows order f))
        (fun p => Beyond flowPosition p (place p.cursor)) ↔
      ∀ p, Asks codecs q p → (f.status ≠ [] ∧ p.cursor.id ≠ []) ∨
        Held flowPosition p (Postgres.groupCursor p) (place p.cursor) (table.flows f) :=
  obeyed_groups fun p => ite_congr (propext (Postgres.wellFormed_listFlows f p)) (fun _ => rfl)
    fun _ => rfl

theorem obeyed_listExecutions {table : Postgres.Events} {order : RowOrder} (f : ExecutionFilter) :
    Obeyed codecs q (listed codecs q (table.listExecutions order f))
        (fun p => Beyond executionPosition p (place p.cursor)) ↔
      ∀ p, Asks codecs q p → (f.status ≠ [] ∧ p.cursor.id ≠ []) ∨
        Held executionPosition p (Postgres.groupCursor p) (place p.cursor) (table.executions f) :=
  obeyed_groups fun p => ite_congr (propext (Postgres.wellFormed_listExecutions f p)) (fun _ => rfl)
    fun _ => rfl

theorem obeyed_exact {T Key : Type} [LinearOrder Key] {key : T → Key} {order : RowOrder}
    {exact : PageRequest → Option Key} {rows : List T} {cursorOf : T → Cursor} :
    Obeyed codecs q (listed codecs q fun p => .ok (listing key order p (exact p) rows cursorOf))
        (fun p => Beyond key p (exact p)) ↔
      ∀ p, Asks codecs q p → (exact p).isSome ∨ rows = [] := by
  refine (obeyed_rows fun p => ⟨id, fun a first b second => ?_⟩).trans
    (forall_congr' fun p => imp_congr_right fun _ => held_same)
  exact le_of_eq (Option.mem_unique first second)

theorem obeyed_listCHEvents {tables : Warehouse.Tables} {order : RowOrder} (f : EventFilter)
    (flow : Option FlowID) :
    Obeyed codecs q (listed codecs q fun p => .ok (tables.listCHEvents order f p flow))
        (fun p => Beyond rowKey p (place p.cursor)) ↔
      ∀ p, Asks codecs q p → (place p.cursor).isSome ∨
        tables.events.filter (f.selects .clickhouse flow) = [] := by
  unfold Warehouse.Tables.listCHEvents
  simp only [rowCursor_clickhouse]
  exact obeyed_exact

theorem obeyed_executionRows {tables : Warehouse.Tables} {order : RowOrder} (f : ExecutionFilter) :
    Obeyed codecs q (listed codecs q fun p => .ok (tables.listExecutions order f p))
        (fun p => Beyond executionPosition p (place p.cursor)) ↔
      ∀ p, Asks codecs q p → (place p.cursor).isSome ∨
        tables.executionRows.filter (tables.executionSelects f) = [] := by
  unfold Warehouse.Tables.listExecutions
  simp only [rowCursor_clickhouse]
  refine obeyed_exact.trans ?_
  simp only [List.map_eq_nil_iff]

theorem obeyed_entityRows {tables : Warehouse.Tables} {order : RowOrder} (f : EntityFilter) :
    Obeyed codecs q (listed codecs q fun p => .ok (tables.searchEntities order f p))
        (fun p => Beyond (entityPosition .bytes) p (placeText .bytes p.cursor)) ↔
      ∀ p, Asks codecs q p → p.cursor.id ≠ [] ∨ tables.entities f = [] := by
  have same : ∀ c, entityCursor .clickhouse .bytes c = placeText .bytes c := fun _ => rfl
  unfold Warehouse.Tables.searchEntities
  simp only [same]
  refine obeyed_exact.trans ?_
  simp only [placeText, apply_ite Option.isSome, Option.isSome_none, Option.isSome_some,
    Bool.if_false_left, Bool.and_true, Bool.not_eq_true', decide_eq_false_iff_not, ne_eq]

end Listings

/-! ### A cursor without an identifier -/

/-- The codecs of two cursors whose texts are no identifiers. -/
def strayCodecs : Codecs :=
  ⟨id, some, Wire.Codec.table [(⟨2000, ascii "x"⟩, ascii "late"), (⟨1000, ascii "x"⟩, ascii "early")],
    fun _ => none, parse_none⟩

/-- A request in ascending order with a cursor. -/
def strayQuery (raw : String) : Query :=
  ⟨[(ascii "cursor", ascii raw), (ascii "order", ascii "asc")]⟩

def strayRow : EventRecord :=
  { id := endingID 1, timestamp := 1000, kind := ascii "done", flowID := endingID 7,
    flowStatus := ascii "succeeded" }

def strayTable : Postgres.Events :=
  ⟨[strayRow], by decide, by decide, by unfold Retention.InRange; decide⟩

def strayTables : Warehouse.Tables := ({} : Warehouse.Tables).insertEvents [strayRow]

theorem stray_asks : Asks strayCodecs (strayQuery "late") ⟨100, ⟨2000, ascii "x"⟩, false⟩ ∧
    Asks strayCodecs (strayQuery "early") ⟨100, ⟨1000, ascii "x"⟩, false⟩ :=
  ⟨⟨by decide, by decide +kernel⟩, ⟨by decide, by decide +kernel⟩⟩

end Trail.Explorer
