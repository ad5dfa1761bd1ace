/-
**The reference check of PostgreSQL over what ingest wrote.**

`ReferencedPayloads` takes the payload list of every row apart until it finds a link. The list of an
event without payloads is written as a JSON `null`, and the server cannot take that apart: the check
fails at the first such row it comes to. In which order it comes to the rows is up to the server.

* `written_rows`: every row of the table is the row of an event of an accepted batch.
* `searchRows_clear`: a search answers exactly if no row without links comes before a link.
* `reference_check_on_ingested_iff`: when the check works on a table that ingest wrote.
-/

import Trail.Storage.ReadBack
import Trail.Storage.References

namespace Trail.Postgres

open Library Payload Storage

/-! ### The rows ingest writes -/

/-- The batches of the messages that `Normalize` accepts. -/
def accepted (messages : List (Wire.Envelope × Delivery)) : List Storage.Batch :=
  messages.filterMap fun message => (normalize message.1 message.2).toOption

/-- The table after calls of `WriteBatches`, one after another. -/
def written (driver : Driver) (others : (op : Call) → op.Reply) (calls : List (List Storage.Batch)) :
    EventsTable :=
  calls.foldl (fun table batches =>
    ((writeBatches (json driver) batches).execute (EventsTable.answer driver others) table).2.1) {}

section Rows

variable {driver : Driver} {others : (op : Call) → op.Reply}

theorem EventsTable.insert_pending (table : EventsTable) (row : Row Column Value) :
    (table.insert row).rows = table.rows ∧
      ∀ other ∈ (table.insert row).pending, other ∈ table.pending ∨ other = row := by
  unfold insert
  split
  · exact ⟨rfl, fun _ member => .inl member⟩
  · refine ⟨rfl, fun other member => ?_⟩
    rcases List.mem_append.mp member with old | new
    · exact .inl old
    · exact .inr (List.mem_singleton.mp new)

theorem execAll_pending (events : List EventRecord) (table : EventsTable) :
    let after := ((execAll (events.map .insertEvent)).execute
      (EventsTable.answer driver others) table).2.1
    after.rows = table.rows ∧ ∀ row ∈ after.pending,
      row ∈ table.pending ∨ ∃ e ∈ events, eventRow driver e = .ok row := by
  induction events generalizing table with
  | nil => exact ⟨rfl, fun _ member => .inl member⟩
  | cons e events ih =>
    cases stored : eventRow driver e with
    | error error =>
      rw [List.map_cons, execAll, Prog.execute_call (EventsTable.answer_refused table stored)]
      exact ⟨rfl, fun _ member => .inl member⟩
    | ok row =>
      rw [List.map_cons, execAll, Prog.execute_call (EventsTable.answer_stored table stored)]
      obtain ⟨kept, pending⟩ := table.insert_pending row
      obtain ⟨same, later⟩ := ih (table.insert row)
      refine ⟨same.trans kept, fun other member => ?_⟩
      rcases later other member with here | ⟨e', inside, made⟩
      · rcases pending other here with old | rfl
        · exact .inl old
        · exact .inr ⟨e, List.mem_cons_self, stored⟩
      · exact .inr ⟨e', List.mem_cons_of_mem _ inside, made⟩

/-- **One call of `WriteBatches`** only adds rows of its events. -/
theorem writeBatches_rows (batches : List Storage.Batch) (table : EventsTable) :
    ∀ row ∈ ((writeBatches (json driver) batches).execute
        (EventsTable.answer driver others) table).2.1.rows,
      row ∈ table.rows ∨ ∃ e ∈ batches.flatMap (·.events), eventRow driver e = .ok row := by
  unfold writeBatches
  split
  · exact fun row member => .inl member
  have begun : EventsTable.answer driver others table .beginTx =
    ({ table with pending := [] }, none) := rfl
  rw [Prog.execute_call begun]
  dsimp only
  split
  · exact fun row member => .inl member
  · obtain ⟨kept, pending⟩ := @execAll_pending driver others (batches.flatMap (·.events))
      { table with pending := [] }
    rw [Prog.execute_bind]
    dsimp only
    split
    · intro row member
      rw [← kept]
      exact .inl member
    · intro row member
      rcases List.mem_append.mp member with old | new
      · rw [← kept]
        exact .inl old
      · exact .inr ((pending row new).resolve_left List.not_mem_nil)

/-- **The rows of the table** are rows of events of the batches written. -/
theorem written_rows (calls : List (List Storage.Batch)) :
    ∀ row ∈ (written driver others calls).rows,
      ∃ e ∈ calls.flatten.flatMap (·.events), eventRow driver e = .ok row := by
  induction calls using List.reverseRecOn with
  | nil => exact fun row member => (List.not_mem_nil member).elim
  | append_singleton calls batches ih =>
    unfold written at ih ⊢
    rw [List.foldl_append, List.foldl_cons, List.foldl_nil]
    intro row member
    rw [List.flatten_append, List.flatten_singleton, List.flatMap_append]
    rcases writeBatches_rows batches _ row member with old | ⟨e, inside, stored⟩
    · obtain ⟨e, inside, stored⟩ := ih row old
      exact ⟨e, List.mem_append_left _ inside, stored⟩
    · exact ⟨e, List.mem_append_right _ inside, stored⟩

end Rows

/-! ### The search through the rows -/

section Search

/-- JSON reads the stored payload list of an event: without links only if it was written so. -/
def Reads (driver : Driver) (e : EventRecord) : Prop :=
  ∀ text kept, driver.payloads.marshal e.payloads = .ok text → driver.jsonb text = some kept →
    ∃ links, driver.payloads.unmarshal kept = .ok links ∧ (links = [] ↔ e.payloads = [])

/-- The payload links of a row. -/
def rowLinks (driver : Driver) (row : Row Column Value) : List PayloadLink :=
  match row.get .payloadRefs with
  | some (.bytes raw) => (driver.payloads.unmarshal raw).toOption.getD []
  | _ => []

/-- The payload list of a row can be read. -/
def Readable (driver : Driver) (row : Row Column Value) : Prop :=
  ∃ raw, row.get .payloadRefs = some (.bytes raw) ∧
    driver.payloads.unmarshal raw = .ok (rowLinks driver row)

/-- Some row links to the object. -/
def linkedRows (driver : Driver) (rows : List (Row Column Value)) (ref : Ref) : Bool :=
  rows.any fun row => (rowLinks driver row).any (linksTo ref)

/-- No row without links comes before a link to the object. -/
def Clear (driver : Driver) (ref : Ref) (rows : List (Row Column Value)) : Prop :=
  ∀ before row after, rows = before ++ row :: after → rowLinks driver row = [] →
    linkedRows driver before ref = true

variable {driver : Driver}

theorem eventRow_readable {e : EventRecord} {row : Row Column Value}
    (stored : eventRow driver e = .ok row) (reads : Reads driver e) :
    Readable driver row ∧ (rowLinks driver row = [] ↔ e.payloads = []) := by
  unfold eventRow at stored
  split at stored
  · cases stored
  rename_i fields _
  split at stored
  · cases stored
  rename_i payloads marshalled
  split at stored
  · cases stored
  rename_i values kept
  cases stored
  have place : insertColumns[42]? = some .payloadRefs := rfl
  have value : (eventValues e fields payloads)[42]? = some (.bytes payloads) := rfl
  have column := Row.get_zip insertColumns_nodup (keepAll_length kept) place
  rw [keepAll_getElem? kept place value] at column
  cases held : driver.jsonb payloads with
  | none =>
    have refused : (columnType .payloadRefs).keep driver (.bytes payloads) = none := by
      show (driver.jsonb payloads).map Value.bytes = none
      rw [held]
      rfl
    rw [keepAll_refused place value refused] at kept
    cases kept
  | some raw =>
    have column : Row.get (insertColumns.zip values) .payloadRefs = some (.bytes raw) := by
      rw [column]
      show (driver.jsonb payloads).map Value.bytes = _
      rw [held]
      rfl
    obtain ⟨links, decoded, empty⟩ := reads payloads raw marshalled held
    have same : rowLinks driver (insertColumns.zip values) = links := by
      unfold rowLinks
      rw [column]
      dsimp only
      rw [decoded]
      rfl
    rw [same]
    exact ⟨⟨raw, column, by rw [same, decoded]⟩, empty⟩

theorem clear_cons {ref : Ref} {row : Row Column Value} {rows : List (Row Column Value)} :
    Clear driver ref (row :: rows) ↔ rowLinks driver row ≠ [] ∧
      ((rowLinks driver row).any (linksTo ref) = true ∨ Clear driver ref rows) := by
  constructor
  · intro clear
    have here : rowLinks driver row ≠ [] := by
      intro empty
      cases clear [] row rows rfl empty
    refine ⟨here, ?_⟩
    by_cases links : (rowLinks driver row).any (linksTo ref) = true
    · exact .inl links
    · refine .inr fun before other after same empty => ?_
      have found := clear (row :: before) other after (by rw [same]; rfl) empty
      unfold linkedRows at found ⊢
      rw [List.any_cons, Bool.eq_false_iff.mpr links, Bool.false_or] at found
      exact found
  · intro ⟨here, either⟩ before other after same empty
    cases before with
    | nil =>
      obtain ⟨rfl, _⟩ := List.cons.inj same
      exact absurd empty here
    | cons first before =>
      obtain ⟨rfl, rest⟩ := List.cons.inj same
      unfold linkedRows
      rw [List.any_cons]
      rcases either with links | clear
      · rw [links, Bool.true_or]
      · rw [show before.any _ = true from clear before other after rest empty, Bool.or_true]

/-- **What a search answers**: whether there is a link, if no row without links comes before one, and an
error otherwise. -/
theorem searchRows_clear {rows : List (Row Column Value)}
    (readable : ∀ row ∈ rows, Readable driver row) (ref : Ref) :
    (Clear driver ref rows → searchRows driver ref rows = .ok (linkedRows driver rows ref)) ∧
      (¬ Clear driver ref rows → searchRows driver ref rows = .error errScalar) := by
  induction rows with
  | nil =>
    refine ⟨fun _ => rfl, fun unclear => absurd ?_ unclear⟩
    intro before row after same
    cases before <;> cases same
  | cons row rows ih =>
    obtain ⟨raw, column, decoded⟩ := readable row List.mem_cons_self
    obtain ⟨found, failed⟩ := ih fun other member => readable other (List.mem_cons_of_mem _ member)
    rw [clear_cons, searchRows, column]
    dsimp only
    rw [decoded]
    dsimp only
    unfold linkedRows at found ⊢
    rw [List.any_cons]
    by_cases empty : rowLinks driver row = []
    · rw [if_pos empty]
      exact ⟨fun clear => absurd empty clear.1, fun _ => rfl⟩
    rw [if_neg empty]
    by_cases links : (rowLinks driver row).any (linksTo ref) = true
    · rw [if_pos links, links, Bool.true_or]
      exact ⟨fun _ => rfl, fun unclear => absurd ⟨empty, .inl rfl⟩ unclear⟩
    · rw [if_neg links, Bool.eq_false_iff.mpr links, Bool.false_or]
      refine ⟨fun clear => found (clear.2.resolve_left Bool.false_ne_true), fun unclear => ?_⟩
      exact failed fun clear => unclear ⟨empty, .inr clear⟩

theorem linkedRows_perm {rows order : List (Row Column Value)} (same : order.Perm rows) (ref : Ref) :
    linkedRows driver order ref = linkedRows driver rows ref := by
  unfold linkedRows
  rw [Bool.eq_iff_iff, List.any_eq_true, List.any_eq_true]
  simp only [same.mem_iff]

end Search

/-! ### The check -/

/-- `ReferencedPayloads`, with the order in which the server comes to the rows for each reference. -/
def referencedScans (driver : Driver) (scan : Ref → List (Row Column Value)) (refs : List Ref) :
    Except GoError (Table GoString Bool) :=
  reportAll (fun ref => searchRows driver ref (scan ref)) refs ∅

section Check

variable {driver : Driver} {rows : List (Row Column Value)} {scan : Ref → List (Row Column Value)}

theorem referencedScans_ok_iff (readable : ∀ row ∈ rows, Readable driver row)
    (orders : ∀ ref, (scan ref).Perm rows) (refs : List Ref) :
    (∃ out, referencedScans driver scan refs = .ok out) ↔
      ∀ ref ∈ refs, Clear driver ref (scan ref) := by
  have searches : ∀ ref, _ := fun ref => searchRows_clear
    (fun row member => readable row ((orders ref).mem_iff.mp member)) ref
  constructor
  · intro ⟨out, done⟩ ref member
    by_contra unclear
    obtain ⟨found, searched⟩ := reportAll_searched done member
    rw [(searches ref).2 unclear] at searched
    cases searched
  · intro clear
    exact reportAll_total (fun ref member => ⟨_, (searches ref).1 (clear ref member)⟩) ∅

theorem referencedScans_lookup (readable : ∀ row ∈ rows, Readable driver row)
    (orders : ∀ ref, (scan ref).Perm rows) {refs : List Ref} {out : Table GoString Bool}
    (done : referencedScans driver scan refs = .ok out) {ref : Ref} (member : ref ∈ refs) :
    out.lookup (payloadKey ref) = some (linkedRows driver rows (lastNamed refs ref)) := by
  have clear := (referencedScans_ok_iff readable orders refs).mp ⟨out, done⟩
  obtain ⟨found, searched, reported⟩ := reportAll_lookup done member
  have answered := (searchRows_clear
    (fun row inside => readable row ((orders (lastNamed refs ref)).mem_iff.mp inside))
    (lastNamed refs ref)).1 (clear _ (lastNamed_mem member).1)
  rw [answered, linkedRows_perm (orders _)] at searched
  cases searched
  exact reported

end Check

/-- **When the check works on what ingest wrote.** For one way to come to the rows, it returns without
an error exactly if for no reference a row without links comes before a link. It returns the exact map
however the server comes to the rows exactly if there is no reference or no row without links, and no
two references with one map key of which one is linked and the other is not. -/
theorem reference_check_on_ingested_iff (driver : Driver) (others : (op : Call) → op.Reply)
    (messages : List (List (Wire.Envelope × Delivery)))
    (reads : ∀ e ∈ (messages.flatMap accepted).flatMap (·.events), Reads driver e)
    (refs : List Ref) :
    let rows := (written driver others (messages.map accepted)).rows
    (∀ scan : Ref → List (Row Column Value), (∀ ref, (scan ref).Perm rows) →
      ((∃ out, referencedScans driver scan refs = .ok out) ↔
        ∀ ref ∈ refs, Clear driver ref (scan ref))) ∧
    ((∀ scan : Ref → List (Row Column Value), (∀ ref, (scan ref).Perm rows) →
      ∃ out, referencedScans driver scan refs = .ok out ∧
        ∀ ref ∈ refs, out.lookup (payloadKey ref) = some (linkedRows driver rows ref)) ↔
      (refs = [] ∨ ∀ e ∈ (messages.flatMap accepted).flatMap (·.events), ∀ row ∈ rows,
        eventRow driver e = .ok row → e.payloads ≠ []) ∧
      ∀ ref ∈ refs, linkedRows driver rows (lastNamed refs ref) = linkedRows driver rows ref) := by
  intro rows
  have made : ∀ row ∈ rows, ∃ e ∈ (messages.flatMap accepted).flatMap (·.events),
      eventRow driver e = .ok row := by
    have flat : messages.flatMap accepted = (messages.map accepted).flatten := List.flatMap_def
    rw [flat]
    exact written_rows (messages.map accepted)
  have readable : ∀ row ∈ rows, Readable driver row := by
    intro row member
    obtain ⟨e, inside, stored⟩ := made row member
    exact (eventRow_readable stored (reads e inside)).1
  refine ⟨fun scan orders => referencedScans_ok_iff readable orders refs, ?_, ?_⟩
  · intro works
    constructor
    · by_cases none : refs = []
      · exact .inl none
      refine .inr fun e inside row member stored empty => ?_
      -- a server that comes to this row first
      obtain ⟨ref, among⟩ := List.exists_mem_of_ne_nil refs none
      obtain ⟨before, after, split⟩ := List.append_of_mem member
      have orders : ∀ ref : Ref, (row :: (before ++ after)).Perm rows := fun _ => by
        rw [split]
        exact List.perm_middle.symm
      obtain ⟨out, done, _⟩ := works (fun _ => row :: (before ++ after)) orders
      have clear := (referencedScans_ok_iff readable orders refs).mp ⟨out, done⟩ ref among
      exact (clear_cons.mp clear).1 ((eventRow_readable stored (reads e inside)).2.mpr empty)
    · intro ref among
      obtain ⟨out, done, reported⟩ := works (fun _ => rows) fun _ => .refl rows
      have last := referencedScans_lookup readable (fun _ => .refl rows) done among
      exact Option.some.inj (last.symm.trans (reported ref among))
  · intro ⟨full, alone⟩ scan orders
    have clear : ∀ ref ∈ refs, Clear driver ref (scan ref) := by
      intro ref among before row after split empty
      rcases full with none | full
      · rw [none] at among
        cases among
      · have member : row ∈ rows := (orders ref).mem_iff.mp (by rw [split]; simp)
        obtain ⟨e, inside, stored⟩ := made row member
        exact absurd ((eventRow_readable stored (reads e inside)).2.mp empty)
          (full e inside row member stored)
    obtain ⟨out, done⟩ := (referencedScans_ok_iff readable orders refs).mpr clear
    refine ⟨out, done, fun ref among => ?_⟩
    rw [referencedScans_lookup readable orders done among, alone ref among]

/-! ### An event without payloads, and one with a payload -/

theorem reads_of_inverts {driver : Driver} {e : EventRecord} (inverts : driver.Inverts e) :
    Reads driver e := by
  intro text kept marshalled held
  obtain ⟨other, stored, same, keeps, _, decoded⟩ := inverts.payloads
  obtain rfl : other = text := Except.ok.inj (same.symm.trans marshalled)
  obtain rfl : stored = kept := Option.some.inj (keeps.symm.trans held)
  exact ⟨e.payloads, decoded, Iff.rfl⟩

def reportedEvent : Wire.Event :=
  { Wire.fromEvent orderCall.event with
    fields := [⟨ascii "payload.report.store", ascii "string", ascii "s3", 0⟩,
      ⟨ascii "payload.report.key", ascii "string", ascii "docs/1", 0⟩] }

def reportedEnvelope : Wire.Envelope := { orderEnvelope with events := [reportedEvent] }

def reportedRecord : EventRecord := recordOf reportedEvent orderMetadata orderBatch.batchID {}

/-- The object the event links to. -/
def reportedRef : Ref where
  store := ascii "s3"
  key := ascii "docs/1"

def reportedDriver : Driver :=
  { orderDriver with
    fields := Wire.Codec.table [(reportedRecord.fields, octets
      "[\x7b\"key\":\"payload.report.store\"\x7d,\x7b\"key\":\"payload.report.key\"\x7d]")]
    payloads := Wire.Codec.table [(reportedRecord.payloads, octets
      "[\x7b\"Role\":\"report\",\"Ref\":\x7b\"store\":\"s3\",\"key\":\"docs/1\"\x7d\x7d]")] }

theorem reportedDriver_inverts : reportedDriver.Inverts reportedRecord := by
  obtain ⟨fields, first, second⟩ := Wire.Codec.single_inverts reportedRecord.fields (octets
    "[\x7b\"key\":\"payload.report.store\"\x7d,\x7b\"key\":\"payload.report.key\"\x7d]")
  obtain ⟨payloads, third, fourth⟩ := Wire.Codec.single_inverts reportedRecord.payloads (octets
    "[\x7b\"Role\":\"report\",\"Ref\":\x7b\"store\":\"s3\",\"key\":\"docs/1\"\x7d\x7d]")
  exact ⟨⟨fields, fields, first, rfl, second⟩, payloads, payloads, third, rfl, fourth, fourth⟩

theorem reported_evaluated :
    accepted [(reportedEnvelope, {})] = [batchOf reportedEnvelope {}] ∧
    linkedRows reportedDriver
      (written reportedDriver idle [accepted [(reportedEnvelope, {})]]).rows reportedRef = true := by
  decide

/-- **An event without payloads stops the check**: it is accepted and written, and the check of any
object fails at its row. -/
theorem reference_check_stopped :
    normalize orderEnvelope {} = .ok orderBatch ∧
    ((writeBatches (json orderDriver) [orderBatch]).execute
      (EventsTable.answer orderDriver idle) {}).2.2 = none ∧
    referencedPayloads orderDriver (written orderDriver idle [[orderBatch]]).rows [reportedRef] =
      .error errScalar := by
  decide

theorem reference_check_on_ingested_iff_reported :
    let rows := (written reportedDriver idle [accepted [(reportedEnvelope, {})]]).rows
    linkedRows reportedDriver rows reportedRef = true ∧
    ∀ scan : Ref → List (Row Column Value), (∀ ref, (scan ref).Perm rows) →
      ∃ out, referencedScans reportedDriver scan [reportedRef] = .ok out ∧
        ∀ ref ∈ [reportedRef], out.lookup (payloadKey ref) =
          some (linkedRows reportedDriver rows ref) := by
  obtain ⟨batches, linked⟩ := reported_evaluated
  have only : ∀ e ∈ ([[(reportedEnvelope, {})]].flatMap accepted).flatMap (·.events),
      e = reportedRecord := by
    rw [List.flatMap_singleton, batches]
    intro e member
    exact List.mem_singleton.mp member
  have reads : ∀ e ∈ ([[(reportedEnvelope, {})]].flatMap accepted).flatMap (·.events),
      Reads reportedDriver e := by
    intro e member
    rw [only e member]
    exact reads_of_inverts reportedDriver_inverts
  refine ⟨linked, (reference_check_on_ingested_iff reportedDriver idle [[(reportedEnvelope, {})]]
    reads [reportedRef]).2.mpr ⟨.inr fun e member _ _ _ => ?_, fun ref member => ?_⟩⟩
  · rw [only e member]
    decide
  · rw [List.mem_singleton.mp member]
    rfl

end Trail.Postgres
