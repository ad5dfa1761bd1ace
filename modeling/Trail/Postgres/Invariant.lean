/-
**What the database keeps, and what a thread can rely on.**

A deletion is several statements away from the archive it rests on, and another run may map its
events to an archive of its own in between. The argument is that nothing a thread relies on is ever
undone: a stored object stays, a catalogue entry stays, and a mapped event stays mapped, if
perhaps to a newer archive.

* `Tables.Change` says what a transaction can do to the tables.
* `Good` is the invariant of the database and the archive store, `Knows` what a thread has learnt
  from its own exchanges, `Grows` all that the others can do to either.
* `good_publish` is the commit of a transaction, `good_respond` one call of a thread that keeps to
  what is `Permitted`.
-/

import Trail.Postgres.Store

namespace Trail.Postgres

open Library Payload Storage Archive
open Library.Table (mem_of_lookup lookup_of_mem lookup_insertNew mem_insertNew mem_eraseAll
  lookup_insertNew_of_lookup lookup_insert_cases)

/-! ### What statements change -/

/-- From one state of the tables to another by the given statements, in some order. -/
structure Tables.Change (writes : Statement → Prop) (before after : Tables) : Prop where
  kept : ∀ archiveID receipt, before.archives.lookup archiveID = some receipt →
    after.archives.lookup archiveID = some receipt
  archived : ∀ archiveID receipt, after.archives.lookup archiveID = some receipt →
    before.archives.lookup archiveID = some receipt ∨
      writes (.insertArchive receipt) ∧ receipt.manifest.id = archiveID
  recorded : ∀ receipt, writes (.insertArchive receipt) → receipt.manifest.id ∈ after.archives
  mapped : ∀ id, id ∈ before.eventArchives → id ∈ after.eventArchives
  mapping : ∀ id archiveID, after.eventArchives.lookup id = some archiveID →
    before.eventArchives.lookup id = some archiveID ∨ writes (.insertEventArchive id archiveID)
  deleted : ∀ id, id ∈ before.events → id ∉ after.events →
    ∃ ids, writes (.deleteEvents ids) ∧ id ∈ ids

theorem Tables.Change.frame {writes : Statement → Prop} {before after : Tables}
    (archives : after.archives = before.archives)
    (eventArchives : after.eventArchives = before.eventArchives)
    (events : ∀ id, id ∈ before.events → id ∈ after.events)
    (others : ∀ receipt, ¬ writes (.insertArchive receipt)) :
    Tables.Change writes before after where
  kept _ _ here := by rwa [archives]
  archived _ _ here := .inl (by rwa [← archives])
  recorded receipt written := absurd written (others receipt)
  mapped _ member := by rwa [eventArchives]
  mapping _ _ here := .inl (by rwa [← eventArchives])
  deleted id member gone := absurd (events id member) gone

theorem Tables.Change.trans {first second : Statement → Prop} {before middle after : Tables}
    (one : Tables.Change first before middle) (two : Tables.Change second middle after) :
    Tables.Change (fun statement => first statement ∨ second statement) before after where
  kept archiveID receipt here := two.kept _ _ (one.kept _ _ here)
  archived archiveID receipt here := by
    rcases two.archived _ _ here with old | ⟨new, same⟩
    · rcases one.archived _ _ old with older | ⟨new, same⟩
      · exact .inl older
      · exact .inr ⟨.inl new, same⟩
    · exact .inr ⟨.inr new, same⟩
  recorded receipt written := by
    rcases written with early | late
    · obtain ⟨row, found⟩ := lookup_of_mem (one.recorded receipt early)
      exact mem_of_lookup (two.kept _ _ found)
    · exact two.recorded receipt late
  mapped id member := two.mapped id (one.mapped id member)
  mapping id archiveID here := by
    rcases two.mapping _ _ here with old | new
    · exact (one.mapping _ _ old).imp_right .inl
    · exact .inr (.inr new)
  deleted id member gone := by
    by_cases still : id ∈ middle.events
    · obtain ⟨ids, written, listed⟩ := two.deleted id still gone
      exact ⟨ids, .inr written, listed⟩
    · obtain ⟨ids, written, listed⟩ := one.deleted id member still
      exact ⟨ids, .inl written, listed⟩

theorem Tables.change_exec (tables : Tables) (now : Time) (statement : Statement) :
    Tables.Change (· = statement) tables (tables.exec now statement) := by
  cases statement with
  | insertEvent e =>
    refine .frame rfl rfl (fun id member => ?_) (fun _ => Statement.noConfusion)
    exact mem_insertNew.mpr (.inr member)
  | insertArchive receipt =>
    exact {
      kept := fun _ _ here => lookup_insertNew_of_lookup here
      archived := fun archiveID found here => by
        rcases lookup_insertNew here with old | ⟨same, rfl⟩
        · exact .inl old
        · exact .inr ⟨rfl, same⟩
      recorded := fun other same => by
        cases same
        exact mem_insertNew.mpr (.inl rfl)
      mapped := fun _ member => member
      mapping := fun _ _ here => .inl here
      deleted := fun _ member gone => absurd member gone }
  | insertEventArchive id archiveID =>
    exact {
      kept := fun _ _ here => here
      archived := fun _ _ here => .inl here
      recorded := fun _ => Statement.noConfusion
      mapped := fun _ member => (AList.mem_insert _).mpr (.inr member)
      mapping := fun other found here => by
        rcases lookup_insert_cases here with ⟨rfl, rfl⟩ | ⟨_, old⟩
        · exact .inr rfl
        · exact .inl old
      deleted := fun _ member gone => absurd member gone }
  | deleteEvents ids =>
    exact {
      kept := fun _ _ here => here
      archived := fun _ _ here => .inl here
      recorded := fun _ => Statement.noConfusion
      mapped := fun _ member => member
      mapping := fun _ _ here => .inl here
      deleted := fun id member gone => by
        refine ⟨ids, rfl, ?_⟩
        by_contra absent
        exact gone (mem_eraseAll.mpr ⟨member, absent⟩) }
  | insertCandidate ref eligibleAt archiveID | deleteCandidate ref =>
    exact .frame rfl rfl (fun _ member => member) (fun _ => Statement.noConfusion)
  | retryCandidate ref failure =>
    unfold Tables.exec
    dsimp only
    split
    · exact .frame rfl rfl (fun _ member => member) (fun _ => Statement.noConfusion)
    · exact .frame rfl rfl (fun _ member => member) (fun _ => Statement.noConfusion)

theorem Tables.change_execAll (tables : Tables) (pending : Pending) :
    Tables.Change (fun statement => ∃ now, (now, statement) ∈ pending) tables
      (tables.execAll pending) := by
  induction pending generalizing tables with
  | nil => exact .frame rfl rfl (fun _ member => member) (by simp)
  | cons write pending ih =>
    have both := (tables.change_exec write.1 write.2).trans (ih (tables.exec write.1 write.2))
    have same : (fun statement => statement = write.2 ∨ ∃ now, (now, statement) ∈ pending) =
        fun statement => ∃ now, (now, statement) ∈ write :: pending := by
      funext statement
      refine propext ⟨?_, ?_⟩
      · rintro (rfl | ⟨now, member⟩)
        · exact ⟨write.1, List.mem_cons_self ..⟩
        · exact ⟨now, List.mem_cons_of_mem _ member⟩
      · rintro ⟨now, member⟩
        rcases List.mem_cons.mp member with rfl | later
        · exact .inl rfl
        · exact .inr ⟨now, later⟩
    rwa [same] at both

/-! ### What holds, what a thread knows, and how the world grows -/

/-- The archive is in the catalogue, and the event object of its manifest has the event. -/
def World.Archived (world : World) (archiveID : GoString) (id : ByteA) : Prop :=
  ∃ receipt records, world.tables.archives.lookup archiveID = some receipt ∧
    world.objects.lookup (payloadKey receipt.manifest.events) = some records ∧
    ∃ record ∈ records, record.id.1 = id

section Invariant

variable (digest : List EventRecord → GoString)

/-- The receipt is that of stored records. -/
def Stored (objects : Table GoString (List EventRecord)) (records : List EventRecord)
    (receipt : Receipt) : Prop :=
  objects.lookup (payloadKey receipt.manifest.events) = some records ∧
  receipt.manifest.id = digest records ∧
  receipt.manifest.eventIDs = records.map fun record => encodeID record.id

/-- Some stored object with the digest has the event. -/
def Contains (objects : Table GoString (List EventRecord)) (archiveID : GoString) (id : ByteA) :
    Prop :=
  ∃ key records, objects.lookup key = some records ∧ digest records = archiveID ∧
    ∃ record ∈ records, record.id.1 = id

/-- Every catalogue entry is that of a stored archive, every event is mapped to an entry that has
it, and no two stored contents have one digest. -/
structure Catalogued (world : World) : Prop where
  archives : ∀ archiveID receipt, world.tables.archives.lookup archiveID = some receipt →
    receipt.manifest.id = archiveID ∧ ∃ records, Stored digest world.objects records receipt
  mappings : ∀ id archiveID, world.tables.eventArchives.lookup id = some archiveID →
    archiveID ∈ world.tables.archives ∧ Contains digest world.objects archiveID id
  unique : ∀ key other records content, world.objects.lookup key = some records →
    world.objects.lookup other = some content → digest records = digest content →
    records = content

/-- **The invariant of the database and the archive store.** -/
structure Good (world : World) : Prop extends Catalogued digest world where
  live : ∀ id ∈ world.committed, id ∈ world.tables.events ∨
    ∃ archiveID, world.deletedUnder id = some archiveID ∧ world.Archived archiveID id

/-- Nothing recorded or stored is lost, and no mapped event gets unmapped. -/
structure Grows (world later : World) : Prop where
  archives : ∀ archiveID receipt, world.tables.archives.lookup archiveID = some receipt →
    later.tables.archives.lookup archiveID = some receipt
  objects : ∀ key records, world.objects.lookup key = some records →
    later.objects.lookup key = some records
  mapped : ∀ id, id ∈ world.tables.eventArchives → id ∈ later.tables.eventArchives

/-- What a pending write needs, in a transaction that has inserted the given archives. -/
def Sound (world : World) (receipts : List Receipt) : Statement → Prop
  | .insertArchive receipt => ∃ records, Stored digest world.objects records receipt
  | .insertEventArchive id archiveID =>
    (∃ receipt ∈ receipts, receipt.manifest.id = archiveID) ∧
      Contains digest world.objects archiveID id
  | .deleteEvents ids => ∀ id ∈ ids, id ∈ world.tables.eventArchives
  | _ => True

/-- An open transaction. -/
structure Underway (world : World) (pending : Pending) (receipts : List Receipt) : Prop where
  sound : ∀ write ∈ pending, Sound digest world receipts write.2
  inserted : ∀ receipt ∈ receipts, ∃ now, (now, Statement.insertArchive receipt) ∈ pending

/-- The archives inserted by the open transaction, if there is one, after one more exchange. -/
def followTx (receipts : Option (List Receipt)) (exchange : signature.Exchange) :
    Option (List Receipt) :=
  match exchange with
  | ⟨.beginTx, (none : Option GoError)⟩ => some []
  | ⟨.commit, _⟩ | ⟨.rollback, _⟩ => none
  | ⟨.exec (.insertArchive receipt), .ok _⟩ => receipts.map (· ++ [receipt])
  | _ => receipts

/-- The archives inserted by the transaction that is open after a history. -/
def openTx (history : List signature.Exchange) : Option (List Receipt) :=
  history.foldl followTx none

@[simp]
theorem openTx_snoc (history : List signature.Exchange) (exchange : signature.Exchange) :
    openTx (history ++ [exchange]) = followTx (openTx history) exchange := by
  rw [openTx, List.foldl_append]
  rfl

/-- What an exchange has taught its thread. -/
def Learnt (world : World) (exchange : signature.Exchange) : Prop :=
  match exchange with
  | ⟨.outside (.write records), .ok receipt⟩ => Stored digest world.objects records receipt
  | ⟨.countEventArchives _ ids, .ok archived⟩ =>
    archived = ids.length → ∀ id ∈ ids, id ∈ world.tables.eventArchives
  | _ => True

/-- The state of a thread's own transaction. -/
def OwnSound (world : World) : Option Pending → Option (List Receipt) → Prop
  | none, none => True
  | some pending, some receipts => Underway digest world pending receipts
  | _, _ => False

/-- **What a thread knows.** -/
def Knows (world : World) (own : Option Pending) (history : List signature.Exchange) : Prop :=
  (∀ exchange ∈ history, Learnt digest world exchange) ∧ OwnSound digest world own (openTx history)

/-- **What the adapter does.** An archive is inserted in a transaction and after it was written; an
event is mapped to an archive inserted by the same transaction whose manifest lists it; events are
deleted after all of them were counted, in a transaction that maps none. -/
def Permitted (history : List signature.Exchange) : Call → Prop
  | .exec (.insertArchive receipt) => (openTx history).isSome ∧
      ∃ records, (⟨.outside (.write records), .ok receipt⟩ : signature.Exchange) ∈ history
  | .exec (.insertEventArchive id archiveID) => ∃ receipts, openTx history = some receipts ∧
      ∃ receipt ∈ receipts, receipt.manifest.id = archiveID ∧
        ∃ text ∈ receipt.manifest.eventIDs, ∃ parsed, parseEventID text = .ok parsed ∧ parsed.1 = id
  | .countEventArchives _ _ => openTx history = some []
  | .exec (.deleteEvents ids) => (openTx history).isSome ∧
      ∃ archiveID, (⟨.countEventArchives archiveID ids, .ok ids.length⟩ : signature.Exchange) ∈ history
  | _ => True

/-! ### Growth -/

variable {digest} {world later : World}

theorem Grows.refl (world : World) : Grows world world where
  archives _ _ here := here
  objects _ _ here := here
  mapped _ member := member

theorem Stored.grows {records : List EventRecord} {receipt : Receipt} (grows : Grows world later)
    (stored : Stored digest world.objects records receipt) :
    Stored digest later.objects records receipt :=
  ⟨grows.objects _ _ stored.1, stored.2⟩

theorem Contains.grows {archiveID : GoString} {id : ByteA} (grows : Grows world later)
    (contains : Contains digest world.objects archiveID id) :
    Contains digest later.objects archiveID id := by
  obtain ⟨key, records, here, rest⟩ := contains
  exact ⟨key, records, grows.objects _ _ here, rest⟩

theorem World.Archived.grows {archiveID : GoString} {id : ByteA} (grows : Grows world later)
    (archived : world.Archived archiveID id) : later.Archived archiveID id := by
  obtain ⟨receipt, records, entry, object, member⟩ := archived
  exact ⟨receipt, records, grows.archives _ _ entry, grows.objects _ _ object, member⟩

theorem Sound.grows {receipts : List Receipt} {statement : Statement} (grows : Grows world later)
    (sound : Sound digest world receipts statement) : Sound digest later receipts statement := by
  cases statement with
  | insertArchive receipt =>
    obtain ⟨records, stored⟩ := sound
    exact ⟨records, stored.grows grows⟩
  | insertEventArchive id archiveID => exact ⟨sound.1, sound.2.grows grows⟩
  | deleteEvents ids => exact fun id member => grows.mapped id (sound id member)
  | _ => trivial

theorem Learnt.grows {exchange : signature.Exchange} (grows : Grows world later)
    (learnt : Learnt digest world exchange) : Learnt digest later exchange := by
  unfold Learnt at learnt ⊢
  split
  · exact Stored.grows grows learnt
  · exact fun all id member => grows.mapped id (learnt all id member)
  · trivial

theorem OwnSound.grows {own : Option Pending} {receipts : Option (List Receipt)}
    (grows : Grows world later) (sound : OwnSound digest world own receipts) :
    OwnSound digest later own receipts := by
  rcases own with _ | pending <;> rcases receipts with _ | receipts
  · trivial
  · exact sound
  · exact sound
  · exact ⟨fun write member => (sound.sound write member).grows grows, sound.inserted⟩

/-- **What a thread knows is never undone.** -/
theorem Knows.grows {own : Option Pending} {history : List signature.Exchange}
    (grows : Grows world later) (knows : Knows digest world own history) :
    Knows digest later own history :=
  ⟨fun exchange member => (knows.1 exchange member).grows grows, knows.2.grows grows⟩

/-! ### Commit -/

/-- **A mapped event stands in the archive it is mapped to.** -/
theorem Catalogued.archived (good : Catalogued digest world) {id : ByteA} {archiveID : GoString}
    (mapped : world.tables.eventArchives.lookup id = some archiveID) :
    world.Archived archiveID id := by
  obtain ⟨recorded, key, content, object, same, member⟩ := good.mappings id archiveID mapped
  obtain ⟨receipt, entry⟩ := lookup_of_mem recorded
  obtain ⟨named, records, stored, digested, _⟩ := good.archives archiveID receipt entry
  have equal : records = content :=
    good.unique _ _ _ _ stored object (digested.symm.trans (named.trans same.symm))
  exact ⟨receipt, records, entry, stored, equal ▸ member⟩

theorem grows_publish (world : World) (pending : Pending) : Grows world (world.publish pending) where
  archives := (world.tables.change_execAll pending).kept
  objects _ _ here := here
  mapped := (world.tables.change_execAll pending).mapped

/-- **A commit keeps the invariant.** -/
theorem good_publish {pending : Pending} {receipts : List Receipt} (good : Good digest world)
    (underway : Underway digest world pending receipts) :
    Good digest (world.publish pending) := by
  have change := world.tables.change_execAll pending
  have catalogued : Catalogued digest (world.publish pending) := by
    refine ⟨fun archiveID receipt entry => ?_, fun id archiveID mapped => ?_, good.unique⟩
    · rcases change.archived archiveID receipt entry with old | ⟨⟨now, written⟩, named⟩
      · exact good.archives archiveID receipt old
      · exact ⟨named, underway.sound _ written⟩
    · rcases change.mapping id archiveID mapped with old | ⟨now, written⟩
      · obtain ⟨recorded, contains⟩ := good.mappings id archiveID old
        obtain ⟨receipt, entry⟩ := lookup_of_mem recorded
        exact ⟨mem_of_lookup (change.kept _ _ entry), contains⟩
      · obtain ⟨⟨receipt, member, named⟩, contains⟩ := underway.sound _ written
        exact ⟨named ▸ change.recorded receipt (underway.inserted receipt member), contains⟩
  refine ⟨catalogued, fun id committed => ?_⟩
  by_cases row : id ∈ (world.publish pending).tables.events
  · exact .inl row
  · right
    have before : id ∈ world.committed := by
      rcases Finset.mem_union.mp committed with old | new
      · exact old
      · exact absurd (List.mem_toFinset.mp new) row
    by_cases there : id ∈ world.tables.events
    · -- the row is deleted by this commit
      obtain ⟨ids, ⟨now, written⟩, listed⟩ := change.deleted id there row
      obtain ⟨archiveID, mapped⟩ := lookup_of_mem (change.mapped id (underway.sound _ written id listed))
      refine ⟨archiveID, ?_, catalogued.archived mapped⟩
      exact (if_pos ⟨there, row⟩).trans mapped
    · rcases good.live id before with live | ⟨archiveID, deleted, archived⟩
      · exact absurd live there
      · refine ⟨archiveID, ?_, archived.grows (grows_publish world pending)⟩
        exact (if_neg fun both => there both.1).trans deleted

/-! ### One call -/

variable {history : List signature.Exchange} {own : Option Pending}

theorem Knows.snoc (knows : Knows digest world own history) {next : Option Pending}
    {exchange : signature.Exchange} (learnt : Learnt digest world exchange)
    (sound : OwnSound digest world next (followTx (openTx history) exchange)) :
    Knows digest world next (history ++ [exchange]) := by
  refine ⟨fun other member => ?_, by rwa [openTx_snoc]⟩
  rcases List.mem_append.mp member with old | new
  · exact knows.1 other old
  · rwa [List.mem_singleton.mp new]

theorem Sound.mono {receipts more : List Receipt} {statement : Statement}
    (sound : Sound digest world receipts statement) (subset : receipts ⊆ more) :
    Sound digest world more statement := by
  cases statement with
  | insertEventArchive id archiveID =>
    obtain ⟨⟨receipt, member, named⟩, contains⟩ := sound
    exact ⟨⟨receipt, subset member, named⟩, contains⟩
  | insertArchive receipt => exact sound
  | deleteEvents ids => exact sound
  | _ => trivial

theorem Underway.nil (world : World) : Underway digest world [] [] :=
  ⟨fun _ member => (List.not_mem_nil member).elim, fun _ member => (List.not_mem_nil member).elim⟩

theorem Underway.snoc {pending : Pending} {receipts : List Receipt}
    (underway : Underway digest world pending receipts) (now : Time) {statement : Statement}
    (sound : Sound digest world receipts statement) :
    Underway digest world (pending ++ [(now, statement)]) receipts := by
  refine ⟨fun write member => ?_, fun receipt member => ?_⟩
  · rcases List.mem_append.mp member with old | new
    · exact underway.sound write old
    · rwa [List.mem_singleton.mp new]
  · obtain ⟨when, written⟩ := underway.inserted receipt member
    exact ⟨when, List.mem_append_left _ written⟩

theorem ownSound_exec {pending : Pending} {statement : Statement} (now : Time) (rows : Nat)
    (tables : Tables) (knows : Knows digest world (some pending) history)
    (permitted : Permitted history (.exec statement)) :
    OwnSound digest world (some (pending ++ [(now, tables.fix statement)]))
      (followTx (openTx history) ⟨.exec statement, .ok rows⟩) := by
  obtain ⟨learnt, sound⟩ := knows
  cases opened : openTx history with
  | none =>
    rw [opened] at sound
    exact sound.elim
  | some receipts =>
    rw [opened] at sound
    have underway : Underway digest world pending receipts := sound
    cases statement with
    | insertArchive receipt =>
      obtain ⟨_, records, written⟩ := permitted
      have stored : Stored digest world.objects records receipt := learnt _ written
      show Underway digest world (pending ++ [(now, .insertArchive receipt)]) (receipts ++ [receipt])
      refine ⟨fun write member => ?_, fun other member => ?_⟩
      · rcases List.mem_append.mp member with old | new
        · exact (underway.sound write old).mono (List.subset_append_left _ _)
        · rw [List.mem_singleton.mp new]
          exact ⟨records, stored⟩
      · rcases List.mem_append.mp member with old | new
        · obtain ⟨when, inserted⟩ := underway.inserted other old
          exact ⟨when, List.mem_append_left _ inserted⟩
        · rw [List.mem_singleton.mp new]
          exact ⟨now, List.mem_append_right _ (List.mem_singleton_self _)⟩
    | insertEventArchive id archiveID =>
      obtain ⟨inserted, same, receipt, member, named, text, listed, parsed, parses, rfl⟩ := permitted
      rw [opened, Option.some.injEq] at same
      subst same
      obtain ⟨when, written⟩ := underway.inserted receipt member
      obtain ⟨records, object, digested, ids⟩ := underway.sound _ written
      rw [ids] at listed
      obtain ⟨record, among, rfl⟩ := List.mem_map.mp listed
      rw [parseEventID, decodeID_encodeID] at parses
      cases parses
      exact underway.snoc now
        ⟨⟨receipt, member, named⟩, _, records, object, digested.symm.trans named, record, among, rfl⟩
    | deleteEvents ids =>
      obtain ⟨_, archiveID, counted⟩ := permitted
      have covered : ∀ id ∈ ids, id ∈ world.tables.eventArchives := learnt _ counted rfl
      refine underway.snoc now fun id member => covered id ?_
      exact List.mem_dedup.mp (List.mem_of_mem_filter member)
    | insertEvent e => exact underway.snoc now trivial
    | insertCandidate ref eligibleAt archiveID => exact underway.snoc now trivial
    | deleteCandidate ref => exact underway.snoc now trivial
    | retryCandidate ref failure => exact underway.snoc now trivial

theorem followTx_none_exec (statement : Statement) (reply : Except GoError Nat) :
    followTx none ⟨.exec statement, reply⟩ = none := by
  cases statement <;> cases reply <;> rfl

theorem sound_alone {statement : Statement} (knows : Knows digest world none history)
    (permitted : Permitted history (.exec statement)) (now : Time) :
    openTx history = none ∧ Underway digest world [(now, statement)] [] := by
  have closed : openTx history = none := by
    cases opened : openTx history with
    | none => rfl
    | some receipts =>
      have sound := knows.2
      rw [opened] at sound
      exact sound.elim
  have harmless : ∀ {statement : Statement}, Sound digest world [] statement →
      Underway digest world [(now, statement)] [] := by
    intro statement sound
    refine ⟨fun write member => ?_, fun receipt member => by cases member⟩
    rwa [List.mem_singleton.mp member]
  cases statement with
  | insertArchive receipt =>
    rw [Permitted, closed] at permitted
    cases permitted.1
  | insertEventArchive id archiveID =>
    obtain ⟨receipts, opened, _⟩ := permitted
    rw [closed] at opened
    cases opened
  | deleteEvents ids =>
    rw [Permitted, closed] at permitted
    cases permitted.1
  | _ => exact ⟨closed, harmless trivial⟩

/-- **Counting every event of a list**: all of them are mapped. -/
theorem mapped_of_count {pending : Pending} {archiveID : GoString} {ids : List ByteA}
    (underway : Underway digest world pending [])
    (all : (world.tables.execAll pending).count archiveID ids = ids.length) :
    ∀ id ∈ ids, id ∈ world.tables.eventArchives := by
  intro id member
  have whole : ids.dedup.filter (fun id =>
      (world.tables.execAll pending).eventArchives.lookup id = some archiveID) = ids.dedup := by
    refine List.filter_sublist.eq_of_length_le ?_
    have shorter := (List.dedup_sublist ids).length_le
    exact shorter.trans (le_of_eq all.symm)
  have found := List.filter_eq_self.mp whole id (List.mem_dedup.mpr member)
  rw [decide_eq_true_eq] at found
  rcases (world.tables.change_execAll pending).mapping id archiveID found with old | ⟨now, written⟩
  · exact mem_of_lookup old
  · -- a transaction that inserts no archive maps no event
    obtain ⟨⟨receipt, none, _⟩, _⟩ := underway.sound _ written
    cases none

/-- **A receipt**: the object of its events is stored beside the others. -/
theorem good_store {records : List EventRecord} {receipt : Receipt} (good : Good digest world)
    (writes : Writes digest world.objects records receipt) :
    Good digest (world.store receipt records) ∧ Grows world (world.store receipt records) ∧
      Stored digest (world.store receipt records).objects records receipt := by
  obtain ⟨named, ids, free, unique⟩ := writes
  have grows : Grows world (world.store receipt records) := by
    refine ⟨fun _ _ here => here, fun key content here => ?_, fun _ member => member⟩
    by_cases new : key = payloadKey receipt.manifest.events
    · subst new
      rw [free content here]
      exact AList.lookup_insert _
    · exact (AList.lookup_insert_ne new).trans here
  -- a lookup finds the new object or an old one
  have found : ∀ {key content}, (world.store receipt records).objects.lookup key = some content →
      content = records ∨ world.objects.lookup key = some content := by
    intro key content here
    rcases lookup_insert_cases here with ⟨_, new⟩ | ⟨_, old⟩
    · exact .inl new
    · exact .inr old
  have clash : ∀ {key content}, world.objects.lookup key = some content →
      digest content = digest records → content = records :=
    fun here equal => unique _ (AList.mem_lookup_iff.mp here) equal
  refine ⟨⟨⟨fun archiveID other entry => ?_, fun id archiveID mapped => ?_, ?_⟩, fun id member => ?_⟩,
    grows, AList.lookup_insert _, named, ids⟩
  · obtain ⟨same, content, stored⟩ := good.archives archiveID other entry
    exact ⟨same, content, stored.grows grows⟩
  · obtain ⟨recorded, contains⟩ := good.mappings id archiveID mapped
    exact ⟨recorded, contains.grows grows⟩
  · intro key other first second here there equal
    rcases found here with rfl | old
    · rcases found there with rfl | older
      · rfl
      · exact (clash older equal.symm).symm
    · rcases found there with rfl | older
      · exact clash old equal
      · exact good.unique _ _ _ _ old older equal
  · refine (good.live id member).imp_right ?_
    rintro ⟨archiveID, deleted, archived⟩
    exact ⟨archiveID, deleted, archived.grows grows⟩

theorem good_respondOutside {op : Retention.Call} {answer reply : op.Reply} {next : Option Pending}
    (good : Good digest world) (knows : Knows digest world own history)
    (answered : respondOutside digest world own op answer = some (later, next, reply)) :
    Good digest later ∧ Grows world later ∧
      Knows digest later next (history ++ [⟨.outside op, reply⟩]) := by
  cases op with
  | write records =>
    rcases answer with error | receipt
    · cases answered
      exact ⟨good, .refl world, knows.snoc trivial knows.2⟩
    · unfold respondOutside at answered
      dsimp only at answered
      split at answered
      · rename_i writes
        cases answered
        obtain ⟨still, grows, stored⟩ := good_store good writes
        exact ⟨still, grows, (knows.grows grows).snoc stored (knows.2.grows grows)⟩
      · cases answered
  | _ =>
    cases answered
    exact ⟨good, .refl world, knows.snoc trivial knows.2⟩

/-- **One call keeps what holds, and the thread knows more.** -/
theorem good_respond {op : Call} {choice : Choice} {next : Option Pending} {reply : op.Reply}
    (good : Good digest world) (knows : Knows digest world own history)
    (permitted : Permitted history op)
    (answered : respond digest world own op choice = some (later, next, reply)) :
    Good digest later ∧ Grows world later ∧ Knows digest later next (history ++ [⟨op, reply⟩]) := by
  -- a call that leaves the world as it is
  have stays : ∀ {exchange : signature.Exchange} {next : Option Pending},
      Learnt digest world exchange →
      OwnSound digest world next (followTx (openTx history) exchange) →
      Good digest world ∧ Grows world world ∧ Knows digest world next (history ++ [exchange]) :=
    fun learnt sound => ⟨good, .refl world, knows.snoc learnt sound⟩
  -- a call that publishes writes
  have publishes : ∀ {pending : Pending} {receipts : List Receipt} {exchange : signature.Exchange},
      Underway digest world pending receipts → (∀ world, Learnt digest world exchange) →
      followTx (openTx history) exchange = none →
      Good digest (world.publish pending) ∧ Grows world (world.publish pending) ∧
        Knows digest (world.publish pending) none (history ++ [exchange]) := by
    intro pending receipts exchange underway learnt closed
    have grows := grows_publish world pending
    refine ⟨good_publish good underway, grows, (knows.grows grows).snoc (learnt _) ?_⟩
    rw [closed]
    trivial
  cases op with
  | beginTx =>
    cases choice with
    | done now =>
      cases answered
      exact stays trivial (Underway.nil world)
    | failed error =>
      cases answered
      exact stays trivial knows.2
    | lost now error => cases answered
    | answered reply => cases answered
  | commit =>
    have underway : ∀ {pending : Pending}, own = some pending →
        ∃ receipts, Underway digest world pending receipts := by
      rintro pending rfl
      have sound := knows.2
      cases opened : openTx history with
      | none =>
        rw [opened] at sound
        exact sound.elim
      | some receipts =>
        rw [opened] at sound
        exact ⟨receipts, sound⟩
    cases choice with
    | done now =>
      obtain ⟨pending, rfl, same⟩ := Option.map_eq_some_iff.mp answered
      cases same
      obtain ⟨receipts, underway⟩ := underway rfl
      exact publishes underway (fun _ => trivial) rfl
    | lost now error =>
      obtain ⟨pending, rfl, same⟩ := Option.map_eq_some_iff.mp answered
      cases same
      obtain ⟨receipts, underway⟩ := underway rfl
      exact publishes underway (fun _ => trivial) rfl
    | failed error =>
      cases answered
      exact stays trivial trivial
    | answered reply => cases answered
  | rollback =>
    cases answered
    exact stays trivial trivial
  | exec statement =>
    cases choice with
    | done now =>
      cases own with
      | some pending =>
        cases answered
        exact stays trivial (ownSound_exec now _ _ knows permitted)
      | none =>
        cases answered
        obtain ⟨closed, underway⟩ := sound_alone knows permitted now
        exact publishes underway (fun _ => trivial) (by rw [closed, followTx_none_exec])
    | lost now error =>
      cases own with
      | some pending => cases answered
      | none =>
        cases answered
        obtain ⟨closed, underway⟩ := sound_alone knows permitted now
        exact publishes underway (fun _ => trivial) (by rw [closed, followTx_none_exec])
    | failed error =>
      cases answered
      have same : followTx (openTx history) ⟨.exec statement, .error error⟩ = openTx history := by
        cases statement <;> rfl
      exact stays trivial (by rw [same]; exact knows.2)
    | answered reply => cases answered
  | countEventArchives archiveID ids =>
    cases choice with
    | done now =>
      cases answered
      refine stays (fun all => ?_) knows.2
      have opened : openTx history = some [] := permitted
      have sound := knows.2
      rw [opened] at sound
      cases own with
      | none => exact sound.elim
      | some pending => exact mapped_of_count sound all
    | failed error =>
      cases answered
      exact stays trivial knows.2
    | lost now error => cases answered
    | answered reply => cases answered
  | selectEvents ids =>
    cases choice with
    | done now =>
      cases answered
      exact stays trivial knows.2
    | failed error =>
      cases answered
      exact stays trivial knows.2
    | lost now error => cases answered
    | answered reply => cases answered
  | outside op =>
    cases choice with
    | answered reply => exact good_respondOutside good knows answered
    | done now => cases answered
    | failed error => cases answered
    | lost now error => cases answered

end Invariant

end Trail.Postgres
