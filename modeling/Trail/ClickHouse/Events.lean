/-
**The ClickHouse adapter: inserting and restoring events.**

Every insertion carries a token made of the identities of its batches, and the server discards an
insertion whose token it has seen. `RestoreArchiveEvents` makes the identity of its one batch out of
the identifier of the archive alone, so all chunks of an archive carry the same token
(`restoreArchiveEvents_execute`): of a restore in chunks the first insertion is kept and the later
ones are discarded (`siteRun_events`).
-/

import Mathlib.Data.List.Sort
import Trail.Archive.RoundTrip

namespace Trail.ClickHouse

open Library Payload Storage Archive

/-! ### The methods -/

/-- The calls of the driver for an insertion of events. -/
inductive Call
  /-- `PrepareBatch` of `insertEvents`, with its `insert_deduplication_token`. -/
  | prepareBatch (token : GoString)
  | append (event : EventRecord)
  | abort
  | send

def Call.Reply : Call → Type
  | .prepareBatch _ | .append _ | .send => Option GoError
  | .abort => Unit

abbrev signature : Signature := ⟨Call, Call.Reply⟩

/-- `batch.Abort`, and the result beside it. -/
def abandon {α : Type} (value : α) : Prog signature α := .call .abort fun _ => .pure value

/-- The identity of a batch, `%s:%d:%s`. -/
def identity (batch : Storage.Batch) : GoString :=
  batch.delivery.stream ++ ascii ":" ++ Wire.decimal batch.delivery.streamSequence.toNat ++
    ascii ":" ++ encodeID batch.batchID

/-- `deduplicationToken`. -/
def deduplicationToken (sha256 : List UInt8 → Bytes 32) (batches : List Storage.Batch) : GoString :=
  let identities := (batches.map identity).insertionSort (· ≤ ·)
  Hex.encodeToString (sha256 ((ascii "|").intercalate identities)).1

/-- The stream of restored events. -/
def restoreStream : GoString := ascii "trail-archive-restore"

theorem length_take_id (raw : List UInt8) (enough : ¬ raw.length < 16) : (raw.take 16).length = 16 := by
  rw [List.length_take]
  omega

/-- The batch identifier of an archive: the first bytes of its identifier. -/
def archiveBatchID (archiveID : GoString) : Option EventID :=
  match Hex.decodeString archiveID with
  | none => none
  | some raw =>
    if long : raw.length < 16 then none
    else some ⟨raw.take 16, length_take_id raw long⟩

/-- An event as a restore inserts it. -/
def restoredEvent (batchID : EventID) (event : EventRecord) : EventRecord :=
  { event with batchID, delivery := { event.delivery with stream := restoreStream } }

/-- The one batch of a restore. -/
def restoreBatch (batchID : EventID) (events : List EventRecord) : Storage.Batch :=
  ⟨batchID, ⟨[], [], []⟩, { stream := restoreStream }, events.map (restoredEvent batchID)⟩

section Methods

variable (sha256 : List UInt8 → Bytes 32) (marshal : List PayloadLink → Option GoError)

/-- The loop of `WriteBatches` with `appendEvent`; `marshal` is the error of `json.Marshal`. -/
def appendEvents : List EventRecord → Prog signature (Option GoError)
  | [] => .pure none
  | event :: events =>
    match marshal event.payloads with
    | some error => abandon (some error)
    | none =>
      .call (.append event) fun
        | some error => abandon (some error)
        | none => appendEvents events

/-- `WriteBatches`. -/
def writeBatches (batches : List Storage.Batch) : Prog signature (Option GoError) :=
  if batches = [] then .pure none
  else
    .call (.prepareBatch (deduplicationToken sha256 batches)) fun
      | some error => .pure (some error)
      | none =>
        (appendEvents marshal (batches.flatMap (·.events))).bind fun
          | some error => .pure (some error)
          | none => .call .send .pure

/-- `RestoreArchiveEvents`. -/
def restoreArchiveEvents (archiveID : GoString) (events : List EventRecord) :
    Prog signature (Int × Option GoError) :=
  if events = [] then .pure (0, none)
  else
    match archiveBatchID archiveID with
    | none => .pure (0, some (errorsNew "trail/clickhouse: invalid archive ID"))
    | some batchID =>
      (writeBatches sha256 marshal [restoreBatch batchID events]).bind fun
        | some error => .pure (0, some error)
        | none => .pure (events.length, none)

end Methods

/-! ### The server -/

/-- `trail_events` by `event_id`, the tokens of the insertions so far, and the open batch. -/
structure Server where
  events : Table (List UInt8) EventRecord := ∅
  tokens : Finset GoString := ∅
  batch : Option (GoString × List EventRecord) := none

namespace Server

/-- An insertion: discarded when its token was seen, and otherwise its rows replace those with the
same identifiers. -/
def insert (server : Server) (token : GoString) (events : List EventRecord) : Server :=
  if token ∈ server.tokens then { server with batch := none }
  else
    { events := events.foldl (fun rows event => rows.insert event.id.1 event) server.events
      tokens := Insert.insert token server.tokens
      batch := none }

/-- How a server answers that does not fail. -/
def answer (server : Server) : (op : Call) → Server × op.Reply
  | .prepareBatch token => ({ server with batch := some (token, []) }, (none : Option GoError))
  | .append event =>
    ({ server with batch := server.batch.map fun batch => (batch.1, batch.2 ++ [event]) },
      (none : Option GoError))
  | .abort => ({ server with batch := none }, ())
  | .send =>
    match server.batch with
    | none => (server, (none : Option GoError))
    | some (token, events) => (server.insert token events, (none : Option GoError))

/-- An event is live. -/
def Live (server : Server) (event : EventRecord) : Prop := event.id.1 ∈ server.events

theorem mem_foldl_insert {events : List EventRecord} {rows : Table (List UInt8) EventRecord}
    {id : List UInt8} :
    id ∈ events.foldl (fun rows event => rows.insert event.id.1 event) rows ↔
      id ∈ rows ∨ ∃ event ∈ events, event.id.1 = id := by
  induction events generalizing rows with
  | nil => simp
  | cons event events ih =>
    rw [List.foldl_cons, ih, AList.mem_insert]
    constructor
    · rintro ((same | old) | ⟨other, among, same⟩)
      · exact .inr ⟨event, List.mem_cons_self, same.symm⟩
      · exact .inl old
      · exact .inr ⟨other, List.mem_cons_of_mem _ among, same⟩
    · rintro (old | ⟨other, among, same⟩)
      · exact .inl (.inr old)
      · rcases List.mem_cons.mp among with rfl | later
        · exact .inl (.inl same.symm)
        · exact .inr ⟨other, later, same⟩

variable {server : Server} {token : GoString}

/-- **What is live after an insertion**: nothing new when its token was seen. -/
theorem live_insert (events : List EventRecord) (event : EventRecord) :
    (server.insert token events).Live event ↔
      server.Live event ∨ (token ∉ server.tokens ∧ ∃ other ∈ events, other.id = event.id) := by
  unfold insert Live
  split
  · rename_i seen
    simp [seen]
  · rename_i fresh
    rw [mem_foldl_insert]
    simp only [fresh, not_false_eq_true, true_and, Subtype.ext_iff]

theorem mem_tokens_insert (events : List EventRecord) :
    token ∈ (server.insert token events).tokens := by
  unfold insert
  split
  · assumption
  · exact Finset.mem_insert_self _ _

end Server

/-! ### Insertions -/

/-- An environment that collects the rows of a batch: `opened` has the batch with its token and the rows
so far, `dropped` has none, and `sent` is what `Send` makes of it. -/
structure Collects {World : Type} (answer : World → (op : Call) → World × op.Reply)
    (opened sent : World → GoString → List EventRecord → World) (dropped : World → World) : Prop where
  prepare : ∀ world token,
    answer world (.prepareBatch token) = (opened world token [], (none : Option GoError))
  append : ∀ world token before event, answer (opened world token before) (.append event) =
    (opened world token (before ++ [event]), (none : Option GoError))
  abort : ∀ world token before, answer (opened world token before) .abort = (dropped world, ())
  send : ∀ world token events,
    answer (opened world token events) .send = (sent world token events, (none : Option GoError))

section Collects

variable {World : Type} {answer : World → (op : Call) → World × op.Reply}
  {opened sent : World → GoString → List EventRecord → World} {dropped : World → World}
  {sha256 : List UInt8 → Bytes 32} {marshal : List PayloadLink → Option GoError}
  {events : List EventRecord} {batches : List Storage.Batch}

theorem Collects.appendEvents (collects : Collects answer opened sent dropped)
    (marshals : ∀ event ∈ events, marshal event.payloads = none) (world : World) (token : GoString)
    (before : List EventRecord) :
    ((ClickHouse.appendEvents marshal events).execute answer (opened world token before)).2 =
      (opened world token (before ++ events), none) := by
  induction events generalizing before with
  | nil =>
    rw [List.append_nil]
    rfl
  | cons event events ih =>
    unfold ClickHouse.appendEvents
    rw [marshals event List.mem_cons_self]
    dsimp only
    rw [Prog.execute_call_snd, collects.append]
    dsimp only
    rw [ih (fun other member => marshals other (List.mem_cons_of_mem _ member)),
      List.append_assoc, List.singleton_append]

theorem Collects.appendEvents_refused (collects : Collects answer opened sent dropped)
    (refused : ∃ event ∈ events, marshal event.payloads ≠ none) (world : World) (token : GoString)
    (before : List EventRecord) :
    ∃ error, ((ClickHouse.appendEvents marshal events).execute answer
      (opened world token before)).2 = (dropped world, some error) := by
  induction events generalizing before with
  | nil =>
    obtain ⟨event, member, _⟩ := refused
    cases member
  | cons event events ih =>
    unfold ClickHouse.appendEvents
    cases marshalled : marshal event.payloads with
    | some error =>
      refine ⟨error, ?_⟩
      dsimp only
      unfold abandon
      rw [Prog.execute_call_snd, collects.abort]
      rfl
    | none =>
      dsimp only
      rw [Prog.execute_call_snd, collects.append]
      refine ih ?_ (before ++ [event])
      obtain ⟨other, member, fails⟩ := refused
      rcases List.mem_cons.mp member with rfl | later
      · exact absurd marshalled fails
      · exact ⟨other, later, fails⟩

/-- **`WriteBatches` is one insertion** of all the events. -/
theorem Collects.writeBatches (collects : Collects answer opened sent dropped)
    (nonempty : batches ≠ [])
    (marshals : ∀ event ∈ batches.flatMap (·.events), marshal event.payloads = none)
    (world : World) :
    ((ClickHouse.writeBatches sha256 marshal batches).execute answer world).2 =
      (sent world (deduplicationToken sha256 batches) (batches.flatMap (·.events)), none) := by
  unfold ClickHouse.writeBatches
  rw [if_neg nonempty, Prog.execute_call_snd, collects.prepare]
  dsimp only
  rw [Prog.execute_bind_snd (collects.appendEvents marshals world _ []), List.nil_append]
  exact collects.send world _ _

theorem Collects.writeBatches_refused (collects : Collects answer opened sent dropped)
    (refused : ∃ event ∈ batches.flatMap (·.events), marshal event.payloads ≠ none)
    (world : World) :
    ∃ error, ((ClickHouse.writeBatches sha256 marshal batches).execute answer world).2 =
      (dropped world, some error) := by
  have nonempty : batches ≠ [] := by
    rintro rfl
    obtain ⟨event, member, _⟩ := refused
    cases member
  unfold ClickHouse.writeBatches
  rw [if_neg nonempty, Prog.execute_call_snd, collects.prepare]
  dsimp only
  obtain ⟨error, fails⟩ := collects.appendEvents_refused refused world
    (deduplicationToken sha256 batches) []
  rw [Prog.execute_bind_snd fails]
  exact ⟨error, rfl⟩

end Collects

theorem Server.collects : Collects Server.answer
    (fun server token events => { server with batch := some (token, events) }) Server.insert
    fun server => { server with batch := none } :=
  ⟨fun _ _ => rfl, fun _ _ _ _ => rfl, fun _ _ _ => rfl, fun _ _ _ => rfl⟩

section Restores

variable {sha256 : List UInt8 → Bytes 32} {marshal : List PayloadLink → Option GoError}
  {server : Server} {archiveID : GoString} {events : List EventRecord}

/-- The batch identifier of an archive with a valid identifier. -/
def batchIDOf (archiveID : GoString) : EventID := (archiveBatchID archiveID).getD (Bytes.zero 16)

/-- The token of a restore, made of the identifier of the archive and nothing else. -/
def archiveToken (sha256 : List UInt8 → Bytes 32) (archiveID : GoString) : GoString :=
  deduplicationToken sha256 [restoreBatch (batchIDOf archiveID) []]

/-- What an accepted restore makes of the server. -/
def accept (sha256 : List UInt8 → Bytes 32) (server : Server) (archiveID : GoString)
    (events : List EventRecord) : Server :=
  if events = [] then server
  else server.insert (archiveToken sha256 archiveID)
    (events.map (restoredEvent (batchIDOf archiveID)))

/-- What a restore checks before it inserts. -/
def Accepts (marshal : List PayloadLink → Option GoError) (archiveID : GoString)
    (events : List EventRecord) : Prop :=
  events = [] ∨ ((archiveBatchID archiveID).isSome ∧
    ∀ event ∈ events, marshal event.payloads = none)

theorem flatMap_restoreBatch (batchID : EventID) (events : List EventRecord) :
    [restoreBatch batchID events].flatMap (·.events) = events.map (restoredEvent batchID) :=
  List.flatMap_singleton ..

/-- **A restore inserts its chunk** with the token of the archive. -/
theorem restoreArchiveEvents_execute (accepts : Accepts marshal archiveID events) :
    ((restoreArchiveEvents sha256 marshal archiveID events).execute Server.answer server).2 =
      (accept sha256 server archiveID events, ((events.length : Int), none)) := by
  unfold restoreArchiveEvents accept
  by_cases empty : events = []
  · rw [if_pos empty, if_pos empty, empty]
    rfl
  · obtain ⟨valid, marshals⟩ := accepts.resolve_left empty
    obtain ⟨batchID, decoded⟩ := Option.isSome_iff_exists.mp valid
    have inserted := @Collects.writeBatches _ _ _ _ _ sha256 marshal
      [restoreBatch batchID events] Server.collects (List.cons_ne_nil _ _) (fun event member => by
        rw [flatMap_restoreBatch] at member
        obtain ⟨other, among, rfl⟩ := List.mem_map.mp member
        exact marshals other among) server
    rw [flatMap_restoreBatch] at inserted
    rw [if_neg empty, if_neg empty, archiveToken, batchIDOf, decoded]
    dsimp only
    rw [Prog.execute_bind_snd inserted]
    rfl

theorem restoreArchiveEvents_refused (refuses : ¬ Accepts marshal archiveID events) :
    ∃ batch error,
      ((restoreArchiveEvents sha256 marshal archiveID events).execute Server.answer server).2 =
        ({ server with batch }, (0, some error)) := by
  unfold Accepts at refuses
  push Not at refuses
  obtain ⟨some, fails⟩ := refuses
  unfold restoreArchiveEvents
  rw [if_neg some]
  cases decoded : archiveBatchID archiveID with
  | none => exact ⟨server.batch, _, rfl⟩
  | some batchID =>
    obtain ⟨event, member, fails⟩ := fails (by rw [decoded]; rfl)
    obtain ⟨error, ran⟩ := @Collects.writeBatches_refused _ _ _ _ _ sha256 marshal
      [restoreBatch batchID events] Server.collects ⟨restoredEvent batchID event, by
        rw [flatMap_restoreBatch]
        exact List.mem_map_of_mem member, fails⟩ server
    dsimp only
    rw [Prog.execute_bind_snd ran]
    exact ⟨none, error, rfl⟩

theorem accept_seen (seen : archiveToken sha256 archiveID ∈ server.tokens) :
    (accept sha256 server archiveID events).events = server.events ∧
      (accept sha256 server archiveID events).tokens = server.tokens := by
  unfold accept
  split
  · exact ⟨rfl, rfl⟩
  · unfold Server.insert
    rw [if_pos seen]
    exact ⟨rfl, rfl⟩

end Restores

/-! ### A restore in chunks -/

section Restore

variable {prim : Primitives} {World : Type} {others : World → (op : Archive.Call) → World × op.Reply}
  {marshal : List PayloadLink → Option GoError} {receipt : Receipt} {active : List GoString}
  {server : Server} {events : List EventRecord}

/-- What a call of the archive package makes of the server. -/
def serve (sha256 : List UInt8 → Bytes 32) (marshal : List PayloadLink → Option GoError)
    (server : Server) : Archive.Call → Server
  | .restoreArchiveEvents archiveID events =>
    ((restoreArchiveEvents sha256 marshal archiveID events).execute Server.answer server).2.1
  | _ => server

/-- An environment in which events are restored to a server and everything else is answered by
others. -/
def siteAnswer (others : World → (op : Archive.Call) → World × op.Reply)
    (sha256 : List UInt8 → Bytes 32) (marshal : List PayloadLink → Option GoError)
    (site : World × Server) (op : Archive.Call) : (World × Server) × op.Reply :=
  (((others site.1 op).1, serve sha256 marshal site.2 op),
    match op with
    | .restoreArchiveEvents archiveID events =>
      ((restoreArchiveEvents sha256 marshal archiveID events).execute Server.answer site.2).2.2
    | op => (others site.1 op).2)

/-- The run of the whole procedure in it. -/
abbrev siteRun (prim : Primitives) (others : World → (op : Archive.Call) → World × op.Reply)
    (marshal : List PayloadLink → Option GoError) (active : List GoString) (receipt : Receipt)
    (limits : Nat → Int) (count : Nat) (site : World × Server) :
    List ((World × Server) × Archive.signature.Exchange) × (World × Server) × Except GoError Bool :=
  (restoreAll prim active receipt limits count 0 0).execute
    (siteAnswer others prim.sha256 marshal) site

theorem execute_server {α : Type} (site : World × Server) (program : Prog Archive.signature α) :
    (program.execute (siteAnswer others prim.sha256 marshal) site).2.1.2 =
      ((program.execute (siteAnswer others prim.sha256 marshal) site).1.map fun entry =>
        entry.2.op).foldl (serve prim.sha256 marshal) site.2 :=
  Prog.execute_part Prod.snd (serve prim.sha256 marshal) (fun _ _ => rfl) site program

theorem serve_quiet {op : Archive.Call} (quiet : op.Quiet) :
    serve prim.sha256 marshal server op = server := by
  cases op with
  | restoreArchiveEvents archiveID passed => exact absurd rfl (quiet archiveID passed)
  | _ => rfl

theorem serve_seen {archiveID : GoString} {op : Archive.Call}
    (seen : archiveToken prim.sha256 archiveID ∈ server.tokens)
    (named : ∀ other passed, op = .restoreArchiveEvents other passed → other = archiveID) :
    (serve prim.sha256 marshal server op).events = server.events ∧
      (serve prim.sha256 marshal server op).tokens = server.tokens := by
  cases op with
  | restoreArchiveEvents other passed =>
    obtain rfl := named other passed rfl
    unfold serve
    dsimp only
    by_cases accepts : Accepts marshal other passed
    · rw [restoreArchiveEvents_execute accepts]
      exact accept_seen seen
    · obtain ⟨batch, error, ran⟩ := @restoreArchiveEvents_refused prim.sha256 _ server _ _ accepts
      rw [ran]
      exact ⟨rfl, rfl⟩
  | _ => exact ⟨rfl, rfl⟩

theorem serveAll_seen {archiveID : GoString} {ops : List Archive.Call}
    (seen : archiveToken prim.sha256 archiveID ∈ server.tokens)
    (named : ∀ op ∈ ops, ∀ other passed, op = .restoreArchiveEvents other passed →
      other = archiveID) :
    (ops.foldl (serve prim.sha256 marshal) server).events = server.events := by
  induction ops generalizing server with
  | nil => rfl
  | cons op ops ih =>
    obtain ⟨rows, tokens⟩ := @serve_seen prim marshal server archiveID op seen
      (named op List.mem_cons_self)
    rw [List.foldl_cons, ih (tokens ▸ seen)
      fun other member => named other (List.mem_cons_of_mem _ member), rows]

theorem serveAll_quiet {ops : List Archive.Call} (quiet : ∀ op ∈ ops, op.Quiet) :
    ops.foldl (serve prim.sha256 marshal) server = server := by
  induction ops with
  | nil => rfl
  | cons op ops ih =>
    rw [List.foldl_cons, serve_quiet (quiet op List.mem_cons_self)]
    exact ih fun other member => quiet other (List.mem_cons_of_mem _ member)

theorem restoreAll_named {Site : Type} (answer : Site → (op : Archive.Call) → Site × op.Reply)
    (limits : Nat → Int) (fuel round : Nat) (offset : Int) (site : Site) :
    ∀ entry ∈ ((restoreAll prim active receipt limits fuel round offset).execute answer site).1,
      ∀ archiveID passed, entry.2.op = .restoreArchiveEvents archiveID passed →
        archiveID = receipt.manifest.id := by
  induction fuel generalizing round offset site with
  | zero => exact fun _ member => (List.not_mem_nil member).elim
  | succ fuel ih =>
    intro entry member archiveID passed same
    unfold restoreAll at member
    rw [Prog.execute_bind] at member
    rcases List.mem_append.mp member with early | late
    · obtain ⟨before, after, parts⟩ :=
        List.append_of_mem (List.mem_map_of_mem (f := Prod.snd) early)
      have allowed := ((restore_spec active true).trace (Prog.execute_trace answer site
        (restore prim active true receipt offset (limits round)))).1 before entry.2 after parts
      rw [same] at allowed
      obtain ⟨_, manifest, _, named, known, _⟩ := allowed
      exact named.trans known
    · split at late
      · cases late
      · split at late
        · cases late
        · exact ih _ _ _ entry late archiveID passed same

/-- **The server after a restore that succeeds**: its chunk of the archive was accepted. -/
theorem restore_server {written : List Archive.signature.Exchange}
    {lines : List (List UInt8)} {data : List UInt8} {offset limit : Int}
    (wrote : Written prim events written receipt lines data) (honest : Honest prim written)
    (inverts : Inverts prim events receipt.manifest) {site : World × Server}
    (collisionFree : CollisionFree prim written
      (((restore prim active true receipt offset limit).execute
        (siteAnswer others prim.sha256 marshal) site).1.map Prod.snd))
    (done : ((restore prim active true receipt offset limit).execute
      (siteAnswer others prim.sha256 marshal) site).2.2.2 = none) :
    1 ≤ limit ∧ ((restore prim active true receipt offset limit).execute
      (siteAnswer others prim.sha256 marshal) site).2.1.2 =
        accept prim.sha256 site.2 receipt.manifest.id (chunk events offset limit) := by
  have ends := (restore_spec active true).trace (Prog.execute_trace
    (siteAnswer others prim.sha256 marshal) site
    (restore prim active true receipt offset limit)) |>.2 _ rfl
  rcases ends with ⟨failed, _⟩ | ⟨before, manifest, passed, complete, restored, trace, quiet, named,
    verified, _⟩
  · exact absurd done failed
  rw [List.nil_append] at trace
  have subset : before ⊆ ((restore prim active true receipt offset limit).execute
      (siteAnswer others prim.sha256 marshal) site).1.map Prod.snd := by
    rw [trace]
    exact List.subset_append_left _ _
  obtain ⟨rfl, _⟩ := wrote.genuine honest inverts (collisionFree.of_subset prim subset) verified
  obtain ⟨_, logical, read⟩ := verified
  obtain ⟨early, late, whole, first, last⟩ := List.map_eq_append_iff.mp trace
  obtain ⟨⟨now, exchange⟩, rfl, same⟩ := List.map_eq_singleton_iff.mp last
  dsimp only at same
  subst same
  -- the call that passed the chunk on returned no error, so the chunk was accepted
  have accepts : Accepts marshal manifest.id (chunk events offset limit) := by
    by_contra refuses
    obtain ⟨batch, error, ran⟩ := @restoreArchiveEvents_refused prim.sha256 _ now.2 _ _ refuses
    have reply := Prog.execute_reply (siteAnswer others prim.sha256 marshal) site
      (restore prim active true receipt offset limit)
      (whole ▸ List.mem_append_right early List.mem_cons_self)
    have refusal : (siteAnswer others prim.sha256 marshal now (.restoreArchiveEvents manifest.id
      (chunk events offset limit))).2 = ((0 : Int), some error) := congrArg Prod.snd ran
    have outcome := congrArg Prod.snd (reply.trans refusal)
    rw [show _ = none from done] at outcome
    cases outcome
  have silent : ∀ op ∈ early.map (fun entry => entry.2.op), op.Quiet := by
    intro op member
    obtain ⟨other, among, rfl⟩ := List.mem_map.mp member
    exact quiet other.2 (first ▸ List.mem_map_of_mem among)
  refine ⟨read.bounds.2.1, ?_⟩
  rw [execute_server, whole, List.map_append, List.foldl_append, serveAll_quiet silent, ← named]
  exact congrArg Prod.fst (restoreArchiveEvents_execute accepts)

/-- **The rows after the whole procedure**: those of one insertion, that of the first chunk. -/
theorem siteRun_events {written : List Archive.signature.Exchange} {lines : List (List UInt8)}
    {data : List UInt8} (wrote : Written prim events written receipt lines data)
    (honest : Honest prim written) (inverts : Inverts prim events receipt.manifest)
    {limits : Nat → Int} {count : Nat} {site : World × Server}
    (collisionFree : CollisionFree prim written
      ((siteRun prim others marshal active receipt limits count site).1.map Prod.snd))
    (complete : (siteRun prim others marshal active receipt limits count site).2.2 = .ok true) :
    (siteRun prim others marshal active receipt limits count site).2.1.2.events =
      (site.2.insert (archiveToken prim.sha256 receipt.manifest.id)
        ((events.take (limits 0).toNat).map
          (restoredEvent (batchIDOf receipt.manifest.id)))).events := by
  cases count with
  | zero => cases complete
  | succ count =>
    have named := @restoreAll_named prim receipt active _
      (siteAnswer others prim.sha256 marshal) limits (count + 1) 0 0 site
    obtain ⟨rest, whole, fails⟩ : ∃ rest : RestoreResult × Option GoError →
          Prog Archive.signature (Except GoError Bool),
        restoreAll prim active receipt limits (count + 1) 0 0 =
          (restore prim active true receipt 0 (limits 0)).bind rest ∧
        ∀ result error, rest (result, some error) = .pure (.error error) :=
      ⟨_, rfl, fun _ _ => rfl⟩
    have parts := Prog.execute_bind (siteAnswer others prim.sha256 marshal) site
      (restore prim active true receipt 0 (limits 0)) rest
    rw [← whole] at parts
    have subset : ((restore prim active true receipt 0 (limits 0)).execute
        (siteAnswer others prim.sha256 marshal) site).1.map Prod.snd ⊆
          (siteRun prim others marshal active receipt limits (count + 1) site).1.map Prod.snd := by
      rw [siteRun, parts, List.map_append]
      exact List.subset_append_left _ _
    have done : ((restore prim active true receipt 0 (limits 0)).execute
        (siteAnswer others prim.sha256 marshal) site).2.2.2 = none := by
      rw [siteRun, parts] at complete
      rcases outcome : ((restore prim active true receipt 0 (limits 0)).execute
        (siteAnswer others prim.sha256 marshal) site).2.2 with ⟨result, _ | error⟩
      · rw [outcome]
      · rw [outcome, fails] at complete
        cases complete
    obtain ⟨positive, first⟩ := restore_server wrote honest inverts
      (collisionFree.of_subset prim subset) done
    have some : events.take (limits 0).toNat ≠ [] := by
      rw [← List.length_pos_iff, List.length_take]
      have := List.length_pos_iff.mpr wrote.nonempty
      omega
    rw [execute_server, show chunk events 0 (limits 0) = events.take (limits 0).toNat from rfl, accept,
      if_neg some] at first
    -- the other restores carry the same token
    rw [siteRun, execute_server, parts, List.map_append, List.foldl_append, first]
    refine serveAll_seen (Server.mem_tokens_insert _) fun op member other passed same => ?_
    obtain ⟨entry, among, rfl⟩ := List.mem_map.mp member
    refine named entry ?_ other passed same
    rw [parts]
    exact List.mem_append_right _ among

/-- **A restore in chunks keeps its first chunk.** After a write, whatever the stores return and
however the limits are chosen: when the procedure is complete, every archived event is live exactly
when each was live before or is in the first chunk, and the token of the archive is new. -/
theorem chunked_restore_iff (writer : BundleWriter) {written : List Archive.signature.Exchange}
    (wrote : (write prim writer events).Trace written (some (.ok receipt)))
    (honest : Honest prim written) (inverts : Inverts prim events receipt.manifest)
    {limits : Nat → Int} {count : Nat} {site : World × Server}
    (collisionFree : CollisionFree prim written
      ((siteRun prim others marshal active receipt limits count site).1.map Prod.snd))
    (complete : (siteRun prim others marshal active receipt limits count site).2.2 = .ok true) :
    (∀ event ∈ events,
      (siteRun prim others marshal active receipt limits count site).2.1.2.Live event) ↔
    ∀ event ∈ events, site.2.Live event ∨
      (archiveToken prim.sha256 receipt.manifest.id ∉ site.2.tokens ∧
        ∃ other ∈ events.take (limits 0).toNat, other.id = event.id) := by
  obtain ⟨lines, data, wrote⟩ := write_written prim wrote
  have rows := siteRun_events wrote honest inverts collisionFree complete
  refine forall₂_congr fun event _ => ?_
  unfold Server.Live
  rw [rows]
  refine (Server.live_insert _ event).trans (or_congr Iff.rfl (and_congr Iff.rfl ?_))
  constructor
  · rintro ⟨other, among, same⟩
    obtain ⟨origin, member, rfl⟩ := List.mem_map.mp among
    exact ⟨origin, member, same⟩
  · rintro ⟨origin, member, same⟩
    exact ⟨_, List.mem_map_of_mem member, same⟩

/-- Against the stores of a depot, a server that accepts every chunk makes no difference to the
procedure. -/
theorem siteRun_result {depot : Depot} {limits : Nat → Int} {count : Nat} {world : Archive.World}
    (accepts : ∀ passed, Accepts marshal receipt.manifest.id passed) (server : Server) :
    (siteRun prim (depot.answer prim) marshal depot.active.keys receipt limits count
      (world, server)).2.2 = (restoreRun prim depot receipt limits count world).2.2 := by
  have named := @restoreAll_named prim receipt depot.active.keys _ (depot.answer prim) limits count
    0 0 world
  refine congrArg Prod.snd (Prog.execute_watched (serve prim.sha256 marshal)
    (fun entry member seen => ?_) server)
  obtain ⟨before, ⟨op, reply⟩⟩ := entry
  cases op with
  | restoreArchiveEvents archiveID passed =>
    obtain rfl := named _ member archiveID passed rfl
    refine Prod.ext rfl ?_
    show ((restoreArchiveEvents prim.sha256 marshal receipt.manifest.id passed).execute
      Server.answer seen).2.2 = _
    rw [restoreArchiveEvents_execute (accepts passed)]
    rfl
  | _ => rfl

end Restore

/-! ### Two events, one at a time -/

/-- `json.Marshal` of links that all marshal. -/
def marshalled (_ : List PayloadLink) : Option GoError := none

/-- The run that restores the two records one at a time to an empty server. -/
abbrev twinSite : List ((Archive.World × Server) × Archive.signature.Exchange) ×
    (Archive.World × Server) × Except GoError Bool :=
  siteRun twinPrimitives (twinDepot.answer twinPrimitives) marshalled twinDepot.active.keys
    twinReceipt (fun _ => 1) twinRecords.length (twinLater, {})

theorem accepts_twin (passed : List EventRecord) : Accepts marshalled twinReceipt.manifest.id passed := by
  refine .inr ⟨?_, fun _ _ => rfl⟩
  decide

theorem twin_complete : twinSite.2.2 = .ok true := by
  obtain ⟨lines, data, wrote⟩ := written_of_run twin_written.1
  have legible := wrote.legible twin_inverts twin_marshalled twin_short
  have ready := (wrote.ready twin_collisionFree).of_kept
    fun _ _ _ kept => ⟨kept.1, twin_intact _ _ kept.2⟩
  obtain ⟨_, complete⟩ := @restoreRun_restored twinPrimitives twinDepot twinReceipt lines data
    twinLater twinRecords _ ready legible wrote.nonempty (wrote.configured twin_links)
    twin_collisionFree (fun _ => 1) fun _ => by decide
  rw [twinSite, @siteRun_result twinPrimitives marshalled twinReceipt twinDepot (fun _ => 1)
    twinRecords.length twinLater accepts_twin {}]
  exact complete

theorem twin_digests (trace : List Archive.signature.Exchange) : CollisionFree twinPrimitives
    ((writeRun twinPrimitives twinDepot twinRecords twinWorld).1.map Prod.snd) trace := by
  refine small_collisionFree (List.cons_ne_nil _ _) (by decide) (fun data put => ?_) trace
  obtain ⟨_, _, _, put⟩ := put
  exact twin_written.2 (mem_putContents put)

theorem twin_honest : Honest twinPrimitives
    ((writeRun twinPrimitives twinDepot twinRecords twinWorld).1.map Prod.snd) :=
  honest_execute twinPrimitives twinDepot _ twinWorld

theorem chunked_restore_iff_twin :
    (∀ event ∈ twinRecords, twinSite.2.1.2.Live event) ↔
    ∀ event ∈ twinRecords, ({} : Server).Live event ∨
      (archiveToken twinPrimitives.sha256 twinReceipt.manifest.id ∉ ({} : Server).tokens ∧
        ∃ other ∈ twinRecords.take 1, other.id = event.id) := by
  have ran := trace_of_run twin_written.1
  have complete := twin_complete
  have digests := twin_digests (twinSite.1.map Prod.snd)
  have honest := twin_honest
  unfold twinSite at *
  exact chunked_restore_iff twinDepot.writer ran honest twin_inverts digests complete

/-- **A restore that loses an event.** Two events restored one at a time to an empty server: the
procedure is complete, and the second event is not live. -/
theorem chunked_restore_loses :
    (writeRun twinPrimitives twinDepot twinRecords twinWorld).2.2 = .ok twinReceipt ∧
    twinSite.2.2 = .ok true ∧ ¬ ∀ event ∈ twinRecords, twinSite.2.1.2.Live event := by
  refine ⟨twin_written.1, twin_complete, fun live => ?_⟩
  obtain ⟨lines, data, wrote⟩ := written_of_run twin_written.1
  have complete := twin_complete
  have digests := twin_digests (twinSite.1.map Prod.snd)
  have honest := twin_honest
  have second := live (linkedRecord 2 [longRef]) (List.mem_cons_of_mem _ (List.mem_singleton_self _))
  unfold twinSite Server.Live at *
  rw [siteRun_events wrote honest twin_inverts digests complete] at second
  rcases (Server.live_insert _ (linkedRecord 2 [longRef])).mp second with old | ⟨_, other, among, same⟩
  · exact (AList.notMem_empty _) old
  · rw [List.mem_singleton.mp among] at same
    exact absurd same (by decide)

end Trail.ClickHouse
