/-
**Archive round trip in chunks.**

Following `Next` from offset zero, with any limits, a restore passes every archived event on exactly
once and in order, each after the payload objects it links to are back in their stores; doing it all
again leaves the restored events as they are.

* `Ready` is what a restore needs of the archive store; it outlives every restore (`Ready.execute`).
* `copyBack_execute`, `restore_execute` and `restoreAll_execute` are the loop over the payloads, one
  restore, and the whole procedure.
-/

import Trail.Archive.ReadBack
import Trail.Archive.TamperEvidence

namespace Trail.Archive

open Library Payload Storage

/-! ### The procedure -/

/-- Restores that follow `Next` until one is complete, with the given limits; the result says whether
one was. -/
def restoreAll (prim : Primitives) (active : List GoString) (receipt : Receipt) (limits : Nat → Int) :
    Nat → Nat → Int → Prog signature (Except GoError Bool)
  | 0, _, _ => .pure (.ok false)
  | fuel + 1, round, offset =>
    (restore prim active true receipt offset (limits round)).bind fun
      | (_, some error) => .pure (.error error)
      | (result, none) =>
        if result.complete then .pure (.ok true)
        else restoreAll prim active receipt limits fuel (round + 1) result.next

/-- The events passed on in a run, in order. -/
def passedIn (log : List (World × signature.Exchange)) : List EventRecord :=
  log.flatMap fun entry =>
    match entry.2.op with
    | .restoreArchiveEvents _ events => events
    | _ => []

theorem passedIn_append (first second : List (World × signature.Exchange)) :
    passedIn (first ++ second) = passedIn first ++ passedIn second :=
  List.flatMap_append

theorem passedIn_quiet {log : List (World × signature.Exchange)}
    (quiet : ∀ entry ∈ log, entry.2.op.Quiet) : passedIn log = [] := by
  refine List.flatMap_eq_nil_iff.mpr fun entry member => ?_
  split
  · rename_i archiveID events same
    exact absurd same (quiet entry member archiveID events)
  · rfl

/-! ### What a restore needs -/

section Restore

variable {prim : Primitives} {depot : Depot} {receipt : Receipt} {lines : List (List UInt8)}
  {data : List UInt8} {contents : Set (List UInt8)} {world : World} {events : List EventRecord}

/-- The archive store has the event object, the manifest and a copy of every payload, all of them
among the given contents. -/
structure Ready (prim : Primitives) (depot : Depot) (receipt : Receipt) (lines : List (List UInt8))
    (data : List UInt8) (contents : Set (List UInt8)) (world : World) : Prop
    extends Stocked prim depot receipt lines data world where
  payloads : ∀ entry ∈ receipt.manifest.payloads, ∃ content ∈ contents,
    Kept prim depot depot.archive content entry.source.compression world ∧
    entry.archive = putRef prim.sha256 prim.gzip (depot.stores depot.archive) content
      (sameOptions entry.source) ∧
    prim.sha256 content = entry.source.sha256 ∧ Int64.ofNat content.length = entry.source.size
  eventsAmong : joinLines lines ∈ contents
  manifestAmong : data ∈ contents

theorem Ready.of_kept {later : World} (ready : Ready prim depot receipt lines data contents world)
    (stays : ∀ content ∈ contents, ∀ compression,
      Kept prim depot depot.archive content compression world →
      Kept prim depot depot.archive content compression later) :
    Ready prim depot receipt lines data contents later := by
  refine ⟨⟨stays _ ready.eventsAmong _ ready.events,
    stays _ ready.manifestAmong _ ready.manifest, ready.eventsRef, ready.manifestRef⟩,
    fun entry member => ?_, ready.eventsAmong, ready.manifestAmong⟩
  obtain ⟨content, inside, kept, rest⟩ := ready.payloads entry member
  exact ⟨content, inside, stays _ inside _ kept, rest⟩

/-- **The archive stays ready** through a run that puts only contents it has. -/
theorem Ready.execute {α : Type} (program : Prog signature α)
    (ready : Ready prim depot receipt lines data contents world)
    (collisionFree : Set.InjOn prim.sha256 contents)
    (among : putContents (program.execute (depot.answer prim) world).1 ⊆ contents) :
    Ready prim depot receipt lines data contents
      (program.execute (depot.answer prim) world).2.1 :=
  ready.of_kept fun _ inside _ kept =>
    kept.execute program fun _ put => collisionFree (among put) inside

/-- A payload is back in the store that is active under its store's name. -/
def Back (prim : Primitives) (depot : Depot) (contents : Set (List UInt8)) (world : World)
    (ref : Ref) : Prop :=
  ∃ store, ∃ content ∈ contents, depot.active.lookup ref.store = some store ∧
    Kept prim depot store content ref.compression world ∧
    prim.sha256 content = ref.sha256 ∧ Int64.ofNat content.length = ref.size

theorem Back.execute {α : Type} {ref : Ref} (program : Prog signature α)
    (back : Back prim depot contents world ref) (collisionFree : Set.InjOn prim.sha256 contents)
    (among : putContents (program.execute (depot.answer prim) world).1 ⊆ contents) :
    Back prim depot contents (program.execute (depot.answer prim) world).2.1 ref := by
  obtain ⟨store, content, inside, found, kept, rest⟩ := back
  exact ⟨store, content, inside, found,
    kept.execute program fun other put => collisionFree (among put) inside, rest⟩

/-- Everything put goes to a store that an entry names. -/
def PutBackOnly (entries : List PayloadEntry) (log : List (World × signature.Exchange)) : Prop :=
  ∀ entry ∈ log, ∀ place content options, entry.2.op = .put place content options →
    ∃ payload ∈ entries, place = .active payload.source.store

/-- What a run of the loop over the payloads does: it ends well, restores no event, puts nothing new,
and puts back what is needed. -/
structure CopiedBack (prim : Primitives) (depot : Depot) (contents : Set (List UInt8))
    (needed : Finset GoString) (entries : List PayloadEntry) (world : World)
    (run : List (World × signature.Exchange) × World × Option GoError) : Prop where
  done : run.2.2 = none
  target : run.2.1.target = world.target
  among : putContents run.1 ⊆ contents
  places : PutBackOnly entries run.1
  back : ∀ entry ∈ entries, payloadKey entry.source ∈ needed →
    Back prim depot contents run.2.1 entry.source

/-- **The payloads a chunk needs are put back.** -/
theorem copyBack_execute (needed : Finset GoString) (entries : List PayloadEntry)
    (subset : entries ⊆ receipt.manifest.payloads)
    (configured : ∀ entry ∈ entries, ∃ store, depot.active.lookup entry.source.store = some store)
    (collisionFree : Set.InjOn prim.sha256 contents)
    (ready : Ready prim depot receipt lines data contents world) :
    CopiedBack prim depot contents needed entries world
      ((copyBack prim depot.active.keys needed entries).execute (depot.answer prim) world) := by
  induction entries generalizing world with
  | nil =>
    refine ⟨rfl, rfl, ?_, fun entry member => (List.not_mem_nil member).elim,
      fun entry member => (List.not_mem_nil member).elim⟩
    rintro content ⟨entry, member, _⟩
    exact (List.not_mem_nil member).elim
  | cons entry entries ih =>
    have rest : entries ⊆ receipt.manifest.payloads :=
      fun _ member => subset (List.mem_cons_of_mem entry member)
    have others := fun other (member : other ∈ entries) =>
      configured other (List.mem_cons_of_mem entry member)
    unfold copyBack
    split
    · rename_i skipped
      obtain ⟨done, target, among, places, back⟩ := ih rest others ready
      refine ⟨done, target, among, fun other member place content options same => ?_,
        fun other member wanted => ?_⟩
      · obtain ⟨payload, listed, active⟩ := places other member place content options same
        exact ⟨payload, List.mem_cons_of_mem _ listed, active⟩
      rcases List.mem_cons.mp member with rfl | later
      · exact absurd wanted skipped
      · exact back other later wanted
    · obtain ⟨store, found⟩ := configured entry (List.mem_cons_self ..)
      obtain ⟨content, inside, kept, copy, digest, size⟩ :=
        ready.payloads entry (subset (List.mem_cons_self ..))
      have named : ¬ depot.active.keys.contains entry.source.store = false := by
        have member : entry.source.store ∈ depot.active.keys := Table.mem_of_lookup found
        simp [member]
      have opened := @answer_openRef_kept prim depot world content (sameOptions entry.source) kept
      rw [← copy] at opened
      have compression : entry.archive.compression = (sameOptions entry.source).compression := by
        rw [copy]
        rfl
      have put := @Depot.answer_put_whole prim depot world (.active entry.source.store) store
        content (sameOptions entry.source) found kept.1
      have verified : ¬ ((putRef prim.sha256 prim.gzip (depot.stores store) content
          (sameOptions entry.source)).sha256 ≠ entry.source.sha256 ∨
          (putRef prim.sha256 prim.gzip (depot.stores store) content
            (sameOptions entry.source)).size ≠ entry.source.size) := by
        push Not
        exact ⟨digest, size⟩
      -- the put leaves the archive ready, so the loop goes on from there
      have still := ready.of_kept fun other member _ there => by
        refine there.answer (.put (.active entry.source.store) ⟨content, none⟩
          (sameOptions entry.source)) fun _ _ _ same => ?_
        cases same
        exact collisionFree inside member
      rw [put] at still
      obtain ⟨done, target, among, places, back⟩ := ih rest others still
      rw [if_neg named, Prog.execute_call opened]
      dsimp only
      rw [compression, Gzip.logical_pack]
      dsimp only
      rw [Prog.execute_call put]
      dsimp only
      rw [if_neg verified]
      refine ⟨done, target, ?_, fun other member place stream options same => ?_,
        fun other member wanted => ?_⟩
      · dsimp only
        rw [putContents_other fun _ _ _ => Call.noConfusion, putContents_put]
        exact Set.insert_subset inside among
      · rcases List.mem_cons.mp member with rfl | later
        · cases same
        rcases List.mem_cons.mp later with rfl | later
        · cases same
          exact ⟨entry, List.mem_cons_self .., rfl⟩
        · obtain ⟨payload, listed, active⟩ := places other later place stream options same
          exact ⟨payload, List.mem_cons_of_mem _ listed, active⟩
      · rcases List.mem_cons.mp member with rfl | later
        · exact Back.execute _ ⟨store, content, inside, found, kept_setDisk content kept.1, digest,
            size⟩ collisionFree among
        · exact back other later wanted

/-! ### One restore -/

/-- **What a stretch of a restore does**: it passes these events on under the identifier of the
archive, each when the payloads it needs are back, merges them into the target, and leaves the
archive ready. -/
structure Restored (prim : Primitives) (depot : Depot) (receipt : Receipt) (lines : List (List UInt8))
    (data : List UInt8) (contents : Set (List UInt8)) (events : List EventRecord) (world : World)
    (log : List (World × signature.Exchange)) (later : World) : Prop where
  passed : passedIn log = events
  delivered : ∀ entry ∈ log, ∀ archiveID passed,
    entry.2.op = .restoreArchiveEvents archiveID passed → archiveID = receipt.manifest.id ∧
      ∀ payload ∈ receipt.manifest.payloads, payloadKey payload.source ∈ neededPayloads passed →
        Back prim depot contents entry.1 payload.source
  target : later.target = Depot.merge world.target events
  among : putContents log ⊆ contents
  places : PutBackOnly receipt.manifest.payloads log
  ready : Ready prim depot receipt lines data contents later

theorem Restored.append {first second : List EventRecord} {middle later : World}
    {log more : List (World × signature.Exchange)}
    (before : Restored prim depot receipt lines data contents first world log middle)
    (after : Restored prim depot receipt lines data contents second middle more later) :
    Restored prim depot receipt lines data contents (first ++ second) world (log ++ more) later := by
  refine ⟨?_, fun entry member => ?_, ?_, ?_, fun entry member => ?_, after.ready⟩
  · rw [passedIn_append, before.passed, after.passed]
  · rcases List.mem_append.mp member with early | late
    · exact before.delivered entry early
    · exact after.delivered entry late
  · rw [after.target, before.target, Depot.merge, Depot.merge, Depot.merge, List.foldl_append]
  · rw [putContents_append]
    exact Set.union_subset before.among after.among
  · rcases List.mem_append.mp member with early | late
    · exact before.places entry early
    · exact after.places entry late

theorem Restored.quiet {later : World} {log : List (World × signature.Exchange)}
    (quiet : ∀ entry ∈ log, entry.2.op.Quiet) (target : later.target = world.target)
    (among : putContents log ⊆ contents) (places : PutBackOnly receipt.manifest.payloads log)
    (ready : Ready prim depot receipt lines data contents later) :
    Restored prim depot receipt lines data contents [] world log later :=
  ⟨passedIn_quiet quiet,
    fun entry member archiveID passed same => absurd same (quiet entry member archiveID passed),
    target, among, places, ready⟩

theorem Restored.reading {α : Type} {program : Prog signature α}
    {post : List signature.Exchange → α → Prop}
    (obeys : program.Obeys (fun _ (op : Call) => op.Reading) [] post)
    (ready : Ready prim depot receipt lines data contents world) :
    Restored prim depot receipt lines data contents [] world
      (program.execute (depot.answer prim) world).1 world := by
  have reading := obeys.execute (depot.answer prim) world
  refine Restored.quiet (fun entry member => (reading entry member).quiet) rfl ?_ ?_ ready
  · rw [putContents_reading reading]
    exact Set.empty_subset _
  · intro entry member place content options same
    have calls := reading entry member
    rw [same] at calls
    exact calls.elim

theorem Ready.merge (ready : Ready prim depot receipt lines data contents world)
    (passed : List EventRecord) :
    Ready prim depot receipt lines data contents
      { world with target := Depot.merge world.target passed } :=
  ready.of_kept fun _ _ _ kept => kept

theorem passOn_execute (ready : Ready prim depot receipt lines data contents world) (offset : Int)
    (passed : List EventRecord) (complete : Bool) (result : RestoreResult)
    (back : ∀ payload ∈ receipt.manifest.payloads,
      payloadKey payload.source ∈ neededPayloads passed →
        Back prim depot contents world payload.source) :
    Restored prim depot receipt lines data contents passed world
      ((passOn receipt.manifest offset passed complete result).execute (depot.answer prim) world).1
      ((passOn receipt.manifest offset passed complete result).execute (depot.answer prim)
        world).2.1 ∧
    ((passOn receipt.manifest offset passed complete result).execute (depot.answer prim) world).2.2 =
      (⟨result.archiveID, passed.length, if complete then 0 else offset + passed.length, complete⟩,
        none) := by
  refine ⟨⟨?_, ?_, rfl, ?_, ?_, ready.merge passed⟩, rfl⟩
  · show passed ++ [] = passed
    exact List.append_nil passed
  · intro entry member archiveID events same
    rw [List.mem_singleton.mp member] at same ⊢
    cases same
    exact ⟨rfl, back⟩
  · show putContents [_] ⊆ contents
    rw [putContents_other fun _ _ _ => Call.noConfusion]
    rintro content ⟨entry, member, _⟩
    exact (List.not_mem_nil member).elim
  · intro entry member place content options same
    rw [List.mem_singleton.mp member] at same
    cases same

/-- The texts of the manifest and of the events are within the bounds of their readers, and decode. -/
structure Legible (prim : Primitives) (receipt : Receipt) (lines : List (List UInt8))
    (data : List UInt8) (events : List EventRecord) : Prop where
  fits : data.length ≤ readBound
  manifest : prim.manifest.unmarshal data = .ok receipt.manifest
  valid : receipt.manifest.Valid
  each : ∀ line ∈ lines, IsLine line
  short : ∀ line ∈ lines, line.length < readBound
  decodes : List.Forall₂ (Decodes prim) lines events
  counted : receipt.manifest.eventCount = events.length

/-- **One restore** passes its chunk on. -/
theorem restore_execute (ready : Ready prim depot receipt lines data contents world)
    (legible : Legible prim receipt lines data events)
    (configured : ∀ entry ∈ receipt.manifest.payloads,
      ∃ store, depot.active.lookup entry.source.store = some store)
    (collisionFree : Set.InjOn prim.sha256 contents) {offset limit : Int}
    (bounds : 0 ≤ offset ∧ 1 ≤ limit ∧ limit ≤ 10000) :
    Restored prim depot receipt lines data contents (chunk events offset limit) world
      ((restore prim depot.active.keys true receipt offset limit).execute (depot.answer prim)
        world).1
      ((restore prim depot.active.keys true receipt offset limit).execute (depot.answer prim)
        world).2.1 ∧
    ((restore prim depot.active.keys true receipt offset limit).execute (depot.answer prim)
      world).2.2 = (⟨receipt.manifest.id, (chunk events offset limit).length,
        if (events.length : Int) ≤ offset + (chunk events offset limit).length then 0
          else offset + (chunk events offset limit).length,
        decide ((events.length : Int) ≤ offset + (chunk events offset limit).length)⟩, none) := by
  have reads : Reads fun _ (op : Call) => op.Reading := fun _ _ reading => reading
  have free : Free fun _ (op : Call) => op.Quiet := fun _ _ quiet => quiet
  have manifestRead := readManifest_execute ready.manifest legible.fits legible.manifest legible.valid
  rw [← ready.manifestRef] at manifestRead
  have eventsRead := readEvents_execute receipt.manifest ready.events ready.eventsRef legible.each
    legible.short legible.decodes legible.counted bounds
  have copied := copyBack_execute (neededPayloads (chunk events offset limit))
    receipt.manifest.payloads (List.Subset.refl _) configured collisionFree ready
  have still := ready.execute _ collisionFree copied.among
  unfold restore
  rw [if_neg (by simp), Prog.execute_bind_of manifestRead]
  dsimp only
  rw [if_neg (not_not.mpr rfl)]
  unfold restoreChunk
  rw [Prog.execute_bind_of eventsRead]
  dsimp only
  rw [Prog.execute_bind, copied.done]
  dsimp only
  obtain ⟨passes, result⟩ := passOn_execute still offset (chunk events offset limit)
    (decide ((events.length : Int) ≤ offset + (chunk events offset limit).length))
    { archiveID := receipt.manifest.id } copied.back
  refine ⟨?_, ?_⟩
  · have first := Restored.reading (readManifest_spec prim reads .archive receipt.manifestRef) ready
    have second := Restored.reading
      (readEvents_spec prim reads .archive receipt.manifest offset limit) ready
    have quiet := (@copyBack_obeys prim _ [] free depot.active.keys
      (neededPayloads (chunk events offset limit)) receipt.manifest.payloads).execute
      (depot.answer prim) world
    have third := Restored.quiet quiet copied.target copied.among copied.places still
    exact first.append (second.append (third.append passes))
  · rw [result]
    simp

/-! ### All of them -/

theorem chunk_append (position : Nat) (limit : Int) :
    events.drop position = chunk events position limit ++
      events.drop (position + (chunk events position limit).length) := by
  have cut : (events.drop position).drop (chunk events position limit).length =
      (events.drop position).drop limit.toNat := by
    rw [chunk, List.length_take, Int.toNat_natCast]
    rcases Nat.le_total limit.toNat (events.drop position).length with fewer | more
    · rw [Nat.min_eq_left fewer]
    · rw [Nat.min_eq_right more, List.drop_length, List.drop_of_length_le more]
  rw [← List.drop_drop, cut]
  exact (List.take_append_drop limit.toNat (events.drop position)).symm

theorem chunk_pos {position : Nat} {limit : Int} (inside : position < events.length)
    (positive : 1 ≤ limit) : 1 ≤ (chunk events position limit).length := by
  rw [chunk, List.length_take, List.length_drop, Int.toNat_natCast]
  omega

/-- **Following `Next`** from a position before the end passes on the rest, whatever the limits. -/
theorem restoreAll_execute (legible : Legible prim receipt lines data events)
    (configured : ∀ entry ∈ receipt.manifest.payloads,
      ∃ store, depot.active.lookup entry.source.store = some store)
    (collisionFree : Set.InjOn prim.sha256 contents) {limits : Nat → Int}
    (allowed : ∀ round, 1 ≤ limits round ∧ limits round ≤ 10000) (fuel round position : Nat)
    (inside : position < events.length) (enough : events.length ≤ position + fuel)
    (ready : Ready prim depot receipt lines data contents world) :
    Restored prim depot receipt lines data contents (events.drop position) world
      ((restoreAll prim depot.active.keys receipt limits fuel round position).execute
        (depot.answer prim) world).1
      ((restoreAll prim depot.active.keys receipt limits fuel round position).execute
        (depot.answer prim) world).2.1 ∧
    ((restoreAll prim depot.active.keys receipt limits fuel round position).execute
      (depot.answer prim) world).2.2 = .ok true := by
  induction fuel generalizing round position world with
  | zero => omega
  | succ fuel ih =>
    obtain ⟨first, outcome⟩ := restore_execute ready legible configured collisionFree
      ⟨Int.natCast_nonneg position, allowed round⟩
    have advances := chunk_pos inside (allowed round).1
    have parts := @chunk_append events position (limits round)
    unfold restoreAll
    rw [Prog.execute_bind, outcome]
    dsimp only
    by_cases reached : (events.length : Int) ≤
        position + (chunk events position (limits round)).length
    · rw [if_pos (decide_eq_true reached)]
      have all : events.drop position = chunk events position (limits round) := by
        rw [parts, List.drop_of_length_le (by omega), List.append_nil]
      refine ⟨?_, rfl⟩
      rw [all]
      show Restored prim depot receipt lines data contents _ world (_ ++ []) _
      rw [List.append_nil]
      exact first
    · rw [if_neg (by simpa using reached), if_neg reached]
      have next : (position : Int) + (chunk events position (limits round)).length =
          ((position + (chunk events position (limits round)).length : Nat) : Int) := by
        rw [Int.natCast_add]
      rw [next]
      obtain ⟨rest, done⟩ := ih (round + 1)
        (position + (chunk events position (limits round)).length) (by omega) (by omega)
        first.ready
      refine ⟨?_, done⟩
      rw [parts]
      exact first.append rest

end Restore

/-! ### After a write -/

section Written

variable {prim : Primitives} {depot : Depot} {receipt : Receipt} {lines : List (List UInt8)}
  {data : List UInt8} {world : World} {events : List EventRecord}

/-- **A write leaves the archive ready.** -/
theorem Written.ready
    (wrote : Written prim events ((writeRun prim depot events world).1.map Prod.snd) receipt lines
      data)
    (collisionFree : Set.InjOn prim.sha256 (putContents (writeRun prim depot events world).1)) :
    Ready prim depot receipt lines data (putContents (writeRun prim depot events world).1)
      (writeRun prim depot events world).2.1 := by
  refine ⟨wrote.stocked collisionFree, fun entry member => ?_, mem_putContents wrote.eventsPut,
    mem_putContents wrote.manifestPut⟩
  obtain ⟨content, put, digest, size⟩ := wrote.copied.copy entry member
  obtain ⟨kept, same⟩ := kept_of_put _ collisionFree rfl put
  refine ⟨content.bytes, mem_putContents put, kept, same, ?_, ?_⟩
  · rw [← digest, same]
    rfl
  · rw [← size, same]
    rfl

theorem decodes_of_encoded
    (encoded : List.Forall₂ (fun event line => prim.event.marshal event = .ok line) events lines)
    (inverts : ∀ event ∈ events, ∀ line, prim.event.marshal event = .ok line →
      prim.event.unmarshal line = .ok event) : List.Forall₂ (Decodes prim) lines events := by
  induction encoded with
  | nil => exact .nil
  | @cons event line events lines marshalled _ ih =>
    refine .cons (inverts event (List.mem_cons_self ..) line marshalled) (ih fun other member => ?_)
    exact inverts other (List.mem_cons_of_mem _ member)

theorem Written.legible {trace : List signature.Exchange}
    (wrote : Written prim events trace receipt lines data)
    (inverts : Inverts prim events receipt.manifest)
    (fits : ∀ data, prim.manifest.marshal receipt.manifest = .ok data → data.length < readBound)
    (short : ∀ event ∈ events, ∀ line, prim.event.marshal event = .ok line →
      line.length < readBound) : Legible prim receipt lines data events where
  fits := (fits data wrote.marshalled).le
  manifest := inverts.manifest data wrote.marshalled
  valid := wrote.valid receipt.manifest.payloads
  each := forall_line wrote.encoded inverts.line
  short := forall_line wrote.encoded short
  decodes := decodes_of_encoded wrote.encoded inverts.event
  counted := wrote.count

/-- **A reference as its store made it.** The key is that of the digest and the compression; the
source store has the object; and the prefix of the store that is active under the same name is the
prefix of the source store. -/
def Restorable (prim : Primitives) (depot : Depot) (world : World) (ref : Ref) : Prop :=
  Supported ref.compression ∧
    ∃ source active, depot.sources.lookup ref.store = some source ∧
      depot.active.lookup ref.store = some active ∧
      (depot.stores active).keyPrefix = (depot.stores source).keyPrefix ∧
      ref.key = objectKey (depot.stores source).keyPrefix ref.sha256 ref.compression ∧
      Holds prim.sha256 prim.gzip (world.disks source) ref

theorem Restorable.same {first second : Ref} (left : Restorable prim depot world first)
    (right : Restorable prim depot world second) (store : first.store = second.store)
    (keys : first.key = second.key) :
    first.sha256 = second.sha256 ∧ first.compression = second.compression ∧
      first.size = second.size := by
  obtain ⟨supported, source, _, found, _, _, address, one, here, digest, size⟩ := left
  obtain ⟨supported', source', _, found', _, _, address', two, here', digest', size'⟩ := right
  rw [store, found', Option.some.injEq] at found
  subst found
  obtain ⟨sums, packed⟩ := objectKey_inj supported supported'
    (address.symm.trans (keys.trans address'))
  have content : one = two := by
    rw [keys, here', Option.some.injEq, packed] at here
    exact (prim.gzip.pack_injective _ here).symm
  exact ⟨sums, packed, by rw [← size, ← size', content]⟩

/-- The object of a reference is back when that of a reference to the same key is. -/
theorem Back.holds {contents : Set (List UInt8)} {ref other : Ref} {later : World}
    (back : Back prim depot contents later other) (restorable : Restorable prim depot world ref)
    (others : Restorable prim depot world other) (store : other.store = ref.store)
    (keys : other.key = ref.key) :
    ∃ store, depot.active.lookup ref.store = some store ∧
      Holds prim.sha256 prim.gzip (later.disks store) ref := by
  obtain ⟨sums, packed, sizes⟩ := others.same restorable store keys
  obtain ⟨active, content, _, found, kept, digest, size⟩ := back
  obtain ⟨_, source, other, _, role, prefixes, address, _⟩ := restorable
  rw [store] at found
  rw [found, Option.some.injEq] at role
  subst role
  refine ⟨active, found, content, ?_, digest.trans sums, size.trans sizes⟩
  rw [address, ← prefixes, ← sums, ← digest, ← packed]
  exact kept.2

/-- The store and the key are read off the key of the map, for the links of these events. -/
def Distinguished (events : List EventRecord) : Prop :=
  ∀ first ∈ events.flatMap (·.payloads), ∀ second ∈ events.flatMap (·.payloads),
    payloadKey first.ref = payloadKey second.ref →
      first.ref.store = second.ref.store ∧ first.ref.key = second.ref.key

theorem distinguished_of_names
    (plain : ∀ link ∈ events.flatMap (·.payloads), (0 : UInt8) ∉ link.ref.store) :
    Distinguished events :=
  fun first left second right same => payloadKey_inj (plain first left) (plain second right) same

/-- The run of the whole procedure, with as many restores as there are events at most. -/
abbrev restoreRun (prim : Primitives) (depot : Depot) (receipt : Receipt) (limits : Nat → Int)
    (count : Nat) (world : World) :
    List (World × signature.Exchange) × World × Except GoError Bool :=
  (restoreAll prim depot.active.keys receipt limits count 0 0).execute (depot.answer prim) world

theorem restoreRun_restored {contents : Set (List UInt8)}
    (ready : Ready prim depot receipt lines data contents world)
    (legible : Legible prim receipt lines data events) (nonempty : events ≠ [])
    (configured : ∀ entry ∈ receipt.manifest.payloads,
      ∃ store, depot.active.lookup entry.source.store = some store)
    (collisionFree : Set.InjOn prim.sha256 contents) {limits : Nat → Int}
    (allowed : ∀ round, 1 ≤ limits round ∧ limits round ≤ 10000) :
    Restored prim depot receipt lines data contents events world
      (restoreRun prim depot receipt limits events.length world).1
      (restoreRun prim depot receipt limits events.length world).2.1 ∧
    (restoreRun prim depot receipt limits events.length world).2.2 = .ok true :=
  restoreAll_execute legible configured collisionFree allowed events.length 0 0
    (List.length_pos_iff.mpr nonempty) (Nat.le_add_left _ _) ready

theorem Written.configured {trace : List signature.Exchange}
    (wrote : Written prim events trace receipt lines data)
    (links : ∀ event ∈ events, ∀ link ∈ event.payloads, Restorable prim depot world link.ref) :
    ∀ entry ∈ receipt.manifest.payloads,
      ∃ store, depot.active.lookup entry.source.store = some store := by
  intro entry member
  obtain ⟨link, among, same⟩ := wrote.copied.source entry member
  obtain ⟨event, inside, linked⟩ := List.mem_flatMap.mp among
  obtain ⟨_, _, active, _, found, _⟩ := links event inside link linked
  exact ⟨active, same ▸ found⟩

/-- Every event that is passed on finds the objects it links to in the active stores. -/
def PayloadsFirst (prim : Primitives) (depot : Depot) (log : List (World × signature.Exchange)) :
    Prop :=
  ∀ entry ∈ log, ∀ archiveID passed, entry.2.op = .restoreArchiveEvents archiveID passed →
    ∀ event ∈ passed, ∀ link ∈ event.payloads, ∃ store,
      depot.active.lookup link.ref.store = some store ∧
        Holds prim.sha256 prim.gzip (entry.1.disks store) link.ref

theorem subset_passedIn {log : List (World × signature.Exchange)} {entry : World × signature.Exchange}
    {archiveID : GoString} {passed : List EventRecord} (member : entry ∈ log)
    (same : entry.2.op = .restoreArchiveEvents archiveID passed) : passed ⊆ passedIn log := by
  intro event among
  refine List.mem_flatMap.mpr ⟨entry, member, ?_⟩
  rw [same]
  exact among

theorem mem_passedIn {log : List (World × signature.Exchange)} {event : EventRecord}
    (member : event ∈ passedIn log) : ∃ entry ∈ log, ∃ archiveID passed,
      entry.2.op = .restoreArchiveEvents archiveID passed ∧ event ∈ passed := by
  obtain ⟨entry, logged, inside⟩ := List.mem_flatMap.mp member
  refine ⟨entry, logged, ?_⟩
  split at inside
  · rename_i archiveID passed same
    exact ⟨archiveID, passed, same, inside⟩
  · exact (List.not_mem_nil inside).elim

/-- **The archive round trip in chunks.** After a write, and in any later world in which the objects of
the archive store are intact: following `Next` from zero with any limits ends complete, passes
every event on once and in order, each when its payloads are back; and the same again, with any
other limits, leaves the restored events as they are. -/
theorem round_trip (ran : (writeRun prim depot events world).2.2 = .ok receipt)
    (links : ∀ event ∈ events, ∀ link ∈ event.payloads, Restorable prim depot world link.ref)
    (distinguished : Distinguished events) (inverts : Inverts prim events receipt.manifest)
    (collisionFree : Set.InjOn prim.sha256 (putContents (writeRun prim depot events world).1))
    (fits : ∀ data, prim.manifest.marshal receipt.manifest = .ok data → data.length < readBound)
    (short : ∀ event ∈ events, ∀ line, prim.event.marshal event = .ok line →
      line.length < readBound) {later : World}
    (intact : ∀ key bytes,
      ((writeRun prim depot events world).2.1.disks depot.archive).lookup key = some bytes →
        (later.disks depot.archive).lookup key = some bytes)
    {limits again : Nat → Int} (allowed : ∀ round, 1 ≤ limits round ∧ limits round ≤ 10000)
    (allowedAgain : ∀ round, 1 ≤ again round ∧ again round ≤ 10000) :
    (restoreRun prim depot receipt limits events.length later).2.2 = .ok true ∧
    passedIn (restoreRun prim depot receipt limits events.length later).1 = events ∧
    PayloadsFirst prim depot (restoreRun prim depot receipt limits events.length later).1 ∧
    (restoreRun prim depot receipt again events.length
      (restoreRun prim depot receipt limits events.length later).2.1).2.2 = .ok true ∧
    (restoreRun prim depot receipt again events.length
      (restoreRun prim depot receipt limits events.length later).2.1).2.1.target =
      (restoreRun prim depot receipt limits events.length later).2.1.target := by
  obtain ⟨lines, data, wrote⟩ := written_of_run ran
  have legible := wrote.legible inverts fits short
  have ready := (wrote.ready collisionFree).of_kept fun _ _ _ kept => ⟨kept.1, intact _ _ kept.2⟩
  have restorable : ∀ link ∈ events.flatMap (·.payloads), Restorable prim depot world link.ref := by
    intro link member
    obtain ⟨event, inside, linked⟩ := List.mem_flatMap.mp member
    exact links event inside link linked
  have configured := wrote.configured links
  obtain ⟨first, complete⟩ := restoreRun_restored ready legible wrote.nonempty configured
    collisionFree allowed
  obtain ⟨second, completeAgain⟩ := restoreRun_restored first.ready legible wrote.nonempty configured
    collisionFree allowedAgain
  refine ⟨complete, first.passed, ?_, completeAgain, ?_⟩
  · intro entry member archiveID passed same event among link linked
    have inside : event ∈ events := by
      have whole := subset_passedIn member same among
      rwa [first.passed] at whole
    have here : link ∈ events.flatMap (·.payloads) :=
      List.mem_flatMap.mpr ⟨event, inside, linked⟩
    obtain ⟨payload, listed, key⟩ := wrote.copied.covers link here (Finset.notMem_empty _)
    have needed : payloadKey payload.source ∈ neededPayloads passed := by
      rw [key, neededPayloads, List.mem_toFinset]
      exact List.mem_flatMap.mpr ⟨event, among, List.mem_map.mpr ⟨link, linked, rfl⟩⟩
    have back := (first.delivered entry member archiveID passed same).2 payload listed needed
    -- the object that is back was listed for a link with the same key, and so to the same object
    obtain ⟨source, there, origin⟩ := wrote.copied.source payload listed
    rw [origin] at back key
    obtain ⟨store, keys⟩ := distinguished source there link here key
    exact back.holds (restorable link here) (restorable source there) store keys
  · rw [second.target, first.target]
    exact Depot.merge_merge _ _

/-! ### A payload in one store -/

/-- The world of a small archive once everything outside the archive store is gone. -/
def emptied (world : World) : World where
  disks index := if index = 0 then world.disks 0 else ∅
  target := ∅

theorem emptied_intact {depot : Depot} (first : depot.archive = 0) (world : World) (key : GoString)
    (bytes : List UInt8) (kept : (world.disks depot.archive).lookup key = some bytes) :
    ((emptied world).disks depot.archive).lookup key = some bytes := by
  rw [first] at kept ⊢
  exact kept

theorem small_restorable {sum manifestSum : Bytes 32} {events : List EventRecord} {copied : List Ref}
    {sources : List Store} (nonempty : events ≠ []) (index : Nat) (store : Store)
    (here : sources[index]? = some store)
    (found : (smallDepot sources).sources.lookup store.name = some (index + 1)) :
    Restorable (smallPrimitives sum manifestSum events copied) (smallDepot sources)
      (smallWorld sources) (bodyRef store.name store.keyPrefix) := by
  obtain ⟨place, role, _, address, kept, digest, size⟩ :=
    @small_sourced sum manifestSum events copied sources nonempty index store here found
  refine ⟨.inl rfl, place, place, role, role, rfl, address, body, ?_, digest, size⟩
  rw [address, ← digest]
  exact kept.2

theorem hot_links : ∀ event ∈ [hotRecord], ∀ link ∈ event.payloads,
    Restorable hotPrimitives hotDepot hotWorld link.ref := by
  intro event inside link member
  rw [List.mem_singleton.mp inside] at member
  rw [List.mem_singleton.mp member]
  exact @small_restorable _ _ _ _ [plainStore (ascii "hot") []] (List.cons_ne_nil _ _) 0
    (plainStore (ascii "hot") []) rfl hot_evaluated.1

theorem hot_distinguished : Distinguished [hotRecord] := by
  refine distinguished_of_names fun link member => ?_
  rw [List.mem_singleton.mp member]
  decide

/-- The world in which the archive of this record is restored. -/
def hotLater : World := emptied (writeRun hotPrimitives hotDepot [hotRecord] hotWorld).2.1

theorem hot_intact (key : GoString) (bytes : List UInt8)
    (kept : ((writeRun hotPrimitives hotDepot [hotRecord] hotWorld).2.1.disks
      hotDepot.archive).lookup key = some bytes) :
    (hotLater.disks hotDepot.archive).lookup key = some bytes := by
  unfold hotLater
  exact emptied_intact rfl _ key bytes kept

theorem round_trip_hot :
    passedIn (restoreRun hotPrimitives hotDepot hotReceipt (fun _ => 1) 1 hotLater).1 =
      [hotRecord] ∧
    PayloadsFirst hotPrimitives hotDepot
      (restoreRun hotPrimitives hotDepot hotReceipt (fun _ => 1) 1 hotLater).1 := by
  obtain ⟨_, passed, payloads, _⟩ := @round_trip hotPrimitives hotDepot hotReceipt hotWorld
    [hotRecord] hot_written.1 hot_links hot_distinguished hot_inverts hot_collisionFree
    (fun _ marshalled => hot_marshalled marshalled) hot_short hotLater hot_intact
    (fun _ => 1) (fun _ => 1) (fun _ => by decide) (fun _ => by decide)
  exact ⟨passed, payloads⟩

/-! ### Two payloads under one key of the map -/

/-- A store with a short name and a zero byte in its prefix. -/
def shortStore : Store := plainStore (ascii "a") (ascii "b\x00c/")

/-- A store with a zero byte in its name. -/
def longStore : Store := plainStore (ascii "a\x00b") (ascii "c/")

def shortRef : Ref := bodyRef shortStore.name shortStore.keyPrefix

def longRef : Ref := bodyRef longStore.name longStore.keyPrefix

/-- Two records, each with the body in one of the stores. -/
def twinRecords : List EventRecord := [linkedRecord 1 [shortRef], linkedRecord 2 [longRef]]

/-- The SHA-256 of the event object with these records. -/
def twinSum : Bytes 32 :=
  digestOf 0xe48602713725478cb3d19f67bb806f4604fc89beaa60ac229fcbb147cb896be8

/-- The SHA-256 of its manifest, which lists the first payload only. -/
def twinManifestSum : Bytes 32 :=
  digestOf 0x1271470d963be6781eea27a222c98cea34af9c117abe0c30742cc0db8bce4721

def twinPrimitives : Primitives := smallPrimitives twinSum twinManifestSum twinRecords [shortRef]

def twinReceipt : Receipt := smallReceipt twinSum twinManifestSum twinRecords [shortRef]

def twinDepot : Depot := smallDepot [shortStore, longStore]

def twinWorld : World := smallWorld [shortStore, longStore]

/-- What is evaluated of this archive; the objects differ and the keys of the map do not. -/
theorem twin_evaluated :
    payloadKey longRef = payloadKey shortRef ∧
    (twinDepot.sources.lookup shortStore.name = some 1 ∧
      twinDepot.sources.lookup longStore.name = some 2) ∧
    [bodyDigest, twinSum, twinManifestSum].Nodup ∧
    (recordText (linkedRecord 1 [shortRef]) ≠ recordText (linkedRecord 2 [longRef]) ∧
      ∀ event ∈ twinRecords, IsLine (recordText event)) ∧
    (∀ event ∈ twinRecords, (recordText event).length < readBound) ∧
    (manifestText (smallManifest twinSum twinRecords [shortRef])).length < readBound := by
  refine ⟨by decide, by decide, by decide, ⟨by decide, ?_⟩,
    by decide +kernel, by decide +kernel⟩
  intro event member
  rcases List.mem_cons.mp member with rfl | later
  · exact isLine_recordText (by decide +kernel) (by decide +kernel) (by decide +kernel)
  · rw [List.mem_singleton.mp later]
    exact isLine_recordText (by decide +kernel) (by decide +kernel) (by decide +kernel)

theorem twin_cases {link : PayloadLink} (member : link ∈ twinRecords.flatMap (·.payloads)) :
    link.ref = shortRef ∨ link.ref = longRef := by
  rcases List.mem_cons.mp member with rfl | later
  · exact .inl rfl
  · rw [List.mem_singleton.mp later]
    exact .inr rfl

theorem twin_sourced : ∀ link ∈ twinRecords.flatMap (·.payloads),
    Sourced twinPrimitives twinDepot (fun _ => body) twinWorld link.ref := by
  intro link member
  rcases twin_cases member with same | same
  · rw [same]
    exact @small_sourced _ _ _ _ [shortStore, longStore] (List.cons_ne_nil _ _) 0 shortStore rfl
      twin_evaluated.2.1.1
  · rw [same]
    exact @small_sourced _ _ _ _ [shortStore, longStore] (List.cons_ne_nil _ _) 1 longStore rfl
      twin_evaluated.2.1.2

theorem twin_links : ∀ event ∈ twinRecords, ∀ link ∈ event.payloads,
    Restorable twinPrimitives twinDepot twinWorld link.ref := by
  intro event inside link linked
  rcases twin_cases (List.mem_flatMap.mpr ⟨event, inside, linked⟩) with same | same
  · rw [same]
    exact @small_restorable _ _ _ _ [shortStore, longStore] (List.cons_ne_nil _ _) 0 shortStore rfl
      twin_evaluated.2.1.1
  · rw [same]
    exact @small_restorable _ _ _ _ [shortStore, longStore] (List.cons_ne_nil _ _) 1 longStore rfl
      twin_evaluated.2.1.2

theorem twin_copies : copies twinPrimitives twinDepot (fun _ => body)
    (twinRecords.flatMap (·.payloads)) ∅ = (smallManifest twinSum twinRecords [shortRef]).payloads := by
  obtain ⟨digest, _, _⟩ := @small_sha256 twinSum twinManifestSum twinRecords [shortRef]
    (List.cons_ne_nil _ _)
  have seen : payloadKey (linkTo longRef).ref ∈
      insert (payloadKey (linkTo shortRef).ref) (∅ : Finset GoString) :=
    Finset.mem_insert.mpr (.inl twin_evaluated.1)
  show copies twinPrimitives twinDepot (fun _ => body) [linkTo shortRef, linkTo longRef] ∅ = _
  rw [copies, if_neg (Finset.notMem_empty _), copies, if_pos seen]
  show [(⟨_, putRef _ _ _ body _⟩ : PayloadEntry)] = _
  unfold putRef
  rw [show twinPrimitives.sha256 body = bodyDigest from digest]
  rfl

theorem twin_written :
    (writeRun twinPrimitives twinDepot twinRecords twinWorld).2.2 = .ok twinReceipt ∧
    putContents (writeRun twinPrimitives twinDepot twinRecords twinWorld).1 ⊆
      {body, smallText twinRecords, manifestText twinReceipt.manifest} := by
  have nonempty : twinRecords ≠ [] := List.cons_ne_nil _ _
  have listed := twin_copies
  have sourced := twin_sourced
  unfold twinPrimitives twinDepot twinWorld twinReceipt at *
  exact small_written nonempty twin_evaluated.2.2.1 sourced listed

theorem twin_collisionFree : Set.InjOn twinPrimitives.sha256
    (putContents (writeRun twinPrimitives twinDepot twinRecords twinWorld).1) :=
  (small_injOn (List.cons_ne_nil _ _) twin_evaluated.2.2.1).mono twin_written.2

theorem twin_inverts : Inverts twinPrimitives twinRecords twinReceipt.manifest := by
  obtain ⟨_, _, _, ⟨apart, lines⟩, _⟩ := twin_evaluated
  refine small_inverts lines fun first left second right same => ?_
  rcases List.mem_cons.mp left with rfl | left <;> rcases List.mem_cons.mp right with rfl | right
  · rfl
  · rw [List.mem_singleton.mp right] at same
    exact absurd same apart
  · rw [List.mem_singleton.mp left] at same
    exact absurd same.symm apart
  · exact (List.mem_singleton.mp left).trans (List.mem_singleton.mp right).symm

theorem twin_marshalled (data : List UInt8)
    (marshalled : twinPrimitives.manifest.marshal twinReceipt.manifest = .ok data) :
    data.length < readBound := by
  unfold twinPrimitives twinReceipt at marshalled
  rw [small_manifestText marshalled]
  exact twin_evaluated.2.2.2.2.2

theorem twin_short : ∀ event ∈ twinRecords, ∀ line,
    twinPrimitives.event.marshal event = .ok line → line.length < readBound := by
  intro event member line marshalled
  unfold twinPrimitives at marshalled
  rw [small_recordText member marshalled]
  exact twin_evaluated.2.2.2.2.1 event member

/-- The world in which the archive of these records is restored. -/
def twinLater : World := emptied (writeRun twinPrimitives twinDepot twinRecords twinWorld).2.1

theorem twin_intact (key : GoString) (bytes : List UInt8)
    (kept : ((writeRun twinPrimitives twinDepot twinRecords twinWorld).2.1.disks
      twinDepot.archive).lookup key = some bytes) :
    (twinLater.disks twinDepot.archive).lookup key = some bytes := by
  unfold twinLater
  exact emptied_intact rfl _ key bytes kept

/-- **A payload that is not put back.** Everything is as a restore needs it but for the two links with
one key: the restore is complete, and the second record is passed on without its payload. -/
theorem round_trip_ambiguous :
    (writeRun twinPrimitives twinDepot twinRecords twinWorld).2.2 = .ok twinReceipt ∧
    (∀ event ∈ twinRecords, ∀ link ∈ event.payloads,
      Restorable twinPrimitives twinDepot twinWorld link.ref) ∧
    Inverts twinPrimitives twinRecords twinReceipt.manifest ∧
    (restoreRun twinPrimitives twinDepot twinReceipt (fun _ => 10000) twinRecords.length
      twinLater).2.2 = .ok true ∧
    ¬ PayloadsFirst twinPrimitives twinDepot
      (restoreRun twinPrimitives twinDepot twinReceipt (fun _ => 10000) twinRecords.length
        twinLater).1 := by
  obtain ⟨lines, data, wrote⟩ := written_of_run twin_written.1
  have legible := wrote.legible twin_inverts twin_marshalled twin_short
  have ready := (wrote.ready twin_collisionFree).of_kept
    fun _ _ _ kept => ⟨kept.1, twin_intact _ _ kept.2⟩
  obtain ⟨restored, complete⟩ := @restoreRun_restored twinPrimitives twinDepot twinReceipt lines data
    twinLater twinRecords _ ready legible wrote.nonempty (wrote.configured twin_links)
    twin_collisionFree (fun _ => 10000) fun _ => by decide
  refine ⟨twin_written.1, twin_links, twin_inverts, complete, fun payloadsFirst => ?_⟩
  have second : linkedRecord 2 [longRef] ∈ twinRecords :=
    List.mem_cons_of_mem _ (List.mem_singleton_self _)
  rw [← restored.passed] at second
  obtain ⟨entry, member, archiveID, passed, same, inside⟩ := mem_passedIn second
  obtain ⟨store, found, content, here, _⟩ := payloadsFirst entry member archiveID passed same _
    inside (linkTo longRef) (List.mem_singleton_self _)
  -- nothing was put to the store of the second payload
  have active : twinDepot.active.lookup longRef.store = some 2 := twin_evaluated.2.1.2
  have other : twinDepot.active.lookup shortRef.store = some 1 := twin_evaluated.2.1.1
  have elsewhere : ∀ entry ∈ (restoreRun twinPrimitives twinDepot twinReceipt (fun _ => 10000)
      twinRecords.length twinLater).1, ∀ place content options,
      entry.2.op = .put place content options → twinDepot.find place ≠ some 2 := by
    intro entry member place content options put
    obtain ⟨payload, listed, rfl⟩ := restored.places entry member place content options put
    rw [List.mem_singleton.mp listed]
    show twinDepot.active.lookup shortRef.store ≠ some 2
    rw [other]
    decide
  have empty := disks_execute elsewhere entry member
  rw [show (linkTo longRef).ref.store = longRef.store from rfl, active, Option.some.injEq] at found
  rw [← found, empty] at here
  cases here

end Written

end Trail.Archive
