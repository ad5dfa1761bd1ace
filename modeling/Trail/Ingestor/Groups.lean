/-
**The groups of a fetch respect their bounds.**

* `groupsFrom_bounded` — what the loop keeps of the group collected so far (`Collected`) makes every
  group it flushes `Bounded`: not empty, within the bytes, and within the events unless it is a single
  message. A message is never over the bytes alone (`decode_fits`).
* `groupsFrom_chain` — a group is flushed before the last message only when the next decoded one would
  have gone over a bound.
* `handle_grouped` — the calls of `WriteBatches` in a fetch are the groups, whatever the store answers.
-/

import Trail.Ingestor.AckSafety

namespace Trail.Ingestor

open Library Storage

/-! ### Bounds -/

/-- The events of a group. -/
def eventsOf (group : List Pending) : Nat := (group.map fun item => item.batch.events.length).sum

/-- The bytes of the messages of a group. -/
def bytesOf (group : List Pending) : Nat := (group.map fun item => item.message.data.length).sum

theorem eventsOf_concat (group : List Pending) (item : Pending) :
    eventsOf (group ++ [item]) = eventsOf group + item.batch.events.length := by
  simp [eventsOf]

theorem bytesOf_concat (group : List Pending) (item : Pending) :
    bytesOf (group ++ [item]) = bytesOf group + item.message.data.length := by
  simp [bytesOf]

/-- **A group within the bounds.** -/
structure Bounded (config : Config) (group : List Pending) : Prop where
  nonempty : group ≠ []
  bytes : bytesOf group ≤ config.maxBytes
  events : eventsOf group ≤ config.maxEvents ∨ group.length = 1

/-- With the next group's first message, the group would have gone over a bound. -/
def Overflows (config : Config) (group next : List Pending) : Prop :=
  ∃ item ∈ next.head?, config.maxEvents < eventsOf (group ++ [item]) ∨
    config.maxBytes < bytesOf (group ++ [item])

/-- The size of an item is that of its message, which alone is within the bytes. -/
structure Sized (config : Config) (item : Pending) : Prop where
  bytes : item.bytes = item.message.data.length
  fits : item.message.data.length ≤ config.maxBytes

/-! ### The loop -/

/-- What the loop keeps of the group collected so far. -/
structure Collected (config : Config) (group : List Pending) (events bytes : Nat) : Prop where
  events : events = eventsOf group
  bytes : bytes = bytesOf group
  bounded : group ≠ [] → Bounded config group

section Loop

variable {config : Config} {group : List Pending} {events bytes : Nat} {item : Pending}

theorem collected_nil : Collected config [] 0 0 := ⟨rfl, rfl, fun some => absurd rfl some⟩

theorem collected_one (sized : Sized config item) :
    Collected config [item] item.batch.events.length item.bytes where
  events := by simp [eventsOf]
  bytes := by simp [bytesOf, sized.bytes]
  bounded _ := ⟨List.cons_ne_nil _ _, by simpa [bytesOf] using sized.fits, .inr rfl⟩

theorem full_iff (collected : Collected config group events bytes) (sized : Sized config item) :
    full config group events bytes item = true ↔ group ≠ [] ∧
      (config.maxEvents < eventsOf (group ++ [item]) ∨ config.maxBytes < bytesOf (group ++ [item])) := by
  rw [full, decide_eq_true_iff, eventsOf_concat, bytesOf_concat, collected.events, collected.bytes,
    sized.bytes, ne_eq, List.length_eq_zero_iff]
  push_cast
  rfl

theorem Collected.join (collected : Collected config group events bytes) (sized : Sized config item)
    (fits : full config group events bytes item ≠ true) :
    Collected config (group ++ [item]) (events + item.batch.events.length) (bytes + item.bytes) := by
  refine ⟨?_, ?_, fun _ => ?_⟩
  · rw [eventsOf_concat, collected.events]
  · rw [bytesOf_concat, collected.bytes, sized.bytes]
  · rw [ne_eq, full_iff collected sized] at fits
    by_cases empty : group = []
    · subst empty
      exact (collected_one sized).bounded (List.cons_ne_nil _ _)
    · push Not at fits
      obtain ⟨events, bytes⟩ := fits empty
      exact ⟨by simp, bytes, .inl events⟩

end Loop

section Groups

variable {config : Config} {items : List Pending}

/-- **Every group is within the bounds.** The induction is over the items, with what the loop keeps of
the group collected so far. -/
theorem groupsFrom_bounded (sized : ∀ item ∈ items, Sized config item) :
    ∀ {group : List Pending} {events bytes : Nat}, Collected config group events bytes →
      ∀ flushed ∈ groupsFrom config group events bytes items, Bounded config flushed := by
  induction items with
  | nil =>
    intro group events bytes collected flushed member
    unfold groupsFrom at member
    split at member
    · rename_i some
      rw [List.mem_singleton.mp member]
      exact collected.bounded fun empty => some (by rw [empty]; rfl)
    · cases member
  | cons item items ih =>
    obtain ⟨first, rest⟩ := List.forall_mem_cons.mp sized
    intro group events bytes collected flushed member
    unfold groupsFrom at member
    split at member
    · rename_i exceeds
      rcases List.mem_cons.mp member with rfl | later
      · exact collected.bounded ((full_iff collected first).mp exceeds).1
      · exact ih rest (collected_one first) flushed later
    · rename_i fits
      exact ih rest (collected.join first fits) flushed member

theorem groupsFrom_head (items : List Pending) : ∀ {group : List Pending} {events bytes : Nat},
    group ≠ [] → ∃ more rest, groupsFrom config group events bytes items = (group ++ more) :: rest := by
  induction items with
  | nil =>
    intro group events bytes some
    refine ⟨[], [], ?_⟩
    rw [groupsFrom, if_pos (by simpa using some), List.append_nil]
  | cons item items ih =>
    intro group events bytes some
    unfold groupsFrom
    split
    · exact ⟨[], _, by rw [List.append_nil]⟩
    · obtain ⟨more, rest, found⟩ := @ih (group ++ [item]) (events + item.batch.events.length)
        (bytes + item.bytes) (by simp)
      exact ⟨item :: more, rest, by rw [found, List.append_assoc]; rfl⟩

/-- **Groups are maximal**: one that is followed by another had no room for its first message. -/
theorem groupsFrom_chain (sized : ∀ item ∈ items, Sized config item) :
    ∀ {group : List Pending} {events bytes : Nat}, Collected config group events bytes →
      (groupsFrom config group events bytes items).IsChain (Overflows config) := by
  induction items with
  | nil =>
    intro group events bytes collected
    unfold groupsFrom
    split
    · exact .singleton _
    · exact .nil
  | cons item items ih =>
    obtain ⟨first, rest⟩ := List.forall_mem_cons.mp sized
    intro group events bytes collected
    unfold groupsFrom
    split
    · rename_i exceeds
      have chain := ih rest (collected_one first)
      obtain ⟨more, later, found⟩ := @groupsFrom_head config items [item]
        item.batch.events.length item.bytes (List.cons_ne_nil _ _)
      rw [found] at chain ⊢
      exact .cons_cons ⟨item, rfl, ((full_iff collected first).mp exceeds).2⟩ chain
    · rename_i fits
      exact ih rest (collected.join first fits)

end Groups

/-! ### The items of a fetch -/

section Fetch

variable {config : Config} {json : Wire.Codec Wire.Envelope} {messages : List Message}
  {segment part : List Exchange}

/-- `refuse` makes no item. -/
theorem refuse_none {message : Message} {reason : String} {cause : GoError} {outcome : Option Pending}
    (ran : (refuse config message reason cause).Trace part (some outcome)) : outcome = none := by
  obtain ⟨_, rest, rfl, counted⟩ := Prog.Trace.call_inv ran
  obtain ⟨_, before, after, first, second, rfl⟩ := Prog.Trace.bind_inv counted
  exact (Prog.Trace.pure_inv second).2

theorem decodeData_fits {message : Message} {metadata : MsgMetadata} {item : Pending}
    (ran : (decodeData config json message metadata).Trace part (some (some item))) :
    message.data.length ≤ config.maxBytes := by
  unfold decodeData at ran
  split at ran
  · cases refuse_none ran
  · rename_i fits
    exact Int.not_lt.mp fits

/-- **A message over the bytes is never decoded.** -/
theorem decode_fits {message : Message} {item : Pending}
    (ran : (decode config json message).Trace part (some (some item))) :
    message.data.length ≤ config.maxBytes := by
  obtain ⟨_, rest, rfl, second⟩ := Prog.Trace.call_inv ran
  obtain ⟨_, rest, rfl, third⟩ := Prog.Trace.call_inv second
  split at third
  · cases refuse_none third
  · split at third
    · obtain ⟨_, rest, rfl, fourth⟩ := Prog.Trace.call_inv third
      exact decodeData_fits fourth
    · exact decodeData_fits third

theorem decode_sized {message : Message} {item : Pending}
    (ran : (decode config json message).Trace part (some (some item))) : Sized config item := by
  obtain ⟨rfl, bytes, -, -⟩ := decode_trace ran
  exact ⟨bytes, decode_fits ran⟩

theorem Cut.sized {group : List Pending} {events bytes : Nat}
    (cut : Cut config json messages group events bytes segment) :
    ∀ item ∈ itemsOf cut.pieces, Sized config item := by
  intro item member
  obtain ⟨⟨piece, part⟩, among, found⟩ := List.mem_filterMap.mp member
  have ran := cut.ran _ among
  cases piece with
  | flushed group => cases found
  | decoded message outcome =>
    cases found
    exact decode_sized ran

/-! ### The calls of `WriteBatches` -/

/-- The batches of a write. -/
def Call.written : Call → Option (List Storage.Batch)
  | .writeBatches batches => some batches
  | _ => none

/-- The writes of a trace. -/
def writes (trace : List Exchange) : List (List Storage.Batch) :=
  trace.filterMap fun exchange => exchange.op.written

theorem writes_append (first second : List Exchange) :
    writes (first ++ second) = writes first ++ writes second := List.filterMap_append

theorem writes_eq_nil (none : ∀ exchange ∈ part, exchange.op.written = none) : writes part = [] :=
  List.filterMap_eq_nil_iff.mpr none

theorem deadLetter_writes {message : Message} {reason : String} {cause : GoError}
    (ran : (deadLetter config message reason cause).Trace part (some ())) : writes part = [] := by
  rcases deadLetter_trace ran with ⟨error, reply, rfl⟩ | ⟨error, rfl⟩ | rfl <;> rfl

theorem plain_writes (plain : ∀ exchange ∈ part, Plain exchange.op) : writes part = [] := by
  refine writes_eq_nil fun exchange member => ?_
  have holds := plain exchange member
  cases here : exchange.op <;> rw [here] at holds <;> first | rfl | exact holds.elim

theorem decode_writes {message : Message} {outcome : Option Pending}
    (ran : (decode config json message).Trace part (some outcome)) : writes part = [] := by
  have decoded := decode_trace ran
  cases outcome with
  | none =>
    obtain ⟨first, rest, reason, cause, rfl, plain, -, letter⟩ := decoded
    rw [writes_append, plain_writes plain, deadLetter_writes letter]
    rfl
  | some item =>
    obtain ⟨-, -, -, plain⟩ := decoded
    exact plain_writes plain

theorem rejected_writes {cause : GoError} {item : Pending}
    (ran : RejectedOne config cause item part) : writes part = [] := by
  unfold RejectedOne at ran
  rw [rejectOne_eq] at ran
  split at ran
  · exact deadLetter_writes ran
  · obtain ⟨reply, rest, rfl, second⟩ := Prog.Trace.call_inv ran
    obtain ⟨rfl, -⟩ := Prog.Trace.pure_inv second
    rfl

/-- A flush writes its group once, and whether that succeeds or not nothing else. -/
theorem flush_writes {group : List Pending} (ran : (flush config group).Trace part (some ())) :
    writes part = [group.map Pending.batch] := by
  rcases flush_trace ran with ⟨rest, rfl, acks⟩ | ⟨error, parts, rfl, each⟩
  · refine congrArg (_ :: ·) (writes_eq_nil fun exchange member => ?_)
    have holds := acks exchange member
    cases here : exchange.op <;> rw [here] at holds <;> first | rfl | exact holds.elim
  · refine congrArg (_ :: ·) (writes_eq_nil fun exchange member => ?_)
    rcases List.mem_cons.mp member with rfl | later
    · rfl
    · obtain ⟨part, among, inside⟩ := List.mem_flatten.mp later
      obtain ⟨item, -, rejected⟩ := forall₂_mem_right each among
      exact List.filterMap_eq_nil_iff.mp (rejected_writes rejected) exchange inside

theorem pieces_writes (pieces : List (Piece × List Exchange))
    (ran : ∀ entry ∈ pieces, entry.1.Ran config json entry.2) :
    writes (pieces.flatMap Prod.snd) =
      (pieces.filterMap fun entry => entry.1.group?).map (List.map Pending.batch) := by
  induction pieces with
  | nil => rfl
  | cons entry pieces ih =>
    obtain ⟨first, rest⟩ := List.forall_mem_cons.mp ran
    rw [List.flatMap_cons, writes_append, ih rest]
    obtain ⟨piece, part⟩ := entry
    cases piece with
    | decoded message outcome =>
      rw [decode_writes first]
      rfl
    | flushed group =>
      rw [flush_writes first]
      rfl

theorem Fetches.writes_eq {trace : List Exchange} {fetches : List (List Message × List Exchange)}
    (run : Fetches config json trace fetches) :
    writes trace = fetches.flatMap fun fetch => writes fetch.2 := by
  have loop_writes : ∀ {opening : List Exchange}, (∀ exchange ∈ opening, OfLoop exchange) →
      writes opening = [] := by
    refine fun loop => writes_eq_nil fun exchange member => ?_
    have holds := (loop exchange member).op
    cases here : exchange.op <;> rw [here] at holds <;> first | rfl | exact holds.elim
  induction run with
  | done loop => exact loop_writes loop
  | fetch loop ran later ih =>
    rw [writes_append, loop_writes loop, List.flatMap_cons, ← ih, ← writes_append]
    rfl

end Fetch

/-! ### The result -/

theorem Call.reply_nonempty (op : Call) : Nonempty op.Reply := by
  cases op with
  | cancelled => exact ⟨true⟩
  | fetch _ => exact ⟨.ok []⟩
  | now => exact ⟨(0 : Int)⟩
  | resultError | writeBatches _ | doubleAck _ | ack _ | nak _ _ | publishDLQ _ _ _ =>
    exact ⟨(none : Option GoError)⟩
  | count _ _ => exact ⟨()⟩

/-- **How the messages of a fetch are written**: the decoded ones in arrival order, one call for each
group, every group within the bounds and without room for what comes next. -/
def Grouped (config : Config) (json : Wire.Codec Wire.Envelope) (messages : List Message)
    (segment : List Exchange) : Prop :=
  ∃ (cut : FetchCut config json messages segment) (groups : List (List Pending)),
    groups.flatten = itemsOf cut.pieces ∧
    writes segment = groups.map (List.map Pending.batch) ∧
    (∀ group ∈ groups, Bounded config group) ∧
    groups.IsChain (Overflows config)

theorem handle_grouped {config : Config} {json : Wire.Codec Wire.Envelope} {messages : List Message}
    {segment : List Exchange}
    (ran : (handle config json messages [] 0 0).Trace segment (some ())) :
    Grouped config json messages segment := by
  obtain ⟨cut⟩ := handle_cut messages ran
  refine ⟨cut, groupsFrom config [] 0 0 (itemsOf cut.pieces), groupsFrom_flatten _ _ _ _, ?_,
    groupsFrom_bounded cut.sized collected_nil, groupsFrom_chain cut.sized collected_nil⟩
  rw [← cut.grouped, ← pieces_writes cut.pieces cut.ran, ← cut.whole]

/-- **Ingest groups respect their bounds.** A trace of the ingestor, cut off anywhere, is the beginning
of a sequence of fetches that makes no other writes than those of its fetches, each of them grouped; so
every call of `WriteBatches` in it gets a group within the bounds. -/
theorem ingest_groups (config : Config) (json : Wire.Codec Wire.Envelope) (rounds : Nat)
    {trace : List Exchange} {result : Option (Option (Option GoError))}
    (ran : (run config json rounds).Trace trace result) :
    (∃ more fetches, Fetches config json (trace ++ more) fetches ∧
      (writes (trace ++ more) = fetches.flatMap fun fetch => writes fetch.2) ∧
      ∀ fetch ∈ fetches, Grouped config json fetch.1 fetch.2) ∧
    ∀ batches ∈ writes trace, ∃ group, batches = group.map Pending.batch ∧ Bounded config group := by
  obtain ⟨more, value, finished⟩ := ran.finish Call.reply_nonempty
  obtain ⟨fetches, cut⟩ := run_fetches rounds finished
  have grouped : ∀ fetch ∈ fetches, Grouped config json fetch.1 fetch.2 :=
    fun fetch member => handle_grouped (cut.segment_subset member).1
  refine ⟨⟨more, fetches, cut, cut.writes_eq, grouped⟩, fun batches member => ?_⟩
  have among : batches ∈ writes (trace ++ more) := by
    rw [writes_append]
    exact List.mem_append_left _ member
  rw [cut.writes_eq] at among
  obtain ⟨fetch, here, written⟩ := List.mem_flatMap.mp among
  obtain ⟨-, groups, -, same, bounded, -⟩ := grouped fetch here
  rw [same] at written
  obtain ⟨group, found, rfl⟩ := List.mem_map.mp written
  exact ⟨group, rfl, bounded group found⟩

/-- A fetch that brings the order twice, to a store that refuses every write. -/
def twiceAnswer : (op : Call) → op.Reply
  | .fetch _ => .ok [orderMessage, orderMessage]
  | .writeBatches _ => some (errorsNew "unavailable")
  | op => orderAnswer op

/-- One round of it, with room for one event in a group. -/
def twiceRun : List Exchange × Option (Option GoError) :=
  Prog.play twiceAnswer (run { standard with maxEvents := 1 } orderJson 1)

theorem twiceRun_trace : (run { standard with maxEvents := 1 } orderJson 1).Trace twiceRun.1
    (some twiceRun.2) := by
  unfold twiceRun
  generalize run { standard with maxEvents := 1 } orderJson 1 = program
  exact Prog.play_trace twiceAnswer program

/-- The two orders are written one by one. -/
theorem twiceRun_groups : (writes twiceRun.1).map List.length = [1, 1] ∧
    ∀ batches ∈ writes twiceRun.1, ∃ group, batches = group.map Pending.batch ∧
      Bounded { standard with maxEvents := 1 } group :=
  ⟨by decide +kernel, (ingest_groups _ orderJson 1 twiceRun_trace).2⟩

end Trail.Ingestor
