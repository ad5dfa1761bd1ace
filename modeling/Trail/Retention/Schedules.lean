/-
**The collection guard, and the schedules of its workers.**

* `run_guarded`: a payload object is deleted only for a candidate of the page at work, which was listed
  with an archive, is not referenced according to the check of that page, belongs to a configured
  store and has the key of its content.
* `collectPage_agree`, `run_agree`: against a store that answers the calls of the workers by their
  arguments, and on which their effects commute, all schedules of any two numbers of workers delete
  the same objects and count the same.
-/

import Trail.Library.Agreement
import Trail.Retention.Failures

namespace Trail.Retention

open Library Payload Storage Archive

/-! ### What a run does besides the collection -/

/-- A choice of the scheduler. -/
def Call.Schedules : Call → Prop
  | .schedule _ => True
  | _ => False

/-- A call outside the collection. -/
def Call.Plain : Call → Prop
  | .now | .ctxErr | .reconcileRetention | .scanRetentionEvents _ => True
  | op => op.Archival

namespace Engine

variable (engine : Engine) (dryRun : Bool)

theorem scanLoop_plain (now : Time) (fuel : Nat) (cursor : GoString) (dryPayloads : Finset GoString)
    (result : Result) (history : List signature.Exchange) :
    (engine.scanLoop dryRun now fuel cursor dryPayloads result).Obeys
      (fun _ (op : Call) => op.Plain) history fun _ _ => True := by
  induction fuel generalizing cursor dryPayloads result history with
  | zero => trivial
  | succ fuel ih =>
    unfold scanLoop
    split
    · refine ⟨trivial, fun expired => ?_⟩
      rcases expired with _ | error
      · refine ⟨trivial, fun reply => ?_⟩
        rcases reply with error | page
        · trivial
        dsimp only
        split
        · trivial
        · refine Prog.obeys_bind (((deletePage_archival dryRun _ dryPayloads _).weaken ?_).mono ?_)
          · intro later op archival
            cases op <;> trivial
          · intro later value _
            cases value with
            | error failure => trivial
            | ok next =>
              dsimp only
              split
              · exact ih _ _ _ _
              · trivial
      · trivial
    · trivial

/-- **The rule for runs** that only matter in their collection. -/
theorem run_obeys_collection {allow : List signature.Exchange → Call → Prop}
    (plain : ∀ history op, op.Plain → allow history op)
    (collects : ∀ start result history,
      (engine.collectPayloads start result).Obeys allow history fun _ _ => True) :
    (engine.run dryRun).Obeys allow [] fun _ _ => True := by
  have ends : ∀ {later : List signature.Exchange} (result : Result) (error : Option GoError),
      (finish result error).Obeys allow later fun _ _ => True :=
    fun result error => ⟨plain _ _ trivial, fun _ => trivial⟩
  have closes : ∀ (later : List signature.Exchange) (result : Result)
      (total : Result × Option GoError), (settle result total).Obeys allow later fun _ _ => True := by
    intro later result total
    obtain ⟨collected, _ | error⟩ := total
    · exact ⟨plain _ _ trivial, fun _ => ⟨plain _ _ trivial, fun _ => trivial⟩⟩
    · exact ends _ _
  have scans : ∀ {history : List signature.Exchange} (start : Time) (result : Result),
      ((engine.scanLoop dryRun start (engine.cfg.maxEvents.toNat + 1) [] ∅ result).bind
        (engine.afterScan dryRun start)).Obeys allow history fun _ _ => True := by
    intro history start result
    refine Prog.obeys_bind (((engine.scanLoop_plain dryRun start _ [] ∅ result history).weaken
      plain).mono ?_)
    intro later value _
    rcases value with ⟨result, error⟩ | result
    · exact ends _ _
    · refine Prog.obeys_bind ?_
      split
      · exact closes _ _ _
      · exact (collects start result later).mono fun later total _ => closes _ _ total
  refine ⟨plain _ _ trivial, fun start => ?_⟩
  refine Prog.obeys_bind ?_
  unfold reconcile
  split
  · exact scans start _
  · refine ⟨plain _ _ trivial, fun reply => ?_⟩
    rcases reply with _ | error
    · exact scans start _
    · exact ends _ _

end Engine

/-! ### The guard -/

/-- The page at work: it was listed and checked for references, and since then only its workers have
made calls. -/
def AtWork (history : List signature.Exchange) (listed : List Candidate) (live : GoString → Bool) :
    Prop :=
  ∃ earlier time limit rest, history = earlier ++ [⟨.listPayloadCandidates time limit, .ok listed⟩,
      ⟨.referencedPayloads ((verified listed).map Candidate.ref), .ok live⟩] ++ rest ∧
    ∀ exchange ∈ rest, exchange.op.Works ∨ exchange.op.Schedules

theorem AtWork.snoc {history : List signature.Exchange} {listed : List Candidate}
    {live : GoString → Bool} (atWork : AtWork history listed live) {exchange : signature.Exchange}
    (inside : exchange.op.Works ∨ exchange.op.Schedules) :
    AtWork (history ++ [exchange]) listed live := by
  obtain ⟨earlier, time, limit, rest, rfl, calls⟩ := atWork
  refine ⟨earlier, time, limit, rest ++ [exchange], List.append_assoc _ _ _, fun other member => ?_⟩
  rcases List.mem_append.mp member with old | new
  · exact calls other old
  · rw [List.mem_singleton.mp new]
    exact inside

/-- What a deletion of an object needs. -/
def Engine.Guarded (engine : Engine) (history : List signature.Exchange) (ref : Ref) : Prop :=
  ∃ listed live c, AtWork history listed live ∧ c ∈ listed ∧ c.ref = ref ∧ c.archiveID ≠ [] ∧
    live (payloadKey ref) = false ∧ ref.store ∈ engine.payloads ∧ ref.sha256 ≠ Bytes.zero 32 ∧
    (Hex.encodeToString ref.sha256.1 <:+ ref.key ∨
      Hex.encodeToString ref.sha256.1 ++ ascii ".gz" <:+ ref.key)

/-- Objects are deleted under the guard. -/
def Engine.Guards (engine : Engine) (history : List signature.Exchange) : Call → Prop
  | .delete ref => engine.Guarded history ref
  | _ => True

namespace Engine

variable (engine : Engine) (dryRun : Bool)

theorem processCandidate_guarded {listed : List Candidate} {live : GoString → Bool} {c : Candidate}
    (member : c ∈ verified listed) :
    (engine.processCandidate c (live (payloadKey c.ref))).Always engine.Guards
      fun history => AtWork history listed live := by
  have completes : ∀ {lastError : GoString} {next : Option GoError → Prog signature Outcome},
      (∀ reply, (next reply).Always engine.Guards fun history => AtWork history listed live) →
      (Prog.call (.completePayloadCandidate c.ref lastError) next : Prog signature Outcome).Always
        engine.Guards fun history => AtWork history listed live :=
    fun rest => ⟨fun _ _ => trivial, fun _ _ here => here.snoc (.inl trivial), rest⟩
  unfold processCandidate
  split
  · exact completes fun _ => trivial
  rename_i orphaned
  split
  · exact completes fun _ => trivial
  rename_i configured
  split
  · exact completes fun _ => trivial
  rename_i valid
  refine ⟨fun history here => ?_, fun _ _ here => here.snoc (.inl trivial), fun reply => ?_⟩
  · obtain ⟨inside, archived⟩ := List.mem_filter.mp member
    unfold validContentAddressedRef at valid
    simp only [decide_eq_false_iff_not, not_not, List.isSuffixOf_iff_suffix] at valid
    exact ⟨listed, live, c, here, inside, rfl, of_decide_eq_true archived,
      by simpa using orphaned, by simpa using configured, valid.2.2.1, valid.2.2.2⟩
  · dsimp only
    split
    · exact completes fun _ => trivial
    · refine completes fun reply => ?_
      cases reply <;> trivial

/-- **Every deletion of an object is guarded.** -/
theorem run_guarded : (engine.run dryRun).Obeys engine.Guards [] fun _ _ => True := by
  have others : ∀ {history : List signature.Exchange} {op : Call}, ¬ op.Works →
      engine.Guards history op := by
    intro history op other
    cases op with
    | delete ref => exact absurd trivial other
    | _ => trivial
  refine engine.run_obeys_collection dryRun (fun history op plain => others ?_) ?_
  · cases op <;> first | exact id | exact fun _ => plain
  intro start result history
  have payloads := engine.bounded.maxPayloads.1
  refine @collectLoop_obeys_rounds engine start engine.Guards (fun _ _ _ => True) (fun _ _ => True)
    ?_ _ _ result history (by omega) (by omega) trivial
  intro history remaining result _
  unfold collectRound
  split
  · refine ⟨trivial, fun expired => ?_⟩
    rcases expired with _ | error
    · refine ⟨trivial, fun reply => ?_⟩
      rcases reply with error | listed
      · trivial
      show (engine.collectListed remaining result listed).Obeys _ _ _
      unfold collectListed
      split
      · trivial
      refine ⟨trivial, fun reply => ?_⟩
      rcases reply with error | live
      · trivial
      refine Prog.obeys_bind (Prog.obeys_pool (fun history => AtWork history listed live) _ _ ?_ ?_ _ _
        _ _ ?_ (fun _ member => (List.not_mem_nil member).elim) ?_)
      · exact fun count history here => ⟨trivial, fun reply => here.snoc (.inr trivial)⟩
      · intro later total here
        show Sum.elim (fun _ => True) (fun _ => True) (pageDone _ _ _ total)
        cases pageDone remaining (engine.pageLimit remaining) (verified listed).length total <;> trivial
      · intro thread member
        obtain ⟨c, among, rfl⟩ := List.mem_map.mp member
        exact engine.processCandidate_guarded among
      · exact ⟨history ++ [⟨.ctxErr, none⟩], start - engine.cfg.payloadGracePeriod,
          engine.pageLimit remaining, [], by simp, by simp⟩
    · exact ⟨trivial, fun _ => trivial⟩
  · exact ⟨trivial, fun _ => trivial⟩

end Engine

/-! ### Schedules -/

/-- The engine with another number of workers. -/
def Engine.withConcurrency (engine : Engine) (workers : Int) (range : 0 < workers ∧ workers ≤ 32) :
    Engine where
  cfg := { engine.cfg with payloadConcurrency := workers }
  payloads := engine.payloads
  quote := engine.quote
  bounded := { engine.bounded with payloadConcurrency := range }
  validated := engine.validated

/-- The objects a call deletes. -/
def Call.objects : Call → Multiset Ref
  | .delete ref => {ref}
  | _ => 0

/-- The objects whose deletion was asked for in a history. -/
def deletedObjects (history : List signature.Exchange) : Multiset Ref :=
  Prog.emitted Call.objects history

/-- What is compared of the outcome of a run: its counters, and whether it returned an error. -/
def seenOf (total : Result × Option GoError) : Result × Bool := (total.1, total.2.isSome)

/-- What a worker's outcome does to it. -/
def seenStep (seen : Result × Bool) (outcome : Outcome) : Result × Bool :=
  ((mergeOutcome (seen.1, none) outcome).1, seen.2 || outcome.error.isSome)

theorem seenOf_merge (total : Result × Option GoError) (outcome : Outcome) :
    seenOf (mergeOutcome total outcome) = seenStep (seenOf total) outcome := by
  obtain ⟨result, error⟩ := total
  cases error <;> rfl

theorem bump_comm (first second : Bool) (count : Nat) :
    bump first (bump second count) = bump second (bump first count) := by
  cases first <;> cases second <;> rfl

/-- The order in which outcomes are counted does not matter. -/
instance : RightCommutative seenStep := by
  refine ⟨fun seen first second => ?_⟩
  obtain ⟨result, failed⟩ := seen
  have bytes : result.payloadBytesReclaimed + first.bytesReclaimed + second.bytesReclaimed =
      result.payloadBytesReclaimed + second.bytesReclaimed + first.bytesReclaimed := by
    rw [UInt64.add_assoc, UInt64.add_comm first.bytesReclaimed, UInt64.add_assoc]
  unfold seenStep mergeOutcome
  dsimp only
  rw [bump_comm second.referenced, bump_comm second.orphaned, bump_comm second.unknown,
    bump_comm second.deleted, bytes, Nat.add_right_comm, Bool.or_right_comm]

/-- The stores, the archiver and the context, as a backend whose answers to the calls of the workers
depend on the candidate alone, and on which the effects of these calls commute. -/
structure Independent {S : Type} (backend : Backend signature S) : Prop where
  free : ∀ op : Call, backend.free op ↔ op.Schedules
  workers : backend.Workers Call.Works

section Agree

variable {S : Type} {backend : Backend signature S} (independent : Independent backend)
  (engine : Engine) {first second : Int} (range : 0 < first ∧ first ≤ 32)
  (range' : 0 < second ∧ second ≤ 32)

include independent

theorem Independent.bound {op : Call} (other : ¬ op.Schedules) : ¬ backend.free op :=
  fun free => other ((independent.free op).mp free)

/-- **A page ends alike in all schedules** of any two numbers of workers. -/
theorem collectPage_agree (candidates : List Candidate) (live : GoString → Bool) (result : Result) :
    backend.Agree Call.objects
      ((engine.withConcurrency first range).collectPage candidates live result)
      ((engine.withConcurrency second range').collectPage candidates live result)
      fun one two => seenOf one = seenOf two := by
  refine Backend.agree_pool independent.workers ?_ ?_ seenOf seenStep seenOf_merge _ _ 2 _ _ ?_ ?_ ?_
    ?_ rfl
  · exact fun _ => rfl
  · exact fun count => (independent.free (.schedule count)).mpr trivial
  · intro thread member
    obtain ⟨c, _, rfl⟩ := List.mem_map.mp member
    exact engine.processCandidate_works c _
  · intro thread member
    obtain ⟨c, _, rfl⟩ := List.mem_map.mp member
    exact engine.processCandidate_within c _
  · rw [List.length_map]
  · rw [List.length_map]

/-- Two rounds that end alike. -/
def Alike : Round → Round → Prop
  | .inl one, .inl two => seenOf one = seenOf two
  | .inr one, .inr two => one = two
  | _, _ => False

omit independent in
theorem alike_pageDone {remaining limit : Int} {taken : Nat} {one two : Result × Option GoError}
    (same : seenOf one = seenOf two) :
    Alike (pageDone remaining limit taken one) (pageDone remaining limit taken two) := by
  obtain ⟨result, error⟩ := one
  obtain ⟨result', error'⟩ := two
  obtain ⟨rfl, fails⟩ := Prod.mk.inj same
  cases error with
  | none =>
    cases error' with
    | none =>
      unfold pageDone
      dsimp only
      split <;> rfl
    | some error' => cases fails
  | some error =>
    cases error' with
    | none => cases fails
    | some error' => rfl

theorem collectRound_agree (now : Time) (remaining : Int) (result : Result) :
    backend.Agree Call.objects
      ((engine.withConcurrency first range).collectRound now remaining result)
      ((engine.withConcurrency second range').collectRound now remaining result) Alike := by
  unfold Engine.collectRound
  split
  · refine Backend.agree_call (independent.bound id) fun expired => ?_
    rcases expired with _ | error
    · refine Backend.agree_call (independent.bound id) fun reply => ?_
      rcases reply with error | page
      · exact Backend.agree_pure rfl
      show backend.Agree _ (Engine.collectListed _ remaining result page)
        (Engine.collectListed _ remaining result page) _
      unfold Engine.collectListed
      split
      · exact Backend.agree_pure rfl
      refine Backend.agree_call (independent.bound id) fun reply => ?_
      rcases reply with error | live
      · exact Backend.agree_pure rfl
      exact Backend.agree_bind (collectPage_agree independent engine range range' _ live _)
        fun one two same => Backend.agree_pure (alike_pageDone same)
    · exact Backend.agree_call (independent.bound id) fun again => Backend.agree_pure rfl
  · exact Backend.agree_call (independent.bound id) fun error => Backend.agree_pure rfl

theorem collectLoop_agree (now : Time) (fuel : Nat) (remaining : Int) (result : Result) :
    backend.Agree Call.objects
      ((engine.withConcurrency first range).collectLoop now fuel remaining result)
      ((engine.withConcurrency second range').collectLoop now fuel remaining result)
      fun one two => seenOf one = seenOf two := by
  induction fuel generalizing remaining result with
  | zero => exact Backend.agree_pure rfl
  | succ fuel ih =>
    rw [Engine.collectLoop_succ, Engine.collectLoop_succ]
    refine Backend.agree_bind (collectRound_agree independent engine range range' now remaining
      result) ?_
    intro one two alike
    rcases one with total | next
    · rcases two with total' | next'
      · exact Backend.agree_pure alike
      · exact alike.elim
    · rcases two with total' | next'
      · exact alike.elim
      · obtain rfl : next = next' := alike
        exact ih next.1 next.2

omit independent in
theorem scanLoop_withConcurrency (dryRun : Bool) (now : Time) (fuel : Nat) (cursor : GoString)
    (dryPayloads : Finset GoString) (result : Result) :
    (engine.withConcurrency first range).scanLoop dryRun now fuel cursor dryPayloads result =
      engine.scanLoop dryRun now fuel cursor dryPayloads result := by
  induction fuel generalizing cursor dryPayloads result with
  | zero => rfl
  | succ fuel ih =>
    unfold Engine.scanLoop
    refine if_congr Iff.rfl ?_ rfl
    show Prog.call _ _ = Prog.call _ _
    congr 1
    funext expired
    rcases expired with _ | error
    · show Prog.call _ _ = Prog.call _ _
      congr 1
      funext reply
      rcases reply with error | page
      · rfl
      · refine if_congr Iff.rfl rfl ?_
        show Prog.bind _ _ = Prog.bind _ _
        congr 1
        funext value
        rcases value with failure | next
        · rfl
        · exact if_congr Iff.rfl (ih _ _ _) rfl
    · rfl

theorem settle_agree (result : Result) {one two : Result × Option GoError}
    (same : seenOf one = seenOf two) :
    backend.Agree Call.objects (settle result one) (settle result two)
      fun one two => seenOf one = seenOf two := by
  obtain ⟨collected, error⟩ := one
  obtain ⟨collected', error'⟩ := two
  obtain ⟨rfl, fails⟩ := Prod.mk.inj same
  cases error with
  | none =>
    cases error' with
    | none =>
      refine Backend.agree_call (independent.bound id) fun time => ?_
      exact Backend.agree_call (independent.bound id) fun error => Backend.agree_pure rfl
    | some error' => cases fails
  | some error =>
    cases error' with
    | none => cases fails
    | some error' =>
      exact Backend.agree_call (independent.bound id) fun time => Backend.agree_pure rfl

/-- **A run ends alike in all schedules** of any two numbers of workers. -/
theorem run_agree (dryRun : Bool) :
    backend.Agree Call.objects ((engine.withConcurrency first range).run dryRun)
      ((engine.withConcurrency second range').run dryRun) fun one two => seenOf one = seenOf two := by
  have ends : ∀ (result : Result) (error : Option GoError),
      backend.Agree Call.objects (finish result error) (finish result error)
        fun one two => seenOf one = seenOf two :=
    fun result error => Backend.agree_call (independent.bound id) fun time => Backend.agree_pure rfl
  have scans : ∀ (start : Time) (result : Result), backend.Agree Call.objects
      (((engine.withConcurrency first range).scanLoop dryRun start
        (engine.cfg.maxEvents.toNat + 1) [] ∅ result).bind
          ((engine.withConcurrency first range).afterScan dryRun start))
      (((engine.withConcurrency second range').scanLoop dryRun start
        (engine.cfg.maxEvents.toNat + 1) [] ∅ result).bind
          ((engine.withConcurrency second range').afterScan dryRun start))
      fun one two => seenOf one = seenOf two := by
    intro start result
    rw [scanLoop_withConcurrency, scanLoop_withConcurrency]
    refine Backend.agree_bind (Backend.agree_self ((engine.scanLoop_plain dryRun start _ [] ∅ result
      []).weaken ?_)) ?_
    · intro history op plain
      refine independent.bound fun schedules => ?_
      cases op <;> first | exact schedules | exact plain
    · intro value _ same
      subst same
      rcases value with ⟨result, error⟩ | result
      · exact ends _ _
      · show backend.Agree _ (Prog.bind (if _ then _ else _) _) (Prog.bind (if _ then _ else _) _) _
        split
        · exact settle_agree independent result rfl
        · exact Backend.agree_bind (collectLoop_agree independent engine range range' start _ _ result)
            fun one two same => settle_agree independent result same
  refine Backend.agree_call (independent.bound id) fun start => ?_
  unfold reconcile
  split
  · exact scans start _
  · refine Backend.agree_call (independent.bound id) fun reply => ?_
    rcases reply with _ | error
    · exact scans start _
    · exact ends _ _

end Agree

/-- **The payload collection guard.** In every run, a payload object is deleted only for a candidate
of the page at work that was listed with an archive, is not referenced according to the check of
that page, whose store is configured, and whose key ends in the hexadecimal form of a checksum that
is not zero. The workers of a page complete each of its candidates once. Against independent stores,
two finished runs with any two numbers of workers and any schedules delete the same objects, count
the same and leave the same state. -/
theorem collection_guard (engine : Engine) (dryRun : Bool) :
    (∀ trace outcome, (engine.run dryRun).Trace trace outcome →
      ∀ before ref reply after, trace = before ++ ⟨.delete ref, reply⟩ :: after →
        engine.Guarded before ref) ∧
    (∀ candidates live result trace total,
      (engine.collectPage candidates live result).Trace trace (some total) →
        completed trace = refsOf candidates) ∧
    (∀ {S : Type} (backend : Backend signature S), Independent backend →
      ∀ (first second : Int) (range : 0 < first ∧ first ≤ 32) (range' : 0 < second ∧ second ≤ 32)
        (state : S) (one two : List signature.Exchange) (outcome outcome' : Result × Option GoError),
        ((engine.withConcurrency first range).run dryRun).Trace one (some outcome) →
        backend.Answers state one →
        ((engine.withConcurrency second range').run dryRun).Trace two (some outcome') →
        backend.Answers state two →
        deletedObjects one = deletedObjects two ∧ outcome.1 = outcome'.1 ∧
          outcome.2.isSome = outcome'.2.isSome ∧ backend.after state one = backend.after state two) := by
  refine ⟨fun trace outcome ran before ref reply after split => ?_,
    fun candidates live result trace total ran => ?_, ?_⟩
  · exact ((engine.run_guarded dryRun).trace ran).1 before _ after split
  · have emits := ((engine.collectPage_emits candidates live result []).trace ran).2 total rfl
    rw [List.nil_append] at emits
    exact emits.trans (zero_add _)
  · intro S backend independent first second range range' state one two outcome outcome' ran answers
      ran' answers'
    obtain ⟨states, objects, same⟩ := run_agree independent engine range range' dryRun state one two
      outcome outcome' ran answers ran' answers'
    have results : (seenOf outcome).1 = (seenOf outcome').1 := congrArg Prod.fst same
    have errors : (seenOf outcome).2 = (seenOf outcome').2 := congrArg Prod.snd same
    exact ⟨objects, results, errors, states⟩

/-! ### Two workers and one -/

theorem length_filled (byte : UInt8) : (List.replicate 32 byte).length = 32 := List.length_replicate

/-- A reference to an object with a checksum of equal bytes. -/
def filledRef (byte : UInt8) : Ref where
  store := ascii "s"
  key := Hex.encodeToString (List.replicate 32 byte)
  sha256 := ⟨List.replicate 32 byte, length_filled byte⟩

def orphan (byte : UInt8) : Candidate := ⟨filledRef byte, ascii "archive", 0, 0, 0, []⟩

/-- An engine with one payload store. -/
def storeEngine : Engine :=
  { shortEngine with payloads := [ascii "s"] }

/-- Stores with two orphans in one page, and a scheduler with one pick. -/
def orphans (pick : Nat) : (op : Call) → op.Reply
  | .referencedPayloads _ => .ok fun _ => false
  | .schedule _ => pick
  | op => listing [orphan 1, orphan 2] op

/-- These stores as a backend without a state. -/
def orphanage : Backend signature Unit where
  reply _ op := orphans 0 op
  next _ _ := ()
  free op := op.Schedules

theorem orphanage_independent : Independent orphanage where
  free _ := Iff.rfl
  workers := {
    fixed := fun _ _ _ _ => rfl
    commute := fun _ _ _ _ _ => rfl
    bound := fun op works => by cases op <;> first | exact id | exact fun _ => works
    idle := fun _ _ _ => rfl }

theorem orphans_evaluated : (deletedObjects (((storeEngine.withConcurrency 1 (by decide)).run
    false).play (orphans 0)).1).card = 2 := by
  decide

theorem collection_guard_orphans : ∃ one two outcome outcome',
    ((storeEngine.withConcurrency 1 (by decide)).run false).Trace one (some outcome) ∧
    ((storeEngine.withConcurrency 2 (by decide)).run false).Trace two (some outcome') ∧
    (deletedObjects one).card = 2 ∧ deletedObjects one = deletedObjects two ∧
      outcome.1 = outcome'.1 := by
  have answers : ∀ (pick : Nat) (program : Prog signature (Result × Option GoError)),
      orphanage.Answers () (program.play (orphans pick)).1 := by
    intro pick program
    refine orphanage.answers_play (fun _ => rfl) (fun op bound => ?_) program
    cases op with
    | schedule count => exact absurd trivial bound
    | _ => rfl
  have ran := Prog.play_trace (σ := signature) (orphans 0)
    ((storeEngine.withConcurrency 1 (by decide)).run false)
  have ran' := Prog.play_trace (σ := signature) (orphans 1)
    ((storeEngine.withConcurrency 2 (by decide)).run false)
  obtain ⟨objects, results, _⟩ := (collection_guard storeEngine false).2.2 orphanage
    orphanage_independent 1 2 _ _ () _ _ _ _ ran (answers 0 _) ran' (answers 1 _)
  exact ⟨_, _, _, _, ran, ran', orphans_evaluated, objects, results⟩

end Trail.Retention
