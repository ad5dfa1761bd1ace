/-
**What a dry run predicts.**

A dry run counts the objects that would become candidates: the keys with an eligibility time over all
its pages, each once. A run adds up what the store staged page by page, and the store stages no link
without a store or a key. So an object of two pages is counted twice by the run, and a link without an
object is counted by the dry run only.

* `stagePayloads_counts`: what the adapter stages of a request.
* `scanLoop_candidates`: the count of a scan, page by page; `run_candidates`: of both kinds of run.
* `dry_run_predicts_iff`: the tables for which the two agree.
-/

import Trail.Postgres.Reports
import Trail.Retention.Progress

namespace Trail.Postgres

open Library Payload Storage
open Retention

/-! ### What is staged of a request -/

/-- The objects the payloads are staged for. -/
def keysOf (times : Times) (payloads : List EventPayload) : Finset GoString :=
  ((payloads.filter (Stages times ·)).map fun p => payloadKey p.ref).toFinset

/-- The objects a request stages. -/
def stagedKeys (request : DeleteRequest) : Finset GoString :=
  keysOf request.payloadEligibleAt (request.events.flatMap (·.payloads))

theorem keysOf_cons (times : Times) (p : EventPayload) (payloads : List EventPayload) :
    keysOf times (p :: payloads) =
      if Stages times p then insert (payloadKey p.ref) (keysOf times payloads)
      else keysOf times payloads := by
  unfold keysOf
  split
  · rename_i due
    rw [List.filter_cons_of_pos (by simpa using due), List.map_cons, List.toFinset_cons]
  · rename_i other
    rw [List.filter_cons_of_neg (by simpa using other)]

theorem keysOf_subset (times : Times) (payloads : List EventPayload) :
    keysOf times payloads ⊆ times.keys.toFinset := by
  intro key member
  simp only [keysOf, List.mem_toFinset, List.mem_map, List.mem_filter, decide_eq_true_eq] at member
  obtain ⟨p, ⟨-, due⟩, rfl⟩ := member
  rw [List.mem_toFinset]
  exact AList.mem_keys.mpr (AList.lookup_isSome.mp due.1)

/-- **The adapter stages each object of a request once**, when nothing fails. -/
theorem stagePayloads_counts {json : Json} (written : ∀ ref, json.ref ref = none)
    {answer : (op : Call) → op.Reply}
    (inserted : ∀ statement, ∃ rows, answer (.exec statement) = .ok rows)
    (archiveID : GoString) (times : Times) (payloads : List EventPayload) (seen : Finset GoString)
    (staged : UInt64) :
    ((stagePayloads json archiveID times payloads seen staged).play (σ := signature) answer).2 =
      (staged + UInt64.ofNat (keysOf times payloads \ seen).card, none) := by
  induction payloads generalizing seen staged with
  | nil => simp [stagePayloads, Prog.play, keysOf]
  | cons p payloads ih =>
    by_cases due : Stages times p ∧ payloadKey p.ref ∉ seen
    · obtain ⟨eligibleAt, next, first, -, goesOn⟩ :=
        (stagePayloads_first json archiveID times due.1 due.2 payloads staged).2 (written p.ref)
      obtain ⟨rows, done⟩ := inserted (.insertCandidate p.ref eligibleAt archiveID)
      have size : (keysOf times (p :: payloads) \ seen).card =
          1 + (keysOf times payloads \ insert (payloadKey p.ref) seen).card := by
        have one := Finset.card_erase_add_one
          (Finset.mem_insert_self (payloadKey p.ref) (keysOf times payloads \ seen))
        rw [Finset.erase_insert_eq_erase] at one
        rw [keysOf_cons, if_pos due.1, Finset.insert_sdiff_of_notMem _ due.2, Finset.sdiff_insert,
          ← one, Nat.add_comm]
      rw [first]
      dsimp only [Prog.play]
      rw [done, goesOn, ih, size, UInt64.ofNat_add, ← UInt64.add_assoc]
      rfl
    · rw [stagePayloads_skip json archiveID times due, ih]
      have same : keysOf times (p :: payloads) \ seen = keysOf times payloads \ seen := by
        rw [keysOf_cons]
        split
        · rename_i stages
          have old : payloadKey p.ref ∈ seen := by
            by_contra fresh
            exact due ⟨stages, fresh⟩
          rw [Finset.insert_sdiff_of_mem _ old]
        · rfl
      rw [same]

/-- A database that takes every statement. -/
def accepting : (op : Call) → op.Reply
  | .beginTx | .commit => (none : Option GoError)
  | .rollback => ()
  | .exec _ | .countEventArchives _ _ => .ok (1 : Nat)
  | .selectEvents _ => .ok []
  | .outside op => Retention.obliging op

/-- A link that may be collected from the time 5 on. -/
def oneLink : EventPayload := ⟨[], { store := ascii "s3", key := ascii "a" }⟩

theorem oneLink_staged_once :
    ((stagePayloads ⟨fun _ => none, fun _ => none, fun _ => none, fun _ => none⟩ []
      (AList.singleton (payloadKey oneLink.ref) 5) [oneLink, oneLink] ∅ 0).play (σ := signature) accepting).2 =
      (1, none) :=
  (stagePayloads_counts (fun _ => rfl) (fun _ => ⟨1, rfl⟩) _ _ _ _ _).trans (by decide)

/-! ### The pages of a run -/

/-- A list cut into pieces of a size, the last one shorter; the fuel is at least its length. -/
def chunks {α : Type} (size : Nat) : Nat → List α → List (List α)
  | 0, _ => []
  | fuel + 1, items =>
    if items = [] then [] else items.take size :: chunks size fuel (items.drop size)

/-- The pages of a run. -/
def runPages (engine : Engine) (adapter : Adapter) (rows : List EventRecord) : List (List Retention.Event) :=
  let taken := ((orderBy rowKey rows).take engine.cfg.maxEvents.toNat).map adapter.retentionEvent
  chunks engine.cfg.eventBatchSize.toNat taken.length taken

section Pages

variable (engine : Engine) (now : Time)

/-- The sweep of a page, whatever was counted before. -/
def pageSweep (page : List Retention.Event) : Sweep := engine.sweep now page { startedAt := now }

/-- The objects with an eligibility time on a page. -/
def pageKeys (page : List Retention.Event) : Finset GoString := (pageSweep engine now page).times.keys.toFinset

/-- The objects that are staged for a page. -/
def pageStaged (page : List Retention.Event) : Finset GoString :=
  keysOf (pageSweep engine now page).times ((pageSweep engine now page).eligible.flatMap (·.payloads))

/-- The objects of any of the pages. -/
def unionOf (sets : List (Finset GoString)) : Finset GoString := sets.foldr (· ∪ ·) ∅

/-- The objects only a dry run counts. -/
def unstaged (pages : List (List Retention.Event)) : Nat :=
  (unionOf (pages.map (pageKeys engine now)) \ unionOf (pages.map (pageStaged engine now))).card

/-- How often an object is staged again on a later page. -/
def repeats (pages : List (List Retention.Event)) : Nat :=
  (pages.map fun page => (pageStaged engine now page).card).sum -
    (unionOf (pages.map (pageStaged engine now))).card

theorem sweepEvent_part {first second : Sweep} (event : Retention.Event)
    (eligible : first.eligible = second.eligible) (times : first.times = second.times) :
    (engine.sweepEvent now first event).eligible = (engine.sweepEvent now second event).eligible ∧
      (engine.sweepEvent now first event).times = (engine.sweepEvent now second event).times ∧
      (engine.sweepEvent now first event).result.payloadCandidates =
        first.result.payloadCandidates := by
  unfold Engine.sweepEvent
  split
  · exact ⟨eligible, times, rfl⟩
  · dsimp only
    split
    · exact ⟨by rw [eligible], by rw [times], rfl⟩
    · exact ⟨eligible, times, rfl⟩

/-- A sweep does not depend on what was counted before, and leaves the candidates alone. -/
theorem sweep_part (page : List Retention.Event) (result : Result) :
    (engine.sweep now page result).eligible = (pageSweep engine now page).eligible ∧
      (engine.sweep now page result).times = (pageSweep engine now page).times ∧
      (engine.sweep now page result).result.payloadCandidates = result.payloadCandidates := by
  have fold : ∀ (page : List Retention.Event) (first second : Sweep),
      first.eligible = second.eligible → first.times = second.times →
      (page.foldl (engine.sweepEvent now) first).eligible =
          (page.foldl (engine.sweepEvent now) second).eligible ∧
        (page.foldl (engine.sweepEvent now) first).times =
          (page.foldl (engine.sweepEvent now) second).times ∧
        (page.foldl (engine.sweepEvent now) first).result.payloadCandidates =
          first.result.payloadCandidates := by
    intro page
    induction page with
    | nil => exact fun first second eligible times => ⟨eligible, times, rfl⟩
    | cons event page ih =>
      intro first second eligible times
      obtain ⟨same, times', kept⟩ := sweepEvent_part engine now event eligible times
      obtain ⟨one, two, three⟩ := ih _ _ same times'
      exact ⟨one, two, three.trans kept⟩
  exact fold page _ _ rfl rfl

theorem times_of_eligible_nil {page : List Retention.Event}
    (none_ : (pageSweep engine now page).eligible = []) : (pageSweep engine now page).times = ∅ := by
  have fold : ∀ (page : List Retention.Event) (sweep : Sweep), (sweep.eligible = [] → sweep.times = ∅) →
      (page.foldl (engine.sweepEvent now) sweep).eligible = [] →
      (page.foldl (engine.sweepEvent now) sweep).times = ∅ := by
    intro page
    induction page with
    | nil => exact fun sweep kept => kept
    | cons event page ih =>
      intro sweep kept
      refine ih _ ?_
      unfold Engine.sweepEvent
      split
      · exact kept
      · dsimp only
        split
        · intro none_
          simp at none_
        · exact kept
  exact fold page _ (fun _ => rfl) none_

end Pages

/-! ### Counts of a run -/

section Runs

variable {adapter : Adapter} {quote : GoString → GoString} {World : Type}
  {rows : World → List EventRecord}
  {answer : World → (op : Retention.Call) → World × op.Reply}

/-- The store counts what it stages. -/
def Counting (answer : World → (op : Retention.Call) → World × op.Reply) : Prop :=
  ∀ world request, request.dryRun = false →
    (answer world (.deleteRetentionEvents request)).2.1.payloadCandidates =
      UInt64.ofNat (stagedKeys request).card

/-- The candidates after a page, from those before it. -/
structure PageCounted (engine : Engine) (now : Time) (dryRun : Bool) (page : List Retention.Event)
    (before : UInt64) (seen : Finset GoString) (next : Result × Finset GoString) : Prop where
  dry : dryRun = true → before = UInt64.ofNat seen.card →
    next.2 = seen ∪ pageKeys engine now page ∧ next.1.payloadCandidates = UInt64.ofNat next.2.card
  wet : dryRun = false →
    next.1.payloadCandidates = before + UInt64.ofNat (pageStaged engine now page).card

theorem deletePage_candidates (counting : Counting answer) (engine : Engine) (now : Time)
    (dryRun : Bool) {two three : World} {next : Result × Finset GoString} {seen : Finset GoString}
    {page : List Retention.Event} {result : Result}
    (ran : ((deletePage dryRun (engine.sweep now page result) seen).execute answer two).2 =
      (three, .ok next)) :
    PageCounted engine now dryRun page result.payloadCandidates seen next := by
  obtain ⟨eligible, times, kept⟩ := sweep_part engine now page result
  unfold deletePage at ran
  split at ran
  · rename_i none_
    cases ran
    have empty := times_of_eligible_nil engine now (eligible.symm.trans none_)
    refine ⟨fun _ start => ?_, fun _ => ?_⟩
    · have keys : pageKeys engine now page = ∅ := by
        rw [pageKeys, empty]
        rfl
      rw [keys, Finset.union_empty]
      exact ⟨rfl, kept.trans start⟩
    · have staged : pageStaged engine now page = ∅ := by
        rw [pageStaged, eligible.symm.trans none_]
        rfl
      rw [staged, kept]
      exact (UInt64.add_zero _).symm
  split at ran
  · rename_i dry
    refine ⟨fun _ _ => ?_, fun wet => absurd (dry.symm.trans wet) (by decide)⟩
    rw [Prog.execute_call_snd] at ran
    obtain ⟨-, value⟩ := Prod.mk.inj ran
    obtain ⟨-, rfl⟩ := checked_ok value
    rw [times]
    exact ⟨rfl, rfl⟩
  · rename_i wet
    refine ⟨fun dry => absurd dry wet, fun _ => ?_⟩
    rcases archived : ((archiveEvents (engine.sweep now page result).eligible).execute answer two).2
      with ⟨later, outcome⟩
    rw [Prog.execute_bind_snd archived] at ran
    cases outcome with
    | error error => cases (Prod.mk.inj ran).2
    | ok receipt =>
      unfold deleteArchived at ran
      rw [Prog.execute_call_snd] at ran
      obtain ⟨-, value⟩ := Prod.mk.inj ran
      obtain ⟨-, rfl⟩ := checked_ok value
      have counted := counting later ⟨(engine.sweep now page result).eligible,
        (engine.sweep now page result).times, receipt.manifest.id, false⟩ rfl
      show (engine.sweep now page result).result.payloadCandidates + _ = _
      rw [counted, kept, stagedKeys, eligible, times]
      rfl

/-- The candidates after some pages. -/
structure PagesCounted (engine : Engine) (now : Time) (dryRun : Bool)
    (pages : List (List Retention.Event)) (before : UInt64) (seen : Finset GoString)
    (after : UInt64) : Prop where
  dry : dryRun = true → before = UInt64.ofNat seen.card →
    after = UInt64.ofNat (seen ∪ unionOf (pages.map (pageKeys engine now))).card
  wet : dryRun = false → after =
    before + UInt64.ofNat (pages.map fun page => (pageStaged engine now page).card).sum

theorem PagesCounted.nothing (engine : Engine) (now : Time) (dryRun : Bool) (before : UInt64)
    (seen : Finset GoString) : PagesCounted engine now dryRun [] before seen before := by
  refine ⟨fun _ start => ?_, fun _ => (UInt64.add_zero _).symm⟩
  rw [start, List.map_nil, unionOf, List.foldr_nil, Finset.union_empty]

theorem PageCounted.cons {engine : Engine} {now : Time} {dryRun : Bool} {page : List Retention.Event}
    {pages : List (List Retention.Event)} {before after : UInt64} {seen : Finset GoString}
    {next : Result × Finset GoString}
    (first : PageCounted engine now dryRun page before seen next)
    (rest : PagesCounted engine now dryRun pages next.1.payloadCandidates next.2 after) :
    PagesCounted engine now dryRun (page :: pages) before seen after := by
  refine ⟨fun dry start => ?_, fun wet => ?_⟩
  · obtain ⟨keys, count⟩ := first.dry dry start
    rw [rest.dry dry count, keys, Finset.union_assoc]
    rfl
  · rw [rest.wet wet, first.wet wet, List.map_cons, List.sum_cons, UInt64.ofNat_add, UInt64.add_assoc]

theorem chunks_map {α β : Type} (f : α → β) (size fuel : Nat) (items : List α) :
    chunks size fuel (items.map f) = (chunks size fuel items).map (List.map f) := by
  induction fuel generalizing items with
  | zero => rfl
  | succ fuel ih =>
    unfold chunks
    by_cases none_ : items = []
    · simp [none_]
    · rw [if_neg none_, if_neg (by simpa using none_), List.map_cons, ← ih, List.map_take, List.map_drop]

theorem chunks_nil {α : Type} (size fuel : Nat) : chunks size fuel ([] : List α) = [] := by
  cases fuel <;> rfl

theorem chunks_cons {α : Type} {size fuel : Nat} {items : List α} (some_ : items ≠ [])
    (enough : items.length ≤ fuel) (positive : 0 < size) :
    ∃ less, (items.drop size).length ≤ less ∧
      chunks size fuel items = items.take size :: chunks size less (items.drop size) := by
  have long := List.length_pos_iff.mpr some_
  cases fuel with
  | zero => omega
  | succ fuel =>
    refine ⟨fuel, ?_, by rw [chunks, if_neg some_]⟩
    rw [List.length_drop]
    omega

/-- **The candidates of a scan**, page by page. -/
theorem scanLoop_candidates (steady : Steady adapter quote rows answer) (counting : Counting answer)
    (engine : Engine) (dryRun : Bool) (now : Time) (fuel : Nat) {cursor : GoString}
    {key : Option RowKey} (standing : CursorAt cursor key) (seen : Finset GoString) (result : Result)
    (world : World) (enough : engine.cfg.maxEvents - result.eventsScanned < fuel)
    {taken : List EventRecord}
    (ahead : taken = (orderBy rowKey (afterCursor rowKey key (rows world))).take
      (engine.cfg.maxEvents - result.eventsScanned).toNat)
    {size : Nat} (room : taken.length ≤ size) :
    ∃ final, ((engine.scanLoop dryRun now fuel cursor seen result).execute answer world).2.2 =
        .ok final ∧
      PagesCounted engine now dryRun ((chunks engine.cfg.eventBatchSize.toNat size taken).map
        (List.map adapter.retentionEvent)) result.payloadCandidates seen final.payloadCandidates := by
  induction fuel generalizing cursor key seen result world taken size with
  | zero =>
    refine ⟨result, rfl, ?_⟩
    rw [ahead, show (engine.cfg.maxEvents - result.eventsScanned).toNat = 0 by omega, List.take_zero,
      chunks_nil]
    exact .nothing ..
  | succ fuel ih =>
    by_cases ended : orderBy rowKey (afterCursor rowKey key (rows world)) = [] ∨
        engine.cfg.maxEvents ≤ result.eventsScanned
    · refine ⟨result,
        (steady.scanLoop_end engine dryRun now _ standing seen result world ended).2, ?_⟩
      have nothing : taken = [] := by
        rcases ended with empty | spent
        · rw [ahead, empty, List.take_nil]
        · rw [ahead, show (engine.cfg.maxEvents - result.eventsScanned).toNat = 0 by omega,
            List.take_zero]
      rw [nothing, chunks_nil]
      exact .nothing ..
    · obtain ⟨some_, budget⟩ := not_or.mp ended
      obtain ⟨next, ⟨two, three, log, ran, -, -, more, last⟩, counts⟩ :=
        steady.scanLoop_round engine dryRun now fuel standing seen result world rfl some_
          (not_le.mp budget)
      have first := deletePage_candidates counting engine now dryRun ran
      generalize orderBy rowKey (afterCursor rowKey key (rows world)) = rest at *
      have batch := engine.bounded.eventBatchSize.1
      have limit : (engine.scanLimit result.eventsScanned).toNat =
          min engine.cfg.eventBatchSize.toNat (engine.cfg.maxEvents - result.eventsScanned).toNat := by
        unfold Engine.scanLimit
        omega
      have page : rest.take (engine.scanLimit result.eventsScanned).toNat =
          taken.take engine.cfg.eventBatchSize.toNat := by
        rw [ahead, List.take_take, limit]
      have nonempty : taken ≠ [] := by
        rw [ahead]
        intro nil
        rcases List.take_eq_nil_iff.mp nil with zero | nil
        · omega
        · exact some_ nil
      obtain ⟨less, fits, cut⟩ := chunks_cons nonempty room
        (show 0 < engine.cfg.eventBatchSize.toNat by omega)
      rw [cut, List.map_cons, ← page]
      have number : next.1.eventsScanned = result.eventsScanned +
          (rest.take (engine.scanLimit result.eventsScanned).toNat).length :=
        (congrArg Prod.fst counts).trans (congrArg _ (List.length_map _))
      rcases Nat.lt_or_ge (engine.scanLimit result.eventsScanned).toNat rest.length with longer | short
      · obtain ⟨cursor, key, standing, rest', done⟩ := more longer
        rw [List.length_take_of_le longer.le] at number
        have tail : taken.drop engine.cfg.eventBatchSize.toNat =
            (orderBy rowKey (afterCursor rowKey key (rows three))).take
              (engine.cfg.maxEvents - next.1.eventsScanned).toNat := by
          rw [rest', ahead, List.drop_take]
          rcases Nat.le_total engine.cfg.eventBatchSize.toNat
              (engine.cfg.maxEvents - result.eventsScanned).toNat with whole | cutOff
          · rw [Nat.min_eq_left whole] at limit
            rw [limit]
            congr 1
            omega
          · rw [Nat.sub_eq_zero_of_le cutOff, show (engine.cfg.maxEvents - next.1.eventsScanned).toNat =
              0 by omega, List.take_zero, List.take_zero]
        obtain ⟨final, value, others⟩ := ih standing next.2 next.1 three (by omega) tail fits
        refine ⟨final, ?_, first.cons others⟩
        rw [done]
        exact value
      · refine ⟨next.1, by rw [last short], first.cons ?_⟩
        have nothing : taken.drop engine.cfg.eventBatchSize.toNat = [] := by
          refine List.drop_eq_nil_of_le ?_
          rw [ahead]
          refine (List.length_take_le' _ _).trans (short.trans ?_)
          omega
        rw [nothing, chunks_nil]
        exact .nothing ..

/-- **The candidates of a run.** -/
theorem run_candidates (steady : Steady adapter quote rows answer) (counting : Counting answer)
    (engine : Engine) (dryRun : Bool) (world : World) :
    PagesCounted engine (answer world .now).2 dryRun (runPages engine adapter (rows world)) 0 ∅
      ((engine.run dryRun).execute answer world).2.2.1.payloadCandidates := by
  obtain ⟨log, two, -, same, parts⟩ := steady.run_parts engine dryRun world
  have budget : engine.cfg.maxEvents - (0 : Nat) = engine.cfg.maxEvents := by simp
  have ahead : (orderBy rowKey (rows world)).take engine.cfg.maxEvents.toNat =
      (orderBy rowKey (afterCursor rowKey none (rows two))).take
        (engine.cfg.maxEvents - (0 : Nat)).toNat := by
    rw [afterCursor_none, same, budget]
  obtain ⟨final, value, counted⟩ := scanLoop_candidates steady counting engine dryRun
    (answer world .now).2 (engine.cfg.maxEvents.toNat + 1) (.inl ⟨rfl, rfl⟩) ∅
    { startedAt := (answer world .now).2 } two (by
      have := engine.bounded.maxEvents
      push_cast
      omega) ahead le_rfl
  rcases loop : (engine.scanLoop dryRun (answer world .now).2 (engine.cfg.maxEvents.toNat + 1) [] ∅
    { startedAt := (answer world .now).2 }).execute answer two with ⟨pages, three, outcome⟩
  rw [loop] at value
  obtain rfl : outcome = .ok final := value
  have ending := engine.conclude_quiet dryRun (answer world .now).2 final []
  have kept : ((engine.conclude dryRun (answer world .now).2 final).execute answer
      three).2.2.1.payloadCandidates = final.payloadCandidates :=
    congrArg Prod.snd (ending.execute_result answer three)
  rw [← chunks_map] at counted
  rw [parts pages three final loop, runPages, List.length_map]
  dsimp only
  rw [kept]
  exact counted

theorem card_unionOf_le {α : Type} (f : α → Finset GoString) (items : List α) :
    (unionOf (items.map f)).card ≤ (items.map fun item => (f item).card).sum := by
  induction items with
  | nil => exact le_rfl
  | cons item items ih =>
    rw [List.map_cons, List.map_cons, List.sum_cons]
    exact (Finset.card_union_le _ _).trans (Nat.add_le_add_left ih _)

theorem unionOf_mono {α : Type} {f g : α → Finset GoString} (items : List α)
    (each : ∀ item, f item ⊆ g item) : unionOf (items.map f) ⊆ unionOf (items.map g) := by
  induction items with
  | nil => exact Finset.Subset.refl _
  | cons item items ih => exact Finset.union_subset_union (each item) ih

/-- **A dry run predicts the candidates exactly when as many objects are left unstaged as are staged
again**, up to the width of the counters. -/
theorem dry_run_predicts_iff (steady : Steady adapter quote rows answer) (counting : Counting answer)
    (engine : Engine) (world : World) :
    ((engine.run true).execute answer world).2.2.1.payloadCandidates =
        ((engine.run false).execute answer world).2.2.1.payloadCandidates ↔
      UInt64.ofNat (unstaged engine (answer world .now).2 (runPages engine adapter (rows world))) =
        UInt64.ofNat (repeats engine (answer world .now).2 (runPages engine adapter (rows world))) := by
  have dry := (run_candidates steady counting engine true world).dry rfl rfl
  have wet := (run_candidates steady counting engine false world).wet rfl
  rw [Finset.empty_union] at dry
  rw [UInt64.zero_add] at wet
  rw [dry, wet]
  generalize (answer world .now).2 = now
  generalize runPages engine adapter (rows world) = pages
  have counted : (unionOf (pages.map (pageKeys engine now))).card = unstaged engine now pages +
      (unionOf (pages.map (pageStaged engine now))).card :=
    (Finset.card_sdiff_add_card_eq_card
      (unionOf_mono pages fun page => keysOf_subset _ _)).symm
  have summed : (pages.map fun page => (pageStaged engine now page).card).sum =
      repeats engine now pages + (unionOf (pages.map (pageStaged engine now))).card :=
    (Nat.sub_add_cancel (card_unionOf_le _ _)).symm
  rw [counted, summed, UInt64.ofNat_add, UInt64.ofNat_add]
  exact UInt64.add_left_inj _

end Runs

/-! ### A table that stages -/

/-- A store at rest that counts what it stages. -/
def stagingAnswer (adapter : Adapter) (quote : GoString → GoString) (clock : Time)
    (receipt : Archive.Receipt) (table : Retention.Table) :
    (op : Retention.Call) → Retention.Table × op.Reply
  | .deleteRetentionEvents request =>
    ((table.answer adapter quote clock receipt (.deleteRetentionEvents request)).1,
      (⟨.ofNat request.events.length,
        if request.dryRun then 0 else .ofNat (stagedKeys request).card⟩, none))
  | op => table.answer adapter quote clock receipt op

theorem stagingAnswer_steady (adapter : Adapter) (quote : GoString → GoString) (clock : Time)
    (receipt : Archive.Receipt) :
    Steady adapter quote Retention.Table.rows
      (fun table => stagingAnswer adapter quote clock receipt table) :=
  have steady := Retention.Table.steady adapter quote clock receipt
  { distinct := steady.distinct
    inRange := steady.inRange
    ctxErr := steady.ctxErr
    reconcile := steady.reconcile
    scan := steady.scan
    export_ := steady.export_
    write := steady.write
    record := steady.record
    delete := fun table request => ⟨rfl, (steady.delete table request).2⟩
    same := fun table op other => by
      cases op with
      | deleteRetentionEvents request => exact absurd rfl (other request)
      | _ => rfl }

theorem stagingAnswer_counting (adapter : Adapter) (quote : GoString → GoString) (clock : Time)
    (receipt : Archive.Receipt) :
    Counting fun table => stagingAnswer adapter quote clock receipt table := by
  intro table request wet
  show (if request.dryRun then (0 : UInt64) else _) = _
  rw [wet]
  rfl

/-- An expired row with a link that may be collected. -/
def linkedRow (number : UInt8) (key : GoString) : EventRecord :=
  { classRow number (ascii "short") with
    payloads := [{ role := ascii "response", ref := { store := ascii "s3", key, retainUntil := 1 } }] }

/-- Two expired rows with these keys. -/
def linkedTable (first second : GoString) : Retention.Table where
  rows := [linkedRow 1 first, linkedRow 2 second]
  distinct := keptFirst.distinct
  inRange := by
    intro e member
    rcases List.mem_cons.mp member with rfl | member
    · exact keptFirst.inRange (classRow 1 []) List.mem_cons_self
    · rw [List.mem_singleton.mp member]
      exact keptFirst.inRange (classRow 2 (ascii "short")) (List.mem_cons_of_mem _ List.mem_cons_self)

theorem two_within : (0 : Int) < 2 ∧ (2 : Int) ≤ 10000000 := by decide

/-- The candidates of a run with one event a page. -/
def candidatesOf (table : Retention.Table) (dryRun : Bool) : UInt64 :=
  (((classEngine 2 two_within).run dryRun).execute
    (fun table => stagingAnswer .postgres id 10 Retention.expiredReceipt table) table).2.2.1.payloadCandidates

/-- Objects of their own are predicted. -/
theorem distinct_links_predicted :
    candidatesOf (linkedTable (ascii "a") (ascii "b")) true =
      candidatesOf (linkedTable (ascii "a") (ascii "b")) false :=
  (dry_run_predicts_iff (stagingAnswer_steady .postgres id 10 Retention.expiredReceipt)
    (stagingAnswer_counting .postgres id 10 Retention.expiredReceipt) (classEngine 2 two_within)
    (linkedTable (ascii "a") (ascii "b"))).mpr (by decide)

/-- An object of two pages is counted once by a dry run and twice by a run, and a link without a key is
counted by a dry run only. -/
theorem shared_link_counted_twice :
    candidatesOf (linkedTable (ascii "a") (ascii "a")) true = 1 ∧
      candidatesOf (linkedTable (ascii "a") (ascii "a")) false = 2 ∧
      candidatesOf (linkedTable (ascii "a") []) true = 2 ∧
      candidatesOf (linkedTable (ascii "a") []) false = 1 := by
  have counted := fun table dryRun => run_candidates (stagingAnswer_steady .postgres id 10 Retention.expiredReceipt)
    (stagingAnswer_counting .postgres id 10 Retention.expiredReceipt) (classEngine 2 two_within) dryRun table
  refine ⟨((counted _ true).dry rfl rfl).trans ?_, ((counted _ false).wet rfl).trans ?_,
    ((counted _ true).dry rfl rfl).trans ?_, ((counted _ false).wet rfl).trans ?_⟩ <;> decide

end Trail.Postgres
