/-
**The reference check over row streams.**

The driver hands the rows of a query to the program one after another; the stream ends, and `rows.Err`
says whether it ended because there are no more rows. `ReferencedPayloads` of the ClickHouse store
does not ask: a stream that ends early looks like one that is exhausted.

* `referenced_answers`: the answer for a map key is what the rows of its last query showed.
* `backed_iff`: when each false entry is backed by a stream that was read to its successful end.
* `run_checked`: what this means for the objects a retention run deletes.
* `referenced_complete`: over complete streams the check is the one over the rows of the table.
-/

import Trail.Retention.Schedules
import Trail.Storage.References

namespace Trail.ReferenceCheck

open Library Payload Storage

/-- The rows of a query as they are scanned, and what `rows.Err` says at the end of them. -/
structure Stream where
  rows : List (Except GoError GoString)
  ended : Option GoError

/-- A query for the rows that mention a key, or another call of a retention run. -/
inductive Call
  | query (key : GoString)
  | outside (op : Retention.Call)

def Call.Reply : Call → Type
  | .query _ => Except GoError Stream
  | .outside op => op.Reply

abbrev signature : Signature := ⟨Call, Call.Reply⟩

section Check

variable (links : Wire.Codec (List PayloadLink))

/-- The loop over the rows of a query. -/
def readRows (ref : Ref) : List (Except GoError GoString) → Except GoError Bool
  | [] => .ok false
  | .error error :: _ => .error error
  | .ok raw :: rows =>
    match links.unmarshal raw with
    | .ok decoded => if decoded.any (linksTo ref) then .ok true else readRows ref rows
    | .error _ => readRows ref rows

/-- `ReferencedPayloads`, with the map so far. -/
def referencedPayloads : List Ref → Table GoString Bool →
    Prog signature (Except GoError (Table GoString Bool))
  | [], out => .pure (.ok out)
  | ref :: refs, out =>
    .call (.query ref.key) fun
      | .error error => .pure (.error error)
      | .ok stream =>
        match readRows links ref stream.rows with
        | .error error => .pure (.error error)
        | .ok found => referencedPayloads refs (out.insert (payloadKey ref) found)

/-- `live[key]`. -/
def liveMap (out : Table GoString Bool) (key : GoString) : Bool := (out.lookup key).getD false

/-- The reply of the reference check to the engine. -/
def replied : Except GoError (Table GoString Bool) → Except GoError (GoString → Bool)
  | .error error => .error error
  | .ok out => .ok (liveMap out)

/-- A call of a retention run, with the reference check carried out by its queries. -/
def carryOut : (op : Retention.Call) → Prog signature op.Reply
  | .referencedPayloads refs => (referencedPayloads links refs ∅).bind fun out => .pure (replied out)
  | op => .call (.outside op) .pure

/-! ### What a stream shows -/

/-- A query for a reference and the stream it returned. -/
abbrev Answer := Ref × Stream

def Answer.exchange (answer : Answer) : signature.Exchange := ⟨.query answer.1.key, .ok answer.2⟩

/-- A row of the stream links to the object. -/
def Links (answer : Answer) : Prop :=
  ∃ raw decoded, .ok raw ∈ answer.2.rows ∧ links.unmarshal raw = .ok decoded ∧
    decoded.any (linksTo answer.1) = true

/-- The stream was read to its successful end, and no row of it links to the object. -/
def ReadToEnd (answer : Answer) : Prop :=
  answer.2.ended = none ∧ (∀ row ∈ answer.2.rows, ∃ raw, row = .ok raw) ∧ ¬ Links links answer

/-- The last query for a map key, which decides its entry. -/
def deciding (answers : List Answer) (key : GoString) : Option Answer :=
  (answers.filter fun answer => payloadKey answer.1 = key).getLast?

/-- No stream that decides an entry ended with an error before a link was found. -/
def Unbroken (answers : List Answer) : Prop :=
  ∀ key answer, deciding answers key = some answer → answer.2.ended ≠ none → Links links answer

variable {links}

theorem readRows_spec {ref : Ref} {rows : List (Except GoError GoString)} {ended : Option GoError}
    {found : Bool} (read : readRows links ref rows = .ok found) :
    (found = true ↔ Links links (ref, ⟨rows, ended⟩)) ∧
      (found = false → ∀ row ∈ rows, ∃ raw, row = .ok raw) := by
  induction rows with
  | nil =>
    cases read
    refine ⟨⟨nofun, ?_⟩, fun _ _ member => (List.not_mem_nil member).elim⟩
    intro ⟨_, _, member, _⟩
    exact (List.not_mem_nil member).elim
  | cons row rows ih =>
    rcases row with error | raw
    · cases read
    have weaken : Links links (ref, ⟨rows, ended⟩) → Links links (ref, ⟨.ok raw :: rows, ended⟩) :=
      fun ⟨other, decoded, member, rest⟩ => ⟨other, decoded, List.mem_cons_of_mem _ member, rest⟩
    -- a row that shows no link leaves the answer to the rows after it
    have skip : readRows links ref rows = .ok found →
        (∀ decoded, links.unmarshal raw = .ok decoded → decoded.any (linksTo ref) ≠ true) →
        (found = true ↔ Links links (ref, ⟨.ok raw :: rows, ended⟩)) ∧
          (found = false → ∀ row ∈ .ok raw :: rows, ∃ raw, row = .ok raw) := by
      intro later silent
      obtain ⟨meaning, whole⟩ := ih later
      refine ⟨⟨fun here => weaken (meaning.mp here), ?_⟩, fun none row member => ?_⟩
      · intro ⟨other, decoded, member, same, linked⟩
        rcases List.mem_cons.mp member with first | rest
        · cases first
          exact absurd linked (silent decoded same)
        · exact meaning.mpr ⟨other, decoded, rest, same, linked⟩
      · rcases List.mem_cons.mp member with rfl | rest
        · exact ⟨raw, rfl⟩
        · exact whole none row rest
    unfold readRows at read
    split at read
    · rename_i decoded same
      split at read
      · rename_i linked
        cases read
        exact ⟨⟨fun _ => ⟨raw, decoded, List.mem_cons_self, same, linked⟩, fun _ => rfl⟩, nofun⟩
      · rename_i silent
        refine skip read fun other again => ?_
        cases same.symm.trans again
        exact silent
    · rename_i error unreadable
      refine skip read fun other again => ?_
      rw [unreadable] at again
      cases again

/-- **What a check that returned has done**: one query for each reference, and the entry of a map key
is what the last query for it showed. -/
theorem referenced_answers {refs : List Ref} {out result : Table GoString Bool}
    {trace : List signature.Exchange}
    (ran : (referencedPayloads links refs out).Trace trace (some (.ok result))) :
    ∃ answers : List Answer, answers.map Prod.fst = refs ∧ trace = answers.map Answer.exchange ∧
      ∀ key, (∃ last found, deciding answers key = some last ∧
        readRows links last.1 last.2.rows = .ok found ∧ result.lookup key = some found) ∨
        deciding answers key = none ∧ result.lookup key = out.lookup key := by
  induction refs generalizing out trace with
  | nil =>
    obtain ⟨rfl, same⟩ := ran.pure_inv
    cases same
    exact ⟨[], rfl, rfl, fun key => .inr ⟨rfl, rfl⟩⟩
  | cons ref refs ih =>
    obtain ⟨reply, rest, rfl, goes⟩ := ran.call_inv
    rcases reply with error | stream
    · obtain ⟨_, same⟩ := goes.pure_inv
      cases same
    dsimp only at goes
    cases read : readRows links ref stream.rows with
    | error error =>
      rw [read] at goes
      obtain ⟨_, same⟩ := goes.pure_inv
      cases same
    | ok found =>
      rw [read] at goes
      obtain ⟨answers, named, rfl, entries⟩ := ih goes
      refine ⟨(ref, stream) :: answers, by rw [List.map_cons, named], rfl, fun key => ?_⟩
      rcases entries key with ⟨last, later, ends, rest⟩ | ⟨none, kept⟩
      · refine .inl ⟨last, later, ?_, rest⟩
        rw [deciding, List.filter_cons]
        split
        · rw [List.getLast?_cons, show List.getLast? _ = some last from ends]
          rfl
        · exact ends
      · have empty := List.getLast?_eq_none_iff.mp none
        by_cases same : payloadKey ref = key
        · refine .inl ⟨(ref, stream), found, ?_, read, ?_⟩
          · rw [deciding, List.filter_cons_of_pos (by simpa using same), empty]
            rfl
          · rw [kept, ← same, AList.lookup_insert]
        · refine .inr ⟨?_, ?_⟩
          · rw [deciding, List.filter_cons_of_neg (by simpa using same), empty]
            rfl
          · rw [kept, AList.lookup_insert_ne (Ne.symm same)]

/-- A deciding query shows a link, or its stream has no link in rows that were all read. -/
theorem deciding_cases {answer : Answer} {found : Bool}
    (read : readRows links answer.1 answer.2.rows = .ok found) :
    (found = true ↔ Links links answer) ∧
      (found = false → (ReadToEnd links answer ↔ answer.2.ended = none)) := by
  obtain ⟨ref, rows, ended⟩ := answer
  obtain ⟨meaning, whole⟩ := @readRows_spec links ref rows ended found read
  refine ⟨meaning, fun none => ⟨fun backed => backed.1, fun finished => ⟨finished, whole none, ?_⟩⟩⟩
  intro linked
  rw [meaning.mpr linked] at none
  cases none

/-- **When the false entries are backed**: exactly when no stream that decides an entry ended with an
error before a link was found. -/
theorem backed_iff {result : Table GoString Bool} {answers : List Answer}
    (entries : ∀ key, (∃ last found, deciding answers key = some last ∧
      readRows links last.1 last.2.rows = .ok found ∧ result.lookup key = some found) ∨
      deciding answers key = none ∧ result.lookup key = none) :
    (∀ key, result.lookup key = some false →
      ∃ answer, deciding answers key = some answer ∧ ReadToEnd links answer) ↔
      Unbroken links answers := by
  constructor
  · intro backed key answer decides broken
    rcases entries key with ⟨last, found, same, read, entry⟩ | ⟨none, _⟩
    · cases decides.symm.trans same
      obtain ⟨meaning, _⟩ := deciding_cases read
      cases found with
      | true => exact meaning.mp rfl
      | false =>
        obtain ⟨other, again, finished, _⟩ := backed key entry
        cases again.symm.trans same
        exact absurd finished broken
    · rw [none] at decides
      cases decides
  · intro unbroken key entry
    rcases entries key with ⟨last, found, decides, read, same⟩ | ⟨_, none⟩
    · obtain rfl : found = false := Option.some.inj (same.symm.trans entry)
      obtain ⟨meaning, backed⟩ := deciding_cases read
      refine ⟨last, decides, (backed rfl).mpr ?_⟩
      by_contra broken
      have linked := meaning.mpr (unbroken key last decides broken)
      cases linked
    · rw [none] at entry
      cases entry

end Check

/-! ### Complete streams -/

/-- The column of a row as it is scanned. -/
def scanned (driver : Driver) (row : Row Column Value) :
    Except GoError GoString :=
  match row.get .payloadRefsJSON with
  | some (.text raw) => .ok raw
  | _ => .error driver.mismatch

/-- Every query is answered with all the rows it selects from a table. -/
def serve (driver : Driver) (rows : List (Row Column Value))
    (others : (op : Retention.Call) → op.Reply) : (op : Call) → op.Reply
  | .query key => .ok ⟨(rows.filter (ClickHouse.mentions key)).map (scanned driver), none⟩
  | .outside op => others op

theorem readRows_scanned (driver : Driver) (ref : Ref)
    (rows : List (Row Column Value)) :
    readRows driver.payloads ref (rows.map (scanned driver)) =
      ClickHouse.searchRows driver ref rows := by
  induction rows with
  | nil => rfl
  | cons row rows ih =>
    rw [List.map_cons, ClickHouse.searchRows, ← ih]
    split
    · rename_i raw column
      have head : scanned driver row = .ok raw := by rw [scanned, column]
      rw [head]
      rfl
    · rename_i other
      have head : scanned driver row = .error driver.mismatch := by
        unfold scanned
        split
        · rename_i raw column
          exact absurd column (other raw)
        · rfl
      rw [head]
      rfl

/-- **Over complete streams** the check is the search through the rows of the table. -/
theorem referenced_complete (driver : Driver)
    (rows : List (Row Column Value))
    (others : (op : Retention.Call) → op.Reply) (refs : List Ref) :
    (Prog.play (serve driver rows others) (referencedPayloads driver.payloads refs ∅)).2 =
      ClickHouse.referencedPayloads driver rows refs := by
  unfold ClickHouse.referencedPayloads
  generalize (∅ : Table GoString Bool) = out
  induction refs generalizing out with
  | nil => rfl
  | cons ref refs ih =>
    rw [referencedPayloads, reportAll, ← readRows_scanned]
    cases search : readRows driver.payloads ref
        ((rows.filter (ClickHouse.mentions ref.key)).map (scanned driver)) with
    | error error =>
      unfold Prog.play
      dsimp only [serve]
      rw [search]
      rfl
    | ok found =>
      unfold Prog.play
      dsimp only [serve]
      rw [search]
      exact ih _

/-! ### The objects a run deletes -/

section Run

variable (links : Wire.Codec (List PayloadLink))

/-- The calls of a run and the exchanges that carried them out. -/
def Carried (above : List Retention.signature.Exchange) (below : List signature.Exchange) : Prop :=
  ∃ blocks, List.Forall₂ (fun (exchange : Retention.signature.Exchange) block =>
    (carryOut links exchange.op).Trace block (some exchange.reply)) above blocks ∧
    below = blocks.flatten

/-- The last reference check before a deletion asked for the object. The stream that decided about it
shows no link, and it was read to its successful end unless it ended with an error. -/
def Checked (below : List signature.Exchange) (ref : Ref) : Prop :=
  ∃ (earlier : List signature.Exchange) (answers : List Answer) (later : List signature.Exchange)
    (answer : Answer), below = earlier ++ answers.map Answer.exchange ++ later ∧
    (∀ exchange ∈ later, ∀ key, exchange.op ≠ .query key) ∧ ref ∈ answers.map Prod.fst ∧
    deciding answers (payloadKey ref) = some answer ∧ ¬ Links links answer ∧
    (ReadToEnd links answer ↔ answer.2.ended = none)

/-- Deletions of objects come after their check. -/
def Permits (below : List signature.Exchange) : Call → Prop
  | .outside (.delete ref) => Checked links below ref
  | _ => True

variable {links}

theorem carryOut_works {exchange : Retention.signature.Exchange} {block : List signature.Exchange}
    (inside : exchange.op.Works ∨ exchange.op.Schedules)
    (ran : (carryOut links exchange.op).Trace block (some exchange.reply)) :
    ∀ other ∈ block, ∀ key, other.op ≠ .query key := by
  obtain ⟨op, reply⟩ := exchange
  have alone : ∀ {op : Retention.Call} {reply : op.Reply} {block : List signature.Exchange},
      (Prog.call (.outside op) .pure : Prog signature op.Reply).Trace block (some reply) →
      ∀ other ∈ block, ∀ key, other.op ≠ .query key := by
    intro op reply block ran other member key same
    obtain ⟨answer, rest, rfl, goes⟩ := ran.call_inv
    obtain ⟨rfl, _⟩ := goes.pure_inv
    rw [List.mem_singleton.mp member] at same
    cases same
  cases op with
  | completePayloadCandidate ref lastError => exact alone ran
  | delete ref => exact alone ran
  | schedule count => exact alone ran
  | _ => rcases inside with works | schedules <;> contradiction

theorem checked_of_guarded {engine : Retention.Engine} {above : List Retention.signature.Exchange}
    {below : List signature.Exchange} {ref : Ref} (carried : Carried links above below)
    (guarded : engine.Guarded above ref) : Checked links below ref := by
  obtain ⟨blocks, each, rfl⟩ := carried
  obtain ⟨listed, live, c, ⟨earlier, time, limit, rest, rfl, calls⟩, inside, rfl, archived, absent,
    _⟩ := guarded
  obtain ⟨blocks, works, rfl, each, after⟩ := forall₂_append_inv each
  obtain ⟨before, _, rfl, _, page⟩ := forall₂_append_inv each
  cases page with
  | @cons _ listing _ _ _ page =>
  cases page with
  | @cons _ check _ _ checks page =>
  cases page
  -- the check of the page, and its answers
  obtain ⟨out, block, rest, ran, ends, rfl⟩ := Prog.Trace.bind_inv checks
  obtain ⟨rfl, same⟩ := ends.pure_inv
  rcases out with error | out
  · cases same
  obtain rfl : live = liveMap out := Except.ok.inj same
  obtain ⟨answers, named, rfl, entries⟩ := referenced_answers ran
  have member : c.ref ∈ answers.map Prod.fst := by
    rw [named]
    exact List.mem_map_of_mem (List.mem_filter.mpr ⟨inside, decide_eq_true archived⟩)
  have silent : ∀ exchange ∈ works.flatten, ∀ key, exchange.op ≠ .query key := by
    intro exchange among key
    obtain ⟨block, one, two⟩ := List.mem_flatten.mp among
    obtain ⟨other, inside, ran⟩ := forall₂_mem_right after one
    exact carryOut_works (calls other inside) ran exchange two key
  rcases entries (payloadKey c.ref) with ⟨last, found, decides, read, entry⟩ | ⟨none, _⟩
  · unfold liveMap at absent
    rw [entry] at absent
    obtain rfl : found = false := absent
    obtain ⟨meaning, whole⟩ := deciding_cases read
    refine ⟨before.flatten ++ listing, answers, works.flatten, last, by simp, silent, member,
      decides, fun linked => ?_, whole rfl⟩
    cases meaning.mpr linked
  · obtain ⟨answer, among, same⟩ := List.mem_map.mp member
    have empty := List.getLast?_eq_none_iff.mp none
    have kept : answer ∈ answers.filter fun other => payloadKey other.1 = payloadKey c.ref :=
      List.mem_filter.mpr ⟨among, decide_eq_true (congrArg payloadKey same)⟩
    rw [empty] at kept
    cases kept

theorem referenced_queries (refs : List Ref) (out : Table GoString Bool)
    (history : List signature.Exchange) :
    (referencedPayloads links refs out).Obeys (Permits links) history fun _ _ => True := by
  induction refs generalizing out history with
  | nil => exact trivial
  | cons ref refs ih =>
    refine ⟨trivial, fun reply => ?_⟩
    rcases reply with error | stream
    · exact trivial
    dsimp only
    split
    · exact trivial
    · exact ih _ _

/-- **The deletions of a run are checked**, with the reference check carried out by its queries. -/
theorem run_checked (engine : Retention.Engine) (dryRun : Bool) :
    ((engine.run dryRun).through (carryOut links)).Obeys (Permits links) [] fun _ _ => True := by
  refine ((engine.run_guarded dryRun).through (Carried links) ?_ ⟨[], .nil, rfl⟩).mono
    fun _ _ _ => trivial
  intro above below op carried guarded
  have after : ∀ {later : List signature.Exchange} {reply : op.Reply},
      (∃ new, later = below ++ new ∧ (carryOut links op).Trace new (some reply)) →
      Carried links (above ++ [⟨op, reply⟩]) later := by
    intro later reply ⟨new, same, ran⟩
    obtain ⟨blocks, each, rfl⟩ := carried
    refine ⟨blocks ++ [new], List.rel_append each (.cons ran .nil), ?_⟩
    rw [same, List.flatten_append, List.flatten_singleton]
  cases op with
  | delete ref =>
    refine ⟨checked_of_guarded carried guarded, fun reply => after ⟨_, rfl, ?_⟩⟩
    exact .call reply (.pure reply)
  | referencedPayloads refs =>
    refine (Prog.obeys_bind ?_).mono fun _ _ ran => after ran
    refine ((referenced_queries refs ∅ below).and (Prog.obeys_trace fun _ _ => trivial)).mono ?_
    intro later out ⟨_, new, same, ran⟩
    refine ⟨new, same, ?_⟩
    rw [← List.append_nil new]
    show ((referencedPayloads links refs ∅).bind fun out => .pure (replied out)).Trace _ _
    exact ran.bind (.pure (replied out))
  | _ =>
    refine ⟨trivial, fun reply => after ⟨_, rfl, ?_⟩⟩
    exact .call reply (.pure reply)

/-- **When an incomplete check authorises a deletion.** The false entries of a check that returned
without an error are backed by streams read to their successful end exactly when no stream that
decides an entry ended with an error before a link was found; and a deleted object was decided about
by a stream without a link, which was read to its successful end exactly if it did not end with an
error. -/
theorem reference_check_iff (links : Wire.Codec (List PayloadLink)) :
    (∀ (refs : List Ref) (result : Table GoString Bool) (trace : List signature.Exchange),
      (referencedPayloads links refs ∅).Trace trace (some (.ok result)) →
      ∃ answers : List Answer, answers.map Prod.fst = refs ∧ trace = answers.map Answer.exchange ∧
        ((∀ key, result.lookup key = some false →
          ∃ answer, deciding answers key = some answer ∧ ReadToEnd links answer) ↔
          Unbroken links answers)) ∧
    ∀ (engine : Retention.Engine) (dryRun : Bool) (trace : List signature.Exchange)
      (outcome : Option (Retention.Result × Option GoError)),
      ((engine.run dryRun).through (carryOut links)).Trace trace outcome →
      ∀ before ref reply after, trace = before ++ ⟨.outside (.delete ref), reply⟩ :: after →
        Checked links before ref := by
  constructor
  · intro refs result trace ran
    obtain ⟨answers, named, same, entries⟩ := referenced_answers ran
    exact ⟨answers, named, same, @backed_iff links result answers entries⟩
  · intro engine dryRun trace outcome ran before ref reply after split
    exact ((run_checked engine dryRun).trace ran).1 before _ after split

end Run

/-! ### A stream that breaks off -/

/-- Two orphans of a payload store, and streams without rows that end in one way. -/
def ending (ended : Option GoError) : (op : Call) → op.Reply
  | .query _ => .ok ⟨[], ended⟩
  | .outside op => Retention.orphans 0 op

def errReset : GoError := errorsNew "read: connection reset by peer"

/-- The codec of a table without texts. -/
def noTexts : Wire.Codec (List PayloadLink) := .table []

def Call.deleted : Call → Option Ref
  | .outside (.delete ref) => some ref
  | _ => none

/-- A run over these streams. -/
def endingRun (ended : Option GoError) :
    List signature.Exchange × (Retention.Result × Option GoError) :=
  ((Retention.storeEngine.run false).through (carryOut noTexts)).play (ending ended)

theorem endingRun_evaluated : ∀ ended ∈ [none, some errReset],
    (endingRun ended).2.2 = none ∧
      (endingRun ended).1.filterMap (fun exchange => exchange.op.deleted) =
        [Retention.filledRef 1, Retention.filledRef 2] := by
  decide

/-- **A stream that breaks off authorises a deletion**: every query ends with an error before its first
row, the check returns false entries without an error, and the run deletes both objects. -/
theorem broken_stream_authorises :
    ((referencedPayloads noTexts [Retention.filledRef 1] ∅).play (ending (some errReset))).2 =
      .ok ((∅ : Table GoString Bool).insert (payloadKey (Retention.filledRef 1)) false) ∧
    (∀ key reply, (⟨.query key, reply⟩ : signature.Exchange) ∈ (endingRun (some errReset)).1 →
      reply = .ok ⟨[], some errReset⟩) ∧
    (endingRun (some errReset)).2.2 = none ∧
    (endingRun (some errReset)).1.filterMap (fun exchange => exchange.op.deleted) =
      [Retention.filledRef 1, Retention.filledRef 2] := by
  refine ⟨rfl, fun key reply member => ?_, endingRun_evaluated (some errReset) (by simp)⟩
  exact Prog.play_reply (σ := signature) (ending (some errReset)) _ member

theorem reference_check_iff_complete :
    (∃ answers : List Answer, answers.map Prod.fst = [Retention.filledRef 1] ∧
      Unbroken noTexts answers ∧ ∃ answer, deciding answers (payloadKey (Retention.filledRef 1)) =
        some answer ∧ ReadToEnd noTexts answer) ∧
    ∃ before after reply, (endingRun none).1 =
      before ++ ⟨.outside (.delete (Retention.filledRef 1)), reply⟩ :: after ∧
        Checked noTexts before (Retention.filledRef 1) := by
  obtain ⟨backed, deletions⟩ := reference_check_iff noTexts
  constructor
  · have ran := Prog.play_trace (σ := signature) (ending none)
      (referencedPayloads noTexts [Retention.filledRef 1] ∅)
    obtain ⟨answers, named, same, entries⟩ := backed [Retention.filledRef 1]
      ((∅ : Table GoString Bool).insert (payloadKey (Retention.filledRef 1)) false) _ ran
    have unbroken : Unbroken noTexts answers := by
      intro key answer decides broken
      have member : answer ∈ answers := List.mem_of_mem_filter (List.mem_of_getLast? decides)
      have asked : answer.exchange ∈ (Prog.play (ending none)
          (referencedPayloads noTexts [Retention.filledRef 1] ∅)).1 := by
        rw [same]
        exact List.mem_map_of_mem member
      have reply := Prog.play_reply (σ := signature) (ending none) _ asked
      have stream : answer.2 = ⟨[], none⟩ := Except.ok.inj reply
      rw [stream] at broken
      exact absurd rfl broken
    exact ⟨answers, named, unbroken, entries.mpr unbroken _ (AList.lookup_insert _)⟩
  · obtain ⟨_, deleted⟩ := endingRun_evaluated none List.mem_cons_self
    have member : Retention.filledRef 1 ∈
        (endingRun none).1.filterMap fun exchange => exchange.op.deleted := by
      rw [deleted]
      exact List.mem_cons_self
    obtain ⟨⟨op, reply⟩, among, same⟩ := List.mem_filterMap.mp member
    obtain ⟨before, after, split⟩ := List.append_of_mem among
    obtain rfl : op = .outside (.delete (Retention.filledRef 1)) := by
      unfold Call.deleted at same
      split at same
      · cases same
        rename_i ref shape
        exact shape
      · cases same
    exact ⟨before, after, reply, split, deletions Retention.storeEngine false _ _
      (Prog.play_trace (σ := signature) (ending none) _) before _ reply after split⟩

end Trail.ReferenceCheck
