/-
**The rounds of the collection.**

`collectRound` is one iteration of the loop of `collectPayloads`: it returns, or goes on with a
smaller budget (`collectRound_lowers`). `collectLoop_obeys_rounds` is the rule for the loop: what a
round keeps holds of the whole collection, and the fuel is never used up.

* `processCandidate_emits`: whatever is answered, a candidate is completed exactly once.
* `collectPage_emits`: the workers of a page complete each of its candidates once, in every order.
-/

import Trail.Library.Pools
import Trail.Retention.Scan

namespace Trail.Retention

open Library Payload

/-- The collection returns, or goes on with a budget and the counters so far. -/
abbrev Round := (Result × Option GoError) ⊕ (Int × Result)

/-- What follows the workers of a page. -/
def pageDone (remaining limit : Int) (taken : Nat) : Result × Option GoError → Round
  | (result, some error) => .inl (result, some error)
  | (result, none) =>
    if taken < limit then .inl (result, none) else .inr (remaining - taken, result)

theorem pageDone_inr {remaining limit : Int} {taken : Nat} {total : Result × Option GoError}
    {next : Int × Result} (same : pageDone remaining limit taken total = .inr next) :
    total.2 = none ∧ limit ≤ taken ∧ next = (remaining - taken, total.1) := by
  obtain ⟨result, _ | error⟩ := total
  · change (if (taken : Int) < limit then Sum.inl (result, none) else
      Sum.inr (remaining - taken, result)) = Sum.inr next at same
    split at same
    · cases same
    · cases same
      exact ⟨rfl, by omega, rfl⟩
  · cases same

/-- The candidates of a page that the engine looks at. -/
def verified (listed : List Candidate) : List Candidate := listed.filter fun c => c.archiveID ≠ []

/-- The counters with the candidates of a page that have no archive. -/
def Result.listed (result : Result) (page : List Candidate) : Result :=
  { result with payloadsUnknown := result.payloadsUnknown + (page.length - (verified page).length) }

namespace Engine

variable (engine : Engine) (now : Time)

/-- The size of the page a round asks for. -/
def pageLimit (remaining : Int) : Int := min engine.cfg.payloadBatchSize remaining

/-- The candidates of a page that have an archive. -/
def collectListed (remaining : Int) (result : Result) (page : List Candidate) :
    Prog signature Round :=
  if verified page = [] then .pure (.inl (result.listed page, none))
  else
    .call (.referencedPayloads ((verified page).map Candidate.ref)) fun
      | .error error => .pure (.inl (result.listed page, some error))
      | .ok live =>
        (engine.collectPage (verified page) live (result.listed page)).bind fun total =>
          .pure (pageDone remaining (engine.pageLimit remaining) (verified page).length total)

/-- One iteration of the loop of `collectPayloads`. -/
def collectRound (remaining : Int) (result : Result) : Prog signature Round :=
  if 0 < remaining then
    .call .ctxErr fun
      | some _ => .call .ctxErr fun error => .pure (.inl (result, error))
      | none =>
        .call (.listPayloadCandidates (now - engine.cfg.payloadGracePeriod)
            (engine.pageLimit remaining)) fun
          | .error error => .pure (.inl (result, some error))
          | .ok page => engine.collectListed remaining result page
  else .call .ctxErr fun error => .pure (.inl (result, error))

/-- The loop of `collectPayloads` makes a round and goes on with what it left. -/
theorem collectLoop_succ (fuel : Nat) (remaining : Int) (result : Result) :
    engine.collectLoop now (fuel + 1) remaining result =
      (engine.collectRound now remaining result).bind
        (Sum.elim .pure fun next => engine.collectLoop now fuel next.1 next.2) := by
  conv_lhs => unfold collectLoop
  unfold collectRound
  by_cases positive : 0 < remaining
  · rw [if_pos positive, if_pos positive]
    show Prog.call _ _ = Prog.call _ _
    congr 1
    funext expired
    rcases expired with _ | error
    · show Prog.call _ _ = Prog.call _ _
      congr 1
      funext reply
      rcases reply with error | page
      · rfl
      · show _ = (engine.collectListed remaining result page).bind _
        unfold collectListed
        by_cases none : verified page = []
        · rw [if_pos none]
          exact if_pos none
        · rw [if_neg none]
          refine (if_neg none).trans ?_
          show Prog.call _ _ = Prog.call _ _
          congr 1
          funext reply
          rcases reply with error | live
          · rfl
          · show _ = ((engine.collectPage _ _ _).bind _).bind _
            rw [Prog.bind_assoc]
            show Prog.bind _ _ = Prog.bind _ _
            congr 1
            funext total
            obtain ⟨total, _ | error⟩ := total
            · show _ = (Prog.pure (if _ then _ else _)).bind _
              by_cases last : ((verified page).length : Int) < engine.pageLimit remaining
              · rw [if_pos last]
                exact if_pos last
              · rw [if_neg last]
                exact if_neg last
            · rfl
    · rfl
  · rw [if_neg positive, if_neg positive]
    rfl

/-- **Every round that does not return lowers the budget.** -/
theorem collectRound_lowers (remaining : Int) (result : Result) (history : List signature.Exchange) :
    (engine.collectRound now remaining result).Obeys anything history fun _ value =>
      ∀ next, value = .inr next → 0 < remaining ∧ next.1 < remaining := by
  unfold collectRound
  split
  · rename_i positive
    refine ⟨trivial, fun expired => ?_⟩
    rcases expired with _ | error
    · refine ⟨trivial, fun reply => ?_⟩
      rcases reply with error | page
      · exact nofun
      show (engine.collectListed remaining result page).Obeys _ _ _
      unfold collectListed
      split
      · exact nofun
      rename_i some
      refine ⟨trivial, fun reply => ?_⟩
      rcases reply with error | live
      · exact nofun
      refine Prog.obeys_bind (Prog.obeys_of_forall (fun _ _ => trivial) fun later total => ?_)
      intro next same
      have taken := List.length_pos_iff.mpr some
      obtain ⟨_, _, rfl⟩ := pageDone_inr same
      dsimp only
      omega
    · exact ⟨trivial, fun _ => nofun⟩
  · exact ⟨trivial, fun _ => nofun⟩

/-- **The rule for the collection.** What every round keeps holds before every round, and what a
round that returns promises holds at the end. -/
theorem collectLoop_obeys_rounds {allow : List signature.Exchange → Call → Prop}
    {head : List signature.Exchange → Int → Result → Prop}
    {post : List signature.Exchange → Result × Option GoError → Prop}
    (round : ∀ history remaining result, head history remaining result →
      (engine.collectRound now remaining result).Obeys allow history fun later value =>
        Sum.elim (post later) (fun next => head later next.1 next.2) value)
    (fuel : Nat) {remaining : Int} {result : Result} {history : List signature.Exchange}
    (some : 0 < fuel) (enough : remaining < fuel) (start : head history remaining result) :
    (engine.collectLoop now fuel remaining result).Obeys allow history post := by
  induction fuel generalizing remaining result history with
  | zero => omega
  | succ fuel ih =>
    rw [collectLoop_succ]
    refine Prog.obeys_bind (((round _ _ _ start).and
      (engine.collectRound_lowers now remaining result history)).mono ?_)
    rintro later (total | next) ⟨holds, lowers⟩
    · exact holds
    · obtain ⟨positive, lower⟩ := lowers next rfl
      push_cast at enough
      exact ih (by omega) (by omega) holds

end Engine

/-! ### The calls of the workers -/

/-- A call of a collection worker. -/
def Call.Works : Call → Prop
  | .completePayloadCandidate _ _ | .delete _ => True
  | _ => False

instance : DecidablePred Call.Works
  | .completePayloadCandidate _ _ | .delete _ => .isTrue trivial
  | .now | .ctxErr | .reconcileRetention | .scanRetentionEvents _ | .loadArchiveEvents _ | .write _
  | .recordArchive _ | .deleteRetentionEvents _ | .listPayloadCandidates _ _ | .referencedPayloads _
  | .schedule _ => .isFalse id

theorem Engine.processCandidate_works (engine : Engine) (c : Candidate) (live : Bool) :
    (engine.processCandidate c live).Always (fun _ (op : Call) => op.Works) fun _ => True := by
  have completes : ∀ {lastError : GoString} {next : Option GoError → Prog signature Outcome},
      (∀ reply, (next reply).Always (fun _ (op : Call) => op.Works) fun _ => True) →
      (Prog.call (.completePayloadCandidate c.ref lastError) next : Prog signature Outcome).Always
        (fun _ (op : Call) => op.Works) fun _ => True :=
    fun rest => ⟨fun _ _ => trivial, fun _ _ _ => trivial, rest⟩
  unfold Engine.processCandidate
  split
  · exact completes fun _ => trivial
  split
  · exact completes fun _ => trivial
  split
  · exact completes fun _ => trivial
  · refine ⟨fun _ _ => trivial, fun _ _ _ => trivial, fun reply => ?_⟩
    dsimp only
    split
    · exact completes fun _ => trivial
    · refine completes fun reply => ?_
      cases reply <;> trivial

/-! ### Every candidate once -/

/-- The candidate a call completes. -/
def Call.completes : Call → Multiset Ref
  | .completePayloadCandidate ref _ => {ref}
  | _ => 0

/-- The candidates completed in a history. -/
def completed (history : List signature.Exchange) : Multiset Ref :=
  Prog.emitted Call.completes history

/-- The references of the candidates of a list. -/
def refsOf (candidates : List Candidate) : Multiset Ref := ↑(candidates.map Candidate.ref)

namespace Engine

variable (engine : Engine)

theorem processCandidate_emits (c : Candidate) (live : Bool) :
    (engine.processCandidate c live).Emits Call.completes {c.ref} := by
  have completes : ∀ {lastError : GoString} {next : Option GoError → Prog signature Outcome},
      (∀ reply, (next reply).Emits Call.completes 0) →
      (Prog.call (.completePayloadCandidate c.ref lastError) next : Prog signature Outcome).Emits
        Call.completes {c.ref} :=
    fun rest => ⟨0, (add_zero _).symm, rest⟩
  unfold processCandidate
  split
  · exact completes fun _ => rfl
  split
  · exact completes fun _ => rfl
  split
  · exact completes fun _ => rfl
  · refine ⟨{c.ref}, (zero_add _).symm, fun reply => ?_⟩
    dsimp only
    split
    · exact completes fun _ => rfl
    · refine completes fun reply => ?_
      cases reply <;> rfl

/-- **Every candidate of a page is completed once**, in every order of the workers. -/
theorem collectPage_emits (candidates : List Candidate) (live : GoString → Bool) (result : Result)
    (history : List signature.Exchange) :
    (engine.collectPage candidates live result).Obeys
      (fun later _ => completed later ≤ completed history + refsOf candidates) history
      fun later _ => completed later = completed history + refsOf candidates := by
  have sum : (candidates.map fun c => ({c.ref} : Multiset Ref)).sum = refsOf candidates := by
    induction candidates with
    | nil => rfl
    | cons c candidates ih =>
      rw [List.map_cons, List.sum_cons, ih]
      exact Multiset.singleton_add _ _
  rw [← sum]
  refine Prog.pool_emits ?_ _ 2 _ _ ?_ ?_ ?_ _ _
  · exact fun _ => rfl
  · rw [List.forall₂_map_left_iff, List.forall₂_map_right_iff]
    exact List.forall₂_same.mpr fun c _ => engine.processCandidate_emits c _
  · intro thread member
    obtain ⟨c, _, rfl⟩ := List.mem_map.mp member
    exact engine.processCandidate_within c _
  · rw [List.length_map]

end Engine

end Trail.Retention
