/-
**Which policy decides the expiry of a payload.**

`payloadExpiry` asks for the absolute expiry, then for the class of the payload, then for the first
policy that accepts the event and the payload, then for the default. `decidingPolicy` is the policy
the answer comes from, if it comes from one.

* `new_engine`: an engine is what `New` returns for its configuration.
* `payloadExpiry_eq`: the answer is the documented precedence with the deciding policy.
* `policy_respected_iff`: the deciding policy is the first whose every property the payload has,
  unless it asks for a class. The loop does not read `RetentionClass`, and it is reached only by a
  payload without one.
-/

import Trail.Retention.Engine

namespace Trail.Retention

open Library Payload

/-! ### Engines are what `New` returns -/

theorem orElse_of_pos {value default : Int} (positive : 0 < value) : orElse value default = value := by
  unfold orElse
  rw [if_neg (by omega)]

theorem Config.Bounded.withDefaults {cfg : Config} (bounded : cfg.Bounded) :
    cfg.withDefaults = cfg := by
  unfold Config.withDefaults
  rw [orElse_of_pos bounded.eventBatchSize.1, orElse_of_pos bounded.payloadBatchSize.1,
    orElse_of_pos bounded.payloadConcurrency.1, orElse_of_pos bounded.maxEvents.1,
    orElse_of_pos bounded.maxPayloads.1, orElse_of_pos bounded.maxRuntime.1,
    orElse_of_pos bounded.payloadGracePeriod]

/-- An engine is what `New` returns for its configuration. -/
theorem new_engine (engine : Engine) (archiver : engine.cfg.archiver = true) :
    new engine.quote engine.cfg true engine.payloads = .ok engine := by
  obtain ⟨cfg, payloads, quote, bounded, validated⟩ := engine
  dsimp only at archiver
  have filled := bounded.withDefaults
  have concurrency := bounded.payloadConcurrency.2
  have exceeds : ¬ cfg.withDefaults.Exceeds := by
    rw [filled]
    unfold Config.Exceeds
    have eventBatch := bounded.eventBatchSize.2
    have payloadBatch := bounded.payloadBatchSize.2
    have events := bounded.maxEvents.2
    have payloads := bounded.maxPayloads.2
    have runtime := bounded.maxRuntime.2
    omega
  unfold new
  rw [if_neg (by decide), if_neg (by simp [archiver]), dif_neg (by rw [filled]; omega),
    dif_neg exceeds]
  split
  · rename_i error failed
    rw [filled, validated] at failed
    cases failed
  · simp only [filled]

/-! ### The deciding policy -/

/-- The test of the loop over the payload policies. -/
def PayloadPolicy.accepts (x : PayloadPolicy) (v : Event) (p : EventPayload) : Bool :=
  matchEvent x.where_.toEventMatch v && (x.where_.role = [] || x.where_.role = p.role) &&
    (x.where_.contentType = [] || x.where_.contentType.isPrefixOf p.ref.contentType)

/-- The event has every property the policy asks of it, and the payload every one that is not empty
of its role, content type and class. -/
def PayloadPolicy.Satisfied (x : PayloadPolicy) (v : Event) (p : EventPayload) : Prop :=
  matchEvent x.where_.toEventMatch v ∧ (x.where_.role = [] ∨ x.where_.role = p.role) ∧
    (x.where_.contentType = [] ∨ x.where_.contentType <+: p.ref.contentType) ∧
    (x.where_.retentionClass = [] ∨ x.where_.retentionClass = p.ref.retentionClass)

instance (x : PayloadPolicy) (v : Event) (p : EventPayload) : Decidable (x.Satisfied v p) := by
  unfold PayloadPolicy.Satisfied
  infer_instance

/-- A policy is satisfied when the loop accepts it and the payload has the class it asks for. -/
theorem PayloadPolicy.satisfied_iff (x : PayloadPolicy) (v : Event) (p : EventPayload) :
    x.Satisfied v p ↔ x.accepts v p = true ∧
      (x.where_.retentionClass = [] ∨ x.where_.retentionClass = p.ref.retentionClass) := by
  unfold PayloadPolicy.Satisfied PayloadPolicy.accepts
  simp only [Bool.and_eq_true, Bool.or_eq_true, decide_eq_true_eq, List.isPrefixOf_iff_prefix]
  tauto

namespace Engine

variable (engine : Engine) (v : Event) (p : EventPayload)

/-- The policies are asked only about a payload without an absolute expiry and without a class. -/
def reachesPolicies (p : EventPayload) : Prop :=
  p.ref.retainUntil = zeroTime ∧ p.ref.retentionClass = []

instance : Decidable (reachesPolicies p) := by
  unfold reachesPolicies
  infer_instance

/-- The policy the answer of `payloadExpiry` comes from. -/
def decidingPolicy : Option PayloadPolicy :=
  if reachesPolicies p then engine.cfg.payloadPolicies.find? (·.accepts v p) else none

/-- The documented precedence, with the policy that matches: the absolute expiry, a known class, the
policy, the default, and else for ever. An unknown class keeps the payload. -/
def precedence (policy : Option PayloadPolicy) : Option Time :=
  if p.ref.retainUntil ≠ zeroTime then some p.ref.retainUntil
  else if p.ref.retentionClass ≠ [] then
    (engine.cfg.payloadClasses.lookup p.ref.retentionClass).map (v.timestamp + ·)
  else
    match policy with
    | some x => some (v.timestamp + x.ttl)
    | none =>
      if engine.cfg.defaultPayloadTTL > 0 then some (v.timestamp + engine.cfg.defaultPayloadTTL)
      else none

/-- The first policy with every property. -/
def documentedPolicy : Option PayloadPolicy :=
  engine.cfg.payloadPolicies.find? fun x => x.Satisfied v p

theorem payloadExpiry_eq :
    engine.payloadExpiry v p = engine.precedence v p (engine.decidingPolicy v p) := by
  unfold payloadExpiry precedence decidingPolicy
  by_cases absolute : p.ref.retainUntil = zeroTime
  · by_cases classless : p.ref.retentionClass = []
    · have reaches : reachesPolicies p := ⟨absolute, classless⟩
      rw [if_pos reaches, if_neg (not_not.mpr absolute), if_neg (not_not.mpr classless),
        if_neg (not_not.mpr absolute), if_neg (not_not.mpr classless)]
      rfl
    · rw [if_neg (not_not.mpr absolute), if_pos classless, if_neg (not_not.mpr absolute),
        if_pos classless]
  · rw [if_pos absolute, if_pos absolute]

/-- The answer follows the policies as they are documented: the one it comes from is satisfied and
no earlier one is, and it is the documented precedence. -/
structure Respected : Prop where
  first : ∀ x, engine.decidingPolicy v p = some x → ∃ before after,
    engine.cfg.payloadPolicies = before ++ x :: after ∧ x.Satisfied v p ∧
      ∀ y ∈ before, ¬ y.Satisfied v p
  documented : engine.payloadExpiry v p = engine.precedence v p (engine.documentedPolicy v p)

theorem precedence_of_not_reaches (other : ¬ reachesPolicies p) (first second : Option PayloadPolicy) :
    engine.precedence v p first = engine.precedence v p second := by
  unfold precedence
  by_cases absolute : p.ref.retainUntil = zeroTime
  · have classed : p.ref.retentionClass ≠ [] := fun classless => other ⟨absolute, classless⟩
    rw [if_neg (not_not.mpr absolute), if_pos classed, if_neg (not_not.mpr absolute),
      if_pos classed]
  · rw [if_pos absolute, if_pos absolute]

theorem classless_of_satisfied {x : PayloadPolicy} (classless : p.ref.retentionClass = [])
    (satisfied : x.Satisfied v p) : x.where_.retentionClass = [] := by
  rcases satisfied.2.2.2 with none | same
  · exact none
  · rw [same, classless]

/-- The first accepted policy is the first satisfied one, when it asks for no class. -/
theorem documentedPolicy_of_accepted {x : PayloadPolicy}
    (found : engine.cfg.payloadPolicies.find? (·.accepts v p) = some x)
    (open_ : x.where_.retentionClass = []) : engine.documentedPolicy v p = some x ∧
      ∃ before after, engine.cfg.payloadPolicies = before ++ x :: after ∧ x.Satisfied v p ∧
        ∀ y ∈ before, ¬ y.Satisfied v p := by
  obtain ⟨accepted, before, after, split, earlier⟩ := List.find?_eq_some_iff_append.mp found
  have satisfied : x.Satisfied v p := (x.satisfied_iff v p).mpr ⟨accepted, .inl open_⟩
  have unsatisfied : ∀ y ∈ before, ¬ y.Satisfied v p := by
    intro y member satisfied
    have rejected := earlier y member
    rw [((y.satisfied_iff v p).mp satisfied).1] at rejected
    cases rejected
  refine ⟨List.find?_eq_some_iff_append.mpr ⟨decide_eq_true satisfied, before, after, split, ?_⟩,
    before, after, split, satisfied, unsatisfied⟩
  intro y member
  rw [decide_eq_false (unsatisfied y member)]
  rfl

theorem documentedPolicy_of_rejected
    (none_ : engine.cfg.payloadPolicies.find? (·.accepts v p) = none) :
    engine.documentedPolicy v p = none := by
  rw [List.find?_eq_none] at none_
  refine List.find?_eq_none.mpr fun y member satisfied => none_ y member ?_
  exact ((y.satisfied_iff v p).mp (of_decide_eq_true satisfied)).1

/-- **When the policies are respected**: exactly when the payload has an absolute expiry or a class,
or the first policy whose event match, role and content type accept it asks for no class. -/
theorem policy_respected_iff : engine.Respected v p ↔
    (reachesPolicies p → ∀ x, engine.cfg.payloadPolicies.find? (·.accepts v p) = some x →
      x.where_.retentionClass = []) := by
  constructor
  · intro respected reaches x found
    have deciding : engine.decidingPolicy v p = some x := by
      unfold decidingPolicy
      rw [if_pos reaches, found]
    obtain ⟨_, _, _, satisfied, _⟩ := respected.first x deciding
    exact classless_of_satisfied v p reaches.2 satisfied
  · intro open_
    by_cases reaches : reachesPolicies p
    · have deciding : engine.decidingPolicy v p =
          engine.cfg.payloadPolicies.find? (·.accepts v p) := if_pos reaches
      cases found : engine.cfg.payloadPolicies.find? (·.accepts v p) with
      | none =>
        rw [found] at deciding
        refine ⟨fun x same => ?_, ?_⟩
        · rw [deciding] at same
          cases same
        · rw [payloadExpiry_eq, deciding, documentedPolicy_of_rejected engine v p found]
      | some x =>
        rw [found] at deciding
        obtain ⟨documented, first⟩ :=
          documentedPolicy_of_accepted engine v p found (open_ reaches x found)
        refine ⟨fun y same => ?_, ?_⟩
        · rw [deciding] at same
          cases same
          exact first
        · rw [payloadExpiry_eq, deciding, documented]
    · refine ⟨fun x same => ?_, ?_⟩
      · unfold decidingPolicy at same
        rw [if_neg reaches] at same
        cases same
      · rw [payloadExpiry_eq]
        exact precedence_of_not_reaches engine v p reaches _ _

end Engine

/-! ### A policy for a class -/

/-- Payloads of the class `audit` expire after an hour, and no other payload expires. -/
def auditConfig : Config where
  payloadPolicies := [⟨ascii "audit", { retentionClass := ascii "audit" }, hour⟩]
  defaultEventTTL := hour
  archiver := true

def auditEngine : Engine where
  cfg := auditConfig.withDefaults
  payloads := []
  quote := id
  bounded := auditConfig.bounded_withDefaults (by decide) (by decide)
  validated := by decide

def plainEvent : Event := { id := ascii "07", timestamp := 5 }

/-- A payload without a class. -/
def plainPayload : EventPayload := ⟨ascii "body", { store := ascii "s", key := ascii "k" }⟩

/-- **A policy for another class decides**: the payload has no class, the policy is for payloads of
the class `audit`, and the payload is given an expiry where the documentation keeps it for ever. -/
theorem policy_of_other_class :
    new auditEngine.quote auditEngine.cfg true auditEngine.payloads = .ok auditEngine ∧
      (auditEngine.decidingPolicy plainEvent plainPayload).map
        (fun x => (x.where_.retentionClass, plainPayload.ref.retentionClass)) =
        some (ascii "audit", []) ∧
      auditEngine.payloadExpiry plainEvent plainPayload = some (5 + hour) ∧
      auditEngine.precedence plainEvent plainPayload
        (auditEngine.documentedPolicy plainEvent plainPayload) = none ∧
      ¬ auditEngine.Respected plainEvent plainPayload := by
  have answers : auditEngine.payloadExpiry plainEvent plainPayload = some (5 + hour) := by
    decide
  have documented : auditEngine.precedence plainEvent plainPayload
      (auditEngine.documentedPolicy plainEvent plainPayload) = none := by decide
  refine ⟨new_engine _ rfl, by decide, answers, documented, fun respected => ?_⟩
  have same := respected.documented
  rw [answers, documented] at same
  cases same

end Trail.Retention
