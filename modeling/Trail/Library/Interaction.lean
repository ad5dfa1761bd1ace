/-
**Programs that call an environment.**

A `Prog` is a computation that makes calls, one at a time, to an environment it knows nothing
about: a call has a reply of its own type, and the program goes on with whatever it gets. What a
program can do is the set of its `Trace`s: the exchanges made so far, and the result if it has
returned; a program may be cut off after any exchange.

* `Obeys` says that every call is allowed after the exchanges before it and that the result fits
  the whole history; `obeys_bind` composes it along `bind`, and `Obeys.trace` reads it off traces.
* `pool` runs the programs of a list, at most `width` of them at a time, in an order the
  environment chooses; `obeys_pool` is its rule.
* `through` carries out every call by a program over another signature, and `Obeys.through` is its
  rule.
* `execute` runs a program against a world that answers every call.
* `play` answers every call by a function of the call, for concrete runs.
-/

import Mathlib.Algebra.GroupWithZero.Nat
import Mathlib.Data.List.Forall2

namespace Trail.Library

theorem forall₂_mem_right {α β : Type} {relation : α → β → Prop} {first : List α} {second : List β}
    (related : List.Forall₂ relation first second) {item : β} (member : item ∈ second) :
    ∃ other ∈ first, relation other item := by
  induction related with
  | nil => cases member
  | cons holds _ ih =>
    rcases List.mem_cons.mp member with rfl | later
    · exact ⟨_, List.mem_cons_self, holds⟩
    · obtain ⟨other, among, related⟩ := ih later
      exact ⟨other, List.mem_cons_of_mem _ among, related⟩

theorem forall₂_append_inv {α β : Type} {relation : α → β → Prop} {first second : List α}
    {items : List β} (related : List.Forall₂ relation (first ++ second) items) :
    ∃ one two, items = one ++ two ∧ List.Forall₂ relation first one ∧
      List.Forall₂ relation second two := by
  induction first generalizing items with
  | nil => exact ⟨[], items, rfl, .nil, related⟩
  | cons head first ih =>
    cases related with
    | @cons _ item _ items holds rest =>
      obtain ⟨one, two, rfl, left, right⟩ := ih rest
      exact ⟨item :: one, two, rfl, .cons holds left, right⟩

/-- The calls a program can make, each with the type of its replies. -/
structure Signature where
  Call : Type
  Reply : Call → Type

/-- A call and the reply it got. -/
structure Signature.Exchange (σ : Signature) where
  op : σ.Call
  reply : σ.Reply op

/-- A program over a signature. -/
inductive Prog (σ : Signature) (α : Type) : Type
  | pure (value : α)
  | call (op : σ.Call) (next : σ.Reply op → Prog σ α)

namespace Prog

variable {σ : Signature} {α β γ : Type}

def bind : Prog σ α → (α → Prog σ β) → Prog σ β
  | .pure value, rest => rest value
  | .call op next, rest => .call op fun reply => (next reply).bind rest

theorem bind_assoc (program : Prog σ α) (second : α → Prog σ β) (third : β → Prog σ γ) :
    (program.bind second).bind third = program.bind fun value => (second value).bind third := by
  induction program with
  | pure value => rfl
  | call op next ih =>
    show Prog.call op _ = Prog.call op _
    congr 1
    funext reply
    exact ih reply

/-! ### Traces -/

/-- **What a program can do**: the exchanges so far, and the result once it has returned. -/
inductive Trace : Prog σ α → List σ.Exchange → Option α → Prop
  | cut (program : Prog σ α) : Trace program [] none
  | pure (value : α) : Trace (.pure value) [] (some value)
  | call {op : σ.Call} {next : σ.Reply op → Prog σ α} (reply : σ.Reply op)
      {rest : List σ.Exchange} {result : Option α} :
      Trace (next reply) rest result → Trace (.call op next) (⟨op, reply⟩ :: rest) result

/-- The run in which every call is answered by a function of the call. -/
def play (answer : (op : σ.Call) → σ.Reply op) : Prog σ α → List σ.Exchange × α
  | .pure value => ([], value)
  | .call op next =>
    let (rest, value) := (next (answer op)).play answer
    (⟨op, answer op⟩ :: rest, value)

theorem play_trace (answer : (op : σ.Call) → σ.Reply op) (program : Prog σ α) :
    program.Trace (program.play answer).1 (some (program.play answer).2) := by
  induction program with
  | pure value => exact .pure value
  | call op next ih => exact .call (answer op) (ih (answer op))

theorem play_reply (answer : (op : σ.Call) → σ.Reply op) (program : Prog σ α) {op : σ.Call}
    {reply : σ.Reply op} (member : ⟨op, reply⟩ ∈ (program.play answer).1) : reply = answer op := by
  induction program with
  | pure value => cases member
  | call other next ih =>
    rcases List.mem_cons.mp member with same | later
    · cases same
      rfl
    · exact ih _ later

theorem Trace.pure_inv {value result : α} {trace : List σ.Exchange}
    (ran : (Prog.pure value : Prog σ α).Trace trace (some result)) : trace = [] ∧ result = value := by
  cases ran
  exact ⟨rfl, rfl⟩

theorem Trace.call_inv {op : σ.Call} {next : σ.Reply op → Prog σ α} {value : α}
    {trace : List σ.Exchange} (ran : (Prog.call op next).Trace trace (some value)) :
    ∃ reply rest, trace = ⟨op, reply⟩ :: rest ∧ (next reply).Trace rest (some value) := by
  cases ran with
  | call reply rest => exact ⟨reply, _, rfl, rest⟩

theorem Trace.bind {program : Prog σ α} {rest : α → Prog σ β} {middle : α} {value : β}
    {before after : List σ.Exchange} (first : program.Trace before (some middle))
    (second : (rest middle).Trace after (some value)) :
    (program.bind rest).Trace (before ++ after) (some value) := by
  induction program generalizing before with
  | pure result =>
    obtain ⟨rfl, rfl⟩ := first.pure_inv
    exact second
  | call op next ih =>
    obtain ⟨reply, trace, rfl, goes⟩ := first.call_inv
    exact .call reply (ih reply goes)

theorem Trace.bind_inv {program : Prog σ α} {rest : α → Prog σ β} {value : β}
    {trace : List σ.Exchange} (ran : (program.bind rest).Trace trace (some value)) :
    ∃ middle before after, program.Trace before (some middle) ∧
      (rest middle).Trace after (some value) ∧ trace = before ++ after := by
  induction program generalizing trace with
  | pure middle => exact ⟨middle, [], trace, .pure middle, ran, rfl⟩
  | call op next ih =>
    obtain ⟨reply, later, rfl, goes⟩ := Trace.call_inv ran
    obtain ⟨middle, before, after, first, second, rfl⟩ := ih reply goes
    exact ⟨middle, ⟨op, reply⟩ :: before, after, .call reply first, second, rfl⟩

theorem exists_trace (answered : ∀ op : σ.Call, Nonempty (σ.Reply op)) (program : Prog σ α) :
    ∃ trace value, program.Trace trace (some value) := by
  induction program with
  | pure value => exact ⟨[], value, .pure value⟩
  | call op next ih =>
    obtain ⟨reply⟩ := answered op
    obtain ⟨trace, value, goes⟩ := ih reply
    exact ⟨⟨op, reply⟩ :: trace, value, .call reply goes⟩

/-- **A trace that is cut off is the beginning of a finished one.** -/
theorem Trace.finish (answered : ∀ op : σ.Call, Nonempty (σ.Reply op)) {program : Prog σ α}
    {trace : List σ.Exchange} {result : Option α} (ran : program.Trace trace result) :
    ∃ more value, program.Trace (trace ++ more) (some value) := by
  induction ran with
  | cut program => exact exists_trace answered program
  | pure value => exact ⟨[], value, .pure value⟩
  | call reply _ ih =>
    obtain ⟨more, value, goes⟩ := ih
    exact ⟨more, value, .call reply goes⟩

/-! ### Running against a world -/

section Run

variable {World : Type} (answer : World → (op : σ.Call) → World × σ.Reply op)

/-- The run against a world that answers every call: each exchange with the world it was made in,
then the world after it and the result. -/
def execute : World → Prog σ α → List (World × σ.Exchange) × World × α
  | world, .pure value => ([], world, value)
  | world, .call op next =>
    let (log, rest) := ((next (answer world op).2).execute (answer world op).1)
    ((world, ⟨op, (answer world op).2⟩) :: log, rest)

theorem execute_bind (world : World) (program : Prog σ α) (rest : α → Prog σ β) :
    (program.bind rest).execute answer world =
      ((program.execute answer world).1 ++
        ((rest (program.execute answer world).2.2).execute answer (program.execute answer world).2.1).1,
      ((rest (program.execute answer world).2.2).execute answer
        (program.execute answer world).2.1).2) := by
  induction program generalizing world with
  | pure value => rfl
  | call op next ih =>
    show (_ :: (((next _).bind rest).execute answer _).1, _) = _
    rw [ih]
    rfl

theorem execute_call_snd (world : World) (op : σ.Call) (next : σ.Reply op → Prog σ α) :
    ((Prog.call op next).execute answer world).2 =
      ((next (answer world op).2).execute answer (answer world op).1).2 :=
  rfl

variable {answer} in
theorem execute_call {world later : World} {op : σ.Call} {reply : σ.Reply op}
    (answered : answer world op = (later, reply)) (next : σ.Reply op → Prog σ α) :
    (Prog.call op next).execute answer world =
      ((world, ⟨op, reply⟩) :: ((next reply).execute answer later).1,
        ((next reply).execute answer later).2) := by
  show ((world, (⟨op, (answer world op).2⟩ : σ.Exchange)) ::
    ((next (answer world op).2).execute answer (answer world op).1).1, _) = _
  rw [answered]

variable {answer} in
theorem execute_bind_of {world later : World} {program : Prog σ α} {rest : α → Prog σ β} {value : α}
    (first : (program.execute answer world).2 = (later, value)) :
    (program.bind rest).execute answer world =
      ((program.execute answer world).1 ++ ((rest value).execute answer later).1,
        ((rest value).execute answer later).2) := by
  rw [execute_bind, first]

variable {answer} in
theorem execute_bind_snd {world later : World} {program : Prog σ α} {rest : α → Prog σ β} {value : α}
    (first : (program.execute answer world).2 = (later, value)) :
    ((program.bind rest).execute answer world).2 = ((rest value).execute answer later).2 := by
  rw [execute_bind_of first]

theorem execute_reply (world : World) (program : Prog σ α) {now : World} {op : σ.Call}
    {reply : σ.Reply op} (member : (now, ⟨op, reply⟩) ∈ (program.execute answer world).1) :
    reply = (answer now op).2 := by
  induction program generalizing world with
  | pure value => cases member
  | call other next ih =>
    rcases List.mem_cons.mp member with same | later
    · cases same
      rfl
    · exact ih _ _ later

theorem execute_unchanged (world : World) (program : Prog σ α)
    (same : ∀ entry ∈ (program.execute answer world).1,
      (answer world entry.2.op).1 = world) : (program.execute answer world).2.1 = world := by
  induction program with
  | pure value => rfl
  | call op next ih =>
    have first : (answer world op).1 = world := same _ List.mem_cons_self
    show ((next (answer world op).2).execute answer (answer world op).1).2.1 = world
    rw [first]
    refine ih _ fun entry member => same entry ?_
    show entry ∈ _ :: ((next (answer world op).2).execute answer (answer world op).1).1
    rw [first]
    exact List.mem_cons_of_mem _ member

theorem execute_trace (world : World) (program : Prog σ α) :
    program.Trace ((program.execute answer world).1.map Prod.snd)
      (some (program.execute answer world).2.2) := by
  induction program generalizing world with
  | pure value => exact .pure value
  | call op next ih => exact .call _ (ih _ _)

theorem execute_invariant {good : World → Prop}
    (kept : ∀ world op, good world → good (answer world op).1) {world : World}
    (program : Prog σ α) (fine : good world) : good (program.execute answer world).2.1 := by
  induction program generalizing world with
  | pure value => exact fine
  | call op next ih => exact ih _ (kept world op fine)

variable {answer} in
theorem execute_kept {Part : Type} (part : World → Part) (world : World) (program : Prog σ α)
    (same : ∀ entry ∈ (program.execute answer world).1,
      part (answer entry.1 entry.2.op).1 = part entry.1) :
    part (program.execute answer world).2.1 = part world := by
  induction program generalizing world with
  | pure value => rfl
  | call op next ih =>
    refine Eq.trans (ih _ _ fun entry member => ?_) (same _ List.mem_cons_self)
    exact same entry (List.mem_cons_of_mem _ member)

variable {answer} in
/-- A part of the world that only the calls change is, after a run, what they made of it. -/
theorem execute_part {Part : Type} (part : World → Part) (move : Part → σ.Call → Part)
    (moves : ∀ world op, part (answer world op).1 = move (part world) op) (world : World)
    (program : Prog σ α) :
    part (program.execute answer world).2.1 =
      ((program.execute answer world).1.map fun entry => entry.2.op).foldl move (part world) := by
  induction program generalizing world with
  | pure value => rfl
  | call op next ih =>
    show part ((next _).execute answer _).2.1 = List.foldl move (move (part world) op) _
    rw [ih, moves]

variable {answer} in
/-- **A world that is only watched.** When every call of a run is answered as before, and its effect on
the watched part is that of the call alone, the run is the same and the watched part is what the
calls made of it, one after another. -/
theorem execute_watched {Seen : Type} (watch : Seen → σ.Call → Seen)
    {both : World × Seen → (op : σ.Call) → (World × Seen) × σ.Reply op} {world : World}
    {program : Prog σ α}
    (agree : ∀ entry ∈ (program.execute answer world).1, ∀ seen,
      both (entry.1, seen) entry.2.op = (((answer entry.1 entry.2.op).1, watch seen entry.2.op),
        (answer entry.1 entry.2.op).2)) (seen : Seen) :
    (program.execute both (world, seen)).2 =
      (((program.execute answer world).2.1,
        ((program.execute answer world).1.map fun entry => entry.2.op).foldl watch seen),
        (program.execute answer world).2.2) := by
  induction program generalizing world seen with
  | pure value => rfl
  | call op next ih =>
    have here := agree (world, ⟨op, (answer world op).2⟩) List.mem_cons_self seen
    rw [execute_call here]
    exact ih _ (fun entry member => agree entry (List.mem_cons_of_mem _ member)) _

end Run

/-! ### Programs that keep a discipline -/

section Discipline

variable (allow : List σ.Exchange → σ.Call → Prop)

/-- **Every call is allowed by the history before it**, and the result fits the history. -/
def Obeys : Prog σ α → List σ.Exchange → (List σ.Exchange → α → Prop) → Prop
  | .pure value, history, post => post history value
  | .call op next, history, post =>
    allow history op ∧ ∀ reply, (next reply).Obeys (history ++ [⟨op, reply⟩]) post

variable {allow}

theorem obeys_bind {program : Prog σ α} {rest : α → Prog σ β} {history : List σ.Exchange}
    {post : List σ.Exchange → β → Prop}
    (first : program.Obeys allow history fun later value => (rest value).Obeys allow later post) :
    (program.bind rest).Obeys allow history post := by
  induction program generalizing history with
  | pure value => exact first
  | call op next ih => exact ⟨first.1, fun reply => ih reply (first.2 reply)⟩

theorem Obeys.mono {program : Prog σ α} {history : List σ.Exchange}
    {post post' : List σ.Exchange → α → Prop} (obeys : program.Obeys allow history post)
    (weaken : ∀ later value, post later value → post' later value) :
    program.Obeys allow history post' := by
  induction program generalizing history with
  | pure value => exact weaken history value obeys
  | call op next ih => exact ⟨obeys.1, fun reply => ih reply (obeys.2 reply)⟩

theorem Obeys.and {program : Prog σ α} {history : List σ.Exchange}
    {allow' : List σ.Exchange → σ.Call → Prop} {post post' : List σ.Exchange → α → Prop}
    (first : program.Obeys allow history post) (second : program.Obeys allow' history post') :
    program.Obeys allow history fun later value => post later value ∧ post' later value := by
  induction program generalizing history with
  | pure value => exact ⟨first, second⟩
  | call op next ih => exact ⟨first.1, fun reply => ih reply (first.2 reply) (second.2 reply)⟩

theorem Obeys.longer {program : Prog σ α} {history : List σ.Exchange}
    {post : List σ.Exchange → α → Prop} (obeys : program.Obeys allow history post) :
    program.Obeys allow history fun later value => history <+: later ∧ post later value := by
  induction program generalizing history with
  | pure value => exact ⟨List.prefix_refl history, obeys⟩
  | call op next ih =>
    refine ⟨obeys.1, fun reply => (ih reply (obeys.2 reply)).mono ?_⟩
    rintro later value ⟨longer, holds⟩
    exact ⟨(List.prefix_append _ _).trans longer, holds⟩

theorem Obeys.calls {property : σ.Call → Prop} {program : Prog σ α} {history : List σ.Exchange}
    {post : List σ.Exchange → α → Prop}
    (obeys : program.Obeys (fun history op => allow history op ∧ property op) history post) :
    program.Obeys allow history fun later value =>
      (∀ exchange ∈ later, exchange ∈ history ∨ property exchange.op) ∧ post later value := by
  induction program generalizing history with
  | pure value => exact ⟨fun exchange member => .inl member, obeys⟩
  | call op next ih =>
    refine ⟨obeys.1.1, fun reply => (ih reply (obeys.2 reply)).mono ?_⟩
    rintro later value ⟨calls, holds⟩
    refine ⟨fun exchange member => ?_, holds⟩
    rcases calls exchange member with old | new
    · rcases List.mem_append.mp old with older | this
      · exact .inl older
      · rw [List.mem_singleton.mp this]
        exact .inr obeys.1.2
    · exact .inr new

theorem Obeys.extends {property : σ.Call → Prop} {program : Prog σ α} {history : List σ.Exchange}
    {post : List σ.Exchange → α → Prop}
    (obeys : program.Obeys (fun _ op => property op) history post) :
    program.Obeys (fun _ op => property op) history fun later value =>
      ∃ new, later = history ++ new ∧ (∀ exchange ∈ new, property exchange.op) ∧
        post later value := by
  induction program generalizing history with
  | pure value =>
    exact ⟨[], (List.append_nil _).symm, fun _ member => (List.not_mem_nil member).elim, obeys⟩
  | call op next ih =>
    refine ⟨obeys.1, fun reply => (ih reply (obeys.2 reply)).mono ?_⟩
    rintro later value ⟨new, rfl, calls, holds⟩
    refine ⟨⟨op, reply⟩ :: new, List.append_assoc _ _ _, fun exchange member => ?_, holds⟩
    rcases List.mem_cons.mp member with rfl | later
    · exact obeys.1
    · exact calls exchange later

theorem Obeys.weaken {allow' : List σ.Exchange → σ.Call → Prop} {program : Prog σ α}
    {history : List σ.Exchange} {post : List σ.Exchange → α → Prop}
    (obeys : program.Obeys allow history post)
    (calls : ∀ later op, allow later op → allow' later op) : program.Obeys allow' history post := by
  induction program generalizing history with
  | pure value => exact obeys
  | call op next ih => exact ⟨calls _ _ obeys.1, fun reply => ih reply (obeys.2 reply)⟩

theorem obeys_of_forall {program : Prog σ α} {history : List σ.Exchange}
    {post : List σ.Exchange → α → Prop} (calls : ∀ later op, allow later op)
    (results : ∀ later value, post later value) : program.Obeys allow history post := by
  induction program generalizing history with
  | pure value => exact results history value
  | call op next ih => exact ⟨calls history op, fun reply => ih reply⟩

/-- **In every trace of a program that obeys, every call was allowed when it was made.** -/
theorem Obeys.trace {program : Prog σ α} {history : List σ.Exchange}
    {post : List σ.Exchange → α → Prop} (obeys : program.Obeys allow history post)
    {trace : List σ.Exchange} {result : Option α} (ran : program.Trace trace result) :
    (∀ (before : List σ.Exchange) (exchange : σ.Exchange) (after : List σ.Exchange),
      trace = before ++ exchange :: after → allow (history ++ before) exchange.op) ∧
      ∀ value, result = some value → post (history ++ trace) value := by
  induction ran generalizing history with
  | cut program => exact ⟨fun before exchange after cut => by simp at cut, by simp⟩
  | pure value =>
    refine ⟨fun before exchange after cut => by simp at cut, fun other same => ?_⟩
    cases same
    rw [List.append_nil]
    exact obeys
  | @call op next reply rest result ran ih =>
    obtain ⟨calls, final⟩ := ih (obeys.2 reply)
    refine ⟨fun before exchange after cut => ?_, fun value same => ?_⟩
    · cases before with
      | nil =>
        cases cut
        rw [List.append_nil]
        exact obeys.1
      | cons head tail =>
        obtain ⟨rfl, later⟩ := List.cons.inj cut
        have allowed := calls tail exchange after later
        rwa [List.append_assoc] at allowed
    · have holds := final value same
      rwa [List.append_assoc] at holds

theorem Obeys.and_trace {program : Prog σ α} {history : List σ.Exchange}
    {post shown : List σ.Exchange → α → Prop} (obeys : program.Obeys allow history post)
    (traces : ∀ trace value, program.Trace trace (some value) → shown (history ++ trace) value) :
    program.Obeys allow history fun later value => post later value ∧ shown later value := by
  induction program generalizing history with
  | pure value =>
    have here := traces [] value (.pure value)
    rw [List.append_nil] at here
    exact ⟨obeys, here⟩
  | call op next ih =>
    refine ⟨obeys.1, fun reply => ih reply (obeys.2 reply) fun trace value ran => ?_⟩
    have whole := traces (⟨op, reply⟩ :: trace) value (.call reply ran)
    rwa [List.append_assoc]

theorem obeys_trace {program : Prog σ α} {history : List σ.Exchange}
    (calls : ∀ later op, allow later op) : program.Obeys allow history fun later value =>
      ∃ new, later = history ++ new ∧ program.Trace new (some value) := by
  induction program generalizing history with
  | pure value => exact ⟨[], (List.append_nil _).symm, .pure value⟩
  | call op next ih =>
    refine ⟨calls _ _, fun reply => (ih reply).mono ?_⟩
    intro later value ⟨new, same, ran⟩
    exact ⟨⟨op, reply⟩ :: new, same.trans (List.append_assoc _ _ _), .call reply ran⟩

/-- What every allowed call and every result tell of the history holds at every point of every
trace. -/
theorem Obeys.now {holds : List σ.Exchange → Prop} {program : Prog σ α} {history : List σ.Exchange}
    {post : List σ.Exchange → α → Prop} (obeys : program.Obeys allow history post)
    (calls : ∀ later op, allow later op → holds later)
    (results : ∀ later value, post later value → holds later)
    {trace : List σ.Exchange} {result : Option α} (ran : program.Trace trace result) :
    holds (history ++ trace) := by
  induction ran generalizing history with
  | cut program =>
    rw [List.append_nil]
    cases program with
    | pure value => exact results history value obeys
    | call op next => exact calls history op obeys.1
  | pure value =>
    rw [List.append_nil]
    exact results history value obeys
  | call reply ran ih =>
    have later := ih (obeys.2 reply)
    rwa [List.append_assoc] at later

theorem Obeys.execute {World : Type} {property : σ.Call → Prop} {program : Prog σ α}
    {history : List σ.Exchange} {post : List σ.Exchange → α → Prop}
    (obeys : program.Obeys (fun _ op => property op) history post)
    (answer : World → (op : σ.Call) → World × σ.Reply op) (world : World) :
    ∀ entry ∈ (program.execute answer world).1, property entry.2.op := by
  induction program generalizing history world with
  | pure value => exact fun _ member => (List.not_mem_nil member).elim
  | call op next ih =>
    intro entry member
    rcases List.mem_cons.mp member with rfl | later
    · exact obeys.1
    · exact ih _ (obeys.2 _) _ entry later

/-- Two continuations that agree on every result a program can return. -/
theorem Obeys.bind_congr {program : Prog σ α} {first second : α → Prog σ β}
    {history : List σ.Exchange}
    (agree : program.Obeys allow history fun _ value => first value = second value) :
    program.bind first = program.bind second := by
  induction program generalizing history with
  | pure value => exact agree
  | call op next ih =>
    show Prog.call op _ = Prog.call op _
    congr 1
    funext reply
    exact ih reply (agree.2 reply)

/-! ### Programs over programs -/

/-- The program in which every call is carried out by a program over another signature. -/
def through {τ : Signature} (carryOut : (op : σ.Call) → Prog τ (σ.Reply op)) : Prog σ α → Prog τ α
  | .pure value => .pure value
  | .call op next => (carryOut op).bind fun reply => (next reply).through carryOut

/-- **Carrying out the calls keeps a discipline.** A relation between the two histories is kept by
every allowed call, and while it holds the program of that call obeys the discipline below. -/
theorem Obeys.through {τ : Signature} {carryOut : (op : σ.Call) → Prog τ (σ.Reply op)}
    {permit : List τ.Exchange → τ.Call → Prop} (linked : List σ.Exchange → List τ.Exchange → Prop)
    (each : ∀ above below op, linked above below → allow above op →
      (carryOut op).Obeys permit below fun later reply => linked (above ++ [⟨op, reply⟩]) later)
    {program : Prog σ α} {above : List σ.Exchange} {below : List τ.Exchange}
    {post : List σ.Exchange → α → Prop} (obeys : program.Obeys allow above post)
    (start : linked above below) :
    (program.through carryOut).Obeys permit below fun later value =>
      ∃ history, linked history later ∧ post history value := by
  induction program generalizing above below with
  | pure value => exact ⟨above, start, obeys⟩
  | call op next ih =>
    refine obeys_bind ((each above below op start obeys.1).mono ?_)
    intro later reply still
    exact ih reply (obeys.2 reply) still

/-- A thread of a pool: whenever the invariant holds its next call is allowed, and every reply
keeps the invariant. -/
def Always (allow : List σ.Exchange → σ.Call → Prop) (holds : List σ.Exchange → Prop) :
    Prog σ α → Prop
  | .pure _ => True
  | .call op next => (∀ history, holds history → allow history op) ∧
      (∀ history reply, holds history → holds (history ++ [⟨op, reply⟩])) ∧
      ∀ reply, (next reply).Always allow holds

theorem Always.weaken {allow' : List σ.Exchange → σ.Call → Prop} {holds : List σ.Exchange → Prop}
    {program : Prog σ α} (always : program.Always allow holds)
    (calls : ∀ history op, allow history op → allow' history op) : program.Always allow' holds := by
  induction program with
  | pure value => trivial
  | call op next ih =>
    exact ⟨fun history here => calls _ _ (always.1 history here), always.2.1,
      fun reply => ih reply (always.2.2 reply)⟩

end Discipline

/-! ### Pools -/

/-- A call by which the environment picks one of several threads. -/
structure Chooser (σ : Signature) where
  op : Nat → σ.Call
  pick : (count : Nat) → σ.Reply (op count) → Nat

/-- **A pool of threads.** The environment picks a running thread, which makes its next call or
hands in its result, or the start of the next waiting one while fewer than `width` run. -/
def pool (chooser : Chooser σ) (width : Nat) (merge : β → α → β) :
    Nat → List (Prog σ α) → List (Prog σ α) → β → Prog σ β
  | 0, _, _, total => .pure total
  | fuel + 1, waiting, running, total =>
    if waiting = [] ∧ running = [] then .pure total
    else
      let count := running.length + if waiting ≠ [] ∧ running.length < width then 1 else 0
      .call (chooser.op count) fun reply =>
        match running[chooser.pick count reply % count]? with
        | some (.pure value) =>
          pool chooser width merge fuel waiting
            (running.eraseIdx (chooser.pick count reply % count)) (merge total value)
        | some (.call op next) =>
          .call op fun answer =>
            pool chooser width merge fuel waiting
              (running.set (chooser.pick count reply % count) (next answer)) total
        | none =>
          match waiting with
          | [] => .pure total
          | thread :: rest => pool chooser width merge fuel rest (running ++ [thread]) total

section Bounds

variable {relation : γ → α → Prop} {marks : List γ} {bounds : List Nat} {items : List α}

theorem forall₂_getElem? (related : List.Forall₂ relation marks items) {index : Nat} {item : α}
    (here : items[index]? = some item) :
    ∃ mark, marks[index]? = some mark ∧ relation mark item := by
  induction related generalizing index with
  | nil => simp at here
  | @cons mark first marks items holds _ ih =>
    cases index with
    | zero =>
      cases here
      exact ⟨mark, rfl, holds⟩
    | succ index => exact ih here

theorem forall₂_eraseIdx (related : List.Forall₂ relation marks items) (index : Nat) :
    List.Forall₂ relation (marks.eraseIdx index) (items.eraseIdx index) := by
  induction related generalizing index with
  | nil => exact .nil
  | cons holds related ih =>
    cases index with
    | zero => exact related
    | succ index => exact .cons holds (ih index)

theorem forall₂_set (related : List.Forall₂ relation marks items) (index : Nat) {mark : γ}
    {item : α} (holds : relation mark item) :
    List.Forall₂ relation (marks.set index mark) (items.set index item) := by
  induction related generalizing index with
  | nil => exact .nil
  | cons first related ih =>
    cases index with
    | zero => exact .cons holds related
    | succ index => exact .cons first (ih index)

theorem sum_eraseIdx {index bound : Nat} (here : bounds[index]? = some bound) :
    (bounds.eraseIdx index).sum + bound = bounds.sum := by
  induction bounds generalizing index with
  | nil => simp at here
  | cons first bounds ih =>
    cases index with
    | zero =>
      cases here
      simp [Nat.add_comm]
    | succ index =>
      have rest := ih here
      simp only [List.eraseIdx_cons_succ, List.sum_cons]
      omega

theorem sum_set {index bound : Nat} (here : bounds[index]? = some (bound + 1)) :
    (bounds.set index bound).sum + 1 = bounds.sum := by
  induction bounds generalizing index with
  | nil => simp at here
  | cons first bounds ih =>
    cases index with
    | zero =>
      cases here
      simp only [List.set_cons_zero, List.sum_cons]
      omega
    | succ index =>
      have rest := ih here
      simp only [List.set_cons_succ, List.sum_cons]
      omega

end Bounds

/-- At most so many calls on every path. -/
def Within : Nat → Prog σ α → Prop
  | _, .pure _ => True
  | 0, .call _ _ => False
  | calls + 1, .call _ next => ∀ reply, (next reply).Within calls

/-- **The fuel of a pool is enough** when it covers, for every thread, its start, its calls and its
result: more fuel makes no difference, so the pool ends with all threads done. -/
theorem pool_fuel (chooser : Chooser σ) (width : Nat) (merge : β → α → β) (calls fuel : Nat)
    (waiting running : List (Prog σ α)) (total : β) (short : ∀ thread ∈ waiting, thread.Within calls)
    (left : List Nat) (bounds : List.Forall₂ Within left running)
    (enough : left.sum + running.length + waiting.length * (calls + 2) ≤ fuel) :
    pool chooser width merge (fuel + 1) waiting running total =
      pool chooser width merge fuel waiting running total := by
  induction fuel generalizing waiting running total left with
  | zero =>
    have idle : waiting = [] ∧ running = [] := by
      rw [← List.length_eq_zero_iff, ← List.length_eq_zero_iff]
      have none : waiting.length * (calls + 2) = 0 := by omega
      rcases Nat.mul_eq_zero.mp none with empty | impossible
      · exact ⟨empty, by omega⟩
      · omega
    simp [pool, idle]
  | succ fuel ih =>
    unfold pool
    split
    · rfl
    · dsimp only
      congr 1
      funext reply
      split
      · rename_i value here
        obtain ⟨bound, there, _⟩ := forall₂_getElem? bounds here
        refine ih _ _ _ short _ (forall₂_eraseIdx bounds _) ?_
        have sum := sum_eraseIdx there
        have length := List.length_eraseIdx_of_lt (List.getElem?_eq_some_iff.mp here).1
        have := (List.getElem?_eq_some_iff.mp here).1
        omega
      · rename_i op next here
        obtain ⟨bound, there, within⟩ := forall₂_getElem? bounds here
        congr 1
        funext answer
        cases bound with
        | zero => cases within
        | succ bound =>
          refine ih _ _ _ short _ (forall₂_set bounds _ (within answer)) ?_
          have sum := sum_set there
          rw [List.length_set]
          omega
      · cases waiting with
        | nil => rfl
        | cons thread rest =>
          refine ih _ _ _ (fun other member => short other (List.mem_cons_of_mem _ member))
            (left ++ [calls])
            (List.rel_append bounds (.cons (short thread (List.mem_cons_self ..)) .nil)) ?_
          simp only [List.sum_append, List.sum_singleton, List.length_append,
            List.length_nil, List.length_cons, Nat.succ_mul] at enough ⊢
          omega

/-- What merging keeps holds of the total of a pool, whose calls are those of its threads. -/
theorem pool_total {kept : β → Prop} {property : σ.Call → Prop} {chooser : Chooser σ} (width : Nat)
    {merge : β → α → β} (choose : ∀ count, property (chooser.op count))
    (keeps : ∀ total value, kept total → kept (merge total value)) (fuel : Nat)
    (waiting running : List (Prog σ α)) {total : β}
    (first : ∀ thread ∈ waiting, thread.Always (fun _ op => property op) fun _ => True)
    (second : ∀ thread ∈ running, thread.Always (fun _ op => property op) fun _ => True)
    (start : kept total) (history : List σ.Exchange) :
    (pool chooser width merge fuel waiting running total).Obeys (fun _ op => property op) history
      fun _ total => kept total := by
  induction fuel generalizing waiting running total history with
  | zero => exact start
  | succ fuel ih =>
    unfold pool
    split
    · exact start
    · refine ⟨choose _, fun reply => ?_⟩
      dsimp only
      split
      · exact ih _ _ first (fun thread member => second thread (List.mem_of_mem_eraseIdx member))
          (keeps _ _ start) _
      · rename_i op next here
        obtain ⟨allowed, _, goes⟩ := second _ (List.mem_of_getElem? here)
        refine ⟨allowed [] trivial, fun answer => ih _ _ first (fun thread member => ?_) start _⟩
        rcases List.mem_or_eq_of_mem_set member with old | rfl
        · exact second thread old
        · exact goes answer
      · cases waiting with
        | nil => exact start
        | cons thread rest =>
          refine ih _ _ (fun other member => first other (List.mem_cons_of_mem _ member))
            (fun other member => ?_) start _
          rcases List.mem_append.mp member with old | new
          · exact second other old
          · rw [List.mem_singleton.mp new]
            exact first thread (List.mem_cons_self ..)

theorem Obeys.execute_result {World : Type} {allow : List σ.Exchange → σ.Call → Prop}
    {program : Prog σ α} {history : List σ.Exchange} {post : List σ.Exchange → α → Prop}
    (obeys : program.Obeys allow history post)
    (answer : World → (op : σ.Call) → World × σ.Reply op) (world : World) :
    post (history ++ (program.execute answer world).1.map Prod.snd)
      (program.execute answer world).2.2 :=
  (obeys.trace (execute_trace answer world program)).2 _ rfl

/-- **The rule for pools**: threads that keep an invariant, and stay allowed under it, obey the
discipline in every order. -/
theorem obeys_pool {allow : List σ.Exchange → σ.Call → Prop} (holds : List σ.Exchange → Prop)
    {chooser : Chooser σ} (width : Nat) (merge : β → α → β)
    (choose : ∀ count history, holds history → allow history (chooser.op count) ∧
      ∀ reply, holds (history ++ [⟨chooser.op count, reply⟩]))
    {post : List σ.Exchange → β → Prop} (done : ∀ history total, holds history → post history total)
    (fuel : Nat) (waiting running : List (Prog σ α)) (total : β)
    (first : ∀ thread ∈ waiting, thread.Always allow holds)
    (second : ∀ thread ∈ running, thread.Always allow holds) {history : List σ.Exchange}
    (start : holds history) :
    (pool chooser width merge fuel waiting running total).Obeys allow history post := by
  induction fuel generalizing waiting running total history with
  | zero => exact done history total start
  | succ fuel ih =>
    unfold pool
    split
    · exact done history total start
    · generalize running.length + (if waiting ≠ [] ∧ running.length < width then 1 else 0) = count
      refine ⟨(choose count history start).1, fun reply => ?_⟩
      have chosen := (choose count history start).2 reply
      dsimp only
      split
      · exact ih _ _ _ first (fun thread member => second thread (List.mem_of_mem_eraseIdx member))
          chosen
      · rename_i op next here
        obtain ⟨allowed, keeps, goes⟩ := second _ (List.mem_of_getElem? here)
        refine ⟨allowed _ chosen, fun answer => ih _ _ _ first (fun thread member => ?_)
          (keeps _ answer chosen)⟩
        rcases List.mem_or_eq_of_mem_set member with old | rfl
        · exact second thread old
        · exact goes answer
      · cases waiting with
        | nil => exact done _ total chosen
        | cons thread rest =>
          refine ih _ _ _ (fun other member => first other (List.mem_cons_of_mem _ member))
            (fun other member => ?_) chosen
          rcases List.mem_append.mp member with old | new
          · exact second other old
          · rw [List.mem_singleton.mp new]
            exact first thread (List.mem_cons_self ..)

end Prog

end Trail.Library
