/-
**The file-system payload store and its root.**

`Open` and `Delete` take the key of a reference as a name below the root. The key comes from the fields of
an event, so it is any string. The checks of `path` leave names without a slash or a backslash, among
them `.` and `..`, and joining cleans those away.

* `path_ok`: the keys that are accepted, and the path that is made of one.
* `below_iff`: the path is below the root for all of them but two.
* `confined_iff`: when `Open` and `Delete` stay below the root.
-/

import Trail.Library.Interaction
import Trail.Library.Paths
import Trail.Payload.Store

namespace Trail.Payload.Filesystem

open Library
open Paths (isAbs base join elements dot dotDot separator)

/-- `Store`; `New` makes the root absolute and sets the name. -/
structure Store where
  root : GoString
  name : GoString := ascii "filesystem"
  deriving DecidableEq, Repr

/-- `path`. -/
def path (store : Store) (ref : Ref) : Except GoError GoString :=
  if ref.store ≠ store.name ∨ ref.key = [] ∨ base ref.key ≠ ref.key ∨
      ref.key.any (fun byte => byte ∈ ascii "/\\\\") then .error errInvalidRef
  else .ok (join [store.root, ref.key])

/-! ### Calls of the operating system -/

/-- An error of a call; `notExist` is what `errors.Is` says for `os.ErrNotExist`. -/
structure OSError where
  error : GoError
  notExist : Bool := false

inductive Call
  /-- `ctx.Err()`. -/
  | cancelled
  /-- `os.Open`. -/
  | openFile (path : GoString)
  /-- `os.Remove`. -/
  | remove (path : GoString)

def Call.Reply : Call → Type
  | .cancelled => Option GoError
  | .openFile _ => Except OSError Stream
  | .remove _ => Option OSError

abbrev signature : Signature := ⟨Call, Call.Reply⟩

/-- `Open`. -/
def openRef (store : Store) (ref : Ref) : Prog signature (Except GoError Stream) :=
  match path store ref with
  | .error error => .pure (.error error)
  | .ok path =>
    .call .cancelled fun
      | some error => .pure (.error error)
      | none =>
        .call (.openFile path) fun
          | .ok stream => .pure (.ok stream)
          | .error failed => .pure (.error (if failed.notExist then errNotFound else failed.error))

/-- `Delete`. -/
def delete (store : Store) (ref : Ref) : Prog signature (Option GoError) :=
  match path store ref with
  | .error error => .pure (some error)
  | .ok path =>
    .call .cancelled fun
      | some error => .pure (some error)
      | none =>
        .call (.remove path) fun
          | none => .pure none
          | some failed => .pure (some (if failed.notExist then errNotFound else failed.error))

/-! ### Below the root -/

/-- A path leads to an entry strictly below a root. -/
def Below (root path : GoString) : Prop :=
  isAbs path = true ∧ ∃ rest, rest ≠ [] ∧ elements path = elements root ++ rest

/-- A call touches entries below a root only. -/
def Inside (root : GoString) : Call → Prop
  | .cancelled => True
  | .openFile path => Below root path
  | .remove path => Below root path

section Confined

variable {store : Store} {ref : Ref}

theorem slash_of_whole {key : GoString} (plain : ∀ byte ∈ key, byte ∉ ascii "/\\\\") :
    separator ∉ key := fun member => plain separator member (by decide)

/-- **The keys that `path` accepts**: any name without a slash and a backslash. -/
theorem path_ok {made : GoString} : path store ref = .ok made ↔
    (ref.store = store.name ∧ ref.key ≠ [] ∧ ∀ byte ∈ ref.key, byte ∉ ascii "/\\\\") ∧
      made = join [store.root, ref.key] := by
  unfold path
  constructor
  · intro accepted
    split at accepted
    · cases accepted
    · rename_i checks
      simp only [not_or, Decidable.not_not, List.any_eq_true, not_exists, not_and,
        decide_eq_true_eq] at checks
      cases accepted
      exact ⟨⟨checks.1, checks.2.1, checks.2.2.2⟩, rfl⟩
  · rintro ⟨⟨named, some, plain⟩, rfl⟩
    have based := Paths.base_of_whole some (slash_of_whole plain)
    rw [if_neg]
    simp only [not_or, Decidable.not_not, List.any_eq_true, not_exists, not_and, decide_eq_true_eq]
    exact ⟨named, some, based, plain⟩

/-- A key is `.` or `..`. -/
def Special (key : GoString) : Prop := key = dot ∨ key = dotDot

instance (key : GoString) : Decidable (Special key) := inferInstanceAs (Decidable (_ ∨ _))

/-- **A joined key is below the root** unless it is `.` or `..`. -/
theorem below_iff {root key : GoString} (absolute : isAbs root = true) (some : key ≠ [])
    (plain : ∀ byte ∈ key, byte ∉ ascii "/\\\\") :
    Below root (join [root, key]) ↔ ¬ Special key := by
  obtain ⟨rooted, joined⟩ := Paths.elements_join absolute (slash_of_whole plain)
  unfold Below
  rw [joined]
  by_cases special : Special key
  · refine iff_of_false ?_ (not_not_intro special)
    rintro ⟨_, rest, more, equal⟩
    have longer := congrArg List.length equal
    rw [List.length_append] at longer
    have positive := List.length_pos_of_ne_nil more
    rcases special with rfl | rfl
    · rw [Paths.push_dot] at longer
      omega
    · rw [Paths.push_dotDot (Paths.plain_elements absolute), List.length_dropLast] at longer
      omega
  · refine iff_of_true ⟨rooted, [key], List.cons_ne_nil _ _, ?_⟩ special
    exact Paths.push_plain ⟨some, slash_of_whole plain, not_or.mp special⟩ true _

theorem openRef_inside_iff (history : List signature.Exchange) :
    (openRef store ref).Obeys (fun _ op => Inside store.root op) history (fun _ _ => True) ↔
      ∀ made, path store ref = .ok made → Below store.root made := by
  unfold openRef
  cases made : path store ref with
  | error error => exact iff_of_true trivial fun _ wrong => by cases wrong
  | ok path =>
    constructor
    · rintro ⟨_, next⟩ _ ⟨⟩
      exact (next none).1
    · intro below
      refine ⟨trivial, fun cancelled => ?_⟩
      cases cancelled with
      | some error => trivial
      | none =>
        refine ⟨below path rfl, fun reply => ?_⟩
        cases reply <;> trivial

theorem delete_inside_iff (history : List signature.Exchange) :
    (delete store ref).Obeys (fun _ op => Inside store.root op) history (fun _ _ => True) ↔
      ∀ made, path store ref = .ok made → Below store.root made := by
  unfold delete
  cases made : path store ref with
  | error error => exact iff_of_true trivial fun _ wrong => by cases wrong
  | ok path =>
    constructor
    · rintro ⟨_, next⟩ _ ⟨⟩
      exact (next none).1
    · intro below
      refine ⟨trivial, fun cancelled => ?_⟩
      cases cancelled with
      | some error => trivial
      | none =>
        refine ⟨below path rfl, fun reply => ?_⟩
        cases reply <;> trivial

theorem unslashed {key : GoString} (all : key.all (fun byte => !(ascii "/\\\\").elem byte) = true) :
    ∀ byte ∈ key, byte ∉ ascii "/\\\\" := by
  intro byte member inside
  have free := List.all_eq_true.mp all byte member
  rw [List.elem_eq_true_of_mem inside] at free
  cases free

/-- **When payload access stays below the root**: for every reference but those of the store with the
key `.` or `..`. -/
theorem confined_iff (store : Store) (absolute : isAbs store.root = true) (ref : Ref) :
    ((∀ made, path store ref = .ok made → Below store.root made) ∧
      (∀ history, (openRef store ref).Obeys (fun _ op => Inside store.root op) history
        fun _ _ => True) ∧
      ∀ history, (delete store ref).Obeys (fun _ op => Inside store.root op) history
        fun _ _ => True) ↔
      ¬ (ref.store = store.name ∧ Special ref.key) := by
  have paths : (∀ made, path store ref = .ok made → Below store.root made) ↔
      ¬ (ref.store = store.name ∧ Special ref.key) := by
    constructor
    · rintro below ⟨named, special⟩
      have plain : ref.key ≠ [] ∧ ∀ byte ∈ ref.key, byte ∉ ascii "/\\\\" := by
        rcases special with dots | dots <;> rw [dots]
        · exact ⟨by decide, unslashed (by decide)⟩
        · exact ⟨by decide, unslashed (by decide)⟩
      have made := below _ (path_ok.mpr ⟨⟨named, plain⟩, rfl⟩)
      exact (below_iff absolute plain.1 plain.2).mp made special
    · intro free made accepted
      obtain ⟨⟨named, some, plain⟩, rfl⟩ := path_ok.mp accepted
      exact (below_iff absolute some plain).mpr fun special => free ⟨named, special⟩
  simp only [openRef_inside_iff, delete_inside_iff, forall_const, and_self, paths]

end Confined

/-! ### Keys of dots -/

def localStore : Store := ⟨ascii "/srv/payloads", ascii "filesystem"⟩

/-- **The root itself and the directory above it** are paths of references. -/
theorem dots_leave_root :
    path localStore { store := ascii "filesystem", key := ascii "." } = .ok (ascii "/srv/payloads") ∧
    path localStore { store := ascii "filesystem", key := ascii ".." } = .ok (ascii "/srv") ∧
    ¬ Below localStore.root (ascii "/srv/payloads") ∧ ¬ Below localStore.root (ascii "/srv") := by
  refine ⟨by decide, by decide, ?_, ?_⟩
  · rintro ⟨_, rest, more, equal⟩
    have longer := congrArg List.length equal
    have here : (elements (ascii "/srv/payloads")).length = 2 := by decide
    have root : (elements localStore.root).length = 2 := by decide
    have positive := List.length_pos_of_ne_nil more
    rw [List.length_append] at longer
    omega
  · rintro ⟨_, rest, more, equal⟩
    have longer := congrArg List.length equal
    have here : (elements (ascii "/srv")).length = 1 := by decide
    have root : (elements localStore.root).length = 2 := by decide
    rw [List.length_append] at longer
    omega

/-- A key with three dots stays below the root. -/
theorem three_dots_confined :
    path localStore { store := ascii "filesystem", key := ascii "..." } =
      .ok (ascii "/srv/payloads/...") ∧ Below localStore.root (ascii "/srv/payloads/...") := by
  have made : path localStore { store := ascii "filesystem", key := ascii "..." } =
      .ok (ascii "/srv/payloads/...") := by decide
  have confined := (confined_iff localStore (by decide)
    { store := ascii "filesystem", key := ascii "..." }).mpr (by decide)
  exact ⟨made, confined.1 _ made⟩

end Trail.Payload.Filesystem
