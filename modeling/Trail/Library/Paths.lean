/-
**Slash-separated paths, without a file system.**

`clean` is the shortest name of a path as the package `path/filepath` documents it for Unix: empty and
`.` elements are dropped, a `..` takes back the element before it, and at the root it takes back nothing.
The elements that are left say where a path leads from the root when no element is a link.

* `elements_clean`: a cleaned path leads where the path does.
* `elements_join`: one more element, below a root.
-/

import Mathlib.Data.List.Basic

namespace Trail.Library.Paths

/-- An element of a path. -/
abbrev Name := List UInt8

/-- The separator `/`, the name `.` and the name `..`. -/
def separator : UInt8 := 47
def dot : Name := [46]
def dotDot : Name := [46, 46]

/-- A path from the root. -/
def isAbs (path : List UInt8) : Bool := path.head? = some separator

/-- One more element of a path. -/
def push (rooted : Bool) (done : List Name) (name : Name) : List Name :=
  if name = [] ∨ name = dot then done
  else if name = dotDot then
    match done.getLast? with
    | some last => if last = dotDot then done ++ [dotDot] else done.dropLast
    | none => if rooted then [] else [dotDot]
  else done ++ [name]

/-- The elements of a path that are left. -/
def elements (path : List UInt8) : List Name :=
  (path.splitOn separator).foldl (push (isAbs path)) []

/-- `filepath.Clean`. -/
def clean (path : List UInt8) : List UInt8 :=
  let body := [separator].intercalate (elements path)
  if isAbs path then separator :: body else if body = [] then dot else body

/-- `filepath.Base`. -/
def base (path : List UInt8) : List UInt8 :=
  if path = [] then dot
  else
    let trimmed := (path.reverse.dropWhile (· = separator)).reverse
    if trimmed = [] then [separator] else ((trimmed.splitOn separator).getLast?).getD []

/-- `filepath.Join`. -/
def join (names : List (List UInt8)) : List UInt8 :=
  match names.dropWhile (· = []) with
  | [] => []
  | names => clean ([separator].intercalate names)

/-! ### Plain elements -/

/-- A name that stays an element. -/
structure Plain (name : Name) : Prop where
  named : name ≠ []
  whole : separator ∉ name
  stays : name ≠ dot ∧ name ≠ dotDot

theorem push_plain {name : Name} (plain : Plain name) (rooted : Bool) (done : List Name) :
    push rooted done name = done ++ [name] := by
  unfold push
  rw [if_neg (by simp [plain.named, plain.stays.1]), if_neg plain.stays.2]

theorem push_dot (rooted : Bool) (done : List Name) : push rooted done dot = done := if_pos (.inr rfl)

theorem push_dotDot {done : List Name} (plain : ∀ name ∈ done, Plain name) :
    push true done dotDot = done.dropLast := by
  unfold push
  rw [if_neg (by decide), if_pos rfl]
  split
  · rename_i last ends
    exact if_neg (plain last (List.mem_of_getLast? ends)).stays.2
  · rename_i none
    rw [List.getLast?_eq_none_iff.mp none]
    rfl

theorem plain_push {done : List Name} (plain : ∀ name ∈ done, Plain name) {name : Name}
    (whole : separator ∉ name) : ∀ other ∈ push true done name, Plain other := by
  intro other member
  unfold push at member
  split at member
  · exact plain other member
  · rename_i named
    split at member
    · split at member
      · rename_i last ends
        rw [if_neg (plain last (List.mem_of_getLast? ends)).stays.2] at member
        exact plain other (List.dropLast_subset _ member)
      · exact absurd member List.not_mem_nil
    · rename_i stays
      rcases List.mem_append.mp member with old | new
      · exact plain other old
      · rw [List.mem_singleton.mp new]
        exact ⟨fun empty => named (.inl empty), whole, fun one => named (.inr one), stays⟩

theorem plain_foldl {names : List Name} (whole : ∀ name ∈ names, separator ∉ name) {done : List Name}
    (plain : ∀ name ∈ done, Plain name) : ∀ name ∈ names.foldl (push true) done, Plain name := by
  induction names generalizing done with
  | nil => exact plain
  | cons name names ih =>
    obtain ⟨first, rest⟩ := List.forall_mem_cons.mp whole
    exact ih rest (plain_push plain first)

theorem foldl_plain {names : List Name} (plain : ∀ name ∈ names, Plain name) (rooted : Bool)
    (done : List Name) : names.foldl (push rooted) done = done ++ names := by
  induction names generalizing done with
  | nil => rw [List.append_nil]; rfl
  | cons name names ih =>
    obtain ⟨first, rest⟩ := List.forall_mem_cons.mp plain
    rw [List.foldl_cons, push_plain first, ih rest, List.append_assoc, List.singleton_append]

theorem not_mem_splitOn (path : List UInt8) : ∀ name ∈ path.splitOn separator, separator ∉ name := by
  induction path with
  | nil =>
    intro name member
    rw [List.splitOn_nil, List.mem_singleton] at member
    rw [member]
    exact List.not_mem_nil
  | cons byte path ih =>
    intro name member
    unfold List.splitOn at member ih
    rw [List.splitOnP_cons_eq_if_modifyHead] at member
    by_cases ends : byte = separator
    · rw [if_pos (by simp [ends])] at member
      rcases List.mem_cons.mp member with rfl | later
      · exact List.not_mem_nil
      · exact ih name later
    · rw [if_neg (by simpa using ends)] at member
      obtain ⟨first, rest, split⟩ := List.exists_cons_of_ne_nil
        (List.splitOnP_ne_nil (fun x => x == separator) path)
      rw [split] at member ih
      rcases List.mem_cons.mp member with rfl | later
      · intro found
        rcases List.mem_cons.mp found with same | inside
        · exact ends same.symm
        · exact ih first List.mem_cons_self inside
      · exact ih name (List.mem_cons_of_mem _ later)

/-- **The elements of a path from the root are plain.** -/
theorem plain_elements {path : List UInt8} (absolute : isAbs path = true) :
    ∀ name ∈ elements path, Plain name := by
  unfold elements
  rw [absolute]
  exact plain_foldl (not_mem_splitOn path) (by simp)

/-! ### Cleaned and joined paths -/

theorem splitOn_append (first second : List UInt8) :
    (first ++ separator :: second).splitOn separator =
      first.splitOn separator ++ second.splitOn separator :=
  List.splitOnP_append_cons first second (by simp)

/-- **A cleaned path leads where the path does.** -/
theorem elements_clean {path : List UInt8} (absolute : isAbs path = true) :
    isAbs (clean path) = true ∧ elements (clean path) = elements path := by
  have cleaned : clean path = separator :: [separator].intercalate (elements path) := if_pos absolute
  rw [cleaned]
  refine ⟨rfl, ?_⟩
  have split := splitOn_append [] ([separator].intercalate (elements path))
  have rooted : isAbs (separator :: [separator].intercalate (elements path)) = true := rfl
  rw [List.nil_append, List.splitOn_nil, List.singleton_append] at split
  show ((separator :: [separator].intercalate (elements path)).splitOn separator).foldl
    (push (isAbs (separator :: [separator].intercalate (elements path)))) [] = elements path
  rw [split, rooted, List.foldl_cons]
  have plain := plain_elements absolute
  by_cases none : elements path = []
  · rw [none]
    rfl
  · rw [List.splitOn_intercalate separator (fun name member => (plain name member).whole) none]
    exact foldl_plain plain true []

/-- **One more element of a path from the root.** -/
theorem elements_join {root : List UInt8} (absolute : isAbs root = true) {name : Name}
    (whole : separator ∉ name) :
    isAbs (join [root, name]) = true ∧ elements (join [root, name]) = push true (elements root) name := by
  have some : root ≠ [] := by
    rintro rfl
    cases absolute
  have joined : join [root, name] = clean (root ++ separator :: name) := by
    unfold join
    rw [List.dropWhile_cons_of_neg (by simpa using some)]
    simp [List.intercalate]
  have rooted : isAbs (root ++ separator :: name) = true := by
    unfold isAbs at absolute ⊢
    obtain ⟨byte, rest, rfl⟩ := List.exists_cons_of_ne_nil some
    exact absolute
  rw [joined]
  obtain ⟨still, same⟩ := elements_clean rooted
  refine ⟨still, same.trans ?_⟩
  unfold elements
  rw [splitOn_append, List.splitOn_eq_singleton whole, List.foldl_append, rooted, absolute]
  rfl

theorem base_of_whole {name : Name} (named : name ≠ []) (whole : separator ∉ name) :
    base name = name := by
  have kept : (name.reverse.dropWhile fun byte => byte = separator).reverse = name := by
    obtain ⟨byte, rest, backwards⟩ := List.exists_cons_of_ne_nil (List.reverse_ne_nil_iff.mpr named)
    have kept : byte ≠ separator := by
      rintro rfl
      exact whole (List.mem_reverse.mp (backwards ▸ List.mem_cons_self))
    rw [backwards, List.dropWhile_cons_of_neg (by simpa using kept), ← backwards, List.reverse_reverse]
  unfold base
  rw [if_neg named]
  dsimp only
  rw [kept, if_neg named, List.splitOn_eq_singleton whole]
  rfl

end Trail.Library.Paths
