/-
**Keyset pages.**

A query that orders rows by a key, returns those strictly after a cursor and looks one row ahead.
`page` cuts what it returned; `follow` takes page after page, the key of the last row of a page being
the cursor of the next. Rows with the same key come in an order of the server's own.

* `afterCursor_drop`: among rows in strict order, those after the last row of a page are the rest.
* `keyset_rest`: what is left after a page.
* `Reads.follow`: following the pages gives every row once exactly when no page ends between two
  rows with the same key.
-/

import Mathlib.Data.List.MinMax
import Mathlib.Data.List.Sort
import Mathlib.Order.Lex
import Trail.Library.Groups

namespace Trail.Library

variable {Row Key : Type} [LinearOrder Key] (key : Row → Key)

/-- `ORDER BY` the key. -/
def orderBy (rows : List Row) : List Row := rows.insertionSort fun first second => key first ≤ key second

/-- The rows strictly after a cursor. -/
def afterCursor (cursor : Option Key) (rows : List Row) : List Row :=
  rows.filter fun row => cursor.all fun key' => decide (key' < key row)

/-- The page made of rows of which one more than its limit was asked for, and whether there are
more. -/
def page (limit : Nat) (fetched : List Row) : List Row × Bool :=
  if limit < fetched.length then (fetched.take limit, true) else (fetched, false)

theorem page_take (limit : Nat) (rows : List Row) :
    page limit (rows.take (limit + 1)) = (rows.take limit, decide (limit < rows.length)) := by
  unfold page
  rw [List.length_take]
  by_cases more : limit < rows.length
  · rw [if_pos (by omega), List.take_take, Nat.min_eq_left (by omega), decide_eq_true more]
  · rw [if_neg (by omega), List.take_of_length_le (by omega), List.take_of_length_le (by omega),
      decide_eq_false more]

section Order

variable {key} {rows : List Row}

theorem orderBy_perm (rows : List Row) : (orderBy key rows).Perm rows := List.perm_insertionSort _ rows

theorem mem_orderBy {row : Row} : row ∈ orderBy key rows ↔ row ∈ rows := (orderBy_perm rows).mem_iff

theorem orderBy_pairwise (rows : List Row) :
    (orderBy key rows).Pairwise fun first second => key first ≤ key second := by
  have total : Std.Total fun first second => key first ≤ key second :=
    ⟨fun first second => le_total _ _⟩
  have trans : IsTrans Row fun first second => key first ≤ key second :=
    ⟨fun _ _ _ first second => le_trans first second⟩
  exact List.pairwise_insertionSort _ rows

theorem isFirst_of_head? {row : Row} (first : (orderBy key rows).head? = some row) :
    IsFirst key rows row := by
  obtain ⟨rest, sorted⟩ := List.head?_eq_some_iff.mp first
  have ordered := sorted ▸ orderBy_pairwise rows
  refine ⟨mem_orderBy.mp (sorted ▸ List.mem_cons_self), fun other member => ?_⟩
  rcases List.mem_cons.mp (sorted ▸ mem_orderBy.mpr member) with same | later
  · rw [same]
  · exact (List.pairwise_cons.mp ordered).1 other later

theorem exists_head?_orderBy (key : Row → Key) (some : rows ≠ []) :
    ∃ row, (orderBy key rows).head? = .some row := by
  refine Option.isSome_iff_exists.mp (List.isSome_head?.mpr fun nothing => some ?_)
  exact List.nil_perm.mp (nothing ▸ orderBy_perm rows)

theorem mem_afterCursor {cursor : Option Key} {row : Row} :
    row ∈ afterCursor key cursor rows ↔ row ∈ rows ∧ ∀ key' ∈ cursor, key' < key row := by
  simp [afterCursor, Option.all_eq_true]

theorem afterCursor_none (rows : List Row) : afterCursor key none rows = rows := by
  simp [afterCursor]

/-- Keys that no two rows share. -/
def Keyed (key : Row → Key) (rows : List Row) : Prop := (rows.map key).Nodup

theorem orderBy_strict (keyed : Keyed key rows) :
    (orderBy key rows).Pairwise fun first second => key first < key second := by
  have nodup : ((orderBy key rows).map key).Nodup := ((orderBy_perm rows).map key).nodup_iff.mpr keyed
  rw [List.Nodup, List.pairwise_map] at nodup
  exact ((orderBy_pairwise rows).and nodup).imp fun both => lt_of_le_of_ne both.1 both.2

theorem eq_of_strict {first second : List Row}
    (left : first.Pairwise fun one two => key one < key two)
    (right : second.Pairwise fun one two => key one < key two) (same : first.Perm second) :
    first = second := by
  exact same.eq_of_pairwise (fun _ _ _ _ one two => absurd one (lt_asymm two)) left right

theorem orderBy_filter (keyed : Keyed key rows) (keep : Row → Bool) :
    orderBy key (rows.filter keep) = (orderBy key rows).filter keep := by
  have fewer : Keyed key (rows.filter keep) := keyed.sublist (List.filter_sublist.map key)
  refine eq_of_strict (orderBy_strict fewer) ((orderBy_strict keyed).sublist List.filter_sublist) ?_
  exact (orderBy_perm _).trans ((orderBy_perm rows).filter keep).symm

/-- **After a page**: among rows in strict order, those after the last row of a page are the rest. -/
theorem afterCursor_drop (strict : rows.Pairwise fun one two => key one < key two) {count : Nat}
    {last : Row} (ends : (rows.take count).getLast? = some last) :
    afterCursor key (some (key last)) rows = rows.drop count := by
  have early : ∀ row ∈ rows.take count, ¬ key last < key row := by
    obtain ⟨before, parts⟩ := List.getLast?_eq_some_iff.mp ends
    have ordered := strict.sublist (List.take_sublist count rows)
    rw [parts] at ordered ⊢
    intro row member
    rcases List.mem_append.mp member with earlier | same
    · exact lt_asymm (List.pairwise_append.mp ordered |>.2.2 row earlier last List.mem_cons_self)
    · rw [List.mem_singleton.mp same]
      exact lt_irrefl _
  have late : ∀ row ∈ rows.drop count, key last < key row := by
    have split := List.take_append_drop count rows ▸ strict
    exact fun row member =>
      (List.pairwise_append.mp split).2.2 last (List.mem_of_getLast? ends) row member
  conv_lhs => rw [← List.take_append_drop count rows]
  unfold afterCursor
  rw [List.filter_append, List.filter_eq_nil_iff.mpr, List.nil_append, List.filter_eq_self.mpr]
  · intro row member
    simpa using late row member
  · intro row member
    simpa using early row member

end Order

/-! ### Directions -/

/-- Keys in the order of a request: the other way round when it is descending. -/
def Directed (_desc : Bool) (Key : Type) := Key

/-- A key in the order of a request. -/
def Directed.of (desc : Bool) {Key : Type} (key : Key) : Directed desc Key := key

instance (desc : Bool) {Key : Type} [order : LinearOrder Key] : LinearOrder (Directed desc Key) :=
  match desc with
  | true => (OrderDual.instLinearOrder Key : LinearOrder Keyᵒᵈ)
  | false => order

theorem Directed.lt_iff {desc : Bool} {Key : Type} [LinearOrder Key] {first second : Key} :
    Directed.of desc first < Directed.of desc second ↔
      if desc then second < first else first < second := by
  cases desc <;> rfl

/-! ### Pages one after another -/

/-- The order in which a server returns rows that no clause orders: any, and another one for other
rows. -/
structure RowOrder where
  arrange : {Row : Type} → List Row → List Row
  perm : ∀ {Row : Type} (rows : List Row), (arrange rows).Perm rows

/-- The order in which rows are given. -/
def RowOrder.given : RowOrder := ⟨id, fun _ => List.Perm.refl _⟩

theorem RowOrder.arrange_singleton (order : RowOrder) {Row : Type} (row : Row) :
    order.arrange [row] = [row] :=
  List.perm_singleton.mp (order.perm [row])

theorem RowOrder.mem_of_head? (order : RowOrder) {Row : Type} {rows : List Row} {row : Row}
    (first : (order.arrange rows).head? = some row) : row ∈ rows :=
  (order.perm rows).mem_iff.mp (List.mem_of_mem_head? first)

theorem RowOrder.eq_nil_of_head? (order : RowOrder) {Row : Type} {rows : List Row}
    (none : (order.arrange rows).head? = none) : rows = [] :=
  List.nil_perm.mp (List.head?_eq_none_iff.mp none ▸ order.perm rows)

/-- The rows after a cursor, in order. -/
def keyset (order : RowOrder) (cursor : Option Key) (rows : List Row) : List Row :=
  orderBy key (order.arrange (afterCursor key cursor rows))

/-- Page after page, until there are no more. -/
def follow {Cursor Row Error : Type} (read : Cursor → Except Error (List Row × Option Cursor)) :
    Nat → Cursor → Except Error (Option (List (List Row)))
  | 0, _ => .ok none
  | fuel + 1, cursor =>
    match read cursor with
    | .error error => .error error
    | .ok (items, none) => .ok (some [items])
    | .ok (items, some next) =>
      match follow read fuel next with
      | .error error => .error error
      | .ok pages => .ok (pages.map (items :: ·))

/-- **Readers whose pages show the same** show the same when they are followed. -/
theorem follow_congr {Cursor Row Other Error Value : Type}
    {read : Cursor → Except Error (List Row × Option Cursor)}
    {other : Cursor → Except Error (List Other × Option Cursor)} {value : Row → Value}
    {value' : Other → Value}
    (same : ∀ cursor, ∃ items items' next, read cursor = .ok (items, next) ∧
      other cursor = .ok (items', next) ∧ items'.map value' = items.map value) (fuel : Nat) :
    ∀ cursor pages, follow read fuel cursor = .ok (some pages) →
      ∃ pages', follow other fuel cursor = .ok (some pages') ∧
        pages'.flatten.map value' = pages.flatten.map value := by
  induction fuel with
  | zero => exact fun _ _ done => absurd (Except.ok.inj done) (Option.some_ne_none _).symm
  | succ fuel ih =>
    intro cursor pages done
    obtain ⟨items, items', next, one, two, values⟩ := same cursor
    unfold follow at done ⊢
    rw [one] at done
    rw [two]
    cases next with
    | none =>
      cases done
      refine ⟨[items'], rfl, ?_⟩
      rw [List.flatten_singleton, List.flatten_singleton, values]
    | some next =>
      dsimp only at done ⊢
      cases rest : follow read fuel next with
      | error error =>
        rw [rest] at done
        cases done
      | ok later =>
        rw [rest] at done
        obtain ⟨after, found, rfl⟩ := Option.map_eq_some_iff.mp (Except.ok.inj done)
        obtain ⟨after', followed, shown⟩ := ih next after (rest.trans (congrArg _ found))
        rw [followed]
        refine ⟨items' :: after', rfl, ?_⟩
        rw [List.flatten_cons, List.flatten_cons, List.map_append, List.map_append, values, shown]

/-- No page of so many rows ends between two rows with the same key. -/
def Apart {Key : Type} (limit : Nat) (keys : List Key) : Prop :=
  ∀ m k, keys[(m + 1) * limit - 1]? = some k → keys[(m + 1) * limit]? ≠ some k

section Keyset

variable {key} {order : RowOrder} {limit : Nat} {rows : List Row} {cursor : Option Key}

theorem keyset_perm : (keyset key order cursor rows).Perm (afterCursor key cursor rows) :=
  (orderBy_perm _).trans (order.perm _)

theorem take_keyset_ne_nil {size : Nat} (positive : 0 < size) (some : rows ≠ []) :
    (keyset key order none rows).take size ≠ [] := by
  intro empty
  rcases List.take_eq_nil_iff.mp empty with none | nothing
  · exact absurd none (Nat.ne_of_gt positive)
  · have all : (afterCursor key none rows).Perm [] := nothing ▸ keyset_perm.symm
    rw [afterCursor_none] at all
    exact some all.eq_nil

theorem keyset_pairwise :
    (keyset key order cursor rows).Pairwise fun first second => key first ≤ key second :=
  orderBy_pairwise _

/-- **What holds of a page holds of all rows behind it**, when it holds of every row after one of which
it holds. -/
theorem forall_take_keyset {size : Nat} (positive : 0 < size) {good : Row → Prop}
    (up : ∀ one two, key one ≤ key two → good one → good two) :
    (∀ row ∈ (keyset key order cursor rows).take size, good row) ↔
      ∀ row ∈ afterCursor key cursor rows, good row := by
  have all : (∀ row ∈ afterCursor key cursor rows, good row) ↔
      ∀ row ∈ keyset key order cursor rows, good row :=
    forall_congr' fun row => imp_congr_left keyset_perm.mem_iff.symm
  rw [all]
  constructor
  · intro page row member
    obtain ⟨first, rest, sorted⟩ := List.exists_cons_of_ne_nil (List.ne_nil_of_mem member)
    have ordered := sorted ▸ @keyset_pairwise _ _ _ key order rows cursor
    obtain ⟨size, rfl⟩ := Nat.exists_eq_succ_of_ne_zero (Nat.ne_of_gt positive)
    rw [sorted] at page member
    have begins : good first := page first (by rw [List.take_succ_cons]; exact List.mem_cons_self)
    rcases List.mem_cons.mp member with rfl | later
    · exact begins
    · exact up first row ((List.pairwise_cons.mp ordered).1 row later) begins
  · intro every row member
    exact every row (List.mem_of_mem_take member)

theorem keys_eq {first second : List Row}
    (left : first.Pairwise fun one two => key one ≤ key two)
    (right : second.Pairwise fun one two => key one ≤ key two) (same : first.Perm second) :
    first.map key = second.map key := by
  refine (same.map key).eq_of_pairwise (fun _ _ _ _ one two => le_antisymm one two) ?_ ?_
  · exact List.pairwise_map.mpr left
  · exact List.pairwise_map.mpr right

theorem le_last {last row : Row}
    (ends : ((keyset key order cursor rows).take limit).getLast? = some last)
    (member : row ∈ (keyset key order cursor rows).take limit) : key row ≤ key last := by
  obtain ⟨before, parts⟩ := List.getLast?_eq_some_iff.mp ends
  have ordered : (before ++ [last]).Pairwise fun first second => key first ≤ key second :=
    parts ▸ keyset_pairwise.sublist (List.take_sublist _ _)
  rw [parts] at member
  rcases List.mem_append.mp member with earlier | same
  · exact (List.pairwise_append.mp ordered).2.2 row earlier last List.mem_cons_self
  · rw [List.mem_singleton.mp same]

theorem mem_take_or_after {last row : Row}
    (ends : ((keyset key order cursor rows).take limit).getLast? = some last)
    (member : row ∈ keyset key order cursor rows) :
    row ∈ (keyset key order cursor rows).take limit ∨ key last ≤ key row := by
  have ordered : (keyset key order cursor rows).Pairwise fun first second => key first ≤ key second :=
    keyset_pairwise
  rw [← List.take_append_drop limit (keyset key order cursor rows)] at member ordered
  rcases List.mem_append.mp member with first | second
  · exact .inl first
  · exact .inr ((List.pairwise_append.mp ordered).2.2 last (List.mem_of_getLast? ends) row second)

/-- **What is left after a page**: the rows after its last one, those with the same key apart. -/
theorem keyset_rest {last : Row}
    (ends : ((keyset key order cursor rows).take limit).getLast? = some last) :
    (afterCursor key (some (key last)) rows).Perm
      (((keyset key order cursor rows).drop limit).filter fun row => decide (key last < key row)) := by
  have member : last ∈ afterCursor key cursor rows :=
    keyset_perm.mem_iff.mp (List.mem_of_mem_take (List.mem_of_getLast? ends))
  have further : afterCursor key (some (key last)) rows =
      (afterCursor key cursor rows).filter fun row => decide (key last < key row) := by
    unfold afterCursor
    rw [List.filter_filter]
    refine List.filter_congr fun row _ => ?_
    by_cases less : key last < key row
    · have after : (cursor.all fun key' => decide (key' < key row)) = true := by
        rw [Option.all_eq_true]
        exact fun key' here => decide_eq_true (lt_trans ((mem_afterCursor.mp member).2 key' here) less)
      simp [less, after]
    · simp [less]
  have early : ((keyset key order cursor rows).take limit).filter
      (fun row => decide (key last < key row)) = [] := by
    rw [List.filter_eq_nil_iff]
    intro row here
    simpa using le_last ends here
  have whole : (keyset key order cursor rows).Perm (afterCursor key cursor rows) := keyset_perm
  rw [further]
  refine (whole.filter _).symm.trans ?_
  conv_lhs => rw [← List.take_append_drop limit (keyset key order cursor rows)]
  rw [List.filter_append, early, List.nil_append]

theorem keyset_rest_of_ne {last row : Row} {rest : List Row}
    (ends : ((keyset key order cursor rows).take limit).getLast? = some last)
    (next : (keyset key order cursor rows).drop limit = row :: rest) (differ : key last ≠ key row) :
    (afterCursor key (some (key last)) rows).Perm ((keyset key order cursor rows).drop limit) := by
  refine (keyset_rest ends).trans ?_
  rw [List.filter_eq_self.mpr]
  have ordered : ((keyset key order cursor rows).take limit ++
      (keyset key order cursor rows).drop limit).Pairwise fun one two => key one ≤ key two := by
    rw [List.take_append_drop]
    exact keyset_pairwise
  obtain ⟨_, later, across⟩ := List.pairwise_append.mp ordered
  have first : key last < key row := by
    refine lt_of_le_of_ne (across last (List.mem_of_getLast? ends) row ?_) differ
    rw [next]
    exact List.mem_cons_self
  intro other member
  rw [next] at later member
  rcases List.mem_cons.mp member with same | far
  · rw [same]
    exact decide_eq_true first
  · exact decide_eq_true (lt_of_lt_of_le first (List.rel_of_pairwise_cons later far))

theorem getElem?_last {items : List Row} {last : Row} (positive : 0 < limit)
    (more : limit < items.length) (ends : (items.take limit).getLast? = some last) :
    items[limit - 1]? = some last := by
  have known : items[limit - 1]? = some (items.get ⟨limit - 1, by omega⟩) :=
    List.getElem?_eq_getElem _
  rw [List.getLast?_take, if_neg (Nat.pos_iff_ne_zero.mp positive), known] at ends
  rw [known, ← ends]
  rfl

omit [LinearOrder Key] in
theorem apart_of_short {keys : List Key} (short : keys.length ≤ limit) : Apart limit keys := by
  intro m k _ there
  have beyond : keys.length ≤ (m + 1) * limit :=
    le_trans short (Nat.le_mul_of_pos_left limit (Nat.succ_pos m))
  rw [List.getElem?_eq_none beyond] at there
  cases there

omit [LinearOrder Key] in
theorem apart_of_nodup {keys : List Key} (positive : 0 < limit) (distinct : keys.Nodup) :
    Apart limit keys := by
  intro m k here there
  have enough : 0 < (m + 1) * limit := Nat.mul_pos (Nat.succ_pos m) positive
  obtain ⟨inside, _⟩ := List.getElem?_eq_some_iff.mp there
  exact List.nodup_iff_getElem?_ne_getElem?.mp distinct _ _ (Nat.sub_lt enough Nat.one_pos) inside
    (here.trans there.symm)

omit [LinearOrder Key] in
/-- Rows behind a page make up the rest exactly when they make up the whole with it. -/
theorem perm_page {sorted whole other : List Row} (same : sorted.Perm whole) :
    (sorted.take limit ++ other).Perm whole ↔ other.Perm (sorted.drop limit) := by
  have parts : (sorted.take limit ++ sorted.drop limit).Perm whole := by
    rw [List.take_append_drop]
    exact same
  exact ⟨fun all => (List.perm_append_left_iff _).mp (all.trans parts.symm),
    fun all => ((List.perm_append_left_iff _).mpr all).trans parts⟩

omit [LinearOrder Key] in
theorem apart_drop {keys : List Key} {last next : Key} (positive : 0 < limit)
    (here : keys[limit - 1]? = some last) (there : keys[limit]? = some next) (differ : last ≠ next) :
    Apart limit keys ↔ Apart limit (keys.drop limit) := by
  have shift : ∀ m, (m + 1 + 1) * limit - 1 = limit + ((m + 1) * limit - 1) := by
    intro m
    have enough : 0 < (m + 1) * limit := Nat.mul_pos (Nat.succ_pos m) positive
    rw [Nat.succ_mul (m + 1) limit]
    omega
  have shift' : ∀ m, (m + 1 + 1) * limit = limit + (m + 1) * limit := by
    intro m
    rw [Nat.succ_mul (m + 1) limit, Nat.add_comm]
  unfold Apart
  constructor
  · intro apart m k one two
    rw [List.getElem?_drop, ← shift] at one
    rw [List.getElem?_drop, ← shift'] at two
    exact apart (m + 1) k one two
  · intro apart m k one two
    cases m with
    | zero =>
      rw [Nat.zero_add, Nat.one_mul] at one two
      rw [here] at one
      rw [there] at two
      exact differ ((Option.some.inj one).trans (Option.some.inj two).symm)
    | succ m =>
      rw [shift, ← List.getElem?_drop] at one
      rw [shift', ← List.getElem?_drop] at two
      exact apart m k one two

end Keyset

/-! ### Rows with the same key -/

section Twice

variable {key} {rows : List Row}

theorem first_two {sorted : List Row} {least : Key}
    (ordered : sorted.Pairwise fun first second => key first ≤ key second)
    (lower : ∀ row ∈ sorted, least ≤ key row)
    (twice : 2 ≤ (sorted.filter fun row => key row = least).length) :
    ∃ first second rest, sorted = first :: second :: rest ∧ key first = least ∧ key second = least := by
  have head : ∀ {list : List Row}, (list.Pairwise fun one two => key one ≤ key two) →
      (∀ row ∈ list, least ≤ key row) → 0 < (list.filter fun row => key row = least).length →
      ∃ first rest, list = first :: rest ∧ key first = least := by
    intro list sorted bounded some
    obtain ⟨row, member⟩ := List.exists_mem_of_length_pos some
    obtain ⟨inside, same⟩ := List.mem_filter.mp member
    cases list with
    | nil => cases inside
    | cons first rest =>
      refine ⟨first, rest, rfl, le_antisymm ?_ (bounded first List.mem_cons_self)⟩
      rw [← of_decide_eq_true same]
      rcases List.mem_cons.mp inside with rfl | later
      · exact le_rfl
      · exact List.rel_of_pairwise_cons sorted later
  obtain ⟨first, behind, rfl, one⟩ := head ordered lower (by omega)
  rw [List.filter_cons_of_pos (by simpa using one), List.length_cons] at twice
  obtain ⟨second, rest, rfl, two⟩ := head (List.Pairwise.of_cons ordered)
    (fun row member => lower row (List.mem_cons_of_mem _ member)) (by omega)
  exact ⟨first, second, rest, rfl, one, two⟩

theorem exists_before (least : Key) : ∃ cursor : Option Key,
    (∀ place ∈ cursor, ∃ row ∈ rows, place = key row) ∧ (∀ place ∈ cursor, place < least) ∧
      ∀ row ∈ rows, (∀ place ∈ cursor, place < key row) → least ≤ key row := by
  cases greatest : (rows.filter fun row => key row < least).argmax key with
  | none =>
    rw [List.argmax_eq_none, List.filter_eq_nil_iff] at greatest
    refine ⟨none, fun _ here => absurd here (Option.not_mem_none _),
      fun _ here => absurd here (Option.not_mem_none _), fun row member _ => ?_⟩
    exact le_of_not_gt fun less => greatest row member (decide_eq_true less)
  | some last =>
    obtain ⟨inside, less⟩ := List.mem_filter.mp (List.argmax_mem greatest)
    refine ⟨some (key last), fun place here => ⟨last, inside, ?_⟩, fun place here => ?_, ?_⟩
    · exact (Option.mem_some_iff.mp here).symm
    · rw [← Option.mem_some_iff.mp here]
      exact of_decide_eq_true less
    · intro row here beyond
      refine le_of_not_gt fun earlier => ?_
      have most := List.le_of_mem_argmax
        (List.mem_filter.mpr ⟨here, decide_eq_true earlier⟩) greatest
      exact absurd (beyond (key last) rfl) (not_lt_of_ge most)

/-- **Rows that share a key are together on a page**: from the start, or from the row before them. -/
theorem exists_twice (shared : ¬ (rows.map key).Nodup) :
    ∃ cursor : Option Key, (∀ place ∈ cursor, ∃ row ∈ rows, place = key row) ∧
      ∀ order, ∃ first second rest,
        keyset key order cursor rows = first :: second :: rest ∧ key first = key second := by
  obtain ⟨least, twice⟩ : ∃ least, 2 ≤ (rows.filter fun row => key row = least).length := by
    rw [List.nodup_iff_count_le_one, not_forall] at shared
    obtain ⟨least, more⟩ := shared
    refine ⟨least, ?_⟩
    rw [List.count, List.countP_map, List.countP_eq_length_filter] at more
    exact Nat.lt_of_not_le more
  obtain ⟨cursor, place, before, after⟩ := @exists_before _ _ _ key rows least
  refine ⟨cursor, place, fun order => ?_⟩
  have whole : (keyset key order cursor rows).Perm (afterCursor key cursor rows) := keyset_perm
  have kept : (afterCursor key cursor rows).filter (fun row => key row = least) =
      rows.filter fun row => key row = least := by
    unfold afterCursor
    rw [List.filter_filter]
    refine List.filter_congr fun row _ => ?_
    by_cases same : key row = least
    · have passes : (cursor.all fun place => decide (place < key row)) = true := by
        rw [Option.all_eq_true]
        exact fun place here => decide_eq_true (same ▸ before place here)
      rw [passes, Bool.and_true]
    · rw [decide_eq_false same, Bool.false_and]
  have lower : ∀ row ∈ keyset key order cursor rows, least ≤ key row := by
    intro row member
    obtain ⟨inside, beyond⟩ := mem_afterCursor.mp (whole.mem_iff.mp member)
    exact after row inside beyond
  have two : 2 ≤ ((keyset key order cursor rows).filter fun row => key row = least).length := by
    rw [(whole.filter _).length_eq, kept]
    exact twice
  obtain ⟨first, second, rest, parts, one, other⟩ := first_two keyset_pairwise lower two
  exact ⟨first, second, rest, parts, one.trans other.symm⟩

end Twice

/-! ### Following the pages -/

section Follow

variable {key} {Cursor Error : Type} {limit : Nat} {rows : List Row} {position : Cursor → Option Key}
  {cursorOf : Row → Cursor} {valid : Cursor → Prop}
  {read : Cursor → Except Error (List Row × Option Cursor)}

/-- A reader of pages: a cursor stands for a position, and the cursor of the next page for the last row
of this one. The server may return rows with the same key in another order for each page. -/
structure Reads (key : Row → Key) (limit : Nat) (rows : List Row)
    (read : Cursor → Except Error (List Row × Option Cursor)) (position : Cursor → Option Key)
    (cursorOf : Row → Cursor) (valid : Cursor → Prop) : Prop where
  page : ∀ cursor, valid cursor → ∃ order : RowOrder,
    let sorted := keyset key order (position cursor) rows
    read cursor = .ok (sorted.take limit,
      if limit < (afterCursor key (position cursor) rows).length then
        (sorted.take limit).getLast?.map cursorOf else none)
  next : ∀ row ∈ rows, valid (cursorOf row) ∧ position (cursorOf row) = some (key row)

/-- The keys of the rows after a cursor, in order. -/
def keysAfter (key : Row → Key) (cursor : Option Key) (rows : List Row) : List Key :=
  (orderBy key (afterCursor key cursor rows)).map key

theorem keyset_keys (order : RowOrder) (cursor : Option Key) :
    (keyset key order cursor rows).map key = keysAfter key cursor rows :=
  keys_eq keyset_pairwise (orderBy_pairwise _) (keyset_perm.trans (orderBy_perm _).symm)

theorem keysAfter_nodup (distinct : (rows.map key).Nodup) (cursor : Option Key) :
    (keysAfter key cursor rows).Nodup :=
  ((orderBy_perm _).map key).nodup_iff.mpr (distinct.sublist (List.filter_sublist.map key))

theorem keyset_split (order : RowOrder) {cursor : Option Key} (positive : 0 < limit)
    (more : limit < (afterCursor key cursor rows).length) :
    ∃ last row rest, ((keyset key order cursor rows).take limit).getLast? = some last ∧
      (keyset key order cursor rows).drop limit = row :: rest ∧
      (keysAfter key cursor rows)[limit - 1]? = some (key last) ∧
      (keysAfter key cursor rows)[limit]? = some (key row) := by
  have whole : (keyset key order cursor rows).length = (afterCursor key cursor rows).length :=
    keyset_perm.length_eq
  obtain ⟨last, ends⟩ : ∃ last, ((keyset key order cursor rows).take limit).getLast? = some last := by
    refine Option.isSome_iff_exists.mp (List.getLast?_isSome.mpr fun none => ?_)
    have length := congrArg List.length none
    rw [List.length_take, whole, List.length_nil] at length
    omega
  obtain ⟨row, rest, next⟩ : ∃ row rest, (keyset key order cursor rows).drop limit = row :: rest := by
    refine List.exists_cons_of_ne_nil fun none => ?_
    have length := congrArg List.length none
    rw [List.length_drop, whole, List.length_nil] at length
    omega
  refine ⟨last, row, rest, ends, next, ?_, ?_⟩
  · rw [← keyset_keys order cursor, List.getElem?_map,
      getElem?_last positive (whole ▸ more) ends]
    rfl
  · have first := @List.getElem?_drop _ (keyset key order cursor rows) limit 0
    rw [next, Nat.add_zero] at first
    rw [← keyset_keys order cursor, List.getElem?_map, ← first]
    rfl

/-- **Following the pages.** They have rows after the cursor only, in order, and every key of these rows;
they have each row once exactly when no page ends between two rows with the same key. -/
theorem Reads.follow (reads : Reads key limit rows read position cursorOf valid)
    (positive : 0 < limit) (fuel : Nat) :
    ∀ cursor, valid cursor → (afterCursor key (position cursor) rows).length < fuel →
      ∃ pages : List (List Row),
        Library.follow read fuel cursor = .ok (some pages) ∧
        pages.flatten.Pairwise (fun first second => key first ≤ key second) ∧
        (∀ row ∈ pages.flatten, row ∈ afterCursor key (position cursor) rows) ∧
        (∀ row ∈ afterCursor key (position cursor) rows, ∃ shown ∈ pages.flatten,
          key shown = key row) ∧
        (pages.flatten.Perm (afterCursor key (position cursor) rows) ↔
          Apart limit (keysAfter key (position cursor) rows)) := by
  induction fuel with
  | zero => exact fun cursor _ none => absurd none (Nat.not_lt_zero _)
  | succ fuel ih =>
    intro cursor good enough
    obtain ⟨order, answered⟩ := reads.page cursor good
    have whole : (keyset key order (position cursor) rows).Perm
      (afterCursor key (position cursor) rows) := keyset_perm
    have sorted : (keyset key order (position cursor) rows).Pairwise
      fun first second => key first ≤ key second := keyset_pairwise
    unfold Library.follow
    rw [answered]
    by_cases more : limit < (afterCursor key (position cursor) rows).length
    · obtain ⟨last, row, rest, ends, next, here, there⟩ := keyset_split order positive more
      have inside : last ∈ rows := (mem_afterCursor.mp
        (whole.mem_iff.mp (List.mem_of_mem_take (List.mem_of_getLast? ends)))).1
      obtain ⟨goes, place⟩ := reads.next last inside
      have fewer : (afterCursor key (position (cursorOf last)) rows).length < fuel := by
        have length := (keyset_rest ends).length_eq
        have most := List.length_filter_le (fun row => decide (key last < key row))
          ((keyset key order (position cursor) rows).drop limit)
        rw [List.length_drop, whole.length_eq] at most
        rw [place]
        omega
      obtain ⟨pages, followed, ordered, beyond, reached, once⟩ := ih (cursorOf last) goes fewer
      rw [place] at beyond reached once
      have later : ∀ row ∈ pages.flatten, key last < key row := fun row member =>
        (mem_afterCursor.mp (beyond row member)).2 (key last) rfl
      rw [if_pos more, ends]
      dsimp only [Option.map_some]
      rw [followed]
      refine ⟨(keyset key order (position cursor) rows).take limit :: pages, rfl, ?_, ?_, ?_, ?_⟩
      · rw [List.flatten_cons, List.pairwise_append]
        refine ⟨sorted.sublist (List.take_sublist _ _), ordered, fun one first two second => ?_⟩
        exact le_trans (le_last ends first) (le_of_lt (later two second))
      · intro other member
        rw [List.flatten_cons] at member
        rcases List.mem_append.mp member with first | second
        · exact whole.mem_iff.mp (List.mem_of_mem_take first)
        · have left := (keyset_rest ends).mem_iff.mp (beyond other second)
          exact whole.mem_iff.mp (List.mem_of_mem_drop (List.mem_filter.mp left).1)
      · intro row member
        have page := List.mem_of_getLast? ends
        rcases eq_or_ne (key last) (key row) with same | differ
        · exact ⟨last, List.mem_append_left _ page, same⟩
        · rcases mem_take_or_after ends (whole.mem_iff.mpr member) with first | after
          · exact ⟨row, List.mem_append_left _ first, rfl⟩
          · have later : row ∈ afterCursor key (some (key last)) rows := by
              refine mem_afterCursor.mpr ⟨(mem_afterCursor.mp member).1, fun place here => ?_⟩
              cases here
              exact lt_of_le_of_ne after differ
            obtain ⟨shown, here, same⟩ := reached row later
            exact ⟨shown, List.mem_append_right _ here, same⟩
      · rw [List.flatten_cons, perm_page whole]
        by_cases same : key last = key row
        · refine iff_of_false (fun all => ?_) fun apart => ?_
          · have member : row ∈ pages.flatten := all.mem_iff.mpr (next ▸ List.mem_cons_self)
            exact absurd same (ne_of_lt (later row member))
          · refine apart 0 (key last) ?_ ?_
            · rw [Nat.zero_add, Nat.one_mul, here]
            · rw [Nat.zero_add, Nat.one_mul, there, same]
        · have rest := keyset_rest_of_ne ends next same
          have keys : keysAfter key (some (key last)) rows =
              (keysAfter key (position cursor) rows).drop limit := by
            rw [← keyset_keys order (position cursor), ← List.map_drop]
            exact keys_eq (orderBy_pairwise _) (sorted.sublist (List.drop_sublist _ _))
              ((orderBy_perm _).trans rest)
          rw [apart_drop positive here there same, ← keys, ← once]
          exact ⟨fun all => all.trans rest.symm, fun all => all.trans rest⟩
    · have all : (keyset key order (position cursor) rows).take limit =
          keyset key order (position cursor) rows :=
        List.take_of_length_le (by rw [whole.length_eq]; omega)
      rw [if_neg more, all]
      refine ⟨[keyset key order (position cursor) rows], rfl, ?_, ?_, ?_, ?_⟩
      · simpa using sorted
      · intro row member
        exact whole.mem_iff.mp (by simpa using member)
      · intro row member
        exact ⟨row, by simpa using whole.mem_iff.mpr member, rfl⟩
      · refine iff_of_true (by simpa using whole) (apart_of_short ?_)
        rw [keysAfter, List.length_map, (orderBy_perm _).length_eq]
        omega

end Follow

end Trail.Library
