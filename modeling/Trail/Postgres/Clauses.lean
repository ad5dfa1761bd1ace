/-
**The clauses of the grouped statements.**

`ListFlows` and `ListExecutions` append the conditions, the grouping, a `HAVING` for the status, a
`HAVING` for the cursor, the order and the limit. Neither of the two that append a `HAVING` knows of
the other.

* `conditions_yield`: the conditions start no clause of their own.
* `grouped_clauses`: which clauses a grouped statement has.
* `grouped_statements_iff`: when it has at most one of each.
-/

import Trail.Postgres.Queries

namespace Trail.Postgres

open Library Storage

/-! ### Texts with placeholders -/

theorem isWord_decimal (number : Nat) : ∀ byte ∈ Wire.decimal number, isWord byte = true := by
  intro byte member
  have digit : Wire.isDigit byte = true := @Wire.isDigit_repr number byte member
  obtain ⟨low, high⟩ := of_decide_eq_true digit
  exact decide_eq_true (.inr (.inr (.inl ⟨low, high⟩)))

theorem isWord_placeholder (number : Nat) : ∀ byte ∈ placeholder number, isWord byte = true := by
  intro byte member
  rcases List.mem_append.mp member with sign | digits
  · have same : byte = 36 := List.mem_singleton.mp sign
    rw [same]
    rfl
  · exact isWord_decimal number byte digits

theorem yields_placeholder {text : GoString} {out : List Clause}
    (scanned : Lexer.scan {} (text ++ [36]) = ({ word := [36] }, out)) (number : Nat) :
    Yields (text ++ placeholder number) out := by
  have whole := Yields.mark scanned (isWord_decimal number)
  rw [List.append_assoc] at whole
  exact whole

theorem yields_pair {text : GoString} {out : List Clause}
    (scanned : Lexer.scan {} text = ({ depth := 1 }, out)) (first second : Nat) :
    Yields (text ++ placeholder first ++ ascii "," ++ placeholder second ++ [41]) out :=
  Yields.marks scanned rfl (isWord_placeholder first) (isWord_placeholder second)

/-! ### Conditions -/

/-- A condition behind an `AND` starts no clause. -/
def Quiet (condition : List (Piece Arg)) : Prop :=
  ∀ next, Yields (ascii "AND " ++ Piece.render placeholder next condition) []

theorem quiet_comparison {column operator : GoString}
    (scanned : Lexer.scan {} (ascii "AND " ++ (column ++ operator) ++ [36]) = ({ word := [36] }, []))
    (value : Arg) : Quiet (comparison column operator value) := by
  intro next
  show Yields (ascii "AND " ++ (column ++ operator ++ (placeholder next ++ []))) []
  rw [List.append_nil, ← List.append_assoc]
  exact yields_placeholder scanned next

theorem quiet_text {content : GoString} (yields : Yields (ascii "AND " ++ content) []) :
    Quiet [.text content] := by
  intro next
  show Yields (ascii "AND " ++ (content ++ [])) []
  rw [List.append_nil]
  exact yields

theorem quiet_onlyIf {test : Bool} {condition : List (Piece Arg)} (quiet : Quiet condition) :
    ∀ other ∈ onlyIf test condition, Quiet other := by
  intro other member
  unfold onlyIf at member
  split at member
  · rw [List.mem_singleton.mp member]
    exact quiet
  · cases member

/-- **The conditions start no clause.** -/
theorem conditions_yield {text : GoString} {out : List Clause} (yields : Yields text out)
    {conditions : List (List (Piece Arg))} (quiet : ∀ condition ∈ conditions, Quiet condition)
    (next : Nat) : Yields (text ++ Piece.render placeholder next
      (Piece.joined (ascii " AND ") (ascii " AND ") conditions)) out := by
  induction conditions generalizing text next with
  | nil =>
    show Yields (text ++ []) out
    rw [List.append_nil]
    exact yields
  | cons condition conditions ih =>
    have here := yields.append (quiet condition List.mem_cons_self next)
    rw [List.append_nil] at here
    have later := ih here (fun other member => quiet other (List.mem_cons_of_mem _ member))
      (next + (Piece.values condition).length)
    have same : Piece.render placeholder next
        (Piece.joined (ascii " AND ") (ascii " AND ") (condition :: conditions)) =
        ascii " AND " ++ Piece.render placeholder next
          (condition ++ Piece.joined (ascii " AND ") (ascii " AND ") conditions) := rfl
    rw [same, Piece.render_append]
    rw [List.append_assoc] at later
    exact later

theorem common_quiet (t : TimeRange) (service environment : GoString) (scope : Scope) :
    ∀ condition ∈ commonConditions t service environment scope, Quiet condition := by
  unfold commonConditions
  refine List.forall_mem_append.mpr ⟨?_, quiet_onlyIf (quiet_comparison (by decide) _)⟩
  refine List.forall_mem_append.mpr ⟨?_, quiet_onlyIf (quiet_comparison (by decide) _)⟩
  refine List.forall_mem_append.mpr ⟨?_, quiet_onlyIf (quiet_comparison (by decide) _)⟩
  refine List.forall_mem_append.mpr ⟨?_, quiet_onlyIf (quiet_comparison (by decide) _)⟩
  refine List.forall_mem_append.mpr ⟨?_, quiet_onlyIf (quiet_comparison (by decide) _)⟩
  exact quiet_onlyIf (quiet_comparison (by decide) _)

theorem flow_quiet (f : FlowFilter) : ∀ condition ∈ flowConditions f, Quiet condition := by
  unfold flowConditions
  refine List.forall_mem_append.mpr ⟨?_, quiet_onlyIf (quiet_comparison (by decide) _)⟩
  refine List.forall_mem_append.mpr ⟨?_, quiet_onlyIf (quiet_comparison (by decide) _)⟩
  refine List.forall_mem_append.mpr ⟨?_, quiet_onlyIf (quiet_comparison (by decide) _)⟩
  refine List.forall_mem_append.mpr ⟨common_quiet _ _ _ _, fun condition member => ?_⟩
  rw [List.mem_singleton.mp member]
  exact quiet_text (by decide)

theorem execution_quiet (f : ExecutionFilter) :
    ∀ condition ∈ executionConditions f, Quiet condition := by
  unfold executionConditions
  refine List.forall_mem_append.mpr ⟨?_, quiet_onlyIf (quiet_comparison (by decide) _)⟩
  refine List.forall_mem_append.mpr ⟨?_, quiet_onlyIf (quiet_comparison (by decide) _)⟩
  refine List.forall_mem_append.mpr ⟨common_quiet _ _ _ _, fun condition member => ?_⟩
  rw [List.mem_singleton.mp member]
  exact quiet_text (by decide)

/-! ### The whole statement -/

/-- What a grouped statement is made of beside its values: the texts and the clauses they start. -/
structure GroupedTexts (select group : GoString) (column : String) (idCol : GoString) : Prop where
  selected : Yields select [.select, .fromTables, .whereRows]
  grouped : Yields group [.groupBy]
  status : Lexer.scan {} (ascii "HAVING " ++ (newestText column ++ ascii "=") ++ [36]) =
    ({ word := [36] }, [.having])
  cursor : ∀ operator ∈ [ascii "<", ascii ">"],
    Lexer.scan {} (ascii "HAVING " ++ (ascii "(" ++ ascii "min(event_time)" ++ ascii "," ++ idCol ++
      ascii ") " ++ operator ++ ascii " (")) = ({ depth := 1 }, [.having])
  limit : ∀ order ∈ [ascii "DESC", ascii "ASC"],
    Lexer.scan {} (ascii "ORDER BY " ++ ascii "min(event_time)" ++ ascii " " ++ order ++ ascii "," ++
      idCol ++ ascii " " ++ order ++ ascii " LIMIT " ++ [36]) =
      ({ word := [36] }, [.orderBy, .limit])

theorem cursorOperator_mem (p : PageRequest) : cursorOperator p ∈ [ascii "<", ascii ">"] := by
  unfold cursorOperator
  split <;> simp

theorem direction_mem (p : PageRequest) : direction p ∈ [ascii "DESC", ascii "ASC"] := by
  unfold direction
  split <;> simp

section Grouped

variable {select group : GoString} {column : String} {idCol text : GoString} {out : List Clause}

theorem status_yields (texts : GroupedTexts select group column idCol) (yields : Yields text out)
    (status : GoString) (next : Nat) :
    Yields (text ++ Piece.render placeholder next (statusPieces status column))
      (out ++ if status = [] then [] else [.having]) := by
  unfold statusPieces
  split
  · exact (List.append_nil text).symm ▸ (List.append_nil out).symm ▸ yields
  · have here := yields.append (yields_placeholder texts.status next)
    show Yields (text ++ (ascii " HAVING " ++ (newestText column ++ ascii "=" ++
      (placeholder next ++ [])))) _
    rw [List.append_nil, ← List.append_assoc (ascii " HAVING ")]
    exact here

theorem cursor_yields (texts : GroupedTexts select group column idCol) (yields : Yields text out)
    (p : PageRequest) (id : Arg) (next : Nat) :
    Yields (text ++ Piece.render placeholder next
        (havingPieces p (ascii "min(event_time)") idCol id))
      (out ++ if p.cursor.id = [] then [] else [.having]) := by
  unfold havingPieces
  split
  · exact (List.append_nil text).symm ▸ (List.append_nil out).symm ▸ yields
  · have here := yields.append
      (yields_pair (texts.cursor (cursorOperator p) (cursorOperator_mem p)) next (next + 1))
    have same : Piece.render placeholder next (.text (ascii " HAVING ") ::
        pairComparison (ascii "min(event_time)") idCol (cursorOperator p)
          (.time p.cursor.timestamp) id) =
        32 :: (ascii "HAVING " ++ (ascii "(" ++ ascii "min(event_time)" ++ ascii "," ++ idCol ++
          ascii ") " ++ cursorOperator p ++ ascii " (") ++ placeholder next ++ ascii "," ++
          placeholder (next + 1) ++ [41]) := by
      simp only [Piece.render, pairComparison, List.append_nil, List.append_assoc]
      rfl
    rw [same]
    exact here

theorem limit_yields (texts : GroupedTexts select group column idCol) (yields : Yields text out)
    (p : PageRequest) (next : Nat) :
    Yields (text ++ Piece.render placeholder next (limitPieces p (ascii "min(event_time)") idCol))
      (out ++ [.orderBy, .limit]) := by
  have here := yields.append
    (yields_placeholder (texts.limit (direction p) (direction_mem p)) next)
  have same : Piece.render placeholder next (limitPieces p (ascii "min(event_time)") idCol) =
      32 :: (ascii "ORDER BY " ++ ascii "min(event_time)" ++ ascii " " ++ direction p ++ ascii "," ++
        idCol ++ ascii " " ++ direction p ++ ascii " LIMIT " ++ placeholder next) := by
    simp only [Piece.render, limitPieces, List.append_nil, List.append_assoc]
    rfl
  rw [same]
  exact here

/-- **The clauses of a grouped statement.** -/
theorem grouped_clauses (texts : GroupedTexts select group column idCol)
    {conditions : List (List (Piece Arg))} (quiet : ∀ condition ∈ conditions, Quiet condition)
    (status : GoString) (p : PageRequest) (id : Arg) :
    clauses (Sql.of placeholder (framed select true conditions (32 :: group) ++
      statusPieces status column ++ havingPieces p (ascii "min(event_time)") idCol id ++
      limitPieces p (ascii "min(event_time)") idCol)).text =
    [.select, .fromTables, .whereRows, .groupBy] ++ (if status = [] then [] else [.having]) ++
      (if p.cursor.id = [] then [] else [.having]) ++ [.orderBy, .limit] := by
  have filtered := conditions_yield texts.selected quiet 1
  have framed : Yields (Piece.render placeholder 1 (framed select true conditions (32 :: group)))
      [.select, .fromTables, .whereRows, .groupBy] := by
    have here := filtered.append texts.grouped
    have same : Piece.render placeholder 1 (Postgres.framed select true conditions (32 :: group)) =
        select ++ Piece.render placeholder 1
          (Piece.joined (ascii " AND ") (ascii " AND ") conditions) ++ 32 :: group := by
      show select ++ Piece.render placeholder 1
        (Piece.joined (ascii " AND ") (ascii " AND ") conditions ++ [.text (32 :: group)]) = _
      rw [Piece.render_append]
      show select ++ (_ ++ (32 :: group ++ [])) = _
      rw [List.append_nil, List.append_assoc]
    rw [same]
    exact here
  unfold Sql.of
  rw [Piece.render_append, Piece.render_append, Piece.render_append]
  exact (limit_yields texts (cursor_yields texts (status_yields texts framed status _) p id _) p
    _).clauses

end Grouped

theorem flowTexts : GroupedTexts flowSummarySelect (ascii "GROUP BY flow_id,service,environment")
    "flow_status" (ascii "flow_id") :=
  ⟨by decide +kernel, by decide +kernel, by decide +kernel, by decide +kernel, by decide +kernel⟩

theorem executionTexts : GroupedTexts executionSummarySelect
    (ascii "GROUP BY execution_id,service,environment") "execution_status" (ascii "execution_id") :=
  ⟨by decide +kernel, by decide +kernel, by decide +kernel, by decide +kernel, by decide +kernel⟩

/-- The clauses of a grouped statement, with those of a status and of a cursor. -/
def groupedClauses (status : GoString) (p : PageRequest) : List Clause :=
  [.select, .fromTables, .whereRows, .groupBy] ++ (if status = [] then [] else [.having]) ++
    (if p.cursor.id = [] then [] else [.having]) ++ [.orderBy, .limit]

theorem listFlows_clauses (f : FlowFilter) (p : PageRequest) :
    clauses (listFlows f p).text = groupedClauses f.status p := by
  have group : ascii " GROUP BY flow_id,service,environment" =
    32 :: ascii "GROUP BY flow_id,service,environment" := rfl
  rw [listFlows_eq]
  unfold flowPieces
  rw [group]
  exact grouped_clauses flowTexts (flow_quiet f) f.status p _

theorem listExecutions_clauses (f : ExecutionFilter) (p : PageRequest) :
    clauses (listExecutions f p).text = groupedClauses f.status p := by
  have group : ascii " GROUP BY execution_id,service,environment" =
    32 :: ascii "GROUP BY execution_id,service,environment" := rfl
  rw [listExecutions_eq]
  unfold executionPieces
  rw [group]
  exact grouped_clauses executionTexts (execution_quiet f) f.status p _

/-- One `SELECT` with its tables, one `WHERE`, one `GROUP BY`, at most one `HAVING`, one `ORDER BY` and
one `LIMIT`, in this order. -/
def WellFormed (text : GoString) : Prop :=
  clauses text = [.select, .fromTables, .whereRows, .groupBy, .orderBy, .limit] ∨
    clauses text = [.select, .fromTables, .whereRows, .groupBy, .having, .orderBy, .limit]

theorem groupedClauses_iff {text status : GoString} {p : PageRequest}
    (same : clauses text = groupedClauses status p) :
    WellFormed text ↔ status = [] ∨ p.cursor.id = [] := by
  unfold WellFormed
  rw [same]
  unfold groupedClauses
  by_cases unset : status = []
  · by_cases first : p.cursor.id = [] <;> simp [unset, first]
  · by_cases first : p.cursor.id = [] <;> simp [unset, first]

/-- **When the grouped statements are well formed**: exactly when the filter has no status or the page
has no cursor. -/
theorem grouped_statements_iff (p : PageRequest) :
    (∀ f, WellFormed (listFlows f p).text ↔ f.status = [] ∨ p.cursor.id = []) ∧
    (∀ f, WellFormed (listExecutions f p).text ↔ f.status = [] ∨ p.cursor.id = []) ∧
    (∀ id f, WellFormed (listExecutionFlows id f p).text ↔ f.status = [] ∨ p.cursor.id = []) ∧
    ∀ key f, WellFormed (listEntityFlows key f p).text ↔ f.status = [] ∨ p.cursor.id = [] := by
  refine ⟨fun f => groupedClauses_iff (listFlows_clauses f p),
    fun f => groupedClauses_iff (listExecutions_clauses f p), fun id f => ?_, fun key f => ?_⟩
  · exact groupedClauses_iff (listFlows_clauses { f with executionID := id } p)
  · exact groupedClauses_iff (listFlows_clauses (setEntity key f) p)

/-- The statement for the second page of the failed flows. -/
def secondPage : Sql :=
  listFlows { status := ascii "failed" }
    { limit := 20, cursor := ⟨1700000000000000000, ascii "00000000000000000000000001"⟩ }

/-- **The second page of a listing with a status** has two `HAVING` clauses. -/
theorem second_page_has_two_havings :
    clauses secondPage.text =
      [.select, .fromTables, .whereRows, .groupBy, .having, .having, .orderBy, .limit] ∧
    ¬ WellFormed secondPage.text := by
  have same : clauses secondPage.text =
      [.select, .fromTables, .whereRows, .groupBy, .having, .having, .orderBy, .limit] := by
    unfold secondPage
    rw [listFlows_clauses]
    decide
  refine ⟨same, ?_⟩
  unfold WellFormed
  rw [same]
  decide

end Trail.Postgres
