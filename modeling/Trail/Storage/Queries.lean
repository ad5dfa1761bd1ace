/-
**What the readers are asked for.**

The filters and page requests of the listings and the search, and the statements that
are sent for them: a text and its arguments.

* `Built`: the parts and arguments a builder has collected are those of a list of conditions.
* `Built.add`: what one more condition does to it.
-/

import Trail.Core.Identifier
import Trail.Library.Statements
import Trail.Storage.Record

namespace Trail.Storage

open Library

/-! ### Requests -/

/-- `TimeRange`. -/
structure TimeRange where
  from_ : Time := zeroTime
  to_ : Time := zeroTime
  deriving DecidableEq, Repr

/-- `Cursor`. -/
structure Cursor where
  timestamp : Time := zeroTime
  id : GoString := []
  deriving DecidableEq, Repr

/-- `PageRequest`. -/
structure PageRequest where
  limit : Int64
  cursor : Cursor := {}
  desc : Bool := false
  deriving DecidableEq, Repr

/-- `FlowFilter`. -/
structure FlowFilter where
  time : TimeRange := {}
  service : GoString := []
  environment : GoString := []
  status : GoString := []
  entityType : GoString := []
  entityID : GoString := []
  executionID : ExecutionID := Bytes.zero 16
  scope : Scope := ⟨[], []⟩
  deriving DecidableEq, Repr

/-- `ExecutionFilter`. -/
structure ExecutionFilter where
  time : TimeRange := {}
  service : GoString := []
  environment : GoString := []
  status : GoString := []
  source : GoString := []
  kind : GoString := []
  scope : Scope := ⟨[], []⟩
  deriving DecidableEq, Repr

/-- `EntityFilter`. -/
structure EntityFilter where
  time : TimeRange := {}
  service : GoString := []
  environment : GoString := []
  entityType : GoString := []
  idPrefix : GoString := []
  scope : Scope := ⟨[], []⟩
  deriving DecidableEq, Repr

/-- `EventFilter`. -/
structure EventFilter where
  time : TimeRange := {}
  service : GoString := []
  environment : GoString := []
  kind : GoString := []
  level : Option Level := none
  httpStatusClass : Int64 := 0
  httpMethod : GoString := []
  httpStatus : Int64 := 0
  provider : GoString := []
  hasError : Option Bool := none
  flowID : FlowID := Bytes.zero 16
  executionID : ExecutionID := Bytes.zero 16
  entityType : GoString := []
  entityID : GoString := []
  scope : Scope := ⟨[], []⟩
  deriving DecidableEq, Repr

/-- `EntityKey`. -/
structure EntityKey where
  scope : Scope
  type : GoString
  id : GoString
  deriving DecidableEq, Repr

/-- `Scope.IsZero`. -/
abbrev isZero (scope : Scope) : Prop := scope.type = [] ∧ scope.id = []

/-! ### Statements -/

/-- A value that is bound to a mark. -/
inductive Arg
  | time (value : Time)
  | text (value : GoString)
  | bytes (value : GoString)
  | int (value : Int64)
  | bool (value : Bool)
  | byte (value : UInt8)
  | list (values : List GoString)
  | nil
  deriving DecidableEq, Repr

/-- A text and the arguments of its marks. -/
structure Sql where
  text : GoString
  args : List Arg
  deriving DecidableEq, Repr

/-- The statement of pieces. -/
def Sql.of (mark : Nat → GoString) (pieces : List (Piece Arg)) : Sql :=
  ⟨Piece.render mark 1 pieces, Piece.values pieces⟩

theorem Sql.of_append (mark : Nat → GoString) (pieces more : List (Piece Arg)) :
    Sql.of mark (pieces ++ more) =
      ⟨(Sql.of mark pieces).text ++ Piece.render mark ((Sql.of mark pieces).args.length + 1) more,
        (Sql.of mark pieces).args ++ Piece.values more⟩ := by
  unfold of
  rw [Piece.render_append, Piece.values_append, Nat.add_comm 1]

/-- A comparison: the column with the operator, and the value behind them. -/
def comparison (column operator : GoString) (value : Arg) : List (Piece Arg) :=
  [.text (column ++ operator), .hole column value]

/-- A comparison of a time and an identifier with those of a cursor. -/
def pairComparison (timeCol idCol operator : GoString) (time id : Arg) : List (Piece Arg) :=
  [.text (ascii "(" ++ timeCol ++ ascii "," ++ idCol ++ ascii ") " ++ operator ++ ascii " ("),
    .hole timeCol time, .text (ascii ","), .hole idCol id, .text (ascii ")")]

/-- The condition a filter field adds when it is set. -/
def onlyIf (test : Bool) (condition : List (Piece Arg)) : List (List (Piece Arg)) :=
  if test then [condition] else []

/-- The comparison of a cursor. -/
def cursorOperator (p : PageRequest) : GoString := if p.desc then ascii "<" else ascii ">"

/-- The direction of the order. -/
def direction (p : PageRequest) : GoString := if p.desc then ascii "DESC" else ascii "ASC"

/-- The `HAVING` of a cursor. -/
def havingPieces (p : PageRequest) (timeCol idCol : GoString) (id : Arg) : List (Piece Arg) :=
  if p.cursor.id = [] then []
  else .text (ascii " HAVING ") ::
    pairComparison timeCol idCol (cursorOperator p) (.time p.cursor.timestamp) id

/-- The order and the limit. -/
def limitPieces (p : PageRequest) (timeCol idCol : GoString) : List (Piece Arg) :=
  [.text (ascii " ORDER BY " ++ timeCol ++ ascii " " ++ direction p ++ ascii "," ++ idCol ++
    ascii " " ++ direction p ++ ascii " LIMIT "), .hole (ascii "LIMIT") (.int (p.limit + 1))]

/-! ### Builders -/

/-- The parts and arguments of a builder are those of conditions. -/
structure Built (mark : Nat → GoString) (parts : List GoString) (args : List Arg)
    (conditions : List (List (Piece Arg))) : Prop where
  parts : parts = Piece.renderEach mark 1 conditions
  args : args = Piece.values conditions.flatten

variable {mark : Nat → GoString} {parts : List GoString} {args : List Arg}
  {conditions : List (List (Piece Arg))}

theorem Built.empty : Built mark [] [] [] := ⟨rfl, rfl⟩

/-- **One more condition.** -/
theorem Built.add (built : Built mark parts args conditions) (condition : List (Piece Arg)) :
    Built mark (parts ++ [Piece.render mark (args.length + 1) condition])
      (args ++ Piece.values condition) (conditions ++ [condition]) := by
  constructor
  · rw [Piece.renderEach_append, ← built.parts, ← built.args, Nat.add_comm]
    rfl
  · rw [List.flatten_append, Piece.values_append, ← built.args, List.flatten_singleton]

theorem Built.joined (built : Built mark parts args conditions) (lead separator : GoString) :
    Piece.render mark 1 (Piece.joined lead separator conditions) =
      if parts = [] then [] else lead ++ separator.intercalate parts := by
  rw [built.parts]
  cases conditions with
  | nil => rfl
  | cons condition conditions =>
    rw [Piece.render_joined, if_neg]
    exact List.cons_ne_nil _ _

end Trail.Storage
