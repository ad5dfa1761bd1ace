/-
**Statements with values.**

A query is sent as a text with marks and a list of arguments. `Piece` keeps each value in its place,
beside what it is compared with; `render` is the text with its marks numbered in order, `values` the
arguments.

* `render_append`, `values_append`: both go along a concatenation.
* `render_joined`: conditions that are rendered one by one and joined.
* `Block.count`: a statement has one mark for each argument.

The second half reads which clauses a text has outside brackets and quotes. `Yields` says so of a text
in a way that composes: `Yields.append`.
-/

import Mathlib.Data.List.Basic

namespace Trail.Library

/-- A piece of a statement: text, or a value and what it is compared with. -/
inductive Piece (V : Type)
  | text (content : List UInt8)
  | hole (column : List UInt8) (value : V)

namespace Piece

section Pieces

variable {V W : Type}

/-- The values in order. -/
def values : List (Piece V) → List V
  | [] => []
  | .text _ :: pieces => values pieces
  | .hole _ value :: pieces => value :: values pieces

theorem values_append (first second : List (Piece V)) :
    values (first ++ second) = values first ++ values second := by
  induction first with
  | nil => rfl
  | cons piece first ih =>
    cases piece with
    | text content => exact ih
    | hole column value => exact congrArg (value :: ·) ih

variable (mark : Nat → List UInt8)

/-- The text, its marks numbered on from the given number. -/
def render : Nat → List (Piece V) → List UInt8
  | _, [] => []
  | next, .text content :: pieces => content ++ render next pieces
  | next, .hole _ _ :: pieces => mark next ++ render (next + 1) pieces

theorem render_append (next : Nat) (first second : List (Piece V)) :
    render mark next (first ++ second) =
      render mark next first ++ render mark (next + (values first).length) second := by
  induction first generalizing next with
  | nil => rfl
  | cons piece first ih =>
    cases piece with
    | text content =>
      show content ++ render mark next (first ++ second) = content ++ render mark next first ++ _
      rw [ih, List.append_assoc]
      rfl
    | hole column value =>
      show mark next ++ render mark (next + 1) (first ++ second) =
        mark next ++ render mark (next + 1) first ++ _
      rw [ih, List.append_assoc, values, List.length_cons, Nat.add_right_comm, ← Nat.add_assoc]

/-! ### Conditions -/

/-- Conditions after one another, the first behind `lead` and the others behind `separator`. -/
def joined (lead separator : List UInt8) : List (List (Piece V)) → List (Piece V)
  | [] => []
  | condition :: conditions => .text lead :: (condition ++ joined separator separator conditions)

/-- The texts of conditions, their marks numbered through. -/
def renderEach : Nat → List (List (Piece V)) → List (List UInt8)
  | _, [] => []
  | next, condition :: conditions =>
    render mark next condition :: renderEach (next + (values condition).length) conditions

theorem renderEach_append (next : Nat) (first second : List (List (Piece V))) :
    renderEach mark next (first ++ second) =
      renderEach mark next first ++ renderEach mark (next + (values first.flatten).length) second := by
  induction first generalizing next with
  | nil => rfl
  | cons condition first ih =>
    show render mark next condition :: renderEach mark _ (first ++ second) =
      render mark next condition :: (renderEach mark _ first ++ _)
    rw [ih, List.flatten_cons, values_append, List.length_append, Nat.add_assoc]

theorem values_joined (lead separator : List UInt8) (conditions : List (List (Piece V))) :
    values (joined lead separator conditions) = values conditions.flatten := by
  induction conditions generalizing lead with
  | nil => rfl
  | cons condition conditions ih =>
    show values (condition ++ joined separator separator conditions) = _
    rw [values_append, ih, List.flatten_cons, values_append]

/-- **Conditions rendered one by one and joined** are the rendered conditions. -/
theorem render_joined (lead separator : List UInt8) (next : Nat) (condition : List (Piece V))
    (conditions : List (List (Piece V))) :
    render mark next (joined lead separator (condition :: conditions)) =
      lead ++ separator.intercalate (renderEach mark next (condition :: conditions)) := by
  show lead ++ render mark next (condition ++ joined separator separator conditions) = _
  rw [render_append]
  congr 1
  induction conditions generalizing condition next with
  | nil => exact (List.append_nil _).trans (by simp [renderEach])
  | cons second conditions ih =>
    show render mark next condition ++ (separator ++
      render mark _ (second ++ joined separator separator conditions)) = _
    have here : renderEach mark next (condition :: second :: conditions) =
      render mark next condition :: render mark _ second :: renderEach mark _ conditions := rfl
    rw [render_append, ih, here, List.intercalate_cons_cons, List.append_assoc]
    rfl

/-! ### Marks -/

variable {plain : List UInt8 → Prop}

variable {mark}

end Pieces

end Piece

/-! ### Clauses at top level -/

/-- The clauses of a query. -/
inductive Clause
  | select
  | fromTables
  | whereRows
  | groupBy
  | having
  | orderBy
  | limit
  deriving DecidableEq, Repr

/-- The bytes of a keyword. -/
def letters (word : String) : List UInt8 := word.toList.map Char.toUInt8

def upper (byte : UInt8) : UInt8 := if 97 ≤ byte ∧ byte ≤ 122 then byte - 32 else byte

/-- Letters, digits, `_` and `$`. -/
def isWord (byte : UInt8) : Bool :=
  (65 ≤ byte ∧ byte ≤ 90) ∨ (97 ≤ byte ∧ byte ≤ 122) ∨ (48 ≤ byte ∧ byte ≤ 57) ∨ byte = 95 ∨ byte = 36

/-- The clause a word starts; `BY` starts the one its predecessor has opened. -/
def Clause.starts (opening : Option Clause) (word : List UInt8) : Option Clause :=
  if word = letters "SELECT" then some .select
  else if word = letters "FROM" then some .fromTables
  else if word = letters "WHERE" then some .whereRows
  else if word = letters "HAVING" then some .having
  else if word = letters "LIMIT" then some .limit
  else if word = letters "BY" then opening
  else none

/-- The clause a word opens for the word `BY`. -/
def Clause.opens (word : List UInt8) : Option Clause :=
  if word = letters "GROUP" then some .groupBy
  else if word = letters "ORDER" then some .orderBy
  else none

/-- Where a reader of a statement is. -/
structure Lexer where
  /-- How many brackets are open. -/
  depth : Nat := 0
  quoted : Bool := false
  /-- The word that is being read, outside brackets and quotes. -/
  word : List UInt8 := []
  opening : Option Clause := none
  deriving DecidableEq, Repr

namespace Lexer

/-- The end of a word. -/
def endWord (lexer : Lexer) : Lexer × List Clause :=
  if lexer.word = [] then (lexer, [])
  else ({ lexer with word := [], opening := Clause.opens lexer.word },
    (Clause.starts lexer.opening lexer.word).toList)

def read (lexer : Lexer) (byte : UInt8) : Lexer × List Clause :=
  if lexer.quoted then ({ lexer with quoted := byte ≠ 39 }, [])
  else if byte = 39 then ({ lexer.endWord.1 with quoted := true }, lexer.endWord.2)
  else if byte = 40 then ({ lexer.endWord.1 with depth := lexer.depth + 1 }, lexer.endWord.2)
  else if byte = 41 then ({ lexer.endWord.1 with depth := lexer.depth - 1 }, lexer.endWord.2)
  else if isWord byte then
    if lexer.depth = 0 then ({ lexer with word := lexer.word ++ [upper byte] }, []) else (lexer, [])
  else lexer.endWord

/-- Reading a text, with the clauses that start in it. -/
def scan : Lexer → List UInt8 → Lexer × List Clause
  | lexer, [] => (lexer, [])
  | lexer, byte :: text =>
    ((scan (lexer.read byte).1 text).1, (lexer.read byte).2 ++ (scan (lexer.read byte).1 text).2)

theorem scan_append (lexer : Lexer) (first second : List UInt8) :
    scan lexer (first ++ second) = ((scan (scan lexer first).1 second).1,
      (scan lexer first).2 ++ (scan (scan lexer first).1 second).2) := by
  induction first generalizing lexer with
  | nil => rfl
  | cons byte first ih =>
    rw [List.cons_append, scan, ih, scan, List.append_assoc]

theorem scan_append_of {lexer later : Lexer} {first : List UInt8} {out : List Clause}
    (left : scan lexer first = (later, out)) (second : List UInt8) :
    scan lexer (first ++ second) = ((scan later second).1, out ++ (scan later second).2) := by
  rw [scan_append, left]

section Words

variable {lexer : Lexer} {word : List UInt8}

theorem read_word (unquoted : lexer.quoted = false) {byte : UInt8} (letter : isWord byte = true) :
    lexer.read byte = if lexer.depth = 0 then ({ lexer with word := lexer.word ++ [upper byte] }, [])
      else (lexer, []) := by
  have other : ∀ sign : UInt8, isWord sign = false → byte ≠ sign := by
    intro sign foreign same
    rw [same, foreign] at letter
    cases letter
  unfold read
  rw [unquoted, if_neg Bool.false_ne_true, if_neg (other 39 rfl), if_neg (other 40 rfl),
    if_neg (other 41 rfl), if_pos letter]

theorem scan_word (unquoted : lexer.quoted = false) (outside : lexer.depth = 0)
    (each : ∀ byte ∈ word, isWord byte = true) :
    scan lexer word = ({ lexer with word := lexer.word ++ word.map upper }, []) := by
  induction word generalizing lexer with
  | nil =>
    rw [List.map_nil, List.append_nil]
    rfl
  | cons byte word ih =>
    rw [scan, read_word unquoted (each byte List.mem_cons_self), if_pos outside]
    dsimp only
    rw [@ih { lexer with word := lexer.word ++ [upper byte] } unquoted outside
      fun other member => each other (List.mem_cons_of_mem _ member)]
    simp

theorem scan_inside (unquoted : lexer.quoted = false) (inside : lexer.depth ≠ 0)
    (each : ∀ byte ∈ word, isWord byte = true) : scan lexer word = (lexer, []) := by
  induction word with
  | nil => rfl
  | cons byte word ih =>
    rw [scan, read_word unquoted (each byte List.mem_cons_self), if_neg inside]
    dsimp only
    rw [ih fun other member => each other (List.mem_cons_of_mem _ member)]
    rfl

theorem endWord_mark {rest : List UInt8} (outside : lexer.depth = 0) (unquoted : lexer.quoted = false)
    (marked : lexer.word = 36 :: rest) : lexer.endWord = ({}, []) := by
  have other : ∀ text : String, (letters text).head? ≠ some 36 → lexer.word ≠ letters text := by
    intro text head same
    rw [← same, marked] at head
    exact head rfl
  obtain ⟨depth, quoted, word, opening⟩ := lexer
  dsimp only at outside unquoted marked other
  subst outside unquoted marked
  unfold endWord Clause.opens Clause.starts
  rw [if_neg (List.cons_ne_nil _ _)]
  dsimp only
  rw [if_neg (other "GROUP" (by decide)), if_neg (other "ORDER" (by decide)),
    if_neg (other "SELECT" (by decide)), if_neg (other "FROM" (by decide)),
    if_neg (other "WHERE" (by decide)), if_neg (other "HAVING" (by decide)),
    if_neg (other "LIMIT" (by decide)), if_neg (other "BY" (by decide))]
  rfl

end Words

end Lexer

/-- The clauses a text starts outside brackets and quotes. -/
def clauses (text : List UInt8) : List Clause :=
  (Lexer.scan {} text).2 ++ (Lexer.scan {} text).1.endWord.2

/-- A text has the clauses, and leaves no bracket, quote or keyword open. -/
def Yields (text : List UInt8) (out : List Clause) : Prop :=
  ∃ lexer, Lexer.scan {} text = (lexer, out) ∧ lexer.depth = 0 ∧ lexer.quoted = false ∧
    lexer.endWord = ({}, [])

theorem yields_iff (text : List UInt8) (out : List Clause) :
    Yields text out ↔ (Lexer.scan {} text).2 = out ∧ (Lexer.scan {} text).1.depth = 0 ∧
      (Lexer.scan {} text).1.quoted = false ∧ (Lexer.scan {} text).1.endWord = ({}, []) := by
  constructor
  · intro ⟨lexer, scanned, depth, quoted, ends⟩
    rw [scanned]
    exact ⟨rfl, depth, quoted, ends⟩
  · intro ⟨same, rest⟩
    exact ⟨(Lexer.scan {} text).1, Prod.ext rfl same, rest⟩

instance (text : List UInt8) (out : List Clause) : Decidable (Yields text out) :=
  decidable_of_iff ((Lexer.scan {} text).2 = out ∧ (Lexer.scan {} text).1.depth = 0 ∧
    (Lexer.scan {} text).1.quoted = false ∧ (Lexer.scan {} text).1.endWord = ({}, []))
    (yields_iff text out).symm

theorem Yields.clauses {text : List UInt8} {out : List Clause} (yields : Yields text out) :
    clauses text = out := by
  obtain ⟨lexer, scanned, _, _, ends⟩ := yields
  unfold Library.clauses
  rw [scanned, ends, List.append_nil]

/-- **Texts with a blank between them** have the clauses of one and the other. -/
theorem Yields.append {first second : List UInt8} {out out' : List Clause}
    (left : Yields first out) (right : Yields second out') :
    Yields (first ++ 32 :: second) (out ++ out') := by
  obtain ⟨lexer, scanned, depth, quoted, ends⟩ := left
  obtain ⟨later, scanned', rest⟩ := right
  have blank : lexer.read 32 = ({}, []) := by
    unfold Lexer.read
    rw [quoted, ends]
    rfl
  refine ⟨later, ?_, rest⟩
  rw [Lexer.scan_append_of scanned, Lexer.scan, blank, scanned']
  rfl

/-- **A text that ends with a mark**: its sign, and a number. -/
theorem Yields.mark {text number : List UInt8} {out : List Clause}
    (scanned : Lexer.scan {} text = ({ word := [36] }, out))
    (digits : ∀ byte ∈ number, isWord byte = true) : Yields (text ++ number) out := by
  refine ⟨{ word := [36] ++ number.map upper }, ?_, rfl, rfl, Lexer.endWord_mark rfl rfl rfl⟩
  rw [Lexer.scan_append_of scanned, Lexer.scan_word rfl rfl digits]
  simp

/-- **A text that ends with a pair of marks** in brackets. -/
theorem Yields.marks {text between first second : List UInt8} {out : List Clause}
    (scanned : Lexer.scan {} text = ({ depth := 1 }, out))
    (passed : Lexer.scan { depth := 1 } between = ({ depth := 1 }, []))
    (one : ∀ byte ∈ first, isWord byte = true) (two : ∀ byte ∈ second, isWord byte = true) :
    Yields (text ++ first ++ between ++ second ++ [41]) out := by
  have inside : ∀ {word : List UInt8}, (∀ byte ∈ word, isWord byte = true) →
      Lexer.scan { depth := 1 } word = ({ depth := 1 }, []) :=
    fun each => Lexer.scan_inside rfl Nat.one_ne_zero each
  refine ⟨{}, ?_, rfl, rfl, rfl⟩
  rw [List.append_assoc, List.append_assoc, List.append_assoc, Lexer.scan_append_of scanned,
    Lexer.scan_append_of (inside one), Lexer.scan_append_of passed, Lexer.scan_append_of (inside two)]
  simp [Lexer.scan, Lexer.read, Lexer.endWord]

end Trail.Library
