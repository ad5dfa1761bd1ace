/-
**Text in lines.**

Records are written one a line, each line ended by a newline. `splitLines` cuts a text at its
newlines, an unfinished last line included, and `scan` is a scanner with a bound on the length of
a line: the lines before the first one that is too long, a carriage return at the end of a line
dropped, and whether there was one.

`scan_joinLines` is the round trip for lines without newlines and carriage returns at their end.
-/

import Mathlib.Data.List.TakeWhile

namespace Trail.Library

def newline : UInt8 := 10

def carriageReturn : UInt8 := 13

/-- The lines of a text. -/
def splitLines : List UInt8 → List (List UInt8)
  | [] => []
  | byte :: text =>
    if byte = newline then [] :: splitLines text
    else
      match splitLines text with
      | [] => [[byte]]
      | line :: lines => (byte :: line) :: lines

/-- Every line followed by a newline. -/
def joinLines (lines : List (List UInt8)) : List UInt8 := lines.flatMap (· ++ [newline])

/-- A line without the carriage return at its end. -/
def dropCR (line : List UInt8) : List UInt8 :=
  if line.getLast? = some carriageReturn then line.dropLast else line

/-- The lines a scanner yields when it holds lines shorter than `bound`, and whether it met a longer
one. -/
def scan (bound : Nat) (text : List UInt8) : List (List UInt8) × Bool :=
  let lines := splitLines text
  ((lines.takeWhile fun line => line.length < bound).map dropCR,
    lines.any fun line => bound ≤ line.length)

/-- A line as a scanner gives it back. -/
def IsLine (line : List UInt8) : Prop := newline ∉ line ∧ line.getLast? ≠ some carriageReturn

theorem splitLines_cons {line : List UInt8} (whole : newline ∉ line) (text : List UInt8) :
    splitLines (line ++ newline :: text) = line :: splitLines text := by
  induction line with
  | nil => simp [splitLines]
  | cons byte line ih =>
    obtain ⟨other, whole⟩ := List.ne_and_not_mem_of_not_mem_cons whole
    rw [List.cons_append, splitLines, if_neg other.symm, ih whole]

theorem joinLines_cons (line : List UInt8) (lines : List (List UInt8)) :
    joinLines (line :: lines) = line ++ newline :: joinLines lines := by
  rw [joinLines, List.flatMap_cons, List.append_assoc]
  rfl

/-- **Splitting what was joined.** -/
theorem splitLines_joinLines {lines : List (List UInt8)} (each : ∀ line ∈ lines, IsLine line) :
    splitLines (joinLines lines) = lines := by
  induction lines with
  | nil => rfl
  | cons line lines ih =>
    have first := each line (List.mem_cons_self ..)
    rw [joinLines_cons, splitLines_cons first.1,
      ih fun other member => each other (List.mem_cons_of_mem _ member)]

theorem map_dropCR {lines : List (List UInt8)} (each : ∀ line ∈ lines, IsLine line) :
    lines.map dropCR = lines := by
  have same : lines.map dropCR = lines.map id :=
    List.map_congr_left fun line member => if_neg (each line member).2
  rw [same, List.map_id]

/-- **Scanning what was joined**: the scanner stops at a line that is too long. -/
theorem scan_joinLines_long {bound : Nat} {lines : List (List UInt8)}
    (each : ∀ line ∈ lines, IsLine line) :
    (scan bound (joinLines lines)).2 = true ↔ ∃ line ∈ lines, bound ≤ line.length := by
  rw [scan, splitLines_joinLines each]
  simp

/-- **Scanning what was joined**, when no line is too long. -/
theorem scan_joinLines {bound : Nat} {lines : List (List UInt8)}
    (each : ∀ line ∈ lines, IsLine line) (short : ∀ line ∈ lines, line.length < bound) :
    scan bound (joinLines lines) = (lines, false) := by
  have all : lines.takeWhile (fun line => line.length < bound) = lines :=
    List.takeWhile_eq_self_iff.mpr fun line member => by simpa using short line member
  have none : lines.any (fun line => bound ≤ line.length) = false :=
    List.any_eq_false.mpr fun line member => by simpa using short line member
  rw [scan, splitLines_joinLines each, all, none, map_dropCR each]

end Trail.Library
