/-
**Patterns of SQL.**

`LIKE` over texts of UTF-8: `%` stands for any text, `_` for one character, and a backslash takes the
byte behind it as it is.

* `like_iff_of_plain`: bytes without these three, and a `%` behind them, are a prefix test.
* `exists_like_of_not_plain`: bytes with one of the three match a text with another beginning.
-/

import Mathlib.Data.List.Infix

namespace Trail.Library

/-- A part of a pattern: any text, one character, or a byte. -/
inductive Wildcard
  | text
  | char
  | byte (value : UInt8)
  deriving DecidableEq, Repr

/-- The parts of a pattern; `escaped` says that a backslash came before. -/
def wildcards : Bool → List UInt8 → List Wildcard
  | _, [] => []
  | true, byte :: pattern => .byte byte :: wildcards false pattern
  | false, byte :: pattern =>
    if byte = 37 then .text :: wildcards false pattern
    else if byte = 95 then .char :: wildcards false pattern
    else if byte = 92 then wildcards true pattern
    else .byte byte :: wildcards false pattern

/-- The bytes of a character behind its first, which tells their number. -/
def charTail (first : UInt8) : Nat :=
  if first < 192 then 0 else if first < 224 then 1 else if first < 240 then 2 else 3

/-- A text is as the parts say. -/
def fits : List Wildcard → List UInt8 → Bool
  | [], text => text.isEmpty
  | .text :: parts, text => text.tails.any fun rest => fits parts rest
  | .char :: _, [] => false
  | .char :: parts, first :: rest => fits parts (rest.drop (charTail first))
  | .byte _ :: _, [] => false
  | .byte value :: parts, first :: rest => first = value ∧ fits parts rest

/-- `text LIKE pattern`. -/
def like (pattern text : List UInt8) : Bool := fits (wildcards false pattern) text

/-- A byte that stands for itself in a pattern. -/
def isPlain (byte : UInt8) : Bool := byte ≠ 37 ∧ byte ≠ 95 ∧ byte ≠ 92

theorem fits_text (text : List UInt8) : fits [.text] text = true :=
  List.any_eq_true.mpr ⟨[], (List.mem_tails [] text).mpr List.nil_suffix, rfl⟩

theorem wildcards_plain {byte : UInt8} (plain : isPlain byte = true) (pattern : List UInt8) :
    wildcards false (byte :: pattern) = .byte byte :: wildcards false pattern := by
  obtain ⟨percent, underscore, backslash⟩ := of_decide_eq_true plain
  rw [wildcards, if_neg percent, if_neg underscore, if_neg backslash]

/-- **A pattern of plain bytes and a percent sign tests for a prefix.** -/
theorem like_iff_of_plain {start : List UInt8} (plain : ∀ byte ∈ start, isPlain byte = true)
    (text : List UInt8) : like (start ++ [37]) text = true ↔ start <+: text := by
  unfold like
  induction start generalizing text with
  | nil => exact iff_of_true (fits_text text) List.nil_prefix
  | cons byte start ih =>
    rw [List.cons_append, wildcards_plain (plain byte List.mem_cons_self)]
    cases text with
    | nil => exact iff_of_false Bool.false_ne_true (by simp)
    | cons first rest =>
      have later := ih (fun other member => plain other (List.mem_cons_of_mem _ member)) rest
      rw [fits, decide_eq_true_iff, later, List.cons_prefix_cons]
      exact and_congr_left' eq_comm

/-- A text that fits: nothing for a text, an `a` for a character. -/
def sample : List Wildcard → List UInt8
  | [] => []
  | .text :: parts => sample parts
  | .char :: parts => 97 :: sample parts
  | .byte value :: parts => value :: sample parts

theorem fits_sample (parts : List Wildcard) : fits parts (sample parts) = true := by
  induction parts with
  | nil => rfl
  | cons part parts ih =>
    cases part with
    | text => exact List.any_eq_true.mpr ⟨_, (List.mem_tails _ _).mpr List.suffix_rfl, ih⟩
    | char => exact ih
    | byte value => exact decide_eq_true ⟨rfl, ih⟩

theorem length_sample (start : List UInt8) :
    (sample (wildcards false (start ++ [37]))).length ≤ start.length ∧
      (sample (wildcards true (start ++ [37]))).length ≤ start.length + 1 := by
  induction start with
  | nil => exact ⟨Nat.zero_le _, Nat.le_refl _⟩
  | cons byte start ih =>
    rw [List.cons_append, wildcards, wildcards, List.length_cons]
    refine ⟨?_, Nat.succ_le_succ (ih.1.trans (Nat.le_succ _))⟩
    split
    · exact ih.1.trans (Nat.le_succ _)
    · split
      · exact Nat.succ_le_succ ih.1
      · split
        · exact ih.2
        · exact Nat.succ_le_succ ih.1

theorem not_escape_sample (start : List UInt8) :
    ¬ 92 :: start <+: sample (wildcards true (start ++ [37])) := by
  intro prefixed
  cases start with
  | nil => exact absurd (List.cons_prefix_cons.mp prefixed).1 (by decide)
  | cons byte start =>
    obtain ⟨_, rest⟩ := List.cons_prefix_cons.mp prefixed
    have long : start.length + 1 ≤ (sample (wildcards false (start ++ [37]))).length := rest.length_le
    have short := (length_sample start).1
    omega

/-- **A pattern whose sample has the beginning it asks for is plain.** -/
theorem plain_of_sample {start : List UInt8}
    (prefixed : start <+: sample (wildcards false (start ++ [37]))) :
    ∀ byte ∈ start, isPlain byte = true := by
  induction start with
  | nil => exact fun byte member => by cases member
  | cons byte start ih =>
    rw [List.cons_append, wildcards] at prefixed
    split at prefixed
    · have long := prefixed.length_le
      have short := (length_sample start).1
      rw [sample, List.length_cons] at long
      omega
    · rename_i percent
      split at prefixed
      · rename_i underscore
        exact absurd ((List.cons_prefix_cons.mp prefixed).1.symm.trans underscore) (by decide)
      · rename_i underscore
        split at prefixed
        · rename_i backslash
          rw [backslash] at prefixed
          exact absurd prefixed (not_escape_sample start)
        · rename_i backslash
          obtain ⟨_, rest⟩ := List.cons_prefix_cons.mp prefixed
          intro other member
          rcases List.mem_cons.mp member with rfl | later
          · exact decide_eq_true ⟨percent, underscore, backslash⟩
          · exact ih rest other later

theorem fits_of_sample_nil {parts : List Wildcard} (none : sample parts = []) (some : parts ≠ [])
    (text : List UInt8) : fits parts text = true := by
  induction parts with
  | nil => exact absurd rfl some
  | cons part parts ih =>
    cases part with
    | char => cases none
    | byte value => cases none
    | text =>
      by_cases last : parts = []
      · rw [last]
        exact fits_text text
      · exact List.any_eq_true.mpr ⟨text, (List.mem_tails _ _).mpr List.suffix_rfl, ih none last⟩

theorem wildcards_ne_nil (start : List UInt8) (escaped : Bool) :
    wildcards escaped (start ++ [37]) ≠ [] := by
  induction start generalizing escaped with
  | nil => cases escaped <;> decide
  | cons byte start ih =>
    cases escaped with
    | true => exact List.cons_ne_nil _ _
    | false =>
      rw [List.cons_append, wildcards]
      split_ifs
      · exact List.cons_ne_nil _ _
      · exact List.cons_ne_nil _ _
      · exact ih true
      · exact List.cons_ne_nil _ _

/-- **A pattern that is not plain matches a text with another beginning.** -/
theorem exists_like_of_not_plain {start : List UInt8} (some : start ≠ [])
    (special : ¬ ∀ byte ∈ start, isPlain byte = true) :
    ∃ text, text ≠ [] ∧ like (start ++ [37]) text = true ∧ ¬ start <+: text := by
  by_cases none : sample (wildcards false (start ++ [37])) = []
  · refine ⟨[97], List.cons_ne_nil _ _, fits_of_sample_nil none (wildcards_ne_nil _ _) _, ?_⟩
    intro prefixed
    rcases List.prefix_cons_iff.mp prefixed with rfl | ⟨rest, rfl, tail⟩
    · exact some rfl
    · rw [List.prefix_nil.mp tail] at special
      exact special (List.forall_mem_singleton.mpr rfl)
  · exact ⟨_, none, fits_sample _, fun prefixed => special (plain_of_sample prefixed)⟩

end Trail.Library
