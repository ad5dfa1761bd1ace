/-
**Texts with separators.**

A text made of parts with a separator between them determines the parts when the separator does not
occur in them: `append_cons_inj` cuts at the first separator, `append_cons_inj_last` at the last one,
and `intercalate_inj` undoes a join of any number of parts, none of them empty.
-/

import Mathlib.Data.List.Basic

namespace Trail.Library

variable {α : Type} {separator : α}

theorem append_cons_inj {first second rest other : List α} (left : separator ∉ first)
    (right : separator ∉ second) (same : first ++ separator :: rest = second ++ separator :: other) :
    first = second ∧ rest = other := by
  rcases List.append_eq_append_iff.mp same with ⟨more, longer, ends⟩ | ⟨more, longer, ends⟩
  all_goals
    cases more with
    | nil =>
      subst longer
      simpa using same
    | cons head more =>
      obtain ⟨rfl, -⟩ := List.cons.inj ends
      simp [longer] at left right

theorem append_cons_inj_last {first second rest other : List α} (left : separator ∉ rest)
    (right : separator ∉ other) (same : first ++ separator :: rest = second ++ separator :: other) :
    first = second ∧ rest = other := by
  have reversed := congrArg List.reverse same
  simp only [List.reverse_append, List.reverse_cons, List.append_assoc, List.singleton_append]
    at reversed
  obtain ⟨rests, firsts⟩ := append_cons_inj (by simpa using left) (by simpa using right) reversed
  exact ⟨List.reverse_injective firsts, List.reverse_injective rests⟩

/-- The parts of a join: none is empty and none holds the separator. -/
def Separable (separator : α) (parts : List (List α)) : Prop :=
  ∀ part ∈ parts, part ≠ [] ∧ separator ∉ part

/-- **Joining determines the parts.** -/
theorem intercalate_inj {first second : List (List α)} (left : Separable separator first)
    (right : Separable separator second)
    (same : [separator].intercalate first = [separator].intercalate second) : first = second := by
  induction first generalizing second with
  | nil =>
    cases second with
    | nil => rfl
    | cons part parts =>
      cases parts with
      | nil => exact absurd (by simpa using same.symm) (right part List.mem_cons_self).1
      | cons next parts => simp at same
  | cons part parts ih =>
    cases second with
    | nil =>
      cases parts with
      | nil => exact absurd (by simpa using same) (left part List.mem_cons_self).1
      | cons next parts => simp at same
    | cons part' parts' =>
      have whole := (left part List.mem_cons_self).2
      have whole' := (right part' List.mem_cons_self).2
      cases parts with
      | nil =>
        cases parts' with
        | nil => simpa using same
        | cons next parts' =>
          simp only [List.intercalate_singleton, List.intercalate_cons_cons] at same
          simp [same] at whole
      | cons next parts =>
        cases parts' with
        | nil =>
          simp only [List.intercalate_singleton, List.intercalate_cons_cons] at same
          simp [← same] at whole'
        | cons next' parts' =>
          simp only [List.intercalate_cons_cons, List.append_assoc, List.singleton_append] at same
          obtain ⟨rfl, rests⟩ := append_cons_inj whole whole' same
          rw [ih (fun other member => left other (List.mem_cons_of_mem _ member))
            (fun other member => right other (List.mem_cons_of_mem _ member)) rests]

end Trail.Library
