/-
**Integers as text.**

`parseInt` is `strconv.ParseInt` in base ten with 64 bits, with its errors; `parseInt_decimal` is its
round trip with `decimal`.
-/

import Mathlib.Data.Nat.Digits.Defs
import Trail.Wire.Envelope

namespace Trail.Wire

/-- A digit. -/
def isDigit (char : UInt8) : Bool := 48 ≤ char ∧ char ≤ 57

/-- The value of a text of digits, at least one. -/
def digitsValue (text : GoString) : Option Nat :=
  if text = [] ∨ text.any (fun char => !isDigit char) then none
  else some (text.foldl (fun value char => 10 * value + (char.toNat - 48)) 0)

/-- A `*strconv.NumError`; `quote` is `strconv.Quote`. -/
def numError (quote : GoString → GoString) (function : String) (text : GoString) (reason : String) :
    GoError :=
  { text := ascii "strconv." ++ ascii function ++ ascii ": parsing " ++ quote text ++ ascii ": " ++
      ascii reason }

/-- The sign of a number, and the rest of its text. -/
def signed : GoString → Bool × GoString
  | 43 :: text => (false, text)
  | 45 :: text => (true, text)
  | text => (false, text)

/-- `strconv.ParseInt(text, 10, 64)`. -/
def parseInt (quote : GoString → GoString) (function : String) (text : GoString) :
    Except GoError Int :=
  match digitsValue (signed text).2 with
  | none => .error (numError quote function text "invalid syntax")
  | some value =>
    if (signed text).1 then
      if 2 ^ 63 < value then .error (numError quote function text "value out of range")
      else .ok (-value)
    else if 2 ^ 63 ≤ value then .error (numError quote function text "value out of range")
    else .ok value

/-! ### The round trip -/

theorem toUInt8_toNat {char : Char} (digit : char.isDigit = true) :
    char.toUInt8.toNat = char.toNat ∧ isDigit char.toUInt8 = true := by
  obtain ⟨low, high⟩ := Char.isDigit_iff_toNat.mp digit
  have same : char.toUInt8.toNat = char.toNat := by
    show char.val.toNat % 2 ^ 8 = char.val.toNat
    refine Nat.mod_eq_of_lt ?_
    show char.toNat < 256
    have : '9'.toNat = 57 := rfl
    omega
  refine ⟨same, decide_eq_true ⟨?_, ?_⟩⟩
  · rw [UInt8.le_iff_toNat_le, same]
    exact low
  · rw [UInt8.le_iff_toNat_le, same]
    exact high

theorem digitsValue_map {chars : List Char} (some : chars ≠ [])
    (digits : ∀ char ∈ chars, char.isDigit = true) :
    digitsValue (chars.map Char.toUInt8) = Option.some (Nat.ofDigitChars 10 chars 0) := by
  have folded : ∀ (rest : List Char) (value : Nat), (∀ char ∈ rest, char.isDigit = true) →
      (rest.map Char.toUInt8).foldl (fun value char => 10 * value + (char.toNat - 48)) value =
        rest.foldl (fun value char => 10 * value + (char.toNat - '0'.toNat)) value := by
    intro rest
    induction rest with
    | nil => exact fun _ _ => rfl
    | cons char rest ih =>
      intro value each
      rw [List.map_cons, List.foldl_cons, List.foldl_cons,
        (toUInt8_toNat (each char List.mem_cons_self)).1,
        ih _ fun other member => each other (List.mem_cons_of_mem _ member)]
      rfl
  have plain : ¬ (chars.map Char.toUInt8 = [] ∨
      (chars.map Char.toUInt8).any (fun char => !isDigit char) = true) := by
    rintro (empty | foreign)
    · exact some (List.map_eq_nil_iff.mp empty)
    · obtain ⟨byte, member, other⟩ := List.any_eq_true.mp foreign
      obtain ⟨char, among, rfl⟩ := List.mem_map.mp member
      simp [(toUInt8_toNat (digits char among)).2] at other
  rw [digitsValue, if_neg plain, folded chars 0 digits, Nat.ofDigitChars_eq_foldl]

theorem ascii_repr (number : Nat) :
    ascii number.repr = (Nat.toDigits 10 number).map Char.toUInt8 := by
  rw [Nat.repr_eq_ofList_toDigits, ascii, String.toList_ofList]

theorem digitsValue_repr (number : Nat) : digitsValue (ascii number.repr) = some number := by
  rw [ascii_repr, digitsValue_map Nat.toDigits_ne_nil fun char member =>
    Nat.isDigit_of_mem_toDigits (by decide) (by decide) member, Nat.ofDigitChars_ten_toDigits]

theorem isDigit_repr {number : Nat} {byte : UInt8} (member : byte ∈ ascii number.repr) :
    isDigit byte = true := by
  rw [ascii_repr] at member
  obtain ⟨char, among, rfl⟩ := List.mem_map.mp member
  exact (toUInt8_toNat (Nat.isDigit_of_mem_toDigits (by decide) (by decide) among)).2

theorem signed_repr (number : Nat) : signed (ascii number.repr) = (false, ascii number.repr) := by
  unfold signed
  split
  · rename_i rest same
    have digit := isDigit_repr (same ▸ List.mem_cons_self : (43 : UInt8) ∈ ascii number.repr)
    exact absurd digit (by decide)
  · rename_i rest same
    have digit := isDigit_repr (same ▸ List.mem_cons_self : (45 : UInt8) ∈ ascii number.repr)
    exact absurd digit (by decide)
  · rfl

theorem decimal_neg (number : Nat) :
    decimal (Int.negSucc number) = 45 :: ascii (number + 1).repr := by
  show ascii ("-" ++ (number + 1).repr) = _
  rw [ascii, String.toList_append, List.map_append]
  rfl

/-- **Parsing inverts formatting**, for every value of an `int64`. -/
theorem parseInt_decimal (quote : GoString → GoString) (function : String) {number : Int}
    (low : -2 ^ 63 ≤ number) (high : number < 2 ^ 63) :
    parseInt quote function (decimal number) = .ok number := by
  unfold parseInt
  cases number with
  | ofNat number =>
    have text : decimal (Int.ofNat number) = ascii number.repr := rfl
    rw [text, signed_repr, digitsValue_repr]
    dsimp only
    have small : number < 2 ^ 63 := by
      have := high
      simp only [Int.ofNat_eq_natCast] at this
      omega
    rw [if_neg (by decide), if_neg (by omega)]
    rfl
  | negSucc number =>
    have sign : signed (45 :: ascii (number + 1).repr) = (true, ascii (number + 1).repr) := rfl
    rw [decimal_neg, sign, digitsValue_repr]
    dsimp only
    rw [if_pos rfl, if_neg (by omega)]
    rfl

theorem colon_not_mem_decimal (number : Int) : (58 : UInt8) ∉ decimal number := by
  intro member
  cases number with
  | ofNat number =>
    exact absurd (@isDigit_repr number _ member) (by decide)
  | negSucc number =>
    rw [decimal_neg] at member
    rcases List.mem_cons.mp member with sign | digits
    · exact absurd sign (by decide)
    · exact absurd (isDigit_repr digits) (by decide)

end Trail.Wire
