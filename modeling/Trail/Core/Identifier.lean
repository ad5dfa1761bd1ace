/-
**Identifiers: sixteen bytes, written as twenty-six Crockford digits.**

`encodeID` writes the bytes as one big-endian number in base 32, five bits a digit;
`decodeID` reads it back and refuses any other length, any other byte and any number of more than
128 bits. `decodeID_encodeID` is the round trip that every later text form of an identifier rests
on; `decodeID_eq_ok` says which texts are read and what they are read as.
-/

import Mathlib.Data.List.Induction
import Mathlib.Tactic.Ring
import Trail.Core.Text

namespace Trail

/-- `EventID`. -/
abbrev EventID := Bytes 16

/-- `FlowID`. -/
abbrev FlowID := Bytes 16

/-- `ExecutionID`. -/
abbrev ExecutionID := Bytes 16

/-- `id.IsZero()`. -/
def isZeroID (id : Bytes 16) : Bool := id = Bytes.zero 16

def crockfordAlphabet : GoString := ascii "0123456789abcdefghjkmnpqrstvwxyz"

def errInvalidID : GoError := { text := ascii "trail: invalid ID", wraps := [.invalidID] }

/-! ### Big-endian numbers -/

/-- `big.Int.SetBytes`. -/
def setBytes (bytes : List UInt8) : Nat :=
  bytes.foldl (fun number byte => number * 256 + byte.toNat) 0

/-- The `count` low bytes of a number, most significant first: `x.Bytes()` copied to the end of a
zeroed array. -/
def fillBytes : Nat → Nat → List UInt8
  | 0, _ => []
  | count + 1, number => fillBytes count (number / 256) ++ [UInt8.ofNat number]

theorem length_fillBytes (count number : Nat) : (fillBytes count number).length = count := by
  induction count generalizing number with
  | zero => rfl
  | succ count ih => rw [fillBytes, List.length_append, ih, List.length_singleton]

theorem setBytes_concat (bytes : List UInt8) (byte : UInt8) :
    setBytes (bytes ++ [byte]) = setBytes bytes * 256 + byte.toNat := by
  rw [setBytes, List.foldl_append]
  rfl

theorem setBytes_lt (bytes : List UInt8) : setBytes bytes < 256 ^ bytes.length := by
  induction bytes using List.reverseRecOn with
  | nil => exact Nat.one_pos
  | append_singleton bytes byte ih =>
    have small := byte.toNat_lt
    rw [setBytes_concat, List.length_append, List.length_singleton, Nat.pow_succ]
    omega

/-- **Filling the bytes of a number read from bytes gives them back.** -/
theorem fillBytes_setBytes (bytes : List UInt8) :
    fillBytes bytes.length (setBytes bytes) = bytes := by
  induction bytes using List.reverseRecOn with
  | nil => rfl
  | append_singleton bytes byte ih =>
    have small := byte.toNat_lt
    have quotient : (setBytes bytes * 256 + byte.toNat) / 256 = setBytes bytes := by omega
    have last : UInt8.ofNat (setBytes bytes * 256 + byte.toNat) = byte := by
      apply UInt8.toNat_inj.mp
      rw [UInt8.toNat_ofNat']
      omega
    rw [setBytes_concat, List.length_append, List.length_singleton, fillBytes, quotient, last, ih]

/-! ### Encoding -/

/-- The low `count` digits of a number, filled from the last one back as the source's loop does. -/
def encodeDigits : Nat → Nat → GoString
  | 0, _ => []
  | count + 1, x => encodeDigits count (x >>> 5) ++ [crockfordAlphabet.getD (x &&& 31) 0]

/-- `encodeID`, the text of `String()` and of `MarshalText` for all three kinds of identifier. -/
def encodeID (id : Bytes 16) : GoString := encodeDigits 26 (setBytes id.1)

/-! ### Decoding -/

def crockfordValue (c : UInt8) : Option UInt8 :=
  let c := if 65 ≤ c ∧ c ≤ 90 then c + 32 else c
  if 48 ≤ c ∧ c ≤ 57 then some (c - 48)
  else ((List.range' 10 22).find? fun i => crockfordAlphabet[i]? = some c).map UInt8.ofNat

/-- The loop of `decodeID` from position `i` with the number `x` read so far. -/
def decodeDigits : Nat → Nat → GoString → Option Nat
  | _, x, [] => some x
  | i, x, c :: text =>
    match crockfordValue c with
    | none => none
    | some v => if i = 0 ∧ 7 < v then none else decodeDigits (i + 1) (x <<< 5 ||| v.toNat) text

def decodeID (text : GoString) : Except GoError (Bytes 16) :=
  if text.length ≠ 26 then .error errInvalidID
  else
    match decodeDigits 0 0 text with
    | none => .error errInvalidID
    | some x => .ok ⟨fillBytes 16 x, length_fillBytes 16 x⟩

/-- `ParseEventID`; an error leaves the zero identifier beside it. -/
def parseEventID (text : GoString) : Except GoError EventID := decodeID text

/-- `ParseFlowID`. -/
def parseFlowID (text : GoString) : Except GoError FlowID := decodeID text

/-- `ParseExecutionID`. -/
def parseExecutionID (text : GoString) : Except GoError ExecutionID := decodeID text

/-- The body of the three `UnmarshalText` methods: the target afterwards, and the error. -/
def unmarshalText (parse : GoString → Except GoError (Bytes 16)) (target : Bytes 16)
    (text : GoString) : Bytes 16 × Option GoError :=
  match parse text with
  | .ok id => (id, none)
  | .error error => (target, some error)

def EventID.unmarshalText (target : EventID) (text : GoString) : EventID × Option GoError :=
  Trail.unmarshalText parseEventID target text

def FlowID.unmarshalText (target : FlowID) (text : GoString) : FlowID × Option GoError :=
  Trail.unmarshalText parseFlowID target text

def ExecutionID.unmarshalText (target : ExecutionID) (text : GoString) :
    ExecutionID × Option GoError :=
  Trail.unmarshalText parseExecutionID target text

/-! ### The round trip -/

theorem length_encodeDigits (count x : Nat) : (encodeDigits count x).length = count := by
  induction count generalizing x with
  | zero => rfl
  | succ count ih => rw [encodeDigits, List.length_append, ih, List.length_singleton]

@[simp] theorem length_encodeID (id : Bytes 16) : (encodeID id).length = 26 :=
  length_encodeDigits 26 _

theorem encodeID_ne_nil (id : Bytes 16) : encodeID id ≠ [] := by
  intro empty
  have length := length_encodeID id
  rw [empty] at length
  cases length

theorem crockfordAlphabet_eq :
    crockfordAlphabet = [48, 49, 50, 51, 52, 53, 54, 55, 56, 57, 97, 98, 99, 100, 101, 102, 103,
      104, 106, 107, 109, 110, 112, 113, 114, 115, 116, 118, 119, 120, 121, 122] := by
  decide

theorem crockfordValue_alphabet :
    ∀ digit : Fin 32, crockfordValue (crockfordAlphabet.getD digit 0) = some (UInt8.ofNat digit) := by
  decide

theorem crockfordValue_digit {x : Nat} (small : x < 32) :
    crockfordValue (crockfordAlphabet.getD x 0) = some (UInt8.ofNat x) :=
  crockfordValue_alphabet ⟨x, small⟩

theorem and_31 (x : Nat) : x &&& 31 = x % 32 := Nat.and_two_pow_sub_one_eq_mod x 5

theorem shiftLeft_or_digit (x digit : Nat) (small : digit < 32) :
    x <<< 5 ||| digit = x * 32 + digit := by
  rw [Nat.shiftLeft_eq, Nat.mul_comm, ← Nat.two_pow_add_eq_or_of_lt small]

/-- **Reading the digits of a number**: from `acc`, the digits of `x` append `x`'s low digits.
At the start of the text the first digit has to be at most `7`. -/
theorem decodeDigits_encodeDigits (count : Nat) :
    ∀ (i acc x : Nat) (rest : GoString), (i = 0 → 0 < count → x < 8 * 32 ^ (count - 1)) →
      decodeDigits i acc (encodeDigits count x ++ rest) =
        decodeDigits (i + count) (acc * 32 ^ count + x % 32 ^ count) rest := by
  induction count with
  | zero =>
    intro i acc x rest _
    simp [encodeDigits, Nat.mod_one]
  | succ count ih =>
    intro i acc x rest bound
    have digitSmall : x % 32 < 32 := Nat.mod_lt _ (by norm_num)
    have shifted : x >>> 5 = x / 32 := Nat.shiftRight_eq_div_pow x 5
    have earlier : i = 0 → 0 < count → x / 32 < 8 * 32 ^ (count - 1) := by
      intro start positive
      have le := bound start (Nat.succ_pos _)
      obtain ⟨less, rfl⟩ := Nat.exists_eq_succ_of_ne_zero positive.ne'
      simp only [Nat.succ_eq_add_one, Nat.add_sub_cancel, Nat.pow_succ] at le ⊢
      omega
    have allowed : ¬ (i + count = 0 ∧ 7 < UInt8.ofNat (x % 32)) := by
      rintro ⟨start, large⟩
      have start' : i = 0 := by omega
      have first := bound start' (Nat.succ_pos _)
      have countZero : count = 0 := by omega
      rw [countZero] at first
      have value : (UInt8.ofNat (x % 32)).toNat = x % 32 := by
        rw [UInt8.toNat_ofNat']
        omega
      rw [UInt8.lt_iff_toNat_lt, value] at large
      simp at first large
      omega
    have split : acc * 32 ^ (count + 1) + x % 32 ^ (count + 1) =
        (acc * 32 ^ count + x / 32 % 32 ^ count) * 32 + x % 32 := by
      rw [Nat.pow_succ, Nat.mul_comm (32 ^ count) 32, Nat.mod_mul]
      ring
    rw [encodeDigits, and_31, shifted, List.append_assoc, List.singleton_append,
      ih i acc (x / 32) _ earlier, decodeDigits, crockfordValue_digit digitSmall]
    simp only [if_neg allowed]
    rw [UInt8.toNat_ofNat', Nat.mod_eq_of_lt (by omega : x % 32 < 2 ^ 8),
      shiftLeft_or_digit _ _ digitSmall, split, Nat.add_assoc]

/-- **`decodeID` inverts `encodeID`.** -/
theorem decodeID_encodeID (id : Bytes 16) : decodeID (encodeID id) = .ok id := by
  have small : setBytes id.1 < 256 ^ 16 := by
    have bound := setBytes_lt id.1
    rwa [id.2] at bound
  have read : decodeDigits 0 0 (encodeID id) = some (setBytes id.1) := by
    have digits := decodeDigits_encodeDigits 26 0 0 (setBytes id.1) []
      (fun _ _ => by norm_num at small ⊢; omega)
    rw [List.append_nil] at digits
    rw [encodeID, digits, decodeDigits, Nat.mod_eq_of_lt (by norm_num at small ⊢; omega)]
    simp
  have filled : fillBytes 16 (setBytes id.1) = id.1 := by
    have inverse := fillBytes_setBytes id.1
    rwa [id.2] at inverse
  unfold decodeID
  rw [if_neg (by simp), read]
  simp only [filled]

theorem encodeID_injective : Function.Injective encodeID := by
  intro first second same
  have decoded := congrArg decodeID same
  rw [decodeID_encodeID, decodeID_encodeID] at decoded
  exact Except.ok.inj decoded

theorem mem_encodeDigits {count x : Nat} {char : UInt8} (member : char ∈ encodeDigits count x) :
    char ∈ crockfordAlphabet := by
  induction count generalizing x with
  | zero => cases member
  | succ count ih =>
    rw [encodeDigits, List.mem_append, List.mem_singleton] at member
    rcases member with earlier | rfl
    · exact ih earlier
    · have small : x &&& 31 < crockfordAlphabet.length := by
        rw [and_31, show crockfordAlphabet.length = 32 by decide]
        omega
      rw [List.getD_eq_getElem _ _ small]
      exact List.getElem_mem small

theorem mem_encodeID {id : Bytes 16} {char : UInt8} (member : char ∈ encodeID id) :
    char ∈ crockfordAlphabet :=
  mem_encodeDigits member

theorem utf8_encodeID (id : Bytes 16) : Utf8 (encodeID id) := by
  apply utf8_of_ascii
  intro char member
  have small : ∀ letter ∈ crockfordAlphabet, letter < 128 := by decide +kernel
  exact small char (mem_encodeID member)

/-! ### The texts that are accepted -/

/-- The lowercase of an ASCII letter; any other byte is left as it is. -/
def toLower (char : UInt8) : UInt8 := if 65 ≤ char ∧ char ≤ 90 then char + 32 else char

/-- A Crockford digit of either case: an ASCII digit, or an ASCII letter other than `i`, `l`, `o`
and `u`. -/
def IsCrockford (char : UInt8) : Prop :=
  48 ≤ char ∧ char ≤ 57 ∨
    (97 ≤ toLower char ∧ toLower char ≤ 122 ∧ toLower char ∉ ascii "ilou")

instance (char : UInt8) : Decidable (IsCrockford char) :=
  inferInstanceAs (Decidable (_ ∨ (_ ∧ _ ∧ _)))

/-- The grammar of an identifier's text: twenty-six Crockford digits, the first of value at most
`7`. -/
structure Grammar (text : GoString) : Prop where
  length : text.length = 26
  digits : ∀ char ∈ text, IsCrockford char
  first : ∀ char ∈ text.head?, 48 ≤ char ∧ char ≤ 55

/-- What `crockfordValue` says of each byte: a byte with a value is a digit, which the value writes
in lowercase, and the values up to `7` are those of `0` to `7`. -/
theorem crockfordValue_cases : ∀ char : UInt8,
    ((crockfordValue char).elim (decide (¬ IsCrockford char)) fun value =>
      decide (IsCrockford char ∧ value.toNat < 32 ∧
        crockfordAlphabet.getD value.toNat 0 = toLower char ∧
        (¬ 7 < value ↔ 48 ≤ char ∧ char ≤ 55))) = true := by
  simp only [crockfordValue, crockfordAlphabet_eq]
  apply forall_byte
  decide +kernel

theorem crockfordValue_of_digit {char : UInt8} (digit : IsCrockford char) :
    ∃ value, crockfordValue char = some value := by
  have known := crockfordValue_cases char
  cases value : crockfordValue char with
  | none =>
    rw [value] at known
    exact absurd digit (of_decide_eq_true known)
  | some number => exact ⟨number, rfl⟩

theorem crockfordValue_spec {char value : UInt8} (known : crockfordValue char = some value) :
    IsCrockford char ∧ value.toNat < 32 ∧
      crockfordAlphabet.getD value.toNat 0 = toLower char ∧
      (¬ 7 < value ↔ 48 ≤ char ∧ char ≤ 55) := by
  have cases := crockfordValue_cases char
  rw [known] at cases
  exact of_decide_eq_true cases

/-- The number that digits spell, after the number `x`. -/
def digitsValue (x : Nat) (text : GoString) : Nat :=
  text.foldl (fun x char => x * 32 + ((crockfordValue char).getD 0).toNat) x

theorem digitsValue_concat (x : Nat) (text : GoString) (char : UInt8) :
    digitsValue x (text ++ [char]) =
      digitsValue x text * 32 + ((crockfordValue char).getD 0).toNat := by
  rw [digitsValue, List.foldl_append]
  rfl

/-- The loop of `decodeID` accepts Crockford digits, the first of the text of value at most `7`,
and then returns the number they spell. -/
theorem decodeDigits_eq_some (text : GoString) :
    ∀ {i x number : Nat}, decodeDigits i x text = some number ↔
      (∀ char ∈ text, IsCrockford char) ∧
        (i = 0 → ∀ char ∈ text.head?, 48 ≤ char ∧ char ≤ 55) ∧ digitsValue x text = number := by
  induction text with
  | nil =>
    intro i x number
    simp [decodeDigits, digitsValue]
  | cons char text ih =>
    intro i x number
    rw [decodeDigits]
    cases value : crockfordValue char with
    | none =>
      simp only [reduceCtorEq, false_iff]
      rintro ⟨digits, -⟩
      obtain ⟨digit, known⟩ := crockfordValue_of_digit (digits char List.mem_cons_self)
      rw [value] at known
      cases known
    | some digit =>
      obtain ⟨known, small, -, lead⟩ := crockfordValue_spec value
      have next : x <<< 5 ||| digit.toNat = x * 32 + ((crockfordValue char).getD 0).toNat := by
        rw [value, shiftLeft_or_digit _ _ small]
        rfl
      dsimp only
      split
      · rename_i refused
        simp only [reduceCtorEq, false_iff]
        rintro ⟨-, first, -⟩
        exact lead.mpr (first refused.1 char rfl) refused.2
      · rename_i allowed
        rw [ih, next]
        constructor
        · rintro ⟨digits, -, spelled⟩
          refine ⟨List.forall_mem_cons.mpr ⟨known, digits⟩, ?_, spelled⟩
          rintro start other ⟨rfl⟩
          exact lead.mp fun large => allowed ⟨start, large⟩
        · rintro ⟨digits, -, spelled⟩
          exact ⟨(List.forall_mem_cons.mp digits).2, fun start => absurd start (by omega),
            spelled⟩

theorem encodeDigits_digitsValue (text : GoString) (digits : ∀ char ∈ text, IsCrockford char) :
    encodeDigits text.length (digitsValue 0 text) = text.map toLower := by
  induction text using List.reverseRecOn with
  | nil => rfl
  | append_singleton text char ih =>
    obtain ⟨value, known⟩ := crockfordValue_of_digit (digits char (by simp))
    obtain ⟨-, small, written, -⟩ := crockfordValue_spec known
    have shifted : (digitsValue 0 text * 32 + value.toNat) >>> 5 = digitsValue 0 text := by
      rw [Nat.shiftRight_eq_div_pow]
      omega
    have low : (digitsValue 0 text * 32 + value.toNat) &&& 31 = value.toNat := by
      rw [and_31]
      omega
    rw [List.length_append, List.length_singleton, encodeDigits, digitsValue_concat, known,
      Option.getD_some, shifted, low, written,
      ih fun other member => digits other (List.mem_append_left _ member), List.map_append]
    rfl

theorem digitsValue_lt (text : GoString) :
    ∀ x, digitsValue x text < (x + 1) * 32 ^ text.length := by
  induction text using List.reverseRecOn with
  | nil =>
    intro x
    simp [digitsValue]
  | append_singleton text char ih =>
    intro x
    have bound := ih x
    have small : ((crockfordValue char).getD 0).toNat < 32 := by
      cases value : crockfordValue char with
      | none => decide
      | some digit => exact (crockfordValue_spec value).2.1
    rw [digitsValue_concat, List.length_append, List.length_singleton, Nat.pow_succ,
      ← Nat.mul_assoc]
    omega

theorem Grammar.decodeDigits {text : GoString} (grammar : Grammar text) :
    decodeDigits 0 0 text = some (digitsValue 0 text) :=
  (decodeDigits_eq_some text).mpr ⟨grammar.digits, fun _ => grammar.first, rfl⟩

theorem Grammar.digitsValue_lt {text : GoString} (grammar : Grammar text) :
    digitsValue 0 text < 256 ^ 16 := by
  obtain ⟨length, digits, first⟩ := grammar
  obtain _ | ⟨char, text⟩ := text
  · cases length
  · have bound := Trail.digitsValue_lt text (0 * 32 + ((crockfordValue char).getD 0).toNat)
    obtain ⟨value, known⟩ := crockfordValue_of_digit (digits char List.mem_cons_self)
    have small := (crockfordValue_spec known).2.2.2.mpr (first char rfl)
    rw [UInt8.not_lt, UInt8.le_iff_toNat_le] at small
    have rest : text.length = 25 := Nat.succ.inj length
    have le : (0 * 32 + value.toNat + 1) * 32 ^ 25 ≤ 8 * 32 ^ 25 :=
      Nat.mul_le_mul_right _ (by simp at small; omega)
    rw [rest, known, Option.getD_some] at bound
    show digitsValue (0 * 32 + ((crockfordValue char).getD 0).toNat) text < 256 ^ 16
    rw [known, Option.getD_some]
    norm_num at bound le ⊢
    omega

theorem setBytes_fillBytes {count number : Nat} (small : number < 256 ^ count) :
    setBytes (fillBytes count number) = number := by
  induction count generalizing number with
  | zero =>
    rw [Nat.pow_zero, Nat.lt_one_iff] at small
    exact small.symm
  | succ count ih =>
    have quotient : number / 256 < 256 ^ count := by
      rw [Nat.pow_succ] at small
      omega
    rw [fillBytes, setBytes_concat, ih quotient, UInt8.toNat_ofNat']
    omega

/-- **What `decodeID` accepts, and what it returns**: the texts of the grammar, and the identifier
that is written as the text in lowercase. -/
theorem decodeID_eq_ok {text : GoString} {id : Bytes 16} :
    decodeID text = .ok id ↔ Grammar text ∧ encodeID id = text.map toLower := by
  unfold decodeID
  by_cases length : text.length = 26
  · rw [if_neg (by simp [length])]
    constructor
    · intro accepted
      cases read : decodeDigits 0 0 text with
      | none =>
        rw [read] at accepted
        cases accepted
      | some number =>
        rw [read] at accepted
        obtain ⟨digits, first, rfl⟩ := (decodeDigits_eq_some text).mp read
        have grammar : Grammar text := ⟨length, digits, first rfl⟩
        have written := encodeDigits_digitsValue text digits
        rw [← Except.ok.inj accepted, encodeID, setBytes_fillBytes grammar.digitsValue_lt,
          ← length]
        exact ⟨grammar, written⟩
    · rintro ⟨grammar, written⟩
      have same : encodeID ⟨fillBytes 16 (digitsValue 0 text), length_fillBytes 16 _⟩ =
          encodeID id := by
        rw [written, ← encodeDigits_digitsValue text grammar.digits, length, encodeID,
          setBytes_fillBytes grammar.digitsValue_lt]
      rw [grammar.decodeDigits]
      exact congrArg Except.ok (encodeID_injective same)
  · rw [if_pos length]
    constructor
    · intro accepted
      cases accepted
    · rintro ⟨grammar, -⟩
      exact absurd grammar.length length

theorem decodeID_accepts {text : GoString} :
    (∃ id, decodeID text = .ok id) ↔ Grammar text := by
  constructor
  · rintro ⟨id, accepted⟩
    exact (decodeID_eq_ok.mp accepted).1
  · intro grammar
    refine ⟨⟨fillBytes 16 (digitsValue 0 text), length_fillBytes 16 _⟩, ?_⟩
    unfold decodeID
    rw [if_neg (by simp [grammar.length]), grammar.decodeDigits]

theorem decodeID_rejects {text : GoString} (refused : ¬ Grammar text) :
    decodeID text = .error errInvalidID := by
  cases outcome : decodeID text with
  | ok id => exact absurd (decodeID_eq_ok.mp outcome).1 refused
  | error error =>
    unfold decodeID at outcome
    split at outcome
    · exact outcome.symm
    · split at outcome
      · exact outcome.symm
      · cases outcome

/-- Everything `encodeID` writes is in the grammar. -/
theorem encodeID_grammar (id : Bytes 16) : Grammar (encodeID id) :=
  decodeID_accepts.mp ⟨id, decodeID_encodeID id⟩

theorem unmarshalText_rejected {parse : GoString → Except GoError (Bytes 16)} {text : GoString}
    {error : GoError} (rejected : parse text = .error error) (target : Bytes 16) :
    unmarshalText parse target text = (target, some error) := by
  rw [unmarshalText, rejected]

/-- **The codec of identifiers is a bijection onto its grammar.** Texts are written in the lowercase
alphabet and read back; exactly the grammar is read; a text that is read is written again in
lowercase; and a text that is refused leaves the target of `UnmarshalText` as it was. -/
theorem encodeID_bijective :
    (∀ id : Bytes 16, (encodeID id).length = 26 ∧ (∀ char ∈ encodeID id, char ∈ crockfordAlphabet) ∧
        (∃ char value, (encodeID id).head? = some char ∧ crockfordValue char = some value ∧
          value ≤ 7) ∧
        decodeID (encodeID id) = .ok id) ∧
      (∀ text : GoString, (∃ id, decodeID text = .ok id) ↔ Grammar text) ∧
      (∀ (text : GoString) (id : Bytes 16), decodeID text = .ok id →
        encodeID id = text.map toLower) ∧
      (∀ (text : GoString) (target : Bytes 16), ¬ Grammar text →
        EventID.unmarshalText target text = (target, some errInvalidID) ∧
          FlowID.unmarshalText target text = (target, some errInvalidID) ∧
          ExecutionID.unmarshalText target text = (target, some errInvalidID)) := by
  refine ⟨?_, fun text => decodeID_accepts, fun text id read => (decodeID_eq_ok.mp read).2, ?_⟩
  · intro id
    refine ⟨length_encodeID id, fun char => mem_encodeID, ?_, decodeID_encodeID id⟩
    have grammar := encodeID_grammar id
    obtain ⟨char, rest, written⟩ := List.exists_cons_of_ne_nil (encodeID_ne_nil id)
    have head : (encodeID id).head? = some char := by rw [written, List.head?_cons]
    obtain ⟨value, known⟩ := crockfordValue_of_digit (grammar.digits char (List.mem_of_head? head))
    have small := (crockfordValue_spec known).2.2.2.mpr (grammar.first char head)
    exact ⟨char, value, head, known, UInt8.not_lt.mp small⟩
  · intro text target refused
    have rejected := decodeID_rejects refused
    exact ⟨unmarshalText_rejected rejected target, unmarshalText_rejected rejected target,
      unmarshalText_rejected rejected target⟩

end Trail
