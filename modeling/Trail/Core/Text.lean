/-
**Strings, byte arrays, errors and instants as the source has them.**

A Go string is a sequence of bytes, not of characters, and nothing in the source requires it to be
UTF-8, so `GoString` is a list of bytes; `ascii` writes the source's literals. A `[n]byte` is a
list with its length as a field of the subtype. `hex` is `encoding/hex`, with the round trip
`decodeString_encodeToString`. `Utf8` says which strings survive a JSON text.
-/

import Mathlib.Data.List.Basic
import Mathlib.Data.Nat.Bitwise

namespace Trail

/-- A Go string. -/
abbrev GoString := List UInt8

instance instLawfulBEqGoString : LawfulBEq GoString := inferInstance

/-- A literal of the source, all of whose characters are ASCII. -/
def ascii (literal : String) : GoString := literal.toList.map fun char => char.toUInt8

/-- The bytes of a literal. -/
def octets (literal : String) : GoString := literal.toByteArray.data.toList

/-- A Go `[n]byte`. -/
abbrev Bytes (n : Nat) := {bytes : List UInt8 // bytes.length = n}

instance : LawfulBEq (Bytes 16) :=
  inferInstanceAs (LawfulBEq {bytes : List UInt8 // bytes.length = 16})

/-- The zero value of a Go `[n]byte`. -/
def Bytes.zero (n : Nat) : Bytes n := ⟨List.replicate n 0, List.length_replicate⟩

instance (n : Nat) : Inhabited (Bytes n) := ⟨Bytes.zero n⟩

/-- A `time.Time` in UTC, as nanoseconds since the Unix epoch. -/
abbrev Time := Int

/-- The zero `time.Time`, the first instant of the year 1. -/
def zeroTime : Time := -62135596800000000000

/-- The error values the source compares with `errors.Is`. -/
inductive Sentinel
  | alreadyInitialized
  | invalidConfig
  | invalidID
  | invalidEnvelope
  | unsupportedVersion
  | payloadInvalidRef
  | payloadNotFound
  | storageNotFound
  | storageInvalidCursor
  | natsTimeout
  deriving DecidableEq, Repr

/-- A Go error: its text, and the sentinels it wraps. -/
structure GoError where
  text : GoString
  wraps : List Sentinel := []
  deriving DecidableEq, Repr

/-- `errors.New` of a literal. -/
def errorsNew (literal : String) : GoError := { text := ascii literal }

/-- `errors.Is`. -/
def GoError.is (error : GoError) (sentinel : Sentinel) : Bool := sentinel ∈ error.wraps

theorem forall_byte {holds : UInt8 → Prop} (each : ∀ value : Fin 256, holds (UInt8.ofFin value))
    (byte : UInt8) : holds byte :=
  each byte.toFin

/-! ### Hexadecimal text -/

namespace Hex

/-- One lowercase hexadecimal digit. -/
def digit (value : UInt8) : UInt8 := if value < 10 then 48 + value else 87 + value

/-- The value of a hexadecimal digit of either case. -/
def digitValue (char : UInt8) : Option UInt8 :=
  if 48 ≤ char ∧ char ≤ 57 then some (char - 48)
  else if 97 ≤ char ∧ char ≤ 102 then some (char - 87)
  else if 65 ≤ char ∧ char ≤ 70 then some (char - 55)
  else none

/-- `hex.EncodeToString`. -/
def encodeToString : List UInt8 → GoString
  | [] => []
  | byte :: bytes => digit (byte >>> 4) :: digit (byte &&& 15) :: encodeToString bytes

/-- `hex.DecodeString`; an odd length or a foreign byte is an error. -/
def decodeString : GoString → Option (List UInt8)
  | [] => some []
  | [_] => none
  | high :: low :: text => do
      let first ← digitValue high
      let second ← digitValue low
      let rest ← decodeString text
      return (first <<< 4 ||| second) :: rest

/-- `hex.InvalidByteError`, whose text shows the byte as `%#U` does. -/
def invalidByteError (byte : UInt8) : GoError :=
  let upper (value : UInt8) : UInt8 := if value < 10 then 48 + value else 55 + value
  let char : GoString :=
    if byte < 128 then [byte] else [(192 : UInt8) ||| byte >>> 6, (128 : UInt8) ||| (byte &&& 63)]
  let shown := if (32 ≤ byte ∧ byte < 127) ∨ (161 ≤ byte ∧ byte ≠ 173) then
    ascii " '" ++ char ++ ascii "'" else []
  { text := ascii "encoding/hex: invalid byte: U+00" ++ [upper (byte >>> 4), upper (byte &&& 15)]
      ++ shown }

/-- The error of `hex.DecodeString` on a text it refuses: the first foreign byte, or the length. -/
def decodeError (text : GoString) : GoError :=
  match text.find? fun char => digitValue char = none with
  | some char => invalidByteError char
  | none => errorsNew "encoding/hex: odd length hex string"

theorem digitValue_digit :
    ∀ value : UInt8, value < 16 → digitValue (digit value) = some value := by
  apply forall_byte
  decide +kernel

theorem halves_lt : ∀ byte : UInt8, byte >>> 4 < 16 ∧ byte &&& 15 < 16 := by
  apply forall_byte
  decide +kernel

theorem join_halves : ∀ byte : UInt8, (byte >>> 4) <<< 4 ||| (byte &&& 15) = byte := by
  apply forall_byte
  decide +kernel

/-- **Decoding inverts encoding.** -/
theorem decodeString_encodeToString (bytes : List UInt8) :
    decodeString (encodeToString bytes) = some bytes := by
  induction bytes with
  | nil => rfl
  | cons byte bytes ih =>
    obtain ⟨high, low⟩ := halves_lt byte
    simp [encodeToString, decodeString, digitValue_digit _ high, digitValue_digit _ low, ih,
      join_halves]

theorem encodeToString_injective : Function.Injective encodeToString := by
  intro first second same
  have decoded := congrArg decodeString same
  rwa [decodeString_encodeToString, decodeString_encodeToString, Option.some.injEq] at decoded

theorem length_encodeToString (bytes : List UInt8) :
    (encodeToString bytes).length = 2 * bytes.length := by
  induction bytes with
  | nil => rfl
  | cons byte bytes ih =>
    simp only [encodeToString, List.length_cons, ih]
    omega

end Hex

/-! ### UTF-8 -/

/-- A string that is valid UTF-8. -/
def Utf8 (text : GoString) : Prop := ∃ chars : List Char, text = chars.flatMap String.utf8EncodeChar

theorem utf8EncodeChar_ascii :
    ∀ byte : UInt8, byte < 128 → String.utf8EncodeChar (Char.ofNat byte.toNat) = [byte] := by
  apply forall_byte
  decide +kernel

theorem utf8_of_ascii {text : GoString} (small : ∀ byte ∈ text, byte < 128) : Utf8 text := by
  refine ⟨text.map fun byte => Char.ofNat byte.toNat, ?_⟩
  induction text with
  | nil => rfl
  | cons byte text ih =>
    rw [List.map_cons, List.flatMap_cons,
      utf8EncodeChar_ascii byte (small byte List.mem_cons_self),
      ← ih fun other member => small other (List.mem_cons_of_mem _ member)]
    rfl

theorem utf8_nil : Utf8 [] := ⟨[], rfl⟩

end Trail
