/-
**Gzip streams of stored blocks.**

A gzip writer that stores its data in deflate blocks without compressing it, and a reader of what it
writes, which checks the header, the lengths of the blocks and the trailer with the CRC-32 and the
size. `decompress_compress`: the reader inverts the writer.
-/

import Mathlib.Algebra.Order.Group.Nat
import Mathlib.Data.List.TakeDrop
import Mathlib.Logic.Function.Iterate

namespace Trail.Library.StoredGzip

/-- The bytes of a number, the least significant first. -/
def littleEndian : Nat → Nat → List UInt8
  | 0, _ => []
  | width + 1, value => UInt8.ofNat value :: littleEndian width (value / 256)

/-- The two bytes of a length. -/
def twoBytes (low high : UInt8) : Nat := low.toNat + 256 * high.toNat

theorem twoBytes_littleEndian {value : Nat} (small : value < 65536) :
    ∃ low high, littleEndian 2 value = [low, high] ∧ twoBytes low high = value := by
  refine ⟨_, _, rfl, ?_⟩
  unfold twoBytes
  rw [UInt8.toNat_ofNat', UInt8.toNat_ofNat']
  omega

/-- One bit of the CRC-32 of the IEEE polynomial. -/
def crcBit (crc : Nat) : Nat := if crc % 2 = 1 then crc / 2 ^^^ 0xEDB88320 else crc / 2

def crcByte (crc : Nat) (byte : UInt8) : Nat := crcBit^[8] (crc ^^^ byte.toNat)

def crc32 (data : List UInt8) : Nat := data.foldl crcByte 0xFFFFFFFF ^^^ 0xFFFFFFFF

/-- The identification, the method, no flags, no time and an unknown system. -/
def header : List UInt8 := [0x1f, 0x8b, 8, 0, 0, 0, 0, 0, 0, 0xff]

def trailer (data : List UInt8) : List UInt8 :=
  littleEndian 4 (crc32 data) ++ littleEndian 4 data.length

/-- The most a stored block can have. -/
def blockSize : Nat := 65535

/-- A stored block: whether it is the last, its length, the complement, and the data. -/
def block (last : UInt8) (data : List UInt8) : List UInt8 :=
  last :: (littleEndian 2 data.length ++ littleEndian 2 (blockSize - data.length)) ++ data

/-- Data in so many full blocks and a last one. -/
def blocks : Nat → List UInt8 → List UInt8
  | 0, data => block 1 data
  | count + 1, data => block 0 (data.take blockSize) ++ blocks count (data.drop blockSize)

def compress (data : List UInt8) : List UInt8 :=
  header ++ (blocks (data.length / blockSize) data ++ trailer data)

/-- The data of stored blocks, and what follows them. -/
def unblock : Nat → List UInt8 → Option (List UInt8 × List UInt8)
  | fuel + 1, last :: low :: high :: low' :: high' :: rest =>
    if twoBytes low high + twoBytes low' high' ≠ blockSize ∨ rest.length < twoBytes low high then
      none
    else if last = 1 then some (rest.splitAt (twoBytes low high))
    else if last = 0 then
      (unblock fuel (rest.drop (twoBytes low high))).map fun found =>
        (rest.take (twoBytes low high) ++ found.1, found.2)
    else none
  | _, _ => none

def decompress (bytes : List UInt8) : Option (List UInt8) :=
  if bytes.take header.length = header then
    match unblock bytes.length (bytes.drop header.length) with
    | none => none
    | some (data, rest) => if rest = trailer data then some data else none
  else none

theorem unblock_block (fuel : Nat) (last : UInt8) {data : List UInt8} (tail : List UInt8)
    (fits : data.length ≤ blockSize) :
    unblock (fuel + 1) (block last data ++ tail) =
      if last = 1 then some (data, tail)
      else if last = 0 then (unblock fuel tail).map fun found => (data ++ found.1, found.2)
      else none := by
  unfold blockSize at fits
  obtain ⟨low, high, written, length⟩ := @twoBytes_littleEndian data.length (by omega)
  obtain ⟨low', high', written', complement⟩ :=
    @twoBytes_littleEndian (blockSize - data.length) (by unfold blockSize; omega)
  have accepted : ¬ (twoBytes low high + twoBytes low' high' ≠ blockSize ∨
      (data ++ tail).length < twoBytes low high) := by
    rw [length, complement, List.length_append]
    unfold blockSize
    omega
  unfold block
  rw [written, written']
  show unblock (fuel + 1) (last :: low :: high :: low' :: high' :: (data ++ tail)) = _
  rw [unblock, if_neg accepted, length, List.splitAt_eq, List.take_left, List.drop_left]

/-- **The blocks are read back.** -/
theorem unblock_blocks {count fuel : Nat} {data : List UInt8} (tail : List UInt8)
    (fits : data.length < (count + 1) * blockSize) (enough : count < fuel) :
    unblock fuel (blocks count data ++ tail) = some (data, tail) := by
  induction count generalizing fuel data with
  | zero =>
    obtain ⟨fuel, rfl⟩ := Nat.exists_eq_succ_of_ne_zero (Nat.ne_zero_of_lt enough)
    exact unblock_block fuel 1 tail (by omega)
  | succ count ih =>
    obtain ⟨fuel, rfl⟩ := Nat.exists_eq_succ_of_ne_zero (Nat.ne_zero_of_lt enough)
    have first : (data.take blockSize).length ≤ blockSize := by
      rw [List.length_take]
      exact Nat.min_le_left _ _
    have rest : (data.drop blockSize).length < (count + 1) * blockSize := by
      rw [List.length_drop]
      rw [Nat.succ_mul] at fits
      have positive : 0 < (count + 1) * blockSize := Nat.mul_pos (by omega) (by decide)
      omega
    unfold blocks
    rw [List.append_assoc, unblock_block fuel 0 _ first, if_neg (by decide), if_pos rfl,
      ih rest (by omega)]
    show some (data.take blockSize ++ data.drop blockSize, tail) = _
    rw [List.take_append_drop]

theorem length_littleEndian (width value : Nat) : (littleEndian width value).length = width := by
  induction width generalizing value with
  | zero => rfl
  | succ width ih => rw [littleEndian, List.length_cons, ih]

theorem length_block (last : UInt8) (data : List UInt8) :
    (block last data).length = data.length + 5 := by
  unfold block
  rw [List.length_append, List.length_cons, List.length_append, length_littleEndian,
    length_littleEndian]
  omega

theorem length_blocks (count : Nat) (data : List UInt8) :
    (blocks count data).length = data.length + 5 * (count + 1) := by
  induction count generalizing data with
  | zero => exact length_block 1 data
  | succ count ih =>
    have parts := congrArg List.length (List.take_append_drop blockSize data)
    rw [List.length_append] at parts
    unfold blocks
    rw [List.length_append, length_block, ih]
    omega

theorem length_compress (data : List UInt8) :
    (compress data).length = data.length + 5 * (data.length / blockSize + 1) + 18 := by
  unfold compress trailer
  simp only [List.length_append, length_blocks, length_littleEndian]
  have start : header.length = 10 := rfl
  omega

/-- **The reader inverts the writer.** -/
theorem decompress_compress (data : List UInt8) : decompress (compress data) = some data := by
  have fits : data.length < (data.length / blockSize + 1) * blockSize := by
    unfold blockSize
    omega
  have enough : data.length / blockSize < (compress data).length := by
    rw [length_compress]
    omega
  unfold decompress
  rw [show (compress data).take header.length = header from List.take_left,
    show (compress data).drop header.length =
      blocks (data.length / blockSize) data ++ trailer data from List.drop_left,
    unblock_blocks (trailer data) fits enough]
  simp

end Trail.Library.StoredGzip
