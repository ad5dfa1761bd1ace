/-
**What a deduplication token identifies.**

The token of an insertion is the digest of the sorted identities of its batches, joined with vertical
bars. An identity is read from its end: an identifier of 26 characters, the digits of the sequence and
the stream, which may hold colons of its own (`render_injective`). So the joined text gives back the
deliveries up to their order, as long as no stream has a vertical bar in its name (`joined_eq_iff`).

SHA-256 is a parameter. That it has no collision is assumed of the two texts compared, since no
function into 32 bytes is injective on all texts.
-/

import Trail.ClickHouse.Events
import Trail.Library.Separators
import Trail.Wire.Decimal

namespace Trail.ClickHouse

open Library

/-- The delivery an identity stands for. -/
def delivered (batch : Storage.Batch) : GoString × UInt64 × EventID :=
  (batch.delivery.stream, batch.delivery.streamSequence, batch.batchID)

/-- The byte identities are joined with. -/
def bar : UInt8 := 124

/-- The text a token is the digest of. -/
def joined (batches : List Storage.Batch) : GoString :=
  (ascii "|").intercalate ((batches.map identity).insertionSort (· ≤ ·))

/-- The token an insertion is prepared with. -/
def usedToken {α : Type} : Prog signature α → Option GoString
  | .call (.prepareBatch token) _ => some token
  | _ => none

theorem usedToken_writeBatches (sha256 : List UInt8 → Bytes 32)
    (marshal : List Storage.PayloadLink → Option GoError) (batches : List Storage.Batch) :
    usedToken (writeBatches sha256 marshal batches) =
      if batches = [] then none else some (Hex.encodeToString (sha256 (joined batches)).1) := by
  unfold writeBatches
  split <;> rfl

/-! ### Identities -/

/-- The text of a delivery. -/
def render (delivery : GoString × UInt64 × EventID) : GoString :=
  delivery.1 ++ ascii ":" ++ Wire.decimal delivery.2.1.toNat ++ ascii ":" ++ encodeID delivery.2.2

theorem render_injective : Function.Injective render := by
  rintro ⟨stream, sequence, id⟩ ⟨stream', sequence', id'⟩ same
  dsimp only [render] at same
  obtain ⟨starts, ids⟩ := List.append_inj' same (by simp)
  obtain ⟨starts, -⟩ := List.append_inj' starts rfl
  rw [List.append_assoc, List.append_assoc] at starts
  obtain ⟨rfl, digits⟩ := append_cons_inj_last (Wire.colon_not_mem_decimal _)
    (Wire.colon_not_mem_decimal _) starts
  have numbers : some sequence.toNat = some sequence'.toNat :=
    (Wire.digitsValue_repr _).symm.trans ((congrArg Wire.digitsValue digits).trans
      (Wire.digitsValue_repr _))
  rw [encodeID_injective ids, UInt64.toNat_inj.mp (Option.some.inj numbers)]

theorem map_identity (batches : List Storage.Batch) :
    batches.map identity = (batches.map delivered).map render := by
  rw [List.map_map]
  rfl

theorem bar_not_mem_identity {batch : Storage.Batch} (plain : bar ∉ batch.delivery.stream) :
    bar ∉ identity batch := by
  have digits : bar ∉ Wire.decimal batch.delivery.streamSequence.toNat := fun member =>
    absurd (Wire.isDigit_repr member) (by decide)
  have letters : bar ∉ encodeID batch.batchID := fun member =>
    absurd (mem_encodeID member) (by decide)
  simp only [identity, List.mem_append, not_or]
  exact ⟨⟨⟨⟨plain, by decide⟩, digits⟩, by decide⟩, letters⟩

/-! ### Joined identities -/

/-- No stream of a batch has a vertical bar in its name. -/
def Barless (batches : List Storage.Batch) : Prop := ∀ batch ∈ batches, bar ∉ batch.delivery.stream

theorem separable_identities {batches : List Storage.Batch} (plain : Barless batches) :
    Separable bar ((batches.map identity).insertionSort (· ≤ ·)) := by
  intro text member
  obtain ⟨batch, among, rfl⟩ := List.mem_map.mp ((List.mem_insertionSort _).mp member)
  refine ⟨?_, bar_not_mem_identity (plain batch among)⟩
  exact List.append_ne_nil_of_right_ne_nil _ (encodeID_ne_nil batch.batchID)

/-- **The joined text determines the deliveries, up to their order.** -/
theorem joined_eq_iff {first second : List Storage.Batch} (left : Barless first)
    (right : Barless second) :
    joined first = joined second ↔ (first.map delivered).Perm (second.map delivered) := by
  rw [← List.map_perm_map_iff render_injective, ← map_identity, ← map_identity]
  constructor
  · intro same
    have sorted := intercalate_inj (separable_identities left) (separable_identities right) same
    have ordered := List.perm_insertionSort (· ≤ ·) (second.map identity)
    rw [← sorted] at ordered
    exact (List.perm_insertionSort _ _).symm.trans ordered
  · intro perm
    have sorted : (first.map identity).insertionSort (· ≤ ·) =
        (second.map identity).insertionSort (· ≤ ·) := by
      refine List.Perm.eq_of_pairwise' (List.pairwise_insertionSort _ _)
        (List.pairwise_insertionSort _ _) ?_
      exact (List.perm_insertionSort _ _).trans (perm.trans (List.perm_insertionSort _ _).symm)
    rw [joined, joined, sorted]

/-- **A token identifies the set of deliveries it was made for.** -/
theorem same_token_iff (sha256 : List UInt8 → Bytes 32)
    (marshal : List Storage.PayloadLink → Option GoError) (first second : List Storage.Batch)
    (left : Barless first) (right : Barless second)
    (noCollision : sha256 (joined first) = sha256 (joined second) → joined first = joined second) :
    usedToken (writeBatches sha256 marshal first) = usedToken (writeBatches sha256 marshal second) ↔
      (first.map delivered).Perm (second.map delivered) := by
  rw [usedToken_writeBatches, usedToken_writeBatches]
  by_cases none_ : first = []
  · subst none_
    by_cases none' : second = [] <;> simp [none']
  by_cases none' : second = []
  · subst none'
    simp [none_]
  rw [if_neg none_, if_neg none', Option.some.injEq, Hex.encodeToString_injective.eq_iff,
    ← Subtype.ext_iff, ← joined_eq_iff left right]
  exact ⟨noCollision, fun same => congrArg sha256 same⟩

/-- A batch of a stream whose name holds colons. -/
def colonBatch (sequence : UInt64) : Storage.Batch :=
  ⟨Bytes.zero 16, ⟨[], [], []⟩, { stream := ascii "a:1", streamSequence := sequence }, []⟩

/-- A digest that tells texts of different lengths apart. -/
def lengthDigest (text : List UInt8) : Bytes 32 := Payload.digestOf text.length

/-- Two batches in either order have one token, and a batch of another sequence has its own. -/
theorem swapped_same_token :
    usedToken (writeBatches lengthDigest (fun _ => none) [colonBatch 1, colonBatch 12]) =
      usedToken (writeBatches lengthDigest (fun _ => none) [colonBatch 12, colonBatch 1]) ∧
    usedToken (writeBatches lengthDigest (fun _ => none) [colonBatch 1]) ≠
      usedToken (writeBatches lengthDigest (fun _ => none) [colonBatch 12]) := by
  have plain : ∀ sequence, bar ∉ (colonBatch sequence).delivery.stream := fun _ =>
    (by decide : bar ∉ ascii "a:1")
  have swapped := List.Perm.swap (colonBatch 12) (colonBatch 1) []
  constructor
  · refine (same_token_iff lengthDigest _ _ _ ?_ ?_ ?_).mpr (swapped.map delivered)
    · simp [Barless, plain]
    · simp [Barless, plain]
    · exact fun _ => (joined_eq_iff (by simp [Barless, plain]) (by simp [Barless, plain])).mpr
        (swapped.map delivered)
  · intro same
    have perm := (same_token_iff lengthDigest (fun _ => none) [colonBatch 1] [colonBatch 12]
      (by simp [Barless, plain]) (by simp [Barless, plain])
      (fun equal => absurd equal (by decide))).mp same
    exact absurd perm (by decide)

end Trail.ClickHouse
