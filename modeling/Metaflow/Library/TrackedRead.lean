import Mathlib.Data.List.Basic

/-!
# Reads that are recorded

Decoders read numbers out of slices of a buffer. A computation in `Reading`
records the ranges of the buffer that it reads, in order, and fails when a
range leaves the buffer.
-/

namespace Metaflow.Library

/-- Ranges of positions: the first, and the one behind the last. -/
abbrev Ranges := List (Nat × Nat)

/-- Computations that read ranges of a buffer. -/
abbrev Reading := StateT Ranges Option

/-- The part of a buffer from `offset` on. -/
structure Slice where
  bytes : List UInt8
  offset : Nat

namespace Slice

/-- The length of the part. -/
def length (slice : Slice) : Nat :=
  slice.bytes.length - slice.offset

/-- The part from a later position on. -/
def after (slice : Slice) (start : Nat) : Slice :=
  { slice with offset := slice.offset + start }

/-- The bytes of a range. -/
def range (slice : Slice) (start count : Nat) : List UInt8 :=
  (slice.bytes.drop (slice.offset + start)).take count

/-- Read a range. -/
def read (slice : Slice) (start count : Nat) : Reading (List UInt8) :=
  fun ranges =>
    if slice.offset + start + count ≤ slice.bytes.length then
      some (slice.range start count,
        ranges ++ [(slice.offset + start, slice.offset + start + count)])
    else none

theorem run_read {slice : Slice}
    (inside : slice.offset + start + count ≤ slice.bytes.length) (ranges : Ranges) :
    (slice.read start count).run ranges = some (slice.range start count,
        ranges ++ [(slice.offset + start, slice.offset + start + count)]) :=
  if_pos inside

end Slice

/-- The number with the most significant byte first. -/
def bigEndian (bytes : List UInt8) : Nat :=
  bytes.foldl (fun value byte => value * 256 + byte.toNat) 0

/-- The number with the least significant byte first. -/
def littleEndian (bytes : List UInt8) : Nat :=
  bytes.foldr (fun byte value => byte.toNat + 256 * value) 0

end Metaflow.Library
