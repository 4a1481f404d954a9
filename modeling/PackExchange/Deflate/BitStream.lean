import PackExchange.Bytes

/-!
# Bit streams

A compressed run is read bit by bit, the lowest bit of a byte first, and at times byte by byte.

* `BitStream` — what is left of the byte begun, and the bytes after it;
* `BitStream.bit`, `BitStream.number` — one bit, and a number of a given width, lowest bit first;
* `BitStream.aligned` — the stream at the next whole byte;
* `Bytes.ofBits` — bits packed into bytes, the last byte filled up with zeros.
-/

namespace PackExchange

namespace Deflate

/-- Why a compressed run cannot be expanded. -/
inductive InflateError where
  /-- The run ends before its last block does. -/
  | truncated
  /-- The run breaks a rule of the format. -/
  | malformed
  /-- The expanded bytes exceed what was allowed. -/
  | tooLarge
  deriving DecidableEq, Repr

/-- A byte run read bit by bit: the bits left of the byte begun, and the whole bytes after it. -/
structure BitStream where
  begun : List Bool
  bytes : Bytes
  deriving DecidableEq, Repr

/-- The bits of a byte, lowest first. -/
def bitsOf (byte : UInt8) : List Bool := (List.range 8).map byte.toNat.testBit

namespace BitStream

/-- The stream of all bits of a run. -/
def ofBytes (bs : Bytes) : BitStream := ⟨[], bs⟩

/-- How many bits are left. -/
def size (s : BitStream) : Nat := s.begun.length + 8 * s.bytes.length

/-- The next bit. -/
def bit (s : BitStream) : Except InflateError (Bool × BitStream) :=
  match s with
  | ⟨b :: begun, bytes⟩ => .ok (b, ⟨begun, bytes⟩)
  | ⟨[], []⟩ => .error .truncated
  | ⟨[], byte :: bytes⟩ => .ok (byte.toNat.testBit 0, ⟨(bitsOf byte).drop 1, bytes⟩)

/-- A number of the given width in bits, lowest bit first. -/
def number : Nat → BitStream → Except InflateError (Nat × BitStream)
  | 0, s => .ok (0, s)
  | width + 1, s => do
    let (b, s) ← s.bit
    let (n, s) ← number width s
    return (b.toNat + 2 * n, s)

/-- The whole bytes that follow; the rest of the byte begun is skipped. -/
def aligned (s : BitStream) : Bytes := s.bytes

theorem size_bit {s t : BitStream} {b : Bool} (h : s.bit = .ok (b, t)) : t.size + 1 = s.size := by
  unfold bit at h
  split at h <;> simp_all [size, bitsOf]
  all_goals obtain ⟨_, rfl⟩ := h; simp; omega

end BitStream

end Deflate

namespace Bytes

/-- The number that bits denote, lowest first. -/
def ofBinary (bits : List Bool) : Nat := bits.foldr (fun b n => b.toNat + 2 * n) 0

/-- Packs bits into bytes, lowest first; the last byte is filled up with zeros. -/
def ofBits (bits : List Bool) : Bytes := go (bits.length / 8 + 1) bits []
where
  /-- Packs byte after byte onto those already packed, last first. -/
  go : Nat → List Bool → Bytes → Bytes
    | 0, _, packed => packed.reverse
    | fuel + 1, bits, packed =>
      if bits.isEmpty then packed.reverse
      else go fuel (bits.drop 8) (UInt8.ofNat (ofBinary (bits.take 8)) :: packed)

end Bytes

end PackExchange
