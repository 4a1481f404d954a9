import PackExchange.Uuid
import PackExchange.Wire.Text
import PackExchange.Wire.VarInt

/-!
# Single fields

A `Scalar α` names one way to put a value of type `α` on the wire: words of a fixed width,
variable-length integers, identifiers, byte runs and text.

* `Scalar.write` — the bytes of a value;
* `Scalar.read` — the value at the front of the bytes, and the bytes after it.

Words are written least significant byte first, except where the name says otherwise.
Byte runs and text carry their length in front as a variable-length word.
-/

namespace PackExchange

/-- A single-precision number, held as its bits so that every value survives a round trip. -/
structure Binary32 where
  bits : UInt32
  deriving DecidableEq, Repr, Inhabited

/-- A kind of field, indexed by the type of its values. -/
inductive Scalar : Type → Type where
  | byte : Scalar UInt8
  /-- Zero is false; any other byte is true. -/
  | flag : Scalar Bool
  | word16 : Scalar UInt16
  | word32 : Scalar UInt32
  | word64 : Scalar UInt64
  | int32 : Scalar Int32
  /-- Most significant byte first. -/
  | int32BE : Scalar Int32
  | int64 : Scalar Int64
  | float32 : Scalar Binary32
  | varWord32 : Scalar UInt32
  | varInt32 : Scalar Int32
  | varWord64 : Scalar UInt64
  | varInt64 : Scalar Int64
  /-- The upper half first, each half least significant byte first. -/
  | uuid : Scalar Uuid
  | blob : Scalar Bytes
  | text : Scalar String

namespace Scalar

/-- Bytes with their length in front. -/
def writeBlob (bs : Bytes) : Bytes := VarInt.write32 (UInt32.ofNat bs.length) ++ bs

/-- The bytes a field takes for a value. -/
def write {α : Type} : Scalar α → α → Bytes
  | byte, v => [v]
  | flag, v => [if v then 1 else 0]
  | word16, v => Bytes.little 2 v.toNat
  | word32, v => Bytes.little 4 v.toNat
  | word64, v => Bytes.little 8 v.toNat
  | int32, v => Bytes.little 4 v.toUInt32.toNat
  | int32BE, v => (Bytes.little 4 v.toUInt32.toNat).reverse
  | int64, v => Bytes.little 8 v.toUInt64.toNat
  | float32, v => Bytes.little 4 v.bits.toNat
  | varWord32, v => VarInt.write32 v
  | varInt32, v => VarInt.write32 (VarInt.fold32 v)
  | varWord64, v => VarInt.write64 v
  | varInt64, v => VarInt.write64 (VarInt.fold64 v)
  | uuid, v => Bytes.little 8 v.high.toNat ++ Bytes.little 8 v.low.toNat
  | blob, v => writeBlob v
  | text, v => writeBlob (Bytes.ofText v)

/-- Takes `n` bytes off the front, or says how many are missing. -/
def take (n : Nat) (bs : Bytes) : Except WireError (Bytes × Bytes) :=
  match bs.split? n with
  | some parts => .ok parts
  | none => .error (.notEnoughData n bs.length)

/-- Reads `n` bytes and makes a value of them. -/
def readFixed {α : Type} (n : Nat) (make : Bytes → α) (bs : Bytes) :
    Except WireError (α × Bytes) :=
  match take n bs with
  | .error e => .error e
  | .ok (front, rest) => .ok (make front, rest)

/-- Reads a variable-length word and makes a value of it. -/
def readVar32 {α : Type} (make : UInt32 → α) (bs : Bytes) : Except WireError (α × Bytes) :=
  match VarInt.read32 bs with
  | .error e => .error e
  | .ok (v, rest) => .ok (make v, rest)

/-- Reads a variable-length long word and makes a value of it. -/
def readVar64 {α : Type} (make : UInt64 → α) (bs : Bytes) : Except WireError (α × Bytes) :=
  match VarInt.read64 bs with
  | .error e => .error e
  | .ok (v, rest) => .ok (make v, rest)

/-- Reads a length and then that many bytes. -/
def readBlob (bs : Bytes) : Except WireError (Bytes × Bytes) :=
  match VarInt.read32 bs with
  | .error e => .error e
  | .ok (n, rest) => take n.toNat rest

/-- Reads a length and then a text of that many bytes. -/
def readText (bs : Bytes) : Except WireError (String × Bytes) :=
  match readBlob bs with
  | .error e => .error e
  | .ok (front, rest) =>
    match front.toText? with
    | some s => .ok (s, rest)
    | none => .error .invalidUtf8

/-- The value at the front of the bytes, and the bytes after it. -/
def read {α : Type} : Scalar α → Bytes → Except WireError (α × Bytes)
  | byte => readFixed 1 fun bs => UInt8.ofNat bs.ofLittle
  | flag => readFixed 1 fun bs => bs.ofLittle != 0
  | word16 => readFixed 2 fun bs => UInt16.ofNat bs.ofLittle
  | word32 => readFixed 4 fun bs => UInt32.ofNat bs.ofLittle
  | word64 => readFixed 8 fun bs => UInt64.ofNat bs.ofLittle
  | int32 => readFixed 4 fun bs => (UInt32.ofNat bs.ofLittle).toInt32
  | int32BE => readFixed 4 fun bs => (UInt32.ofNat (Bytes.ofLittle bs.reverse)).toInt32
  | int64 => readFixed 8 fun bs => (UInt64.ofNat bs.ofLittle).toInt64
  | float32 => readFixed 4 fun bs => ⟨UInt32.ofNat bs.ofLittle⟩
  | varWord32 => readVar32 id
  | varInt32 => readVar32 VarInt.unfold32
  | varWord64 => readVar64 id
  | varInt64 => readVar64 VarInt.unfold64
  | uuid => readFixed 16 fun bs =>
      ⟨UInt64.ofNat (Bytes.ofLittle (bs.take 8)), UInt64.ofNat (Bytes.ofLittle (bs.drop 8))⟩
  | blob => readBlob
  | text => readText

end Scalar

end PackExchange
