import PackExchange.Wire.VarInt

/-!
# Packet headers

A header is one variable-length word in front of every packet: bits 0 to 9 hold the packet id,
bits 10 and 11 the sending sub-client, bits 12 and 13 the receiving one.

* `Header.write` — the bytes of a header; what does not fit its bits is dropped;
* `Header.read?` — the header at the front of the bytes; higher bits are ignored.
-/

namespace PackExchange

/-- The header of a packet. -/
structure Header where
  packetId : UInt32 := 0
  sender : UInt8 := 0
  target : UInt8 := 0
  deriving DecidableEq, Repr, Inhabited

/-- Why a header could not be read. -/
inductive HeaderError where
  | truncated (cause : WireError)
  deriving DecidableEq, Repr

/-- The wording of a header error. -/
def HeaderError.message : HeaderError → String
  | .truncated cause => "truncated packet header: " ++ cause.message

namespace Header

/-- The word that holds all three parts. -/
def toWord (h : Header) : UInt32 :=
  UInt32.ofNat (h.packetId.toNat % 1024 + 1024 * (h.sender.toNat % 4) +
    4096 * (h.target.toNat % 4))

/-- The parts of a word. -/
def ofWord (w : UInt32) : Header :=
  { packetId := UInt32.ofNat (w.toNat % 1024)
    sender := UInt8.ofNat (w.toNat / 1024 % 4)
    target := UInt8.ofNat (w.toNat / 4096 % 4) }

/-- The bytes of a header. -/
def write (h : Header) : Bytes := VarInt.write32 h.toWord

/-- The header at the front of the bytes, and the bytes after it. -/
def read? (bs : Bytes) : Except HeaderError (Header × Bytes) :=
  match VarInt.read32 bs with
  | .error e => .error (.truncated e)
  | .ok (w, rest) => .ok (ofWord w, rest)

end Header

end PackExchange
