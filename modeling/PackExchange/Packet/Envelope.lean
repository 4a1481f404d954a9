import PackExchange.Packet.Header
import PackExchange.Packet.Revision

/-!
# Packets with their header

* `RawPacket.parse` — splits a raw packet into header and payload;
* `RawPacket.decode` — the payload as packets of the latest revision, under a `Policy`;
* `Packet.encode` — a packet with its header, as bytes.

A policy says what happens to a packet that is not clean.  An unknown id is an error or an
unknown packet; bytes left unread are an error or a warning that comes with the packets; a
payload that cannot be read is always an error, and the policy says whether it ends the session.
-/

namespace PackExchange

/-- What to do with packets that are not clean, and how to read the others. -/
structure Policy where
  disconnectOnUnknown : Bool := false
  disconnectOnInvalid : Bool := false
  /-- The network id of the shield item. -/
  shield : Int32 := 0
  limits : Bool := false
  deriving DecidableEq, Repr, Inhabited

/-- Why a packet could not be decoded, or not cleanly. -/
inductive DecodeError where
  | unknownPacket (id : UInt32)
  | malformed (kind : Packet.Kind) (cause : WireError)
  | trailingBytes (kind : Packet.Kind) (remaining : Nat)
  deriving DecidableEq, Repr

namespace DecodeError

/-- How a packet is named in messages. -/
def subject (kind : Packet.Kind) : String := s!"decode packet {kind.name} (ID={kind.id}): "

/-- The wording of a decode error. -/
def message : DecodeError → String
  | unknownPacket id => s!"unexpected packet (ID={id})"
  | malformed kind cause => subject kind ++ cause.message
  | trailingBytes kind remaining => subject kind ++ s!"{remaining} unread bytes left"

/-- Must the session end? -/
def disconnects (policy : Policy) : DecodeError → Bool
  | unknownPacket _ => policy.disconnectOnUnknown
  | malformed .. | trailingBytes .. => policy.disconnectOnInvalid

end DecodeError

/-- Packets of the latest revision, and what was not clean about them. -/
structure Decoded where
  packets : List Packet
  warning : Option DecodeError := none
  deriving DecidableEq

/-- A packet split into header and payload, not yet decoded. -/
structure RawPacket where
  header : Header
  payload : Bytes
  deriving DecidableEq, Repr

namespace RawPacket

/-- Splits off the header. -/
def parse (bs : Bytes) : Except HeaderError RawPacket :=
  match Header.read? bs with
  | .error e => .error e
  | .ok (header, payload) => .ok ⟨header, payload⟩

/-- The payload of a known kind, as packets of the latest revision. -/
def decodeKnown (revision : Revision) (policy : Policy) (kind : Packet.Kind) (payload : Bytes) :
    Except DecodeError Decoded :=
  match (kind.layout policy.shield).read policy.limits payload with
  | .error cause => .error (.malformed kind cause)
  | .ok (body, rest) =>
    let packets := revision.toLatest (.known kind body)
    if rest.isEmpty then .ok ⟨packets, none⟩
    else
      let fault := DecodeError.trailingBytes kind rest.length
      if policy.disconnectOnInvalid then .error fault else .ok ⟨packets, some fault⟩

/-- The payload, as packets of the latest revision. -/
def decode (revision : Revision) (policy : Policy) (raw : RawPacket) :
    Except DecodeError Decoded :=
  match revision.kind? raw.header.packetId with
  | some kind => decodeKnown revision policy kind raw.payload
  | none =>
    if policy.disconnectOnUnknown then .error (.unknownPacket raw.header.packetId)
    else .ok ⟨revision.toLatest (.unknown raw.header.packetId raw.payload), none⟩

end RawPacket

/-- A packet with its header, as bytes. -/
def Packet.encode (shield : Int32) (header : Header) (p : Packet) : Bytes :=
  header.write ++ p.payload shield

/-- A packet under its own id, as bytes. -/
def Packet.toBytes (shield : Int32) (p : Packet) : Bytes := p.encode shield { packetId := p.id }

end PackExchange
