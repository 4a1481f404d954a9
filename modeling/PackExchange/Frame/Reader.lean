import PackExchange.Frame.Batch

/-!
# Reading packets from a stream

A stream arrives in pieces.  A reader keeps the bytes that are not a whole frame yet and the
packets of the last batch that nobody has taken, and looks at the stream only when it has to.

* `FrameReader.next` — the next packet out of what the reader holds;
* `FrameReader.feed` — takes up another piece of the stream;
* `Inbound` — what has arrived on a stream and was not read yet;
* `FrameReader.receive` — the next packet, reading from the stream as needed.

A batch that cannot be read is dropped as a whole and reading goes on with the next frame; a
length that no frame may have stays in place, and every later attempt fails as well.
-/

namespace PackExchange

/-- The reading side of a connection. -/
structure FrameReader where
  /-- Is compression agreed on? -/
  compressed : Bool := false
  /-- Bytes that have been read from the stream and not been interpreted. -/
  buffered : Bytes := []
  /-- The packets of the last batch that nobody has taken. -/
  pending : List Bytes := []
  deriving DecidableEq, Repr

namespace FrameReader

/-! ### What the reader holds -/

/-- What comes out of an attempt to take a packet. -/
inductive Outcome where
  | packet (bs : Bytes)
  | waiting
  | failed (cause : FrameError)
  /-- The stream has ended. -/
  | ended
  deriving DecidableEq, Repr

/-- The wording of the end of a stream. -/
def Outcome.endedMessage : String := "Connection closed"

/-- Takes the first packet of at most `fuel` frames. -/
def nextOf : Nat → FrameReader → Outcome × FrameReader
  | fuel, r =>
    match r.pending with
    | packet :: pending => (.packet packet, { r with pending := pending })
    | [] =>
      if r.buffered.isEmpty then (.waiting, r)
      else
        match Frame.split? r.buffered with
        | .error cause => (.failed cause, r)
        | .ok none => (.waiting, r)
        | .ok (some (batch, rest)) =>
          match Batch.read r.compressed batch with
          | .error cause => (.failed cause, { r with buffered := rest })
          | .ok packets =>
            match fuel with
            | 0 => (.waiting, { r with buffered := rest, pending := packets })
            | fuel + 1 => nextOf fuel { r with buffered := rest, pending := packets }

/-- The next packet out of what the reader holds.  Every frame takes a byte at least. -/
def next (r : FrameReader) : Outcome × FrameReader := nextOf (r.buffered.length + 1) r

/-- Takes up another piece of the stream. -/
def feed (r : FrameReader) (piece : Bytes) : FrameReader :=
  { r with buffered := r.buffered ++ piece }

/-- From now on batches name their algorithm. -/
def compress (r : FrameReader) : FrameReader := { r with compressed := true }

end FrameReader

/-! ### The stream -/

/-- What has arrived on a stream and was not read yet, and whether more may follow. -/
structure Inbound where
  arrived : Bytes := []
  closed : Bool := false
  deriving DecidableEq, Repr

namespace Inbound

/-- More bytes arrive. -/
def push (i : Inbound) (bs : Bytes) : Inbound := { i with arrived := i.arrived ++ bs }

/-- Nothing follows what has arrived. -/
def close (i : Inbound) : Inbound := { i with closed := true }

/-- How many bytes are read from a stream at once. -/
def readSize : Nat := 4096

end Inbound

namespace FrameReader

/-- How many bytes the frame that is waited for still lacks, at least; never less than one. -/
def lacking (r : FrameReader) : Nat :=
  match VarInt.read32 r.buffered with
  | .ok (length, rest) => max 1 (length.toNat - rest.length)
  | .error _ => 1

/-- How many bytes are read before the frame is looked at again: as many reads as it lacks. -/
def appetite (r : FrameReader) : Nat :=
  (r.lacking + Inbound.readSize - 1) / Inbound.readSize * Inbound.readSize

/-- Takes the next packet, turning at most `fuel` times to the stream. -/
def receiveOf : Nat → FrameReader → Inbound → Outcome × FrameReader × Inbound
  | 0, r, i => (.waiting, r, i)
  | fuel + 1, r, i =>
    match r.next with
    | (.waiting, r) =>
      if i.arrived.isEmpty then (if i.closed then .ended else .waiting, r, i)
      else
        receiveOf fuel (r.feed (i.arrived.take r.appetite))
          { i with arrived := i.arrived.drop r.appetite }
    | (outcome, r) => (outcome, r, i)

/-- Takes the next packet, reading from the stream as long as one is missing.  Every turn to the
stream takes a byte at least. -/
def receive (r : FrameReader) (i : Inbound) : Outcome × FrameReader × Inbound :=
  receiveOf (i.arrived.length + 2) r i

end FrameReader

end PackExchange
