import PackExchange.Deflate.BitStream
import PackExchange.Text.Hex
import PackExchange.Wire.Error

/-!
# What can be wrong with a frame

* `FrameError` — the causes, with `FrameError.message`;
* `Frame.mostBytes` and `Batch.mostBytes` — how much one frame and one batch may hold.
-/

namespace PackExchange

/-- The most bytes that a frame may hold. -/
def Frame.mostBytes : Nat := 16 * 1024 * 1024

/-- The most bytes that a batch may hold once it is expanded. -/
def Batch.mostBytes : Nat := 32 * 1024 * 1024

/-- Why no packets can be taken from a stream of frames. -/
inductive FrameError where
  /-- A length or a packet's length cannot be read. -/
  | unreadable (cause : WireError)
  /-- The frame announces more bytes than a frame may hold. -/
  | tooLong (length : Nat)
  | notBatch
  | noAlgorithm
  | unknownAlgorithm (tag : UInt8)
  | notExpandable (cause : Deflate.InflateError)
  | packetTooLong (length remaining : Nat)
  deriving DecidableEq, Repr

/-- The wording of a cause. -/
def FrameError.message : FrameError → String
  | unreadable cause => cause.message
  | tooLong length => s!"Frame of {length} bytes exceeds limit of {Frame.mostBytes}"
  | notBatch => "Frame is not a packet batch"
  | noAlgorithm => "Batch is missing its compression algorithm"
  | unknownAlgorithm tag =>
    "Unknown compression algorithm 0x" ++
      String.ofList ((Hex.digits 2 tag.toNat).map Char.toUpper)
  | notExpandable .tooLarge => s!"Decompressed batch exceeds {Batch.mostBytes} bytes"
  | notExpandable _ => "corrupt deflate stream"
  | packetTooLong length remaining =>
    s!"Packet length {length} exceeds remaining batch size {remaining}"

end PackExchange
