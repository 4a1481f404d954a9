import PackExchange.Frame.Reader

/-!
# Connections

A connection reads packets from one stream and writes batches to another.

* `FrameWriter.write` — the frame that goes out, unless writing fails;
* `Connection.read`, `Connection.write` — the two directions together;
* `Connection.compress` — both directions compress from now on;
* `ReadHalf` and `Connection.split` — the two directions apart.
-/

namespace PackExchange

/-- The writing side of a connection. -/
structure FrameWriter where
  /-- From how many bytes on a body is compressed, once compression is agreed on. -/
  threshold : Option UInt16 := none
  /-- Does every write fail? -/
  broken : Bool := false
  /-- Has the stream been shut down? -/
  closed : Bool := false
  deriving DecidableEq, Repr

namespace FrameWriter

/-- The frame that packets go out as, if writing works. -/
def write (w : FrameWriter) (packets : List Bytes) : Option Bytes :=
  if w.broken then none else some (Frame.write w.threshold packets)

/-- From now on batches name their algorithm. -/
def compress (w : FrameWriter) (threshold : UInt16) : FrameWriter :=
  { w with threshold := some threshold }

/-- From now on every write fails. -/
def breakOff (w : FrameWriter) : FrameWriter := { w with broken := true }

/-- Shuts the stream down, which works on a broken one too. -/
def shutdown (w : FrameWriter) : FrameWriter := { w with closed := true }

end FrameWriter

/-- Both directions of a connection. -/
structure Connection where
  reader : FrameReader := {}
  inbound : Inbound := {}
  writer : FrameWriter := {}
  deriving DecidableEq, Repr

namespace Connection

/-- Takes the next packet. -/
def read (c : Connection) : FrameReader.Outcome × Connection :=
  let (outcome, reader, inbound) := c.reader.receive c.inbound
  (outcome, { c with reader := reader, inbound := inbound })

/-- The frame that packets go out as, if writing works. -/
def write (c : Connection) (packets : List Bytes) : Option Bytes := c.writer.write packets

/-- Both directions compress from now on. -/
def compress (c : Connection) (threshold : UInt16) : Connection :=
  { c with reader := c.reader.compress, writer := c.writer.compress threshold }

end Connection

/-- The reading half of a connection that was split. -/
structure ReadHalf where
  reader : FrameReader
  inbound : Inbound
  deriving DecidableEq, Repr

namespace ReadHalf

/-- Takes the next packet. -/
def read (h : ReadHalf) : FrameReader.Outcome × ReadHalf :=
  let (outcome, reader, inbound) := h.reader.receive h.inbound
  (outcome, { reader := reader, inbound := inbound })

/-- From now on batches name their algorithm. -/
def compress (h : ReadHalf) : ReadHalf := { h with reader := h.reader.compress }

end ReadHalf

/-- The two halves of a connection.  What has been read and the agreement on compression go with
them. -/
def Connection.split (c : Connection) : ReadHalf × FrameWriter :=
  ({ reader := c.reader, inbound := c.inbound }, c.writer)

end PackExchange
