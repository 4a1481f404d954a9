import PackExchange.Session.Basic

/-!
# The two ends of a connection

Reading and writing go on beside each other.  What a session wants written waits in an outbox; a
writer of its own takes one thing after another from there.  The reading side takes up the stream
in pieces of any length.

* `Endpoint` — a connection with an outbox;
* `Endpoint.post` — leaves something to the writer;
* `Endpoint.Read` — what the reading side may do next;
* `Batched` and `FrameWriter.carryOut` — what the writer makes of one entry of the outbox;
* `Endpoint.flush`, `receive`, `shutdown`, `hangUp` — what happens at the two ends of a stream.

Frames depend on what compresses their batches, which is the parameter `z` throughout.
-/

namespace PackExchange

/-- Does a deed switch compression on? -/
def Outgoing.compresses : Outgoing → Bool
  | .compress _ => true
  | _ => false

/-- One end of a connection, with what waits to be written. -/
structure Endpoint extends Connection where
  outbox : List Outgoing := []

namespace Endpoint

/-- Leaves deeds to the writer.  The reader is told at once if batches are compressed from now
on. -/
def post (e : Endpoint) (os : List Outgoing) : Endpoint :=
  { e with
    outbox := e.outbox ++ os
    reader := if os.any Outgoing.compresses then e.reader.compress else e.reader }

/-- What the reading side may do next.  It looks at the stream only when it holds no packet and no
whole frame. -/
inductive Read (e : Endpoint) : FrameReader.Outcome → Endpoint → Prop
  | more {r : FrameReader} {n : Nat} (hnext : e.reader.next = (.waiting, r)) (hn : 0 < n)
      (hmost : n ≤ e.inbound.arrived.length) :
      Read e .waiting
        { e with
          reader := r.feed (e.inbound.arrived.take n)
          inbound := { e.inbound with arrived := e.inbound.arrived.drop n } }
  | packet {r : FrameReader} {raw : Bytes} (hnext : e.reader.next = (.packet raw, r)) :
      Read e (.packet raw) { e with reader := r }
  | failed {r : FrameReader} {cause : FrameError} (hnext : e.reader.next = (.failed cause, r)) :
      Read e (.failed cause) { e with reader := r }
  | ended {r : FrameReader} (hnext : e.reader.next = (.waiting, r))
      (harrived : e.inbound.arrived = []) (hclosed : e.inbound.closed = true) :
      Read e .ended { e with reader := r }

end Endpoint

/-- A packet that was written, as the only one of its batch. -/
structure Batched where
  threshold : Option UInt16
  packet : Bytes

/-- The frame that goes out. -/
def Batched.frame (z : Bytes → Bytes) (b : Batched) : Bytes :=
  Frame.writeWith z b.threshold [b.packet]

/-- Are the batch and its frame no larger than they may be? -/
def Batched.Fits (z : Bytes → Bytes) (b : Batched) : Prop :=
  (Batch.body [b.packet]).length ≤ Batch.mostBytes ∧
    (Batch.writeWith z b.threshold [b.packet]).length ≤ Frame.mostBytes

instance (z : Bytes → Bytes) (b : Batched) : Decidable (b.Fits z) :=
  inferInstanceAs (Decidable (_ ∧ _))

/-- What the writer does with one entry of the outbox, and the writer afterwards.  A packet that is
written directly has the form of the revision already. -/
def FrameWriter.carryOut (shield : Int32) (revision : Revision) (w : FrameWriter) :
    Outgoing → List Batched × FrameWriter
  | .direct p => ([⟨w.threshold, p.toBytes shield⟩], w)
  | .queued p => ((revision.ofLatest p).map fun q => ⟨w.threshold, q.toBytes shield⟩, w)
  | .compress threshold => ([], w.compress threshold)

namespace Endpoint

/-- The writer takes one entry out of the outbox. -/
def flush (shield : Int32) (revision : Revision) (e : Endpoint) : List Batched × Endpoint :=
  match e.outbox with
  | [] => ([], e)
  | o :: os =>
    let (bs, w) := e.writer.carryOut shield revision o
    (bs, { e with writer := w, outbox := os })

/-- Frames arrive. -/
def receive (z : Bytes → Bytes) (e : Endpoint) (bs : List Batched) : Endpoint :=
  { e with inbound := e.inbound.push (bs.flatMap (Batched.frame z)) }

/-- The writer shuts the stream down. -/
def shutdown (e : Endpoint) : Endpoint := { e with writer := e.writer.shutdown }

/-- Nothing more will arrive. -/
def hangUp (e : Endpoint) : Endpoint := { e with inbound := e.inbound.close }

end Endpoint

end PackExchange
