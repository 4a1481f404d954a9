import PackExchange.Frame.Connection
import PackExchange.Session.Role

/-!
# Sessions

A session runs one side over a connection.  It reacts to every packet at hand, then lets go on what
goes on beside reading, and waits.

* `Session` — a side, its connection, the frames it has written and how it ended;
* `Session.perform` — one deed on the stream;
* `Session.react` — the reaction to one raw packet;
* `Session.run` — everything up to the next wait;
* `Session.arrive`, `close`, `cancel`, `breakOff` — what happens to a session from outside.

A session that has ended does nothing any more.
-/

namespace PackExchange

/-- A frame that was written, and whether batches were compressed at that time. -/
structure Written where
  compressed : Bool
  frame : Bytes
  deriving DecidableEq, Repr

/-- A side of a session with its connection. -/
structure Session (σ ρ : Type) where
  side : σ
  connection : Connection := {}
  /-- Has the writer stopped? -/
  mute : Bool := false
  /-- The frames written since the last look at them, the latest first. -/
  written : List Written := []
  result : Option (Except SessionError ρ) := none

namespace Session

/-- Has the session ended? -/
def done {σ ρ : Type} (s : Session σ ρ) : Bool := s.result.isSome

/-- Has the session shut its stream down? -/
def closed {σ ρ : Type} (s : Session σ ρ) : Bool := s.connection.writer.closed

/-- Takes the frames that were written, oldest first. -/
def drain {σ ρ : Type} (s : Session σ ρ) : List Written × Session σ ρ :=
  (s.written.reverse, { s with written := [] })

/-! ### Writing -/

/-- Writes one packet as a batch of its own, if writing works. -/
def write? {σ ρ : Type} (role : Role σ ρ) (s : Session σ ρ) (p : Packet) : Option (Session σ ρ) :=
  (s.connection.write [p.toBytes (role.shield s.side)]).map fun frame =>
    let compressed := s.connection.writer.threshold.isSome
    { s with written := ⟨compressed, frame⟩ :: s.written }

/-- Writes packets one after another, until writing fails and the writer stops. -/
def writeAll {σ ρ : Type} (role : Role σ ρ) (s : Session σ ρ) : List Packet → Session σ ρ
  | [] => s
  | p :: ps =>
    match s.write? role p with
    | some s => writeAll role s ps
    | none => { s with mute := true }

/-- One deed on the stream.  A direct write that fails ends the session. -/
def perform {σ ρ : Type} (role : Role σ ρ) (s : Session σ ρ) (o : Outgoing) : Session σ ρ :=
  if s.done then s
  else
    match o with
    | .direct p => (s.write? role p).getD { s with result := some (.error .writing) }
    | .queued p =>
      if s.mute then s else s.writeAll role ((role.revision s.side).ofLatest p)
    | .compress threshold => { s with connection := s.connection.compress threshold }

/-- Several deeds on the stream. -/
def performAll {σ ρ : Type} (role : Role σ ρ) (s : Session σ ρ) (os : List Outgoing) :
    Session σ ρ :=
  os.foldl (perform role) s

/-- Ends the session, unless it has ended. -/
def finish {σ ρ : Type} (role : Role σ ρ) (s : Session σ ρ) (e : Ending ρ) : Session σ ρ :=
  if s.done then s
  else
    let connection :=
      if e.shutdown && !s.mute then
        { s.connection with writer := s.connection.writer.shutdown }
      else s.connection
    { s with side := role.cancel s.side, connection := connection, result := some e.result }

/-! ### Running -/

/-- Carries out a turn. -/
def carryOut {σ ρ : Type} (role : Role σ ρ) (s : Session σ ρ) (t : Turn σ ρ) : Session σ ρ :=
  let s := performAll role { s with side := t.side } t.outgoing
  match t.ending with
  | none => s
  | some e => s.finish role e

/-- The reaction to one raw packet. -/
def react {σ ρ : Type} (role : Role σ ρ) (s : Session σ ρ) (raw : Bytes) : Session σ ρ :=
  if s.done then s else s.carryOut role (role.take s.side raw)

/-- Lets go on what goes on beside reading. -/
def settle {σ ρ : Type} (role : Role σ ρ) (s : Session σ ρ) : Session σ ρ :=
  if s.done then s
  else
    let (side, outgoing) := role.settle s.side
    performAll role { s with side := side } outgoing

/-- Reacts to packets, at most `fuel` of them, until none is at hand. -/
def pump {σ ρ : Type} (role : Role σ ρ) : Nat → Session σ ρ → Session σ ρ
  | 0, s => s
  | fuel + 1, s =>
    if s.done then s
    else
      let (outcome, connection) := s.connection.read
      let s := { s with connection := connection }
      match outcome with
      | .packet raw => pump role fuel (s.react role raw)
      | .waiting => s
      | .failed cause => s.finish role (role.lose s.side (.framing cause))
      | .ended => s.finish role (role.lose s.side .closed)

/-- No more packets than these are at hand: every frame takes a byte at least, and holds at most as
many packets as a batch may have bytes. -/
def packetBound (c : Connection) : Nat :=
  c.reader.pending.length +
    (c.reader.buffered.length + c.inbound.arrived.length) * Batch.mostBytes

/-- Everything up to the next wait. -/
def run {σ ρ : Type} (role : Role σ ρ) (s : Session σ ρ) : Session σ ρ :=
  (s.pump role (packetBound s.connection + 1)).settle role

/-- A session before it reads anything; it has sent what it opens with. -/
def begin {σ ρ : Type} (role : Role σ ρ) (side : σ) (opening : List Outgoing) : Session σ ρ :=
  performAll role { side := side } opening

/-! ### From outside -/

/-- Bytes arrive. -/
def arrive {σ ρ : Type} (s : Session σ ρ) (bs : Bytes) : Session σ ρ :=
  { s with connection := { s.connection with inbound := s.connection.inbound.push bs } }

/-- The stream that is read from ends after what has arrived. -/
def close {σ ρ : Type} (s : Session σ ρ) : Session σ ρ :=
  { s with connection := { s.connection with inbound := s.connection.inbound.close } }

/-- From now on every write fails. -/
def breakOff {σ ρ : Type} (s : Session σ ρ) : Session σ ρ :=
  { s with connection := { s.connection with writer := s.connection.writer.breakOff } }

/-- The session is told to stop while it waits. -/
def cancel {σ ρ : Type} (role : Role σ ρ) (s : Session σ ρ) : Session σ ρ :=
  if s.done then s else s.finish role (role.lose s.side .cancelled)

end Session

end PackExchange
