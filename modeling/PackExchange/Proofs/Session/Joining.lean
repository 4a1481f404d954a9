import PackExchange.Proofs.Session.Endpoint
import PackExchange.Proofs.Transfer.Course
import PackExchange.Session.Join

/-!
# A client's session, step by step

The receive loop and the download workers of a client run beside each other.  The loop reads the
stage, handles a packet and looks whether the exchange is complete in steps of their own, and any
worker may go on between two of them.

* `Position` — what the receive loop is doing;
* `Joining` — a client's session while it runs;
* `Joining.Inner` — what the session may do by itself;
* `Joining.Step` — also what may happen to it from outside;
* `Joining.Reachable` — the states that sessions come to from the start.
-/

namespace PackExchange

/-- What the receive loop of a client is doing. -/
inductive Position where
  /-- It has packets to look at; it reads when there are none. -/
  | looking (ps : List Packet)
  /-- It is about to handle an admitted packet, and has others to look at. -/
  | holding (p : Packet) (ps : List Packet)
  /-- It has handled a packet and is about to see whether the exchange is complete. -/
  | checking (ps : List Packet)

namespace Position

/-- The packets that were read and not handled yet. -/
def packets : Position → List Packet
  | looking ps | checking ps => ps
  | holding p ps => p :: ps

/-- The packet that was admitted and not handled yet. -/
def held : Position → Option Packet
  | holding p _ => some p
  | _ => none

/-- Is there nothing left to do but to read? -/
def idle : Position → Bool
  | looking [] => true
  | _ => false

theorem eq_of_idle {p : Position} (h : p.idle = true) : p = .looking [] := by
  cases p with
  | looking ps =>
    cases ps with
    | nil => rfl
    | cons p ps => cases h
  | holding p ps | checking ps => cases h

end Position

/-- A client's session while it runs. -/
structure Joining where
  join : Join
  endpoint : Endpoint := {}
  position : Position := .looking []
  /-- What was handled, in order. -/
  handled : List Handled := []
  result : Option (Except SessionError (List Pack)) := none

namespace Joining

/-- A session at its start. -/
def start (j : Join) : Joining := { join := j, endpoint := Endpoint.post {} j.opening }

/-- Takes up the packets of a raw packet, or ends over it. -/
def take (j : Joining) (raw : Bytes) : Joining :=
  match openRaw j.join.revision j.join.settings.policy raw with
  | .error e => { j with result := some (j.join.lose e).result }
  | .ok ps => { j with position := .looking ps }

/-- Goes on after an attempt to read. -/
def react (j : Joining) : FrameReader.Outcome → Joining
  | .waiting => j
  | .packet raw => j.take raw
  | .failed cause => { j with result := some (j.join.lose (.framing cause)).result }
  | .ended => { j with result := some (j.join.lose .closed).result }

/-- Handles a packet. -/
def handle (j : Joining) (p : Packet) (ps : List Packet) : Joining :=
  let turn := j.join.handle p
  { join := turn.side
    endpoint := j.endpoint.post turn.outgoing
    position := .checking ps
    handled := j.handled ++ [⟨p, (j.join.fetch.take p).2.2⟩]
    result := turn.ending.map (·.result) }

/-- Ends if the exchange is complete. -/
def check (j : Joining) (ps : List Packet) : Joining :=
  { j with position := .looking ps, result := j.join.conclude.ending.map (·.result) }

/-- Lets the worker of one download take one step. -/
def work (j : Joining) (k : Nat) (slotFirst : Bool) : Joining :=
  { j with
    join := { j.join with fetch := (j.join.fetch.work k slotFirst).1 }
    endpoint := j.endpoint.post ((j.join.fetch.work k slotFirst).2.map .queued) }

/-- What the session may do by itself. -/
inductive Inner : Joining → Joining → Prop
  | read {j : Joining} {o : FrameReader.Outcome} {e : Endpoint} (hresult : j.result = none)
      (hposition : j.position = .looking []) (hread : j.endpoint.Read o e) :
      Inner j ({ j with endpoint := e }.react o)
  | skip {j : Joining} {p : Packet} {ps : List Packet} (hresult : j.result = none)
      (hposition : j.position = .looking (p :: ps))
      (hadmits : j.join.fetch.stage.admits p = false) : Inner j { j with position := .looking ps }
  | hold {j : Joining} {p : Packet} {ps : List Packet} (hresult : j.result = none)
      (hposition : j.position = .looking (p :: ps))
      (hadmits : j.join.fetch.stage.admits p = true) :
      Inner j { j with position := .holding p ps }
  | handle {j : Joining} {p : Packet} {ps : List Packet} (hresult : j.result = none)
      (hposition : j.position = .holding p ps) : Inner j (j.handle p ps)
  | check {j : Joining} {ps : List Packet} (hresult : j.result = none)
      (hposition : j.position = .checking ps) : Inner j (j.check ps)
  | work {j : Joining} {k : Nat} {d : Download} (slotFirst : Bool) (hresult : j.result = none)
      (hk : j.join.fetch.downloads[k]? = some d)
      (hawake : d.awake j.join.fetch.cancelled = true) : Inner j (j.work k slotFirst)

/-- What may happen next.  Any bytes may arrive and in any pieces, the stream may end, and the
session may be told to stop, which its receive loop notices when it reads.  The writer does its
work without the session looking at the outcome. -/
inductive Step : Joining → Joining → Prop
  | inner {j j' : Joining} (h : Inner j j') : Step j j'
  | arrive (j : Joining) (bs : Bytes) :
      Step j { j with endpoint := { j.endpoint with inbound := j.endpoint.inbound.push bs } }
  | hangUp (j : Joining) :
      Step j { j with endpoint := { j.endpoint with inbound := j.endpoint.inbound.close } }
  | write (j : Joining) (w : FrameWriter) (os : List Outgoing) :
      Step j { j with endpoint := { j.endpoint with writer := w, outbox := os } }
  | cancel (j : Joining) : Step j { j with join := { j.join with fetch := j.join.fetch.cancel } }
  | stop {j : Joining} (hresult : j.result = none) (hposition : j.position = .looking [])
      (hcancelled : j.join.fetch.cancelled = true) :
      Step j { j with result := some (j.join.lose .cancelled).result }

/-- Can a session come to this state from its start? -/
def Reachable (j : Join) : Joining → Prop := Relation.ReflTransGen Step (start j)

/-- Waits for a piece of the stream and reads all of it. -/
def hear (j : Joining) (piece : Bytes) : Joining :=
  let reader := j.endpoint.reader.next.2.feed piece
  { j with endpoint := { j.endpoint with reader := reader, inbound := {} } }

theorem Reachable.hear {join : Join} {j : Joining} (h : Reachable join j) {piece : Bytes}
    (hresult : j.result.isNone = true) (hposition : j.position = .looking [])
    (hnext : j.endpoint.reader.next.1 = .waiting) (hinbound : j.endpoint.inbound = {})
    (hpiece : 0 < piece.length) : Reachable join (j.hear piece) := by
  have hread := Endpoint.Read.more (e := { j.endpoint with inbound := { arrived := piece } })
    (Prod.ext hnext rfl) hpiece (Nat.le_refl _)
  have hresult' : j.result = none := Option.isNone_iff_eq_none.mp hresult
  have harrived := h.tail (.arrive _ piece)
  rw [hinbound] at harrived
  have hheard := harrived.tail (.inner (.read hresult' hposition hread))
  simp only [List.take_length, List.drop_length] at hheard
  exact hheard

/-- Reads a packet, handles it and looks whether the exchange is complete. -/
def pass (j : Joining) (p : Packet) : Joining :=
  let e : Endpoint := { j.endpoint with reader := j.endpoint.reader.next.2 }
  ({ j with endpoint := e }.handle p []).check []

theorem Reachable.pass {join : Join} {j : Joining} (h : Reachable join j) {p : Packet}
    (raw : Bytes) (hresult : j.result.isNone = true) (hposition : j.position = .looking [])
    (hnext : j.endpoint.reader.next.1 = .packet raw)
    (hpackets : openRaw j.join.revision j.join.settings.policy raw = .ok [p])
    (hadmits : j.join.fetch.stage.admits p = true)
    (hending : (j.join.handle p).ending.isNone = true) : Reachable join (j.pass p) := by
  have hresult' : j.result = none := Option.isNone_iff_eq_none.mp hresult
  have hread : j.endpoint.Read (.packet raw)
      { j.endpoint with reader := j.endpoint.reader.next.2 } := .packet (Prod.ext hnext rfl)
  have hlooking := h.tail (.inner (.read hresult' hposition hread))
  simp only [react, take, hpackets] at hlooking
  have hholding := hlooking.tail (.inner (.hold hresult' rfl hadmits))
  have hhandled := hholding.tail (.inner (.handle hresult' rfl))
  refine hhandled.tail (.inner (.check ?_ rfl))
  show (j.join.handle p).ending.map _ = none
  rw [Option.isNone_iff_eq_none.mp hending]
  rfl

end Joining

end PackExchange
