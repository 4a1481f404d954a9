import PackExchange.Frame.Error
import PackExchange.Packet.Envelope
import PackExchange.Transfer.Error

/-!
# The two roles of a session

A session reacts to one raw packet after another, whatever its role.

* `SessionError` — why a session fails;
* `Outgoing` — what a session does to the stream it writes to;
* `Ending` — how a session ends;
* `Turn` — the reaction to a packet, with `Turn.andThen` for several in a row;
* `Role` — what sets the two sides of a session apart;
* `openRaw` — the packets that a raw packet holds, as far as the policy lets them through.
-/

namespace PackExchange

/-- Why a session fails. -/
inductive SessionError where
  | framing (cause : FrameError)
  | decoding (cause : DecodeError)
  | transfer (cause : TransferError)
  /-- The stream cannot be written to. -/
  | writing
  /-- The stream that is read from has ended. -/
  | closed
  | cancelled
  | disconnected (message : String)
  | loginFailed (status : Int32)
  deriving DecidableEq, Repr

/-- The wording of a failure. -/
def SessionError.message : SessionError → String
  | framing cause => cause.message
  | decoding cause => cause.message
  | transfer cause => cause.message
  | writing => "broken pipe"
  | closed => "Connection closed"
  | cancelled => "Session cancelled"
  | disconnected message => "Disconnected by server: " ++ message
  | loginFailed status => s!"Login failed with status {status}"

/-- What a session does to the stream it writes to. -/
inductive Outgoing where
  /-- Writes a packet as it is; if that fails, so does the session. -/
  | direct (p : Packet)
  /-- Leaves a packet to the writer, which converts it to the revision in use.  If writing fails
  the writer stops, and the session goes on without it. -/
  | queued (p : Packet)
  /-- Both directions compress from now on. -/
  | compress (threshold : UInt16)
  deriving DecidableEq

/-- How a session ends. -/
structure Ending (ρ : Type) where
  result : Except SessionError ρ
  /-- Is the stream shut down, as far as the writer still runs?  Otherwise it is just dropped. -/
  shutdown : Bool := true

/-- The reaction of a side to what it reads. -/
structure Turn (σ ρ : Type) where
  side : σ
  outgoing : List Outgoing := []
  ending : Option (Ending ρ) := none

namespace Turn

/-- The session goes on. -/
def proceed {σ ρ : Type} (side : σ) (outgoing : List Outgoing) : Turn σ ρ := { side, outgoing }

/-- The session ends. -/
def finish {σ ρ : Type} (side : σ) (outgoing : List Outgoing) (result : Except SessionError ρ) :
    Turn σ ρ :=
  { side, outgoing, ending := some { result } }

/-- Another reaction after this one, unless the session has ended. -/
def andThen {σ ρ : Type} (t : Turn σ ρ) (next : σ → Turn σ ρ) : Turn σ ρ :=
  match t.ending with
  | some _ => t
  | none =>
    let u := next t.side
    { u with outgoing := t.outgoing ++ u.outgoing }

/-- The reactions to packets in a row; once the session has ended no packet is looked at. -/
def all {σ ρ : Type} (react : σ → Packet → Turn σ ρ) (side : σ) : List Packet → Turn σ ρ
  | [] => { side }
  | p :: ps => (react side p).andThen fun side => all react side ps

end Turn

/-- What sets one side of a session apart from the other. -/
structure Role (σ ρ : Type) where
  /-- The network id of the shield item, for writing. -/
  shield : σ → Int32
  /-- The revision that queued packets are converted to. -/
  revision : σ → Revision
  /-- The reaction to a raw packet. -/
  take : σ → Bytes → Turn σ ρ
  /-- How the session ends when nothing more can be read. -/
  lose : σ → SessionError → Ending ρ
  /-- What goes on beside reading, up to the point where it can only wait. -/
  settle : σ → σ × List Outgoing
  /-- Everything that goes on beside reading is told to stop. -/
  cancel : σ → σ

/-- The packets that a raw packet holds.  One that cannot be read is left out, unless the policy
ends the session over it. -/
def openRaw (revision : Revision) (policy : Policy) (raw : Bytes) :
    Except SessionError (List Packet) :=
  match RawPacket.parse raw with
  | .error _ => .ok []
  | .ok p =>
    match p.decode revision policy with
    | .ok d => .ok d.packets
    | .error e => if e.disconnects policy then .error (.decoding e) else .ok []

end PackExchange
