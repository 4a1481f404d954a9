import PackExchange.Session.Basic
import PackExchange.Session.Join
import PackExchange.Session.Serve

/-!
# Both sides together

A server and a client whose streams are connected to each other.

* `Exchange` — the two sessions;
* `Exchange.round` — each side runs once on what the other has written;
* `Exchange.run` — rounds until nothing moves, and the end of what is left waiting then.

A side that has ended drops its stream, so the other side reads its end.
-/

namespace PackExchange

/-- A server and a client connected to each other. -/
structure Exchange where
  server : Session Serve Unit
  client : Session Join (List Pack)
  /-- Did the client wait for something that never came? -/
  stalled : Bool := false

namespace Exchange

/-- Both sides at the start. -/
def begin (serve : Serve) (join : Join) : Exchange :=
  { server := .begin Serve.role serve []
    client := .begin Join.role join join.opening }

/-- Hands what one side has written to the other, and the end of the stream if that side has ended
or its stream was shut down. -/
def deliver {σ ρ τ υ : Type} (source : Session σ ρ) (target : Session τ υ) :
    Session σ ρ × Session τ υ :=
  let (written, source) := source.drain
  let target := target.arrive (written.flatMap (·.frame))
  (source, if source.done then target.close else target)

/-- Each side runs once on what the other has written; and whether anything was written. -/
def round (x : Exchange) : Bool × Exchange :=
  let (client, server) := deliver x.client x.server
  let server := server.run Serve.role
  let (server, client) := deliver server client
  let moved := !client.connection.inbound.arrived.isEmpty
  let client := client.run Join.role
  (moved || !client.written.isEmpty, { x with server := server, client := client })

/-- Goes on as long as anything moves, for at most `fuel` rounds. -/
def pump : Nat → Exchange → Exchange
  | 0, x => x
  | fuel + 1, x =>
    let (moved, x) := x.round
    if moved then pump fuel x else x

/-- How many rounds an exchange of packs may take: one for each chunk, and a few for each pack and
for the session. -/
def roundBound (packs : List Pack) (chunkSize : UInt32) : Nat :=
  packs.foldl (fun sum p => sum + p.size.toNat / max chunkSize.toNat 1 + 4) 16

/-- Ends both streams. -/
def closeBoth (x : Exchange) : Exchange :=
  { server := x.server.close.run Serve.role
    client := x.client.close.run Join.role
    stalled := true }

/-- Runs both sides to their ends. -/
def run (x : Exchange) : Exchange :=
  let serve := x.server.side
  let x := x.pump (roundBound serve.packs serve.settings.chunkSize)
  let x := if x.client.done then x else x.closeBoth
  let (_, x) := x.round
  x

end Exchange

end PackExchange
