import PackExchange.Proofs.Session.Joining
import PackExchange.Session.Serve

/-!
# A server and a client, step by step

Each side writes to a stream that the other side reads.  Whatever is written arrives, in order and
in pieces of any length.  The two receive loops, the two writers and the download workers of the
client take their steps in any order.

* `Attending` — a server's session while it runs, with `Attending.Inner`;
* `Meeting` — both sessions, and everything that was written;
* `Meeting.Step` — what may happen next;
* `Meeting.Reachable` — the states that meetings come to from their start.

Nobody is told to stop from outside.  A side that has come to its end writes what is left in its
outbox and then shuts its stream down.  What compresses the batches of both is the parameter `z`.
-/

namespace PackExchange

/-! ### The server's side -/

/-- A server's session while it runs. -/
structure Attending where
  serve : Serve
  endpoint : Endpoint := {}
  result : Option (Except SessionError Unit) := none

namespace Attending

/-- Carries out a turn. -/
def carryOut (s : Attending) (turn : Turn Serve Unit) : Attending :=
  { serve := turn.side
    endpoint := s.endpoint.post turn.outgoing
    result := turn.ending.map (·.result) }

/-- Goes on after an attempt to read. -/
def react (s : Attending) : FrameReader.Outcome → Attending
  | .waiting => s
  | .packet raw => s.carryOut (s.serve.take raw)
  | .failed cause => { s with result := some (s.serve.lose (.framing cause)).result }
  | .ended => { s with result := some (s.serve.lose .closed).result }

/-- What the session may do by itself.  Nothing goes on beside the receive loop. -/
inductive Inner : Attending → Attending → Prop
  | read {s : Attending} {o : FrameReader.Outcome} {e : Endpoint} (hresult : s.result = none)
      (hread : s.endpoint.Read o e) : Inner s ({ s with endpoint := e }.react o)

end Attending

/-! ### Both sides -/

/-- A server and a client connected to each other, with everything that was written. -/
structure Meeting where
  server : Attending
  client : Joining
  log : List Batched := []

namespace Meeting

/-- Both sides at the start. -/
def start (serve : Serve) (join : Join) : Meeting := { server := { serve }, client := .start join }

/-- What the server's writer does next. -/
def serverFlush (x : Meeting) : List Batched × Endpoint :=
  x.server.endpoint.flush x.server.serve.settings.policy.shield x.server.serve.revision

/-- What the client's writer does next. -/
def clientFlush (x : Meeting) : List Batched × Endpoint :=
  x.client.endpoint.flush x.client.join.settings.policy.shield x.client.join.revision

/-- What may happen next. -/
inductive Step (z : Bytes → Bytes) : Meeting → Meeting → Prop
  | serve {x : Meeting} {s : Attending} (h : Attending.Inner x.server s) :
      Step z x { x with server := s }
  | join {x : Meeting} {j : Joining} (h : Joining.Inner x.client j) :
      Step z x { x with client := j }
  | serverWrites {x : Meeting} (h : x.server.endpoint.outbox ≠ []) :
      Step z x
        { server := { x.server with endpoint := x.serverFlush.2 }
          client := { x.client with endpoint := x.client.endpoint.receive z x.serverFlush.1 }
          log := x.log ++ x.serverFlush.1 }
  | clientWrites {x : Meeting} (h : x.client.endpoint.outbox ≠ []) :
      Step z x
        { server := { x.server with endpoint := x.server.endpoint.receive z x.clientFlush.1 }
          client := { x.client with endpoint := x.clientFlush.2 }
          log := x.log ++ x.clientFlush.1 }
  | serverCloses {x : Meeting} (hresult : x.server.result ≠ none)
      (houtbox : x.server.endpoint.outbox = [])
      (hopen : x.server.endpoint.writer.closed = false) :
      Step z x
        { x with
          server := { x.server with endpoint := x.server.endpoint.shutdown }
          client := { x.client with endpoint := x.client.endpoint.hangUp } }
  | clientCloses {x : Meeting} (hresult : x.client.result ≠ none)
      (houtbox : x.client.endpoint.outbox = [])
      (hopen : x.client.endpoint.writer.closed = false) :
      Step z x
        { x with
          server := { x.server with endpoint := x.server.endpoint.hangUp }
          client := { x.client with endpoint := x.client.endpoint.shutdown } }

/-- Can a meeting come to this state from its start? -/
def Reachable (z : Bytes → Bytes) (serve : Serve) (join : Join) : Meeting → Prop :=
  Relation.ReflTransGen (Step z) (start serve join)

/-- Has a meeting come to an end: can nothing happen any more? -/
def Stuck (z : Bytes → Bytes) (x : Meeting) : Prop := ∀ x', ¬ Step z x x'

/-- The log only grows. -/
theorem Step.log_subset {z : Bytes → Bytes} {x x' : Meeting} (h : Step z x x') :
    x.log ⊆ x'.log := by
  cases h with
  | serverWrites _ | clientWrites _ => exact List.subset_append_left _ _
  | _ => exact List.Subset.refl _

end Meeting

end PackExchange
