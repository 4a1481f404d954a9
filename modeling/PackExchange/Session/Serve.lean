import PackExchange.Session.Role
import PackExchange.Session.Settings
import PackExchange.Transfer.Offer

/-!
# Serving a client

The server's side of a session.  It waits for the client's request for settings, answers it, logs
the client in, offers the packs and goes on until the client leaves.

* `Serve` — how far a session has come;
* `Serve.take` — the reaction to a raw packet;
* `Serve.role` — the server's role.

A client that speaks no known revision is told so and let go.  Once a client is logged in, the end
of its stream is a good end.
-/

namespace PackExchange

/-- The server's side of a session. -/
structure Serve where
  settings : SessionSettings
  packs : List Pack
  /-- The revision that was agreed on, and the exchange of packs that follows. -/
  exchange : Option (Revision × Offer) := none

namespace Serve

/-- The status for a client of an unknown revision. -/
def failedLogin (protocol : Int32) : PlayStatus :=
  if protocol < Revision.latest.number then .loginFailedClient else .loginFailedServer

/-- The settings a client is told. -/
def networkSettings (s : Serve) : NetworkSettings :=
  { compressionThreshold := s.settings.compressionThreshold, compressionAlgorithm := 0 }

/-- Answers the request for settings. -/
def agree (s : Serve) (r : SettingsRequest) : Turn Serve Unit :=
  match Revision.ofNumber? r.protocol with
  | none => .finish s [.direct (.playStatus (failedLogin r.protocol))] (.ok ())
  | some revision =>
    let (offer, sent) := (Offer.ofPacks s.packs s.settings.chunkSize).start s.settings.required
    let threshold := s.settings.compressionThreshold
    .proceed { s with exchange := some (revision, offer) }
      (.direct (.networkSettings s.networkSettings) :: .compress threshold ::
        .queued (.playStatus .loginSuccess) :: sent.map .queued)

/-- Looks for the request for settings among packets: the first that is admitted decides, and all
others are dropped. -/
def negotiate (s : Serve) (ps : List Packet) : Turn Serve Unit :=
  match ps.find? ServerStage.awaitingRequest.admits with
  | some (.settingsRequest r) => s.agree r
  | _ => { side := s }

/-- Takes what the offer makes of a packet.  Not every failure ends the session. -/
def follow (s : Serve) (revision : Revision)
    (outcome : Except TransferError (Offer × List Packet)) : Turn Serve Unit :=
  match outcome with
  | .ok (offer, sent) =>
    .proceed { s with exchange := some (revision, offer) } (sent.map .queued)
  | .error e =>
    if e.isFatal then .finish s [] (.error (.transfer e)) else { side := s }

/-- Lets a client that has just completed the exchange into the game. -/
def spawn (s : Serve) : Turn Serve Unit :=
  match s.exchange with
  | some (_, offer) =>
    if offer.loggedIn then .proceed s [.queued (.playStatus .playerSpawn)] else { side := s }
  | none => { side := s }

/-- The reaction to one packet, once a revision is agreed on. -/
def react (revision : Revision) (s : Serve) (p : Packet) : Turn Serve Unit :=
  match s.exchange with
  | none => { side := s }
  | some (_, offer) =>
    if offer.stage.admits p then
      match p with
      | .disconnect _ => .finish s [] (.ok ())
      | .clientResponse r => (s.follow revision (offer.respond r)).andThen spawn
      | .chunkRequest r => s.follow revision (offer.serveChunk r)
      | _ => { side := s }
    else { side := s }

/-- Has the client completed the exchange? -/
def loggedIn (s : Serve) : Bool :=
  match s.exchange with
  | some (_, offer) => offer.loggedIn
  | none => false

/-- The stream is shut down only once a writer has taken it over. -/
def lose (s : Serve) (e : SessionError) : Ending Unit :=
  { result := if s.loggedIn then .ok () else .error e, shutdown := s.exchange.isSome }

/-- The revision in use; before one is agreed on it is the latest. -/
def revision (s : Serve) : Revision := (s.exchange.map (·.1)).getD .latest

/-- The reaction to a raw packet. -/
def take (s : Serve) (raw : Bytes) : Turn Serve Unit :=
  match openRaw s.revision s.settings.policy raw with
  | .error e => { side := s, ending := some (s.lose e) }
  | .ok ps => if s.exchange.isSome then .all (react s.revision) s ps else s.negotiate ps

/-- The server's role. -/
def role : Role Serve Unit :=
  { shield := (·.settings.policy.shield)
    revision := revision
    take := take
    lose := lose
    settle := fun s => (s, [])
    cancel := id }

end Serve

end PackExchange
