import PackExchange.Session.Role
import PackExchange.Session.Settings
import PackExchange.Transfer.Fetch

/-!
# Joining a server

The client's side of a session.  It asks for settings, downloads the packs of the server and ends
with them as soon as the load order is satisfied.

* `Join` — how far a session has come;
* `Join.take` — the reaction to a raw packet;
* `Join.role` — the client's role.
-/

namespace PackExchange

/-- The client's side of a session. -/
structure Join where
  settings : SessionSettings
  revision : Revision
  fetch : Fetch

namespace Join

/-- What is sent at the start: the request for settings. -/
def opening (j : Join) : List Outgoing := [.queued (.settingsRequest ⟨j.revision.number⟩)]

/-- Takes what the exchange makes of a packet.  Not every failure ends the session. -/
def follow (j : Join) (fetch : Fetch) (error : Option TransferError) : Turn Join (List Pack) :=
  let j := { j with fetch := fetch }
  match error with
  | none => { side := j }
  | some e => if e.isFatal then .finish j [] (.error (.transfer e)) else { side := j }

/-- Handles a packet that is admitted. -/
def handle (j : Join) (p : Packet) : Turn Join (List Pack) :=
  let f := j.fetch
  match p with
  | .disconnect d => .finish j [] (.error (.disconnected d.message))
  | .networkSettings n =>
    .proceed { j with fetch := f.takeSettings } [.compress n.compressionThreshold]
  | .playStatus s =>
    if s = .loginSuccess then { side := j } else .finish j [] (.error (.loginFailed s.status))
  | .catalog c =>
    let (f, sent) := f.takeCatalog c
    .proceed { j with fetch := f } (sent.map .queued)
  | .packData a =>
    let (f, error) := f.takeAnnouncement a
    j.follow f error
  | .chunkData c =>
    let (f, error) := f.takeChunk c
    j.follow f error
  | .stack s =>
    match f.takeStack s with
    | .error e => j.follow f (some e)
    | .ok (f, sent) => .proceed { j with fetch := f } (sent.map .queued)
  | _ => { side := j }

/-- Ends the session once the load order is satisfied. -/
def conclude (j : Join) : Turn Join (List Pack) :=
  if j.fetch.stage = .done then .finish j [] (.ok j.fetch.resolved) else { side := j }

/-- The reaction to one packet. -/
def react (j : Join) (p : Packet) : Turn Join (List Pack) :=
  if j.fetch.stage.admits p then (j.handle p).andThen conclude else { side := j }

/-- A session that can read nothing more has failed. -/
def lose (_ : Join) (e : SessionError) : Ending (List Pack) := { result := .error e }

/-- The reaction to a raw packet. -/
def take (j : Join) (raw : Bytes) : Turn Join (List Pack) :=
  match openRaw j.revision j.settings.policy raw with
  | .error e => { side := j, ending := some (j.lose e) }
  | .ok ps => .all react j ps

/-- Lets the download workers run. -/
def settle (j : Join) : Join × List Outgoing :=
  let (f, sent) := j.fetch.settle
  ({ j with fetch := f }, sent.map .queued)

/-- The client's role. -/
def role : Role Join (List Pack) :=
  { shield := (·.settings.policy.shield)
    revision := revision
    take := take
    lose := lose
    settle := settle
    cancel := fun j => { j with fetch := j.fetch.cancel } }

end Join

end PackExchange
