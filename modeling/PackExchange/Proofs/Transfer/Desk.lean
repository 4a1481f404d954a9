import PackExchange.Proofs.Transfer.Service

/-!
# A server whose store may fail

`Offer.respond` and `Offer.serveChunk` have no new offer when they fail, so there is nothing that
they could leave half done.  A server that keeps its state in place has: it resolves tokens, puts
packs in a queue, moves an offset and sends packets one after another, and an error ends this
wherever it comes up.  This file goes through those steps in their order.  What was done before an
error stays done, and the store may fail at any read.

* `Desk`, `Desk.Queue` — what a server keeps between calls, and the packets it has sent;
* `Desk.respond`, `Desk.serveChunk` — the two calls, as programs over a desk;
* `Desk.offer`, `Desk.Follows` — the offer that a desk is, and when a desk does what the offer does;
* `Desk.respond_follows`, `Desk.serveChunk_follows` — it does, and a call that fails leaves it;
* `Desk.serveChunk_run` — what the store has to do with it is one read;
* `Desk.run_offer` — with a store that does not change, calls one after another are `Offer.run`;
* `Desk.kept` — the calls of a sequence that do not fail;
* `Desk.failures_leave_intact` — a sequence of calls comes to what those of them do.
-/

namespace PackExchange

/-- Where packs are read, as it is at one moment. -/
abbrev Store := Pack → Nat → UInt64 → Except ReadError Bytes

/-- A pack with the bytes that a store gives for it. -/
def Pack.keptIn (store : Store) (p : Pack) : Pack := { p with readAt := store p }

/-- Packs that a client has asked for: which of them is being served, and how far it was sent. -/
structure Desk.Queue where
  packs : List Pack
  current : Nat := 0
  offset : UInt64 := 0

/-- What a server keeps for one client, and what it has sent so far. -/
structure Desk where
  packs : List Pack
  chunkSize : UInt32
  stage : ServerStage
  queue : Option Desk.Queue
  sent : List Packet

namespace Desk

/-- A program over a desk that may end with an error, wherever it has come to by then. -/
abbrev Handling := EStateM TransferError Desk

/-! ### The calls, step by step -/

/-- The pack being served. -/
def Queue.pack? (q : Queue) : Option Pack := q.packs[q.current]?

/-- The packs on offer, for what depends on nothing else. -/
def shelf (d : Desk) : Offer := { packs := d.packs, chunkSize := d.chunkSize }

/-- Sends a packet. -/
def send (p : Packet) : Handling Unit := modify fun d => { d with sent := d.sent ++ [p] }

/-- The packs that tokens name, after those that were named before. -/
def gather : List String → List Pack → Handling (List Pack)
  | [], named => pure named
  | token :: tokens, named => do
    let d ← get
    match PackId.parse? token with
    | none => throw (.unknownRequestedPack token)
    | some id =>
      match d.packs.find? fun p =>
          p.id.uuid == id.uuid && (id.version.isEmpty || p.id.version == id.version) with
      | none => throw (.unknownRequestedPack token)
      | some p =>
        if named.any (·.id.uuid == p.id.uuid) then gather tokens named
        else gather tokens (named ++ [p])

/-- Puts the packs that tokens name in a queue. -/
def queueRequested (tokens : List String) : Handling Unit := do
  if tokens.isEmpty then throw .nothingRequested
  let packs ← gather tokens []
  modify fun d => { d with queue := some { packs } }

/-- Announces the current pack of the queue, or goes back to waiting if there is none. -/
def nextPack : Handling Unit := do
  let d ← get
  match d.queue.bind Queue.pack? with
  | none => modify fun d => { d with queue := none, stage := .awaitingResponse }
  | some p =>
    send (.packData (d.shelf.announcement p))
    modify fun d => { d with stage := .servingChunks }

/-- Handles an answer of the client. -/
def respond (r : ClientResponse) : Handling Unit := do
  let d ← get
  match d.stage, Answer.ofCode? r.response with
  | _, some .refused => throw .refused
  | .awaitingResponse, some .sendPacks =>
    queueRequested r.packs
    nextPack
  | .awaitingResponse, some .allPacksDownloaded =>
    send (.stack d.shelf.stack)
    modify fun d => { d with stage := .awaitingCompletion }
  | .awaitingCompletion, some .completed => modify fun d => { d with stage := .loggedIn }
  | _, _ => throw (.unexpectedResponse r.response)

/-- Reads a pack. -/
def read (store : Store) (p : Pack) (length : Nat) (offset : UInt64) : Handling Bytes :=
  match store p length offset with
  | .error cause => throw (.store cause)
  | .ok data => pure data

/-- The pack that a request for a chunk is about, and the offset of the chunk. -/
def asked (r : ChunkRequest) : Handling (Pack × UInt64) := do
  let d ← get
  match d.queue with
  | none => throw .notServing
  | some q =>
    match q.pack? with
    | none => throw .notServing
    | some p =>
      let size := d.chunkSize.toUInt64
      if PackId.uuidOf? r.uuid ≠ some p.id.uuid then throw (.unexpectedPack p.id.uuid r.uuid)
      else if q.offset ≠ r.index.toUInt64 * size then
        throw (.unexpectedChunkIndex (q.offset / size).toUInt32 r.index)
      else pure (p, q.offset)

/-- Changes the queue, if there is one. -/
def onQueue (f : Queue → Queue) : Handling Unit :=
  modify fun d => { d with queue := d.queue.map f }

/-- Sends a chunk and goes on behind it. -/
def deliver (r : ChunkRequest) (p : Pack) (offset : UInt64) (data : Bytes) : Handling Unit := do
  let d ← get
  -- the offset is moved first, and put back to the start if this chunk turns out to be the last
  onQueue fun q => { q with offset := q.offset + d.chunkSize.toUInt64 }
  send (.chunkData { uuid := r.uuid, index := r.index, offset, data })
  if p.size ≤ offset + UInt64.ofNat data.length then
    onQueue fun q => { q with current := q.current + 1, offset := 0 }
    nextPack

/-- Serves one chunk of the pack being served. -/
def serveChunk (store : Store) (r : ChunkRequest) : Handling Unit := do
  let (p, offset) ← asked r
  let d ← get
  let data ← read store p
    (min d.chunkSize.toUInt64.toNat (p.size.toNat - offset.toNat)) offset
  deliver r p offset data

/-! ### The offer of a desk -/

/-- What is being served from a queue, when its packs are kept in a store. -/
def Queue.serving (store : Store) (q : Queue) : Option Serving :=
  match (q.packs.drop q.current).map (Pack.keptIn store) with
  | [] => none
  | p :: later => some { pack := p, offset := q.offset, later }

/-- The offer that a desk is, when its packs are kept in a store. -/
def offer (store : Store) (d : Desk) : Offer :=
  { packs := d.packs.map (Pack.keptIn store)
    chunkSize := d.chunkSize
    stage := d.stage
    serving := d.queue.bind (Queue.serving store) }

/-- A desk after the catalog was sent. -/
def opening (packs : List Pack) (chunkSize : UInt32) (required : Bool) : Desk :=
  let o := Offer.ofPacks packs chunkSize
  { packs := o.packs
    chunkSize := o.chunkSize
    stage := .awaitingResponse
    queue := none
    sent := [.catalog (o.catalog required)] }

/-- The opening desk is the offer that has just started. -/
theorem offer_opening (store : Store) (packs : List Pack) (chunkSize : UInt32) (required : Bool) :
    let started := (Offer.ofPacks (packs.map (Pack.keptIn store)) chunkSize).start required
    (opening packs chunkSize required).offer store = started.1 ∧
      (opening packs chunkSize required).sent = started.2 := by
  intro started
  have hpacks : (packs.map (Pack.keptIn store)).filter (!·.isEmpty) =
      (packs.filter (!·.isEmpty)).map (Pack.keptIn store) := by
    rw [List.filter_map]
    rfl
  constructor
  · show offer store (opening packs chunkSize required) =
      { Offer.ofPacks (packs.map (Pack.keptIn store)) chunkSize with stage := .awaitingResponse }
    rw [Offer.ofPacks, hpacks]
    rfl
  · show [Packet.catalog ((Offer.ofPacks packs chunkSize).catalog required)] =
      [.catalog ((Offer.ofPacks (packs.map (Pack.keptIn store)) chunkSize).catalog required)]
    rw [Offer.ofPacks, Offer.ofPacks, hpacks, Offer.catalog, Offer.catalog, List.map_map]
    rfl

/-- Has a desk become what an offer became, and sent the same? -/
structure Replied (store : Store) (d d' : Desk) (reply : Offer × List Packet) : Prop where
  offer : d'.offer store = reply.1
  sent : d'.sent = d.sent ++ reply.2

/-- Did a program over a desk do what an offer says?  With an error the desk is as before. -/
def Follows (store : Store) (d : Desk) (result : EStateM.Result TransferError Desk Unit) :
    Except TransferError (Offer × List Packet) → Prop
  | .error e => result = .error e d
  | .ok reply => ∃ d', result = .ok () d' ∧ Replied store d d' reply

variable {d d' : Desk}

/-! ### What a call comes to -/

theorem gather_run (tokens : List String) (named : List Pack) :
    (gather tokens named).run d = match d.shelf.resolve tokens named.reverse with
      | .error e => .error e d
      | .ok packs => .ok packs d := by
  induction tokens generalizing named with
  | nil =>
    rw [Offer.resolve, List.reverse_reverse]
    rfl
  | cons token tokens ih =>
    rw [gather, Offer.resolve, Offer.find?, EStateM.run_bind, EStateM.run_get]
    cases hid : PackId.parse? token with
    | none => rfl
    | some id =>
      simp only [Option.bind_eq_bind, Option.bind_some, List.any_reverse]
      split
      · next hfind =>
        simp only [shelf, hfind]
        rfl
      · next p hfind =>
        simp only [shelf, hfind]
        by_cases hnamed : named.any (·.id.uuid == p.id.uuid) = true
        · rw [if_pos hnamed, if_pos hnamed]
          exact ih named
        · rw [if_neg hnamed, if_neg hnamed, ih (named ++ [p]), List.reverse_append]
          rfl

/-- Tokens that name packs put these in the queue; other tokens change nothing. -/
theorem queueRequested_run (tokens : List String) :
    (queueRequested tokens).run d = match d.shelf.resolve tokens [] with
      | .error e => .error e d
      | .ok [] => .error .nothingRequested d
      | .ok packs => .ok () { d with queue := some { packs } } := by
  cases tokens with
  | nil => rfl
  | cons token tokens =>
    show EStateM.run (gather (token :: tokens) [] >>= fun packs =>
      modify fun d => { d with queue := some { packs } }) d = _
    rw [EStateM.run_bind, gather_run, List.reverse_nil]
    cases hresolve : d.shelf.resolve (token :: tokens) [] with
    | error e => rfl
    | ok packs =>
      cases packs with
      | nil =>
        -- a token that was resolved is a pack in the queue
        obtain ⟨ps, hps, hnone⟩ := (Offer.resolve_eq_ok_iff _ _ _ _).mp hresolve
        cases ps with
        | nil => cases hps
        | cons p ps => simp [Pack.firsts] at hnone
      | cons p packs => rfl

/-- The next pack is announced, or all packs were sent. -/
theorem nextPack_run (store : Store) {packs : List Pack} {current : Nat}
    (hqueue : d.queue = some { packs, current }) :
    ∃ d' : Desk, nextPack.run d = .ok () d' ∧ Replied store d d'
      ((d.offer store).serveNext ((packs.drop current).map (Pack.keptIn store))) := by
  have hpack : d.queue.bind Queue.pack? = packs[current]? := by
    rw [hqueue]
    rfl
  rw [nextPack, EStateM.run_bind, EStateM.run_get]
  simp only [hpack]
  cases hp : packs[current]? with
  | none =>
    rw [List.drop_eq_nil_of_le (List.getElem?_eq_none_iff.mp hp)]
    exact ⟨_, rfl, ⟨rfl, (List.append_nil d.sent).symm⟩⟩
  | some p =>
    obtain ⟨hlt, rfl⟩ := List.getElem?_eq_some_iff.mp hp
    have hdrop := List.drop_eq_getElem_cons hlt
    refine ⟨_, rfl, ⟨?_, ?_⟩⟩
    · have hserving : d.queue.bind (Queue.serving store) = some
          { pack := packs[current].keptIn store
            later := (packs.drop (current + 1)).map (Pack.keptIn store) } := by
        rw [hqueue, Option.bind_some, Queue.serving, hdrop]
        rfl
      rw [hdrop, List.map_cons, Offer.serveNext, ← hserving]
      rfl
    · rw [hdrop, List.map_cons, Offer.serveNext]
      rfl

/-! ### Answers -/

theorem find?_offer (store : Store) (token : String) :
    (d.offer store).find? token = (d.shelf.find? token).map (Pack.keptIn store) := by
  rw [Offer.find?, Offer.find?]
  cases PackId.parse? token with
  | none => rfl
  | some id =>
    show (d.packs.map (Pack.keptIn store)).find? _ = (d.packs.find? _).map _
    rw [List.find?_map]
    rfl

/-- Which packs tokens name has nothing to do with where they are kept. -/
theorem resolve_offer (store : Store) (tokens : List String) (named : List Pack) :
    (d.offer store).resolve tokens (named.map (Pack.keptIn store)) =
      (d.shelf.resolve tokens named).map (List.map (Pack.keptIn store)) := by
  induction tokens generalizing named with
  | nil =>
    rw [Offer.resolve, Offer.resolve, ← List.map_reverse]
    rfl
  | cons token tokens ih =>
    rw [Offer.resolve, Offer.resolve, find?_offer]
    cases hfind : d.shelf.find? token with
    | none => rfl
    | some p =>
      have hany : (named.map (Pack.keptIn store)).any (·.id.uuid == (p.keptIn store).id.uuid) =
          named.any (·.id.uuid == p.id.uuid) := by
        rw [List.any_map]
        rfl
      simp only [Option.map_some, hany]
      by_cases hnamed : named.any (·.id.uuid == p.id.uuid) = true
      · rw [if_pos hnamed, if_pos hnamed]
        exact ih named
      · rw [if_neg hnamed, if_neg hnamed]
        exact ih (p :: named)

theorem serveNext_queue (store : Store) (queue : Option Queue) (sent : List Packet)
    (packs : List Pack) : ({ d with queue, sent }.offer store).serveNext packs =
      (d.offer store).serveNext packs := by
  cases packs <;> rfl

/-- The load order has nothing to do with where the packs are kept. -/
theorem stack_offer (store : Store) : (d.offer store).stack = d.shelf.stack := by
  show ({ packs := ((d.packs.map (Pack.keptIn store)).map (·.id) ++ PackId.exempted).map _,
          gameVersion := _ } : PackStack) = _
  rw [List.map_map]
  rfl

/-- Packs that are asked for are served as the offer serves them. -/
theorem queueRequested_follows (store : Store) (tokens : List String) :
    Follows store d ((do queueRequested tokens; nextPack : Handling Unit).run d)
      (match (d.offer store).resolve tokens [] with
        | .error e => .error e
        | .ok [] => .error .nothingRequested
        | .ok packs => .ok ((d.offer store).serveNext packs)) := by
  have hresolve := resolve_offer (d := d) store tokens []
  rw [List.map_nil] at hresolve
  rw [EStateM.run_bind, queueRequested_run, hresolve]
  cases d.shelf.resolve tokens [] with
  | error e => rfl
  | ok packs =>
    cases packs with
    | nil => rfl
    | cons p packs =>
      obtain ⟨d', hrun, hoffer, hsent⟩ :=
        nextPack_run (d := { d with queue := some { packs := p :: packs } }) store rfl
      rw [serveNext_queue store _ d.sent] at hoffer hsent
      exact ⟨d', hrun, hoffer, hsent⟩

/-- **An answer** is taken as the offer takes it, and changes nothing if it fails. -/
theorem respond_follows (store : Store) (r : ClientResponse) :
    Follows store d ((respond r).run d) ((d.offer store).respond r) := by
  have hstage : (d.offer store).stage = d.stage := rfl
  simp only [respond, Offer.respond, EStateM.run_bind, EStateM.run_get, hstage]
  generalize d.stage = stage
  cases Answer.ofCode? r.response with
  | none => cases stage <;> rfl
  | some answer =>
    cases answer with
    | refused => cases stage <;> rfl
    | sendPacks =>
      cases stage with
      | awaitingResponse => exact queueRequested_follows store r.packs
      | _ => rfl
    | allPacksDownloaded =>
      cases stage with
      | awaitingResponse => exact ⟨_, rfl, rfl, by rw [stack_offer]⟩
      | _ => rfl
    | completed =>
      cases stage with
      | awaitingCompletion => exact ⟨_, rfl, rfl, (List.append_nil d.sent).symm⟩
      | _ => rfl

/-! ### Requests for chunks -/

end Desk

namespace Offer

variable {o : Offer} {s : Serving} {r : ChunkRequest}

/-- What is sent of a pack with a chunk, and the offer behind it. -/
def sendChunk (o : Offer) (s : Serving) (r : ChunkRequest) (data : Bytes) : Offer × List Packet :=
  let chunk := .chunkData { uuid := r.uuid, index := r.index, offset := s.offset, data }
  if s.pack.size ≤ s.offset + UInt64.ofNat data.length then
    ((o.serveNext s.later).1, chunk :: (o.serveNext s.later).2)
  else ({ o with serving := some { s with offset := s.offset + o.chunkSize.toUInt64 } }, [chunk])

theorem sendChunk_last {data : Bytes} (h : s.pack.size ≤ s.offset + UInt64.ofNat data.length) :
    o.sendChunk s r data = ((o.serveNext s.later).1,
      .chunkData { uuid := r.uuid, index := r.index, offset := s.offset, data } ::
        (o.serveNext s.later).2) := by
  rw [sendChunk, if_pos h]

theorem sendChunk_more {data : Bytes} (h : ¬ s.pack.size ≤ s.offset + UInt64.ofNat data.length) :
    o.sendChunk s r data =
      ({ o with serving := some { s with offset := s.offset + o.chunkSize.toUInt64 } },
        [.chunkData { uuid := r.uuid, index := r.index, offset := s.offset, data }]) := by
  rw [sendChunk, if_neg h]

/-- Another pack than the one being served is not served. -/
theorem serveChunk_otherPack (hserving : o.serving = some s)
    (huuid : PackId.uuidOf? r.uuid ≠ some s.pack.id.uuid) :
    o.serveChunk r = .error (.unexpectedPack s.pack.id.uuid r.uuid) := by
  simp only [serveChunk, hserving]
  rw [if_pos huuid]

/-- Another chunk than the next is not served. -/
theorem serveChunk_otherChunk (hserving : o.serving = some s)
    (huuid : PackId.uuidOf? r.uuid = some s.pack.id.uuid)
    (hoffset : s.offset ≠ r.index.toUInt64 * o.chunkSize.toUInt64) :
    o.serveChunk r =
      .error (.unexpectedChunkIndex (s.offset / o.chunkSize.toUInt64).toUInt32 r.index) := by
  simp only [serveChunk, hserving]
  rw [if_neg (not_not_intro huuid), if_pos hoffset]

/-- The next chunk is served if the pack can be read. -/
theorem serveChunk_asked (hserving : o.serving = some s)
    (huuid : PackId.uuidOf? r.uuid = some s.pack.id.uuid)
    (hoffset : s.offset = r.index.toUInt64 * o.chunkSize.toUInt64) :
    o.serveChunk r = match s.pack.readAt
        (min o.chunkSize.toUInt64.toNat (s.pack.size.toNat - s.offset.toNat)) s.offset with
      | .error cause => .error (.store cause)
      | .ok data => .ok (o.sendChunk s r data) := by
  simp only [serveChunk, hserving]
  rw [if_neg (not_not_intro huuid), if_neg (not_not_intro hoffset)]
  cases s.pack.readAt _ s.offset with
  | error cause => rfl
  | ok data =>
    simp only [sendChunk]
    split <;> rfl

end Offer

namespace Desk

variable {d d' : Desk}

/-- Does a request ask for the next chunk of the pack being served? -/
structure Asked (d : Desk) (r : ChunkRequest) (q : Queue) (p : Pack) : Prop where
  queue : d.queue = some q
  pack : q.packs[q.current]? = some p
  uuid : PackId.uuidOf? r.uuid = some p.id.uuid
  offset : q.offset = r.index.toUInt64 * d.chunkSize.toUInt64

/-- What is read of a pack for its next chunk. -/
def readNext (d : Desk) (store : Store) (q : Queue) (p : Pack) : Except ReadError Bytes :=
  store p (min d.chunkSize.toUInt64.toNat (p.size.toNat - q.offset.toNat)) q.offset

/-- What the offer of a desk serves while a pack is the current one. -/
def Queue.busy (store : Store) (q : Queue) (p : Pack) : Serving :=
  { pack := p.keptIn store
    offset := q.offset
    later := (q.packs.drop (q.current + 1)).map (Pack.keptIn store) }

theorem serving_offer (store : Store) {q : Queue} {p : Pack} (hqueue : d.queue = some q)
    (hpack : q.packs[q.current]? = some p) : (d.offer store).serving = some (q.busy store p) := by
  obtain ⟨hlt, rfl⟩ := List.getElem?_eq_some_iff.mp hpack
  show d.queue.bind (Queue.serving store) = _
  rw [hqueue, Option.bind_some, Queue.serving, List.drop_eq_getElem_cons hlt]
  rfl

/-- A request is checked before anything is changed. -/
theorem asked_run (r : ChunkRequest) :
    (∃ e, (asked r).run d = .error e d ∧ ∀ store, (d.offer store).serveChunk r = .error e) ∨
      ∃ q p, Asked d r q p ∧ (asked r).run d = .ok (p, q.offset) d := by
  rw [asked, EStateM.run_bind, EStateM.run_get]
  simp only
  cases hqueue : d.queue with
  | none =>
    refine Or.inl ⟨.notServing, rfl, fun store => Offer.serveChunk_idle ?_ r⟩
    show d.queue.bind _ = none
    rw [hqueue, Option.bind_none]
  | some q =>
    simp only [Queue.pack?]
    cases hpack : q.packs[q.current]? with
    | none =>
      refine Or.inl ⟨.notServing, rfl, fun store => Offer.serveChunk_idle ?_ r⟩
      show d.queue.bind _ = none
      rw [hqueue, Option.bind_some, Queue.serving,
        List.drop_eq_nil_of_le (List.getElem?_eq_none_iff.mp hpack)]
      rfl
    | some p =>
      simp only
      by_cases huuid : PackId.uuidOf? r.uuid = some p.id.uuid
      · rw [if_neg (not_not_intro huuid)]
        by_cases hoffset : q.offset = r.index.toUInt64 * d.chunkSize.toUInt64
        · rw [if_neg (not_not_intro hoffset)]
          exact Or.inr ⟨q, p, ⟨hqueue, hpack, huuid, hoffset⟩, rfl⟩
        · rw [if_pos hoffset]
          exact Or.inl ⟨_, rfl, fun store =>
            Offer.serveChunk_otherChunk (serving_offer store hqueue hpack) huuid hoffset⟩
      · rw [if_pos huuid]
        exact Or.inl ⟨_, rfl, fun store =>
          Offer.serveChunk_otherPack (serving_offer store hqueue hpack) huuid⟩

variable {r : ChunkRequest} {q : Queue} {p : Pack}

/-- A chunk that was read is sent, and the desk goes on behind it. -/
theorem deliver_run (h : Asked d r q p) (store : Store) (data : Bytes) :
    ∃ d' : Desk, (deliver r p q.offset data).run d = .ok () d' ∧
      Replied store d d' ((d.offer store).sendChunk (q.busy store p) r data) := by
  let chunk : Packet := .chunkData { uuid := r.uuid, index := r.index, offset := q.offset, data }
  rw [deliver, EStateM.run_bind, EStateM.run_get]
  simp only [onQueue, send, EStateM.run_bind, EStateM.run_modify, h.queue, Option.map_some]
  by_cases hlast : p.size ≤ q.offset + UInt64.ofNat data.length
  · rw [if_pos hlast, Offer.sendChunk_last (s := q.busy store p) hlast, EStateM.run_bind,
      EStateM.run_modify]
    obtain ⟨d', hrun, hoffer, hsent⟩ :=
      nextPack_run (d := { d with queue := some { packs := q.packs, current := q.current + 1 }
                                  sent := d.sent ++ [chunk] }) store rfl
    rw [serveNext_queue] at hoffer hsent
    exact ⟨d', hrun, hoffer, hsent.trans (List.append_assoc d.sent [chunk] _)⟩
  · rw [if_neg hlast, Offer.sendChunk_more (s := q.busy store p) hlast]
    refine ⟨_, rfl, ?_, rfl⟩
    have hserving : (some { q with offset := q.offset + d.chunkSize.toUInt64 }).bind
        (Queue.serving store) = some { q.busy store p with
          offset := q.offset + d.chunkSize.toUInt64 } := by
      obtain ⟨hlt, rfl⟩ := List.getElem?_eq_some_iff.mp h.pack
      rw [Option.bind_some, Queue.serving, List.drop_eq_getElem_cons hlt]
      rfl
    rw [offer, hserving]
    rfl

/-- A request for a chunk fails whatever the store is like, or all depends on one read of it. -/
theorem serveChunk_run (r : ChunkRequest) :
    (∃ e, ∀ store, (serveChunk store r).run d = .error e d ∧
        (d.offer store).serveChunk r = .error e) ∨
      ∃ q p, Asked d r q p ∧ ∀ store,
        (serveChunk store r).run d = match d.readNext store q p with
          | .error cause => .error (.store cause) d
          | .ok data => (deliver r p q.offset data).run d := by
  rcases asked_run (d := d) r with ⟨e, hrun, hoffer⟩ | ⟨q, p, hasked, hrun⟩
  · refine Or.inl ⟨e, fun store => ⟨?_, hoffer store⟩⟩
    rw [serveChunk, EStateM.run_bind, hrun]
  · refine Or.inr ⟨q, p, hasked, fun store => ?_⟩
    rw [serveChunk, EStateM.run_bind, hrun]
    simp only [EStateM.run_bind, EStateM.run_get, read]
    rw [readNext]
    cases store p (min d.chunkSize.toUInt64.toNat (p.size.toNat - q.offset.toNat)) q.offset <;> rfl

/-- **A request for a chunk** is taken as the offer takes it, and changes nothing if it fails. -/
theorem serveChunk_follows (store : Store) (r : ChunkRequest) :
    Follows store d ((serveChunk store r).run d) ((d.offer store).serveChunk r) := by
  rcases serveChunk_run (d := d) r with ⟨e, hfails⟩ | ⟨q, p, hasked, hrun⟩
  · rw [(hfails store).1, (hfails store).2]
    rfl
  · have hoffer := Offer.serveChunk_asked (serving_offer store hasked.queue hasked.pack)
      hasked.uuid hasked.offset
    have hread : (q.busy store p).pack.readAt (min (d.offer store).chunkSize.toUInt64.toNat
        ((q.busy store p).pack.size.toNat - (q.busy store p).offset.toNat))
          (q.busy store p).offset = d.readNext store q p := rfl
    rw [hrun store, hoffer, hread]
    cases d.readNext store q p with
    | error cause => rfl
    | ok data => exact deliver_run hasked store data

/-! ### Calls one after another -/

/-- A call, and what the store is like then. -/
structure Visit where
  store : Store
  call : Offer.Call

/-- The reaction to a call. -/
def handle (v : Visit) : Handling Unit :=
  match v.call with
  | .answer r => respond r
  | .request r => serveChunk v.store r

/-- **A call is taken as the offer takes it.**  When it fails the desk is as before: the stage, the
queue with its packs, its place and its offset, and what was sent. -/
theorem handle_follows (d : Desk) (v : Visit) :
    Follows v.store d ((handle v).run d) ((d.offer v.store).hear v.call) := by
  obtain ⟨store, call⟩ := v
  cases call with
  | answer r => exact respond_follows store r
  | request r => exact serveChunk_follows store r

/-- Does a call succeed? -/
def takes (d : Desk) (v : Visit) : Bool :=
  match (handle v).run d with
  | .ok _ _ => true
  | .error _ _ => false

/-- The desk after a call, whether it fails or not. -/
def after (d : Desk) (v : Visit) : Desk :=
  match (handle v).run d with
  | .ok _ d' => d'
  | .error _ d' => d'

/-- The desk after some calls. -/
def run (d : Desk) : List Visit → Desk
  | [] => d
  | v :: vs => (d.after v).run vs

/-- The desks that some calls lead through, from the first on. -/
def states (d : Desk) : List Visit → List Desk
  | [] => [d]
  | v :: vs => d :: (d.after v).states vs

/-- The calls that do not fail. -/
def kept (d : Desk) : List Visit → List Visit
  | [] => []
  | v :: vs => if d.takes v then v :: (d.after v).kept vs else (d.after v).kept vs

/-- Does none of some calls fail? -/
def Smooth (d : Desk) : List Visit → Prop
  | [] => True
  | v :: vs => d.takes v = true ∧ (d.after v).Smooth vs

/-- Whenever the stores of some calls give bytes, they give the same bytes for the same read. -/
def Unwavering (vs : List Visit) : Prop :=
  ∀ v ∈ vs, ∀ w ∈ vs, ∀ p length offset bs bs',
    v.store p length offset = .ok bs → w.store p length offset = .ok bs' → bs = bs'

/-- A call that fails leaves the desk as it is. -/
theorem eq_of_error {v : Visit} {e : TransferError} (h : (handle v).run d = .error e d') :
    d' = d := by
  have hfollows := handle_follows d v
  rw [h] at hfollows
  cases hear : (d.offer v.store).hear v.call with
  | error cause =>
    rw [hear] at hfollows
    cases hfollows
    rfl
  | ok reply =>
    rw [hear] at hfollows
    obtain ⟨_, hok, -⟩ := hfollows
    cases hok

theorem after_of_fails {v : Visit} (h : d.takes v = false) : d.after v = d := by
  rw [takes] at h
  rw [after]
  cases hrun : (handle v).run d with
  | ok _ d' =>
    rw [hrun] at h
    cases h
  | error e d' => exact eq_of_error hrun

/-- With a store that does not change, a desk goes the way of the offer that it is. -/
theorem run_offer (store : Store) (calls : List Offer.Call) :
    (d.run (calls.map (Visit.mk store))).offer store = ((d.offer store).run calls).1 := by
  induction calls generalizing d with
  | nil => rfl
  | cons c calls ih =>
    show ((d.after ⟨store, c⟩).run (calls.map (Visit.mk store))).offer store =
      (((d.offer store).step c).1.run calls).1
    have hstep : (d.after ⟨store, c⟩).offer store = ((d.offer store).step c).1 := by
      have hfollows := handle_follows d ⟨store, c⟩
      rw [after]
      cases hear : (d.offer store).hear c with
      | error e =>
        rw [hear] at hfollows
        rw [hfollows, Offer.step_of_error hear]
      | ok reply =>
        rw [hear] at hfollows
        obtain ⟨d', hrun, hreplied⟩ := hfollows
        rw [hrun, Offer.step_of_ok hear]
        exact hreplied.offer
    rw [ih, hstep]

/-- A call that fails is left out of those that are kept, and one that does not goes on with the
others. -/
theorem kept_cons (v : Visit) (vs : List Visit) :
    d.takes v = true ∧ d.kept (v :: vs) = v :: (d.after v).kept vs ∨
      d.takes v = false ∧ d.after v = d ∧ d.kept (v :: vs) = d.kept vs := by
  cases h : d.takes v with
  | true => exact Or.inl ⟨rfl, if_pos h⟩
  | false =>
    have hafter := after_of_fails h
    refine Or.inr ⟨rfl, hafter, ?_⟩
    rw [kept, h, hafter]
    rfl

/-- Calls that are left out when they fail come to the same without them. -/
theorem kept_spec (d : Desk) (vs : List Visit) :
    d.Smooth (d.kept vs) ∧ d.run (d.kept vs) = d.run vs ∧
      ∀ d', d' ∈ d.states (d.kept vs) ↔ d' ∈ d.states vs := by
  induction vs generalizing d with
  | nil => exact ⟨trivial, rfl, fun _ => Iff.rfl⟩
  | cons v vs ih =>
    obtain ⟨hsmooth, hrun, hstates⟩ := ih (d.after v)
    rcases kept_cons (d := d) v vs with ⟨htakes, hkept⟩ | ⟨-, hafter, hkept⟩
    · rw [hkept]
      refine ⟨⟨htakes, hsmooth⟩, hrun, fun d' => ?_⟩
      rw [states, states, List.mem_cons, List.mem_cons, hstates]
    · rw [hafter] at hsmooth hrun hstates
      rw [hkept, run, states, hafter]
      refine ⟨hsmooth, hrun, fun d' => ?_⟩
      rw [List.mem_cons, ← hstates]
      have hfirst : d ∈ d.states (d.kept vs) := by cases d.kept vs <;> exact List.mem_cons_self
      exact ⟨Or.inr, fun h => h.elim (fun heq => heq ▸ hfirst) id⟩

/-- Two calls for the same come to the same, if neither fails. -/
theorem after_alike {v w : Visit} (hcall : v.call = w.call) (halike : Unwavering [v, w])
    (hv : d.takes v = true) (hw : d.takes w = true) : d.after v = d.after w := by
  obtain ⟨store, call⟩ := v
  obtain ⟨store', call'⟩ := w
  obtain rfl : call = call' := hcall
  cases call with
  | answer r => rfl
  | request r =>
    rcases serveChunk_run (d := d) r with ⟨e, hfails⟩ | ⟨q, p, -, hrun⟩
    · rw [takes, handle, (hfails store).1] at hv
      cases hv
    · rw [takes, handle, hrun] at hv hw
      rw [after, after, handle, handle, hrun, hrun]
      cases hread : d.readNext store q p with
      | error cause =>
        rw [hread] at hv
        cases hv
      | ok data =>
        cases hread' : d.readNext store' q p with
        | error cause =>
          rw [hread'] at hw
          cases hw
        | ok data' =>
          rw [halike _ List.mem_cons_self _ (List.mem_cons_of_mem _ List.mem_cons_self) _ _ _ _ _
            hread hread']

theorem Unwavering.subset {vs ws : List Visit} (h : Unwavering vs) (hsubset : ws ⊆ vs) :
    Unwavering ws :=
  fun v hv w hw => h v (hsubset hv) w (hsubset hw)

theorem kept_sublist (d : Desk) (vs : List Visit) : (d.kept vs).Sublist vs := by
  induction vs generalizing d with
  | nil => exact List.Sublist.slnil
  | cons v vs ih =>
    rw [kept]
    split
    · exact (ih _).cons_cons v
    · exact (ih _).cons v

/-- Calls for the same lead through the same desks, if none of them fails. -/
theorem states_alike {vs ws : List Visit} (hcalls : vs.map Visit.call = ws.map Visit.call)
    (halike : Unwavering (vs ++ ws)) (hvs : d.Smooth vs) (hws : d.Smooth ws) :
    d.states vs = d.states ws ∧ d.run vs = d.run ws := by
  induction vs generalizing d ws with
  | nil =>
    obtain rfl : ws = [] := List.map_eq_nil_iff.mp hcalls.symm
    exact ⟨rfl, rfl⟩
  | cons v vs ih =>
    cases ws with
    | nil => cases hcalls
    | cons w ws =>
      obtain ⟨hcall, hcalls⟩ := List.cons.inj hcalls
      have hafter : d.after v = d.after w :=
        after_alike hcall (halike.subset (by simp)) hvs.1 hws.1
      have hrest : Unwavering (vs ++ ws) := halike.subset fun u hu => by
        rcases List.mem_append.mp hu with hu | hu
        · exact List.mem_append_left _ (List.mem_cons_of_mem v hu)
        · exact List.mem_append_right _ (List.mem_cons_of_mem w hu)
      obtain ⟨hstates, hrun⟩ := ih hcalls hrest hvs.2 (hafter ▸ hws.2)
      rw [states, states, run, run, ← hafter, hstates, hrun]
      exact ⟨rfl, rfl⟩

/-- **Errors leave a server as it is**, whatever it has come to and whatever its store is like.  A
call that fails changes nothing and sends nothing; any other is taken as the offer takes it.  So a
sequence of calls comes to the same as those of them that do not fail: these succeed again when the
others are left out, and lead through the same states and send the same packets.  This holds also
if they are made with stores that fail elsewhere, as long as what the stores give is the same for
the same read. -/
theorem failures_leave_intact (d : Desk) :
    (∀ v e d', (handle v).run d = .error e d' → d' = d) ∧
      (∀ v, Follows v.store d ((handle v).run d) ((d.offer v.store).hear v.call)) ∧
      (∀ vs, d.Smooth (d.kept vs) ∧ d.run (d.kept vs) = d.run vs ∧
        ∀ d', d' ∈ d.states (d.kept vs) ↔ d' ∈ d.states vs) ∧
      ∀ vs ws, (d.kept vs).map Visit.call = (d.kept ws).map Visit.call →
        Unwavering (vs ++ ws) →
          d.states (d.kept vs) = d.states (d.kept ws) ∧ d.run vs = d.run ws := by
  refine ⟨fun v e d' hrun => eq_of_error hrun, handle_follows d, kept_spec d, ?_⟩
  intro vs ws hcalls halike
  obtain ⟨hvs, hrun, -⟩ := kept_spec d vs
  obtain ⟨hws, hrun', -⟩ := kept_spec d ws
  have hsubset : d.kept vs ++ d.kept ws ⊆ vs ++ ws :=
    ((kept_sublist d vs).append (kept_sublist d ws)).subset
  rw [← hrun, ← hrun']
  exact states_alike hcalls (halike.subset hsubset) hvs hws

deriving instance DecidableEq for Offer.Call

/-- A desk with two packs of five and four bytes, after the catalog was sent. -/
def exampleDesk : Desk := opening (Offer.exampleArchives.map (·.toPack)) 2 false

/-- A client that asks for a pack, in vain with a token that names none; then for its second chunk
too early, for its first while the store is away, and for its first again. -/
def exampleVisits : List Visit :=
  let token := "00000000-0000-0000-0000-000000000001"
  let store : Store := fun p => p.readAt
  let away : Store := fun _ _ _ => .error (.store "away")
  [⟨store, .answer ⟨Answer.sendPacks.code, [token, "none"]⟩⟩,
    ⟨away, .answer ⟨Answer.sendPacks.code, [token]⟩⟩, ⟨store, .request ⟨token, 1⟩⟩,
    ⟨away, .request ⟨token, 0⟩⟩, ⟨store, .request ⟨token, 0⟩⟩]

/-- A client that asks for the same pack and for its first chunk, and for no more. -/
def exampleDirect : List Visit :=
  let token := "00000000-0000-0000-0000-000000000001"
  [⟨fun p => p.readAt, .answer ⟨Answer.sendPacks.code, [token]⟩⟩,
    ⟨fun p => p.readAt, .request ⟨token, 0⟩⟩]

/-- Both are sent the catalog, the announcement and one chunk, and leave the same desk. -/
theorem failures_leave_intact_exampleVisits :
    (exampleDesk.kept exampleVisits).length = 2 ∧
      (exampleDesk.run exampleVisits).sent.length = 3 ∧
      exampleDesk.run exampleVisits = exampleDesk.run exampleDirect := by
  refine ⟨by decide +kernel, by decide +kernel, ?_⟩
  refine ((failures_leave_intact exampleDesk).2.2.2 exampleVisits exampleDirect
    (by decide +kernel) ?_).2
  have hgives : ∀ v ∈ exampleVisits ++ exampleDirect, ∀ p length offset bs,
      v.store p length offset = .ok bs → p.readAt length offset = .ok bs := by
    intro v hv p length offset bs hread
    simp only [exampleVisits, exampleDirect, List.cons_append, List.nil_append, List.mem_cons,
      List.not_mem_nil, or_false] at hv
    rcases hv with rfl | rfl | rfl | rfl | rfl | rfl | rfl
    all_goals first | exact hread | cases hread
  intro v hv w hw p length offset bs bs' hread hread'
  have hsame := (hgives v hv p length offset bs hread).symm.trans
    (hgives w hw p length offset bs' hread')
  exact Except.ok.inj hsame

end Desk

end PackExchange
