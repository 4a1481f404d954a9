import PackExchange.Packet.Revision
import PackExchange.Transfer.Error
import PackExchange.Transfer.Stage

/-!
# Offering packs

The server's side of the exchange, for one client.  It sends a catalog, serves the packs the
client asks for one at a time and chunk by chunk, and sends the load order at the end.

* `Offer` — the packs on offer, and how far the client has come;
* `Offer.catalog` and `Offer.stack` — the catalog and the load order;
* `Offer.start`, `Offer.respond`, `Offer.serveChunk` — what the server sends at the start, to an
  answer of the client, and to a request for a chunk.

Whatever fails sends nothing and leaves the offer as it was, because there is no new offer then.
-/

namespace PackExchange

/-- The packs a client has asked for and not been sent in full: the one being served, how far it
has been sent, and those after it. -/
structure Serving where
  pack : Pack
  offset : UInt64 := 0
  later : List Pack

/-- The server's side of the exchange. -/
structure Offer where
  /-- The packs on offer; none of them is empty. -/
  packs : List Pack
  /-- The size of all chunks of a pack but the last; at least one. -/
  chunkSize : UInt32
  stage : ServerStage := .awaitingRequest
  serving : Option Serving := none

namespace Offer

/-- An offer of packs.  Empty packs are left out: no client could resolve them. -/
def ofPacks (packs : List Pack) (chunkSize : UInt32) : Offer :=
  { packs := packs.filter (!·.isEmpty)
    chunkSize := if chunkSize = 0 then 1 else chunkSize }

/-- Has the client completed the exchange? -/
def loggedIn (o : Offer) : Bool := o.stage == .loggedIn

/-! ### Catalog and load order -/

/-- The catalog entry of a pack; the key goes with an identity, and only for encrypted packs. -/
def entry (p : Pack) : CatalogEntry :=
  { uuid := p.id.uuid
    version := p.id.version
    size := p.size
    contentKey := if p.encrypted then p.contentKey else ""
    contentIdentity := if p.encrypted then p.id.uuid.text else ""
    downloadUrl := p.downloadUrl }

/-- The catalog of all packs on offer. -/
def catalog (o : Offer) (required : Bool) : Catalog :=
  { required := required, packs := o.packs.map entry }

/-- The place of a pack in the load order. -/
def stackEntry (id : PackId) : StackEntry := { uuid := id.uuid.text, version := id.version }

/-- The load order: the packs on offer, then those every client has. -/
def stack (o : Offer) : PackStack :=
  { packs := (o.packs.map (·.id) ++ PackId.exempted).map stackEntry
    gameVersion := Revision.latest.gameVersion }

/-! ### Steps -/

/-- Sends the catalog and waits for the client's answer. -/
def start (o : Offer) (required : Bool) : Offer × List Packet :=
  ({ o with stage := .awaitingResponse }, [.catalog (o.catalog required)])

/-- The first pack on offer that a token names.  A token without a version names any. -/
def find? (o : Offer) (token : String) : Option Pack := do
  let id ← PackId.parse? token
  o.packs.find? fun p => p.id.uuid == id.uuid && (id.version.isEmpty || p.id.version == id.version)

/-- The packs that tokens name, in the order in which they are first named; of the packs with one
identifier only the first counts. -/
def resolve (o : Offer) : List String → List Pack → Except TransferError (List Pack)
  | [], named => .ok named.reverse
  | token :: tokens, named =>
    match o.find? token with
    | none => .error (.unknownRequestedPack token)
    | some p =>
      if named.any (·.id.uuid == p.id.uuid) then resolve o tokens named
      else resolve o tokens (p :: named)

/-- Announces a pack. -/
def announcement (o : Offer) (p : Pack) : PackData :=
  { uuid := p.id.token
    chunkSize := o.chunkSize
    chunkCount := p.chunkCount o.chunkSize
    size := p.size
    hash := p.checksum
    packType := PackData.resources }

/-- Goes on with the first of some packs, or back to waiting for an answer if there is none. -/
def serveNext (o : Offer) : List Pack → Offer × List Packet
  | [] => ({ o with stage := .awaitingResponse, serving := none }, [])
  | p :: later =>
    ({ o with stage := .servingChunks, serving := some { pack := p, later := later } },
      [.packData (o.announcement p)])

/-- Handles an answer of the client. -/
def respond (o : Offer) (r : ClientResponse) : Except TransferError (Offer × List Packet) :=
  match o.stage, Answer.ofCode? r.response with
  | _, some .refused => .error .refused
  | .awaitingResponse, some .sendPacks =>
    match o.resolve r.packs [] with
    | .error e => .error e
    | .ok [] => .error .nothingRequested
    | .ok packs => .ok (o.serveNext packs)
  | .awaitingResponse, some .allPacksDownloaded =>
    .ok ({ o with stage := .awaitingCompletion }, [.stack o.stack])
  | .awaitingCompletion, some .completed => .ok ({ o with stage := .loggedIn }, [])
  | _, _ => .error (.unexpectedResponse r.response)

/-- Serves one chunk of the pack being served.  The last one is that which reaches its end. -/
def serveChunk (o : Offer) (r : ChunkRequest) : Except TransferError (Offer × List Packet) :=
  match o.serving with
  | none => .error .notServing
  | some s =>
    let size := o.chunkSize.toUInt64
    if PackId.uuidOf? r.uuid ≠ some s.pack.id.uuid then
      .error (.unexpectedPack s.pack.id.uuid r.uuid)
    else if s.offset ≠ r.index.toUInt64 * size then
      .error (.unexpectedChunkIndex (s.offset / size).toUInt32 r.index)
    else
      let left := s.pack.size.toNat - s.offset.toNat
      match s.pack.readAt (min size.toNat left) s.offset with
      | .error cause => .error (.store cause)
      | .ok data =>
        let chunk : Packet :=
          .chunkData { uuid := r.uuid, index := r.index, offset := s.offset, data := data }
        if s.pack.size ≤ s.offset + UInt64.ofNat data.length then
          let (o, sent) := o.serveNext s.later
          .ok (o, chunk :: sent)
        else
          .ok ({ o with serving := some { s with offset := s.offset + size } }, [chunk])

end Offer

end PackExchange
