import PackExchange.Packet.Basic
import PackExchange.Transfer.Download
import PackExchange.Transfer.Selection
import PackExchange.Transfer.Stage

/-!
# Fetching packs

The client's side of the exchange.  It answers a catalog with the packs it wants, downloads each
pack that the server announces, and compares the load order with the packs it has in the end.

* `FetchRules` — the filter for the catalog, and what makes a pack of downloaded bytes;
* `Fetch` — how far the client has come;
* `Fetch.takeCatalog`, `takeAnnouncement`, `takeChunk`, `takeStack` — one packet of the server;
* `Fetch.work` — one worker takes one step;
* `Fetch.settle` — every worker runs until nothing is left for it to do.

A wrong announcement or chunk costs the pack it names and nothing else.
-/

namespace PackExchange

/-- What a client decides for itself. -/
structure FetchRules where
  filter : Option DownloadFilter := none
  unpack : PackId → Bytes → Except UnpackError Pack := Archive.unpack

/-- The client's side of the exchange. -/
structure Fetch where
  rules : FetchRules := {}
  stage : ClientStage := .awaitingNetworkSettings
  /-- How many packs are missing before the load order is expected. -/
  remaining : Nat := 0
  /-- The packs that were not announced yet. -/
  wanted : List Wanted := []
  /-- All downloads, in the order in which they started. -/
  downloads : List Download := []
  resolved : List Pack := []
  /-- The packs that the filter turned down. -/
  ignored : List PackId := []
  /-- All calls of the filter. -/
  consulted : List Consultation := []
  cancelled : Bool := false

namespace Fetch

/-! ### The packets of the server -/

/-- Compression is agreed on; the catalog is next. -/
def takeSettings (f : Fetch) : Fetch :=
  if f.stage = .awaitingNetworkSettings then { f with stage := .awaitingCatalog } else f

/-- Answers a catalog.  Whatever was going on for an earlier catalog is given up. -/
def takeCatalog (f : Fetch) (c : Catalog) : Fetch × List Packet :=
  let selection := Selection.ofCatalog f.rules.filter c.packs
  let f :=
    { f with
      remaining := selection.remaining
      wanted := selection.wanted
      downloads := f.downloads.map Download.close
      ignored := selection.ignored
      consulted := f.consulted ++ selection.consulted }
  match selection.wanted.map (·.id.token) with
  | [] =>
    ({ f with stage := .awaitingStack }, [.clientResponse (.plain .allPacksDownloaded)])
  | tokens =>
    ({ f with stage := .downloading }, [.clientResponse ⟨Answer.sendPacks.code, tokens⟩])

/-- Starts the download of an announced pack.  A pack is announced once, even if the announcement
is wrong. -/
def takeAnnouncement (f : Fetch) (a : PackData) : Fetch × Option TransferError :=
  match PackId.uuidOf? a.uuid with
  | none => (f, some (.invalidPackId a.uuid))
  | some uuid =>
    match f.wanted.find? (·.id.uuid == uuid) with
    | none => (f, some (.unknownPack uuid))
    | some w =>
      let f := { f with wanted := f.wanted.filter (·.id.uuid != uuid) }
      if a.chunkSize = 0 then (f, some (.zeroChunkSize uuid))
      else if a.size = 0 then (f, some (.emptyPack uuid))
      else
        let download := Download.announced w.id w.contentKey a
        ({ f with downloads := f.downloads ++ [download] }, none)

/-- Is this the download that chunks of a pack go to? -/
def takes (uuid : Uuid) (d : Download) : Bool := d.accepting && d.id.uuid == uuid

/-- Passes a chunk to the download of its pack. -/
def takeChunk (f : Fetch) (c : ChunkData) : Fetch × Option TransferError :=
  match PackId.uuidOf? c.uuid with
  | none => (f, some (.invalidPackId c.uuid))
  | some uuid =>
    match f.downloads.find? (takes uuid) with
    | none => (f, some (.unknownPack uuid))
    | some d =>
      let (changed, error) := d.accept c
      let update (d : Download) : Download := if takes uuid d then changed else d
      ({ f with downloads := f.downloads.map update }, error)

/-- Does the client have the pack that an entry of the load order names, or need it not? -/
def holds (f : Fetch) (e : StackEntry) : Bool :=
  match PackId.uuidOf? e.uuid with
  | none => false
  | some uuid =>
    let id : PackId := ⟨uuid, e.version⟩
    id.isExempted || f.ignored.contains id || f.resolved.any (·.id == id)

/-- Compares the load order with the packs the client has, and finishes the exchange. -/
def takeStack (f : Fetch) (s : PackStack) : Except TransferError (Fetch × List Packet) :=
  match s.packs.find? (!f.holds ·) with
  | some e => .error (.missingStackEntry e.uuid e.version)
  | none => .ok ({ f with stage := .done }, [.clientResponse (.plain .completed)])

/-- From now on the workers give up. -/
def cancel (f : Fetch) : Fetch := { f with cancelled := true }

/-! ### The workers -/

/-- Counts one missing pack less, and says so when it was the last.  An exchange never counts below
zero: the first case is unreachable in it, by `Ledger.remaining_ne_zero`. -/
def countOff (f : Fetch) : Fetch × List Packet :=
  match f.remaining with
  | 0 => (f, [])
  | 1 =>
    ({ f with remaining := 0, stage := .awaitingStack },
      [.clientResponse (.plain .allPacksDownloaded)])
  | n + 2 => ({ f with remaining := n + 1 }, [])

/-- Takes the bytes of a finished download.  Unless they are the announced pack they are thrown
away, and the pack stays missing. -/
def complete (f : Fetch) (d : Download) (data : Bytes) : Fetch × List Packet :=
  if !d.hash.isEmpty && Sha256.digest data != d.hash then (f, [])
  else if UInt64.ofNat data.length ≠ d.size then (f, [])
  else
    match f.rules.unpack d.id data with
    | .error _ => (f, [])
    | .ok p => { f with resolved := f.resolved ++ [{ p with contentKey := d.contentKey }] }.countOff

/-- Lets the worker of one download take one step. -/
def work (f : Fetch) (k : Nat) (slotFirst : Bool) : Fetch × List Packet :=
  match f.downloads[k]? with
  | none => (f, [])
  | some d =>
    let (changed, deed) := d.wake f.cancelled slotFirst
    let f := { f with downloads := f.downloads.set k changed }
    match deed with
    | .nothing => (f, [])
    | .request index => (f, [.chunkRequest ⟨d.reference, index⟩])
    | .finish data => f.complete d data

/-- Lets workers take steps, one after another. -/
def workAll (f : Fetch) : List Nat → Fetch × List Packet
  | [] => (f, [])
  | k :: ks =>
    let (f, sent) := f.work k false
    let (f, more) := workAll f ks
    (f, sent ++ more)

/-- Lets every worker run until nothing is left for it to do.  After four steps a worker waits for
a chunk or has ended: it asks, takes the chunk that is in the slot, asks again, and gives up if no
more chunks are accepted. -/
def settle (f : Fetch) : Fetch × List Packet :=
  f.workAll ((List.range f.downloads.length).flatMap fun k => [k, k, k, k])

end Fetch

end PackExchange
