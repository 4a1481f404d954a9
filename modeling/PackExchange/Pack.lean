import PackExchange.Digest.Sha256
import PackExchange.PackId
import PackExchange.Text.Quoted

/-!
# Packs

* `Pack` — a pack as the exchange sees it: an identity and random access to its bytes;
* `Pack.chunkCount` — how many chunks of a size a pack splits into;
* `Archive` — a pack held in memory, with `Archive.toPack`;
* `Archive.unpack` — what becomes of the bytes of a finished download.

A pack may be kept anywhere, so reading it may fail or give less than was asked for.  An archive
gives less only at its end.
-/

namespace PackExchange

/-! ### Packs -/

/-- Why bytes of a pack could not be read. -/
inductive ReadError where
  /-- The offset lies behind the end. -/
  | pastEnd (offset size : Nat)
  /-- The store failed, in its own words. -/
  | store (message : String)
  deriving DecidableEq, Repr

/-- The wording of a read error. -/
def ReadError.message : ReadError → String
  | pastEnd offset size => s!"offset {offset} past end of {size} byte pack"
  | store message => message

/-- A pack as the exchange sees it. -/
structure Pack where
  id : PackId
  /-- The length in bytes. -/
  size : UInt64
  /-- The key the pack is encrypted with, or nothing. -/
  contentKey : String := ""
  /-- Where else a client may fetch the pack, or nothing. -/
  downloadUrl : String := ""
  /-- The SHA-256 of all bytes. -/
  checksum : Bytes
  /-- At most so many bytes, from an offset on. -/
  readAt : Nat → UInt64 → Except ReadError Bytes

namespace Pack

/-- Has the pack no bytes? -/
def isEmpty (p : Pack) : Bool := p.size == 0

/-- Is the pack encrypted? -/
def encrypted (p : Pack) : Bool := p.contentKey != ""

/-- How many chunks of a size the pack splits into, as a 32-bit word. -/
def chunkCount (p : Pack) (chunkSize : UInt32) : UInt32 :=
  if chunkSize = 0 then 0
  else UInt32.ofNat ((p.size.toNat + chunkSize.toNat - 1) / chunkSize.toNat)

end Pack

/-! ### Archives -/

/-- A pack held in memory. -/
structure Archive where
  id : PackId
  data : Bytes
  contentKey : String := ""
  downloadUrl : String := ""
  deriving DecidableEq, Repr

/-- Why bytes are not a pack. -/
inductive UnpackError where
  | noContent (id : PackId)
  | malformed (id : PackId)
  deriving DecidableEq, Repr

/-- The wording of an unpack error. -/
def UnpackError.message : UnpackError → String
  | noContent id => s!"Pack {id.label} has no content"
  | malformed id => s!"Pack {id.label} is not an archive"

namespace Archive

/-- At most `length` bytes from an offset on; fewer only at the end. -/
def readAt (data : Bytes) (length : Nat) (offset : UInt64) : Except ReadError Bytes :=
  if data.length < offset.toNat then .error (.pastEnd offset.toNat data.length)
  else .ok ((data.drop offset.toNat).take length)

/-- The archive as a pack. -/
def toPack (a : Archive) : Pack :=
  { id := a.id
    size := UInt64.ofNat a.data.length
    contentKey := a.contentKey
    downloadUrl := a.downloadUrl
    checksum := Sha256.digest a.data
    readAt := readAt a.data }

/-- Keeps the bytes of a finished download as they are; there must be some. -/
def unpack (id : PackId) (data : Bytes) : Except UnpackError Pack :=
  if data.isEmpty then .error (.noContent id)
  else .ok (toPack { id, data })

/-- One line about an archive, for logs. -/
def summary (a : Archive) : String :=
  "MemoryPack \x7b id: PackId \x7b uuid: " ++ a.id.uuid.text ++ ", version: " ++
    Text.quoted a.id.version ++ " \x7d, len: " ++ toString a.data.length ++ ", encrypted: " ++
    toString (a.contentKey != "") ++ " \x7d"

end Archive

end PackExchange
