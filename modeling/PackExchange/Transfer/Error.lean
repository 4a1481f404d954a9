import PackExchange.Pack

/-!
# What can go wrong between two peers

* `TransferError` — the causes, with `TransferError.message`;
* `TransferError.isFatal` — does the cause end the session, or only one download?
-/

namespace PackExchange

/-- A failure of the exchange of packs. -/
inductive TransferError where
  | invalidPackId (reference : String)
  | unknownPack (uuid : Uuid)
  | emptyPack (uuid : Uuid)
  | zeroChunkSize (uuid : Uuid)
  | chunkIndexMismatch (uuid : Uuid) (expected got : UInt32)
  | chunkSizeMismatch (uuid : Uuid) (expected : UInt32) (got : Nat)
  | overflow (uuid : Uuid) (size : UInt64)
  | unrequestedChunk (uuid : Uuid) (index : UInt32)
  | missingStackEntry (uuid version : String)
  | refused
  | unexpectedResponse (response : UInt8)
  | unknownRequestedPack (token : String)
  | nothingRequested
  | unexpectedPack (expected : Uuid) (got : String)
  | unexpectedChunkIndex (expected got : UInt32)
  | notServing
  | store (cause : ReadError)
  deriving DecidableEq, Repr

namespace TransferError

/-- The wording of a failure. -/
def message : TransferError → String
  | invalidPackId reference => "invalid pack reference " ++ Text.quoted reference
  | unknownPack uuid => s!"no pack {uuid.text} is being downloaded"
  | emptyPack uuid => s!"pack {uuid.text} has no content and can never be resolved"
  | zeroChunkSize uuid => s!"pack {uuid.text} announced a chunk size of zero"
  | chunkIndexMismatch uuid expected got =>
    s!"pack {uuid.text} chunk data had chunk index {got}, but expected {expected}"
  | chunkSizeMismatch uuid expected got =>
    s!"pack {uuid.text} chunk data had a length of {got}, but expected {expected}"
  | overflow uuid size =>
    s!"pack {uuid.text} chunk data would exceed the declared size of {size} bytes"
  | unrequestedChunk uuid index =>
    s!"pack {uuid.text} chunk {index} arrived before it was requested"
  | missingStackEntry uuid version =>
    "texture pack \x7buuid=" ++ uuid ++ ", version=" ++ version ++ "\x7d not downloaded"
  | refused => "client refused the resource packs"
  | unexpectedResponse response => s!"unexpected resource pack client response {response}"
  | unknownRequestedPack token => "client requested unknown pack " ++ Text.quoted token
  | nothingRequested => "client asked for packs but named none"
  | unexpectedPack expected got =>
    s!"chunk request had unexpected pack: expected {expected.text}, but got " ++ Text.quoted got
  | unexpectedChunkIndex expected got =>
    s!"chunk request had unexpected chunk index: expected {expected}, but got {got}"
  | notServing => "chunk request while no pack is being served"
  | store cause => "reading pack chunk: " ++ cause.message

/-- Does the failure end the session?  One that concerns a single download only abandons it. -/
def isFatal : TransferError → Bool
  | invalidPackId _ | unknownPack _ | zeroChunkSize _ | chunkIndexMismatch .. => false
  | chunkSizeMismatch .. | overflow .. | unrequestedChunk .. => false
  | _ => true

end TransferError

end PackExchange
