import PackExchange.Packet.Body
import PackExchange.Transfer.Error

/-!
# The download of one pack

A download has two sides.  The receiving side checks each chunk as it arrives and puts it into a
slot that holds one chunk.  The worker asks for the chunks one after another; it asks for the next
only when it has taken the one before from the slot, and at the end it has the whole pack.

* `Download.announced` — the download that an announcement starts;
* `Download.accept` — checks a chunk and puts it into the slot;
* `Download.wake` — lets the worker take one step.

Chunks are accepted until the last one has come or one was wrong.  A worker whose download no
longer accepts chunks still takes the one in the slot, and gives up when there is none.
-/

namespace PackExchange

/-- How far a worker has come. -/
inductive Worker where
  /-- It has taken the chunks before this one, and is about to ask for it if there is such a
  chunk. -/
  | ready (index : UInt32)
  /-- It has asked for a chunk and waits for it. -/
  | waiting (index : UInt32)
  | ended
  deriving DecidableEq, Repr

/-- The download of one pack. -/
structure Download where
  id : PackId
  /-- The text that names the pack in requests, as the announcement spells it. -/
  reference : String
  size : UInt64
  contentKey : String
  /-- The expected SHA-256, or nothing. -/
  hash : Bytes
  chunkSize : UInt32
  chunkCount : UInt32
  /-- The index of the chunk that has to come next. -/
  expected : UInt32 := 0
  /-- How many bytes have been accepted. -/
  received : UInt64 := 0
  accepting : Bool := true
  slot : Option Bytes := none
  worker : Worker := .ready 0
  /-- The chunks that the worker has taken, last first. -/
  taken : List Bytes := []
  deriving DecidableEq, Repr

namespace Download

/-- How many chunks of a size some bytes split into, as a 32-bit word. -/
def chunksOf (size : UInt64) (chunkSize : UInt32) : UInt32 :=
  UInt32.ofNat ((size.toNat + chunkSize.toNat - 1) / chunkSize.toNat)

/-- The download that an announcement starts.  The number of chunks that it names is not
trusted. -/
def announced (id : PackId) (contentKey : String) (a : PackData) : Download :=
  { id := id
    reference := a.uuid
    size := a.size
    contentKey := contentKey
    hash := a.hash
    chunkSize := a.chunkSize
    chunkCount := chunksOf a.size a.chunkSize }

/-! ### The receiving side -/

/-- What is wrong with a chunk, if anything is. -/
def fault? (d : Download) (c : ChunkData) : Option TransferError :=
  let uuid := d.id.uuid
  let length := UInt64.ofNat c.data.length
  let last := d.size ≤ d.received + d.chunkSize.toUInt64
  if c.index ≠ d.expected then some (.chunkIndexMismatch uuid d.expected c.index)
  else if ¬ last ∧ length ≠ d.chunkSize.toUInt64 then
    some (.chunkSizeMismatch uuid d.chunkSize c.data.length)
  else if d.size < d.received + length then some (.overflow uuid d.size)
  else if d.worker = .ended then some (.unknownPack uuid)
  else if d.slot.isSome then some (.unrequestedChunk uuid c.index)
  else none

/-- Puts a chunk into the slot.  With the last chunk the download stops accepting. -/
def put (d : Download) (c : ChunkData) : Download :=
  let expected := d.expected + 1
  { d with
    slot := some c.data
    expected := expected
    received := d.received + UInt64.ofNat c.data.length
    accepting := expected < d.chunkCount }

/-- No chunk is accepted any more. -/
def close (d : Download) : Download := { d with accepting := false }

/-- Checks a chunk and puts it into the slot; a wrong chunk ends the download. -/
def accept (d : Download) (c : ChunkData) : Download × Option TransferError :=
  match d.fault? c with
  | none => (d.put c, none)
  | some e => (d.close, some e)

/-! ### The worker -/

/-- What a worker does to the outside. -/
inductive Deed where
  | nothing
  | request (index : UInt32)
  /-- All chunks have been taken; these are their bytes. -/
  | finish (data : Bytes)
  deriving DecidableEq, Repr

/-- Gives up. -/
def abandon (d : Download) : Download × Deed := ({ d with worker := .ended }, .nothing)

/-- Asks for a chunk, or finishes if there are no more. -/
def advance (d : Download) (cancelled : Bool) (index : UInt32) : Download × Deed :=
  if cancelled then d.abandon
  else if index < d.chunkCount then ({ d with worker := .waiting index }, .request index)
  else ({ d with worker := .ended }, .finish d.taken.reverse.flatten)

/-- Lets the worker take one step.  If there is a chunk in the slot and everything is cancelled,
either may wake it: `slotFirst` says which does. -/
def wake (d : Download) (cancelled slotFirst : Bool) : Download × Deed :=
  match d.worker with
  | .ended => (d, .nothing)
  | .ready index => d.advance cancelled index
  | .waiting index =>
    if cancelled && !slotFirst then d.abandon
    else
      match d.slot with
      | some chunk =>
        ({ d with slot := none, taken := chunk :: d.taken, worker := .ready (index + 1) }, .nothing)
      | none => if d.accepting && !cancelled then (d, .nothing) else d.abandon

end Download

end PackExchange
