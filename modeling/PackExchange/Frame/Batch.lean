import PackExchange.Deflate.Copies
import PackExchange.Frame.Error
import PackExchange.Wire.VarInt

/-!
# Batches and frames

A batch is a list of packets.  Its body holds each packet after its length; a mark and, once
compression is agreed on, the name of an algorithm come before the body.  A frame is a batch
after its length.

What compresses a body is a parameter: nothing is asked of it but that its output expands to what it
was given.  Sessions use the one of `Batch.compressor`.

* `Batch.body` and `Batch.packets` — packets as a body, and the packets of a body;
* `Batch.writeWith` and `Batch.read` — packets as a whole batch, and the packets of one;
* `Frame.writeWith` and `Frame.split?` — a batch as a frame, and the first frame of some bytes;
* `Expands` — what is asked of a compressor;
* `Batch.write`, `Frame.write` — a batch and a frame of a session.

`packets_body`, `read_writeWith` and `split?_ofBatch` read back what was written.
-/

namespace PackExchange

namespace Batch

/-! ### The body -/

/-- Each packet after its length. -/
def body (packets : List Bytes) : Bytes :=
  packets.flatMap fun packet => VarInt.write32 (UInt32.ofNat packet.length) ++ packet

/-- Takes packets off a body, with those already taken, last first. -/
def take : Nat → Bytes → List Bytes → Except FrameError (List Bytes)
  | _, [], taken => .ok taken.reverse
  | 0, _ :: _, taken => .ok taken.reverse
  | fuel + 1, bs@(_ :: _), taken =>
    match VarInt.read32 bs with
    | .error cause => .error (.unreadable cause)
    | .ok (length, rest) =>
      match Bytes.split? length.toNat rest with
      | none => .error (.packetTooLong length.toNat rest.length)
      | some (packet, rest) => take fuel rest (packet :: taken)

/-- The packets of a body.  Each of them takes a byte at least. -/
def packets (bs : Bytes) : Except FrameError (List Bytes) := take bs.length bs []

theorem take_body (fuel : Nat) (packets taken : List Bytes)
    (hfuel : (body packets).length ≤ fuel) (hsize : ∀ packet ∈ packets, packet.length < UInt32.size) :
    take fuel (body packets) taken = .ok (taken.reverse ++ packets) := by
  induction packets generalizing fuel taken with
  | nil => simp [body, take]
  | cons packet packets ih =>
    have hlength : (UInt32.ofNat packet.length).toNat = packet.length := by
      have := hsize packet (by simp)
      simp
      omega
    have hbody : body (packet :: packets) =
        VarInt.write32 (UInt32.ofNat packet.length) ++ (packet ++ body packets) := by
      simp [body]
    have hread := VarInt.read32_write32 (UInt32.ofNat packet.length) (packet ++ body packets)
    have hshort := VarInt.read32_shorter hread
    obtain ⟨b, bs, hcons⟩ : ∃ b bs, body (packet :: packets) = b :: bs := by
      cases h : body (packet :: packets) with
      | nil => rw [← hbody, h] at hshort; simp at hshort
      | cons b bs => exact ⟨b, bs, rfl⟩
    rw [← hbody] at hread hshort
    cases fuel with
    | zero => rw [hcons] at hfuel; simp at hfuel
    | succ fuel =>
      rw [hcons] at hread ⊢
      simp only [take, hread, hlength, Bytes.split?_append]
      rw [ih fuel (packet :: taken) (by simp at hshort; omega)
        (by intro p hp; exact hsize p (by simp [hp]))]
      simp

/-- The packets of a body are those that were written to it. -/
theorem packets_body (ps : List Bytes) (hsize : ∀ packet ∈ ps, packet.length < UInt32.size) :
    packets (body ps) = .ok ps := by
  simpa [packets] using take_body (body ps).length ps [] (Nat.le_refl _) hsize

/-! ### The mark and the algorithm -/

/-- The first byte of every batch. -/
def mark : UInt8 := 0xFE

/-- Names a body that is compressed. -/
def deflated : UInt8 := 0x00

/-- Names a body that stands as it is, among batches that may be compressed. -/
def plain : UInt8 := 0xFF

/-- A batch.  Once compression is agreed on, bodies are compressed by `z` from a threshold of bytes
on. -/
def writeWith (z : Bytes → Bytes) (threshold : Option UInt16) (ps : List Bytes) : Bytes :=
  match threshold with
  | none => mark :: body ps
  | some least =>
    if least.toNat ≤ (body ps).length then mark :: deflated :: z (body ps)
    else mark :: plain :: body ps

/-- The compressor of sessions. -/
abbrev compressor : Bytes → Bytes := Deflate.deflate mostBytes

/-- A batch of a session. -/
def write (threshold : Option UInt16) (ps : List Bytes) : Bytes := writeWith compressor threshold ps

/-- The bytes that a compressed body stands for. -/
def expand (bs : Bytes) : Except FrameError Bytes :=
  match Deflate.inflate mostBytes bs with
  | .error cause => .error (.notExpandable cause)
  | .ok content => .ok content

/-- The body of a batch, whose mark has been taken off; `compressed` says whether compression is
agreed on. -/
def readBody (compressed : Bool) (bs : Bytes) : Except FrameError Bytes :=
  if compressed then
    match bs with
    | [] => .error .noAlgorithm
    | algorithm :: bs =>
      if algorithm = deflated then expand bs
      else if algorithm = plain then .ok bs
      else .error (.unknownAlgorithm algorithm)
  else .ok bs

/-- The packets of a batch. -/
def read (compressed : Bool) (bs : Bytes) : Except FrameError (List Bytes) :=
  match bs with
  | [] => .error .notBatch
  | first :: bs =>
    if first = mark then
      match readBody compressed bs with
      | .error e => .error e
      | .ok content => packets content
    else .error .notBatch

end Batch

/-- Does the output of a compressor expand to what it was given? -/
def Expands (z : Bytes → Bytes) : Prop :=
  ∀ content : Bytes, content.length ≤ Batch.mostBytes →
    Deflate.inflate Batch.mostBytes (z content) = .ok content

/-- What a session compresses expands to what it was. -/
theorem expands_deflate : Expands (Deflate.deflate Batch.mostBytes) :=
  fun content hcontent => Deflate.inflate_deflate _ content hcontent

/-- **A batch is read as it was written**, if compression is agreed on when it was. -/
theorem Batch.read_writeWith {z : Bytes → Bytes} (hexpands : Expands z) (threshold : Option UInt16)
    {ps : List Bytes} (hsize : ∀ packet ∈ ps, packet.length < UInt32.size)
    (hbody : (body ps).length ≤ mostBytes) :
    read threshold.isSome (writeWith z threshold ps) = .ok ps := by
  have hpackets := packets_body ps hsize
  cases threshold with
  | none => simp [read, writeWith, readBody, hpackets]
  | some least =>
    by_cases hdeflated : least.toNat ≤ (body ps).length
    · simp [read, writeWith, readBody, expand, hdeflated, hexpands _ hbody, hpackets]
    · have hother : plain ≠ deflated := by decide
      simp [read, writeWith, readBody, hdeflated, hother, hpackets]

namespace Frame

/-- A batch after its length. -/
def ofBatch (batch : Bytes) : Bytes := VarInt.write32 (UInt32.ofNat batch.length) ++ batch

/-- Packets as one frame, whose batch is compressed by `z`. -/
def writeWith (z : Bytes → Bytes) (threshold : Option UInt16) (ps : List Bytes) : Bytes :=
  ofBatch (Batch.writeWith z threshold ps)

/-- Packets as one frame of a session. -/
def write (threshold : Option UInt16) (ps : List Bytes) : Bytes :=
  writeWith Batch.compressor threshold ps

/-- The batch of the first frame and the bytes after it, or nothing while the frame has not
arrived whole. -/
def split? (bs : Bytes) : Except FrameError (Option (Bytes × Bytes)) :=
  match VarInt.read32 bs with
  | .error (.notEnoughData ..) => .ok none
  | .error cause => .error (.unreadable cause)
  | .ok (length, rest) =>
    if length.toNat ≤ mostBytes then .ok (Bytes.split? length.toNat rest)
    else .error (.tooLong length.toNat)

/-- The first frame is the one that was written first. -/
theorem split?_ofBatch (batch rest : Bytes) (h : batch.length ≤ mostBytes) :
    split? (ofBatch batch ++ rest) = .ok (some (batch, rest)) := by
  have hlength : (UInt32.ofNat batch.length).toNat = batch.length := by
    unfold mostBytes at h
    simp
    omega
  simp [split?, ofBatch, VarInt.read32_write32, hlength, h, Bytes.split?_append]

end Frame

end PackExchange
