import Mathlib.Data.List.Forall2
import PackExchange.Proofs.Frame.Listener

/-!
# Batches that are written and read

Whatever packets are written, batch by batch, are the packets that are read, however the stream is
cut and whatever compresses the bodies.

* `Batch.Sendable` — the batches that can be sent;
* `Batch.Sendable.read_eq` — one of them is read as it was written;
* `Transcript.results_batches` — many batches are, one packet after another;
* `Listener.reads_back` — a stream of batches is, where compression is agreed on half-way.
-/

namespace PackExchange

/-! ### Compressed bodies -/

namespace Deflate

theorem length_storedBlocks (more : Nat) (bs : Bytes) :
    (storedBlocks more bs).length = bs.length + 5 * (more + 1) := by
  induction more generalizing bs with
  | zero => rw [storedBlocks, length_storedBlock]
  | succ more ih =>
    rw [storedBlocks, List.length_append, length_storedBlock, ih, List.length_take,
      List.length_drop]
    omega

/-- Compressing makes bytes longer by five at most for each block that they would fill. -/
theorem length_deflate_le (most : Nat) (bs : Bytes) :
    (deflate most bs).length ≤ bs.length + 5 * ((bs.length - 1) / blockSize + 1) := by
  have hstored := length_storedBlocks ((bs.length - 1) / blockSize) bs
  rw [deflate, stored]
  generalize (bs.length - 1) / blockSize = more at hstored ⊢
  split
  · next hshort =>
    simp only [Bool.and_eq_true, decide_eq_true_eq] at hshort
    omega
  · exact Nat.le_of_eq hstored

end Deflate

/-! ### One batch -/

/-- Can a batch be sent?  It has a packet, its frame is no larger than it may be, and neither is its
body if that is compressed. -/
structure Batch.Sendable (z : Bytes → Bytes) (threshold : Option UInt16) (ps : List Bytes) :
    Prop where
  some_packet : ps ≠ []
  frame : (writeWith z threshold ps).length ≤ Frame.mostBytes
  deflated : ∀ least, threshold = some least → least.toNat ≤ (body ps).length →
    (body ps).length ≤ mostBytes

/-- The body of a batch that can be sent is no larger than it may be. -/
theorem Batch.Sendable.body_le {z : Bytes → Bytes} {threshold : Option UInt16} {ps : List Bytes}
    (h : Sendable z threshold ps) : (body ps).length ≤ mostBytes := by
  have hmost : Frame.mostBytes ≤ mostBytes := by decide
  have hframe := h.frame
  cases threshold with
  | none =>
    simp only [writeWith, List.length_cons] at hframe
    omega
  | some least =>
    by_cases hdeflated : least.toNat ≤ (body ps).length
    · exact h.deflated least rfl hdeflated
    · simp only [writeWith, if_neg hdeflated, List.length_cons] at hframe
      omega

/-- Short batches can be sent, under any threshold. -/
theorem Batch.sendable_of_short (threshold : Option UInt16) {ps : List Bytes} (hsome : ps ≠ [])
    (hshort : (body ps).length ≤ Deflate.blockSize) :
    Sendable (Deflate.deflate mostBytes) threshold ps := by
  have hblock : Deflate.blockSize + 12 ≤ Frame.mostBytes := by decide
  have hmost : Deflate.blockSize ≤ mostBytes := by decide
  refine ⟨hsome, ?_, fun _ _ _ => Nat.le_trans hshort hmost⟩
  cases threshold with
  | none =>
    simp only [writeWith, List.length_cons]
    omega
  | some least =>
    simp only [writeWith]
    split
    · have hlength := Deflate.length_deflate_le mostBytes (body ps)
      have hblocks : ((body ps).length - 1) / Deflate.blockSize ≤ 1 := by
        rw [Deflate.blockSize] at hshort ⊢
        omega
      simp only [List.length_cons]
      omega
    · simp only [List.length_cons]
      omega

/-- A batch that can be sent is read as it was written. -/
theorem Batch.Sendable.read_eq {z : Bytes → Bytes} {threshold : Option UInt16} {ps : List Bytes}
    (h : Sendable z threshold ps) (hexpands : Expands z) :
    read threshold.isSome (writeWith z threshold ps) = .ok ps :=
  read_writeWith hexpands threshold (length_lt_of_mem h.body_le) h.body_le

/-! ### Many batches -/

namespace Transcript

variable {compressed : Bool} (left : Bytes)

/-- The packets that are pending are taken one after another. -/
theorem results_pending (pending batches : List Bytes) (ops : List Operation) :
    results ⟨compressed, pending, batches, left⟩
        (List.replicate pending.length .read ++ ops) =
      pending.map .packet ++ results ⟨compressed, [], batches, left⟩ ops := by
  induction pending with
  | nil => rfl
  | cons packet pending ih =>
    rw [List.length_cons, List.replicate_succ, List.cons_append, results_read, read_pending, ih]
    rfl

/-- Taking the first packet of a batch leaves the others pending. -/
theorem read_first {batch : Bytes} {packet : Bytes} {packets : List Bytes}
    (hread : Batch.read compressed batch = .ok (packet :: packets)) (batches : List Bytes) :
    read ⟨compressed, [], batch :: batches, left⟩ =
      (.packet packet, ⟨compressed, packets, batches, left⟩) := by
  simp only [read, take, hread]

/-- **The packets of many batches are taken one after another**, as many as there are. -/
theorem results_batches {batches : List Bytes} {groups : List (List Bytes)}
    (h : List.Forall₂ (fun batch ps => Batch.read compressed batch = .ok ps ∧ ps ≠ [])
      batches groups) (rest : List Bytes) (ops : List Operation) :
    results ⟨compressed, [], batches ++ rest, left⟩
        (List.replicate groups.flatten.length .read ++ ops) =
      groups.flatten.map .packet ++ results ⟨compressed, [], rest, left⟩ ops := by
  induction h with
  | nil => rfl
  | @cons batch ps batches groups hbatch _ ih =>
    obtain ⟨hread, hsome⟩ := hbatch
    cases ps with
    | nil => exact absurd rfl hsome
    | cons packet packets =>
      rw [List.flatten_cons, List.length_append, List.replicate_add, List.append_assoc,
        List.length_cons, List.replicate_succ, List.cons_append, List.cons_append, results_read,
        read_first left hread, results_pending, ih, List.map_append, List.append_assoc]
      rfl

/-- Where nothing is left the stream has ended. -/
theorem results_over (n : Nat) :
    results ⟨compressed, [], [], []⟩ (List.replicate n .read) = List.replicate n .ended := by
  induction n with
  | zero => rfl
  | succ n ih =>
    rw [List.replicate_succ, List.replicate_succ, results_read, ← ih]
    rfl

end Transcript

/-! ### A stream of batches -/

namespace Listener

/-- A reader of frames has their batches left to take. -/
theorem transcript_of_frames {x : Listener} (hpending : x.pending = []) {batches : List Bytes}
    (hunread : x.unread = batches.flatMap Frame.ofBatch)
    (hframes : ∀ batch ∈ batches, batch.length ≤ Frame.mostBytes) :
    x.transcript = ⟨x.compressed, [], batches, []⟩ := by
  rw [transcript, hpending, hunread, Transcript.ofStream, Frame.parse_flatMap_ofBatch hframes]

/-- **What was written is what is read.**  Batches are written one after another, those of `plain`
before compression is agreed on and those of `zipped` after it, under any thresholds.  However their
frames are cut into pieces, a reader that hears of the agreement when it has taken the last packet
of `plain` takes the packets of all batches in order, and then the stream has ended. -/
theorem reads_back {z : Bytes → Bytes} (hexpands : Expands z) {plain : List (List Bytes)}
    {zipped : List (UInt16 × List Bytes)}
    (hplain : ∀ ps ∈ plain, Batch.Sendable z none ps)
    (hzipped : ∀ b ∈ zipped, Batch.Sendable z (some b.1) b.2) {x : Listener}
    (hcompressed : x.compressed = false) (hpending : x.pending = [])
    (hunread : x.unread = plain.flatMap (Frame.writeWith z none) ++
      zipped.flatMap fun b => Frame.writeWith z (some b.1) b.2) (threshold : UInt16)
    (more : Nat) :
    x.results (List.replicate plain.flatten.length .read ++ .compress threshold ::
        (List.replicate (zipped.map (·.2)).flatten.length .read ++ List.replicate more .read)) =
      (plain.flatten ++ (zipped.map (·.2)).flatten).map .packet ++ List.replicate more .ended := by
  have hframes : ∀ batch ∈ plain.map (Batch.writeWith z none) ++
      zipped.map (fun b => Batch.writeWith z (some b.1) b.2), batch.length ≤ Frame.mostBytes := by
    intro batch hbatch
    rcases List.mem_append.mp hbatch with hbatch | hbatch
    · obtain ⟨ps, hps, rfl⟩ := List.mem_map.mp hbatch
      exact (hplain ps hps).frame
    · obtain ⟨b, hb, rfl⟩ := List.mem_map.mp hbatch
      exact (hzipped b hb).frame
  have hstream : x.unread = (plain.map (Batch.writeWith z none) ++
      zipped.map fun b => Batch.writeWith z (some b.1) b.2).flatMap Frame.ofBatch := by
    rw [hunread, List.flatMap_append, List.flatMap_map, List.flatMap_map]
    rfl
  have htranscript := transcript_of_frames hpending hstream hframes
  have hplain' : List.Forall₂ (fun batch ps => Batch.read false batch = .ok ps ∧ ps ≠ [])
      (plain.map (Batch.writeWith z none)) plain := by
    rw [List.forall₂_map_left_iff, List.forall₂_same]
    intro ps hps
    exact ⟨(hplain ps hps).read_eq hexpands, (hplain ps hps).some_packet⟩
  have hzipped' : List.Forall₂ (fun batch ps => Batch.read true batch = .ok ps ∧ ps ≠ [])
      (zipped.map fun b => Batch.writeWith z (some b.1) b.2) (zipped.map (·.2)) := by
    rw [List.forall₂_map_left_iff, List.forall₂_map_right_iff, List.forall₂_same]
    intro b hb
    exact ⟨(hzipped b hb).read_eq hexpands, (hzipped b hb).some_packet⟩
  have hrest := Transcript.results_batches [] hzipped' [] (List.replicate more .read)
  rw [List.append_nil, Transcript.results_over] at hrest
  rw [results_eq, htranscript, hcompressed, Transcript.results_batches [] hplain',
    Transcript.results_compress, List.map_append, List.append_assoc, ← hrest]
  rfl

/-- The batches of an example that are written before compression is agreed on. -/
def examplePlain : List (List Bytes) := [[[1], []], [[2]]]

/-- The batches of the example that are written afterwards; one of them is compressed. -/
def exampleZipped : List (UInt16 × List Bytes) := [(1, [[3, 4]]), (9, [[5]])]

/-- The frames of the example. -/
def exampleStream : Bytes :=
  examplePlain.flatMap (Frame.write none) ++
    exampleZipped.flatMap fun b => Frame.write (some b.1) b.2

/-- A new connection to the stream of the example, which is cut into two pieces. -/
def exampleListener : Listener := start [exampleStream.take 3, exampleStream.drop 3]

/-- There five packets are read. -/
theorem reads_back_exampleListener :
    exampleListener.results [.read, .read, .read, .compress 1, .read, .read, .read] =
      [.packet [1], .packet [], .packet [2], .packet [3, 4], .packet [5], .ended] := by
  have hplain : ∀ ps ∈ examplePlain,
      Batch.Sendable (Deflate.deflate Batch.mostBytes) none ps := by
    intro ps hps
    refine Batch.sendable_of_short _ ?_ ?_
    · revert ps
      decide
    · revert ps
      decide
  have hzipped : ∀ b ∈ exampleZipped,
      Batch.Sendable (Deflate.deflate Batch.mostBytes) (some b.1) b.2 := by
    intro b hb
    refine Batch.sendable_of_short _ ?_ ?_
    · revert b
      decide
    · revert b
      decide
  have hunread : exampleListener.unread =
      examplePlain.flatMap (Frame.writeWith (Deflate.deflate Batch.mostBytes) none) ++
        exampleZipped.flatMap fun b =>
          Frame.writeWith (Deflate.deflate Batch.mostBytes) (some b.1) b.2 := by
    rw [exampleListener, unread_start, List.flatten_cons, List.flatten_cons, List.flatten_nil,
      List.append_nil, List.take_append_drop]
    rfl
  exact reads_back expands_deflate hplain hzipped rfl rfl hunread 1 1

end Listener

end PackExchange
