import PackExchange.Proofs.Frame.Memory
import PackExchange.Proofs.Frame.RoundTrip
import PackExchange.Proofs.Wire.Shortest

/-!
# Frames that are too large

A writer writes frames of any size, and a reader takes none that is larger than a frame may be, or
whose packets take up more than a batch may.

* `Batch.length_body_of_read` — what a reader takes, it could have been written in as much;
* `Modest` — a compressor whose output is not much larger than what it was given;
* `Batch.sendable_of_roomy` — batches that are somewhat smaller than a frame can be sent;
* `FrameReader.next_iff` — a frame of one packet is taken if and only if it can be sent.
-/

namespace PackExchange

namespace Batch

/-! ### What a reader takes -/

theorem body_cons (packet : Bytes) (packets : List Bytes) :
    (body (packet :: packets)).length =
      (VarInt.write32 (UInt32.ofNat packet.length)).length + packet.length +
        (body packets).length := by
  rw [body, List.flatMap_cons, List.length_append, List.length_append]
  rfl

theorem length_body_reverse (packets : List Bytes) :
    (body packets.reverse).length = (body packets).length := by
  rw [body, body, List.length_flatMap, List.length_flatMap, List.map_reverse, List.sum_reverse]

theorem length_body_of_take {fuel : Nat} {bs : Bytes} {taken packets : List Bytes}
    (h : take fuel bs taken = .ok packets) :
    (body packets).length ≤ (body taken).length + bs.length := by
  induction fuel generalizing bs taken with
  | zero =>
    cases bs with
    | nil | cons =>
      rw [take] at h
      cases h
      rw [length_body_reverse]
      exact Nat.le_add_right _ _
  | succ fuel ih =>
    cases bs with
    | nil =>
      rw [take] at h
      cases h
      rw [length_body_reverse]
      exact Nat.le_add_right _ _
    | cons b bs =>
      rw [take] at h
      split at h
      · cases h
      · next length rest hread =>
        split at h
        · cases h
        · next packet left hsplit =>
          -- a length that was read is written in no more bytes
          have hshortest := VarInt.length_write32_le hread (UInt32.le_refl _)
          obtain ⟨hlength, rfl⟩ := Bytes.split?_eq_some_iff.mp hsplit
          have hrest := ih h
          rw [body_cons, hlength, UInt32.ofNat_toNat] at hrest
          rw [List.length_append] at hshortest
          omega

/-- **The packets of a batch could have been written in no more than a batch may hold.** -/
theorem length_body_of_read {compressed : Bool} {batch : Bytes} {packets : List Bytes}
    (h : read compressed batch = .ok packets) (hmost : batch.length ≤ Frame.mostBytes) :
    (body packets).length ≤ mostBytes := by
  cases batch with
  | nil => cases h
  | cons first bs =>
    rw [read] at h
    split at h
    · cases hbody : readBody compressed bs with
      | error e =>
        rw [hbody] at h
        cases h
      | ok content =>
        rw [hbody] at h
        have hcontent := length_of_readBody hbody (Nat.le_of_succ_le hmost)
        have htaken := length_body_of_take h
        rw [show (body []).length = 0 from rfl] at htaken
        omega
    · cases h

end Batch

/-! ### What can be sent -/

/-- Is the output of a compressor not much larger than what it was given? -/
def Modest (z : Bytes → Bytes) : Prop :=
  ∀ content, (z content).length ≤ content.length + content.length / 8 + 256

theorem modest_deflate (most : Nat) : Modest (Deflate.deflate most) := by
  intro content
  have hlength := Deflate.length_deflate_le most content
  rw [Deflate.blockSize] at hlength
  omega

namespace Batch

/-- The most bytes of a body that fits into a frame even if it does not compress well. -/
def roomy : Nat := 14 * 1024 * 1024

variable {z : Bytes → Bytes} {threshold : Option UInt16} {ps : List Bytes}

theorem length_writeWith_le (hmodest : Modest z) (threshold : Option UInt16) (ps : List Bytes) :
    (writeWith z threshold ps).length ≤ (body ps).length + (body ps).length / 8 + 258 := by
  have hbody := hmodest (body ps)
  cases threshold with
  | none =>
    simp only [writeWith, List.length_cons]
    omega
  | some least =>
    simp only [writeWith]
    split
    · simp only [List.length_cons]
      omega
    · simp only [List.length_cons]
      omega

/-- **Batches that are somewhat smaller than a frame can be sent**, under any threshold. -/
theorem sendable_of_roomy (hmodest : Modest z) (threshold : Option UInt16) (hsome : ps ≠ [])
    (hbody : (body ps).length ≤ roomy) : Sendable z threshold ps := by
  have hframe := length_writeWith_le hmodest threshold ps
  rw [roomy] at hbody
  refine ⟨hsome, ?_, fun _ _ _ => ?_⟩
  · rw [Frame.mostBytes]
    omega
  · rw [mostBytes]
    omega

end Batch

namespace FrameReader

theorem length_body_of_nextOf {fuel : Nat} {r r' : FrameReader} {p : Bytes}
    (h : nextOf fuel r = (.packet p, r'))
    (hpending : (Batch.body r.pending).length ≤ Batch.mostBytes) :
    (Batch.body [p]).length ≤ Batch.mostBytes := by
  fun_induction nextOf fuel r with
  | case1 fuel r packet pending hsome =>
    cases h
    rw [hsome, Batch.body_cons] at hpending
    rw [Batch.body_cons]
    exact Nat.le_trans (Nat.add_le_add_left (Nat.zero_le _) _) hpending
  | case2 | case3 | case4 | case5 | case6 => cases h
  | case7 r _ _ batch rest hsplit packets hread fuel ih =>
    exact ih h (Batch.length_body_of_read hread (Frame.length_of_split? hsplit))

/-- A frame that is larger than it may be is not taken. -/
theorem next_tooLong {r : FrameReader} {batch rest : Bytes} (hpending : r.pending = [])
    (hbuffered : r.buffered = Frame.ofBatch batch ++ rest)
    (hmost : Frame.mostBytes < batch.length) (hsize : batch.length < UInt32.size) :
    r.next = (.failed (.tooLong batch.length), r) := by
  have hlength : (UInt32.ofNat batch.length).toNat = batch.length := by
    rw [UInt32.toNat_ofNat']
    exact Nat.mod_eq_of_lt hsize
  have hsplit : Frame.split? r.buffered = .error (.tooLong batch.length) := by
    rw [hbuffered, Frame.split?_eq_error_iff]
    refine Or.inr ⟨UInt32.ofNat batch.length, batch ++ rest, ?_, ?_, ?_⟩
    · rw [Frame.ofBatch, List.append_assoc, VarInt.read32_write32]
    · rw [hlength]
      exact hmost
    · rw [hlength]
  have hsome : r.buffered.isEmpty = false := by
    rw [hbuffered, List.isEmpty_eq_false_iff]
    exact List.append_ne_nil_of_left_ne_nil (Frame.ofBatch_ne_nil _) rest
  rw [next, nextOf, hpending]
  simp only [hsome, hsplit]
  rfl

/-- **A frame of one packet is taken if and only if it can be sent.** -/
theorem next_iff {z : Bytes → Bytes} (hexpands : Expands z) (hmodest : Modest z)
    (threshold : Option UInt16) (p rest : Bytes) :
    (next { compressed := threshold.isSome,
            buffered := Frame.writeWith z threshold [p] ++ rest } =
        (.packet p, { compressed := threshold.isSome, buffered := rest })) ↔
      Batch.Sendable z threshold [p] := by
  constructor
  · intro hnext
    have hbody : (Batch.body [p]).length ≤ Batch.mostBytes :=
      length_body_of_nextOf hnext (Nat.zero_le _)
    refine ⟨List.cons_ne_nil _ _, ?_, fun _ _ _ => hbody⟩
    by_contra hlong
    have hlength := Batch.length_writeWith_le hmodest threshold [p]
    have hsize : (Batch.writeWith z threshold [p]).length < UInt32.size := by
      rw [Batch.mostBytes] at hbody
      rw [UInt32.size]
      omega
    rw [next_tooLong rfl rfl (Nat.lt_of_not_le hlong) hsize] at hnext
    cases hnext
  · intro hsendable
    exact next_ofBatch rfl rfl hsendable.frame (hsendable.read_eq hexpands)

end FrameReader

end PackExchange
