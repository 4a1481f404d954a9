import PackExchange.Frame.Reader
import PackExchange.Proofs.Wire.VarInt

/-!
# Frames that arrive in pieces

A reader that holds the beginning of a frame waits, and one that holds a whole frame hands out the
packets that were written to it.

* `Frame.split?_prefix` — a frame that has not arrived whole cannot be read yet;
* `Frame.split?_append`, `Frame.split?_error_append` — what was found stays so when more arrives;
* `Frame.split?_cutOff` — what is left of a frame that was cut off;
* `FrameReader.next_prefix`, `FrameReader.next_frame` — what a reader makes of either;
* `FrameReader.next_of_waiting` — a reader that waits goes on to wait.
-/

namespace PackExchange

/-! ### Batches -/

namespace Batch

/-- A packet is no longer than the body that holds it. -/
theorem length_le_body {packet : Bytes} {ps : List Bytes} (h : packet ∈ ps) :
    packet.length ≤ (body ps).length := by
  rw [body]
  refine Nat.le_trans ?_ (List.Sublist.length_le (List.sublist_flatten_of_mem
    (List.mem_map_of_mem h)))
  rw [List.length_append]
  exact Nat.le_add_left _ _

/-- The length of a packet is a word, if the body that holds it is no larger than it may be. -/
theorem length_lt_of_mem {ps : List Bytes} (h : (body ps).length ≤ mostBytes) :
    ∀ packet ∈ ps, packet.length < UInt32.size := by
  intro packet hpacket
  have hle := length_le_body hpacket
  rw [mostBytes] at h
  rw [UInt32.size]
  omega

end Batch

/-! ### Frames -/

namespace Frame

theorem toNat_length {batch : Bytes} (h : batch.length ≤ mostBytes) :
    (UInt32.ofNat batch.length).toNat = batch.length := by
  rw [mostBytes] at h
  rw [UInt32.toNat_ofNat']
  omega

/-- **A frame that has not arrived whole is waited for.** -/
theorem split?_prefix {batch bs tail : Bytes} (h : ofBatch batch = bs ++ tail) (htail : tail ≠ [])
    (hmost : batch.length ≤ mostBytes) : split? bs = .ok none := by
  rw [ofBatch] at h
  rcases List.append_eq_append_iff.mp h with ⟨front, hbs, hbatch⟩ | ⟨missing, hlength, htail'⟩
  · -- the length has arrived, and a part of the batch
    have hshort : front.length < batch.length := by
      rw [hbatch, List.length_append]
      have := List.length_pos_iff.mpr htail
      omega
    rw [split?, hbs, VarInt.read32_write32]
    simp only [toNat_length hmost, if_pos hmost, Bytes.split?_eq_none_iff.mpr hshort]
  · cases missing with
    | nil =>
      -- the length has arrived, and nothing of the batch
      rw [List.append_nil] at hlength
      rw [List.nil_append] at htail'
      have hpos : ([] : Bytes).length < batch.length := by
        rw [← htail']
        exact List.length_pos_iff.mpr htail
      have hread := VarInt.read32_write32 (UInt32.ofNat batch.length) []
      rw [List.append_nil, hlength] at hread
      rw [split?, hread]
      simp only [toNat_length hmost, if_pos hmost, Bytes.split?_eq_none_iff.mpr hpos]
    | cons b missing =>
      rw [split?, VarInt.read32_prefix hlength (List.cons_ne_nil b missing)]

/-- What is left after a frame is shorter. -/
theorem split?_shorter {bs batch rest : Bytes} (h : split? bs = .ok (some (batch, rest))) :
    rest.length < bs.length := by
  rw [split?] at h
  split at h
  · cases h
  · cases h
  · next length tail hread =>
    split at h
    · rw [Except.ok.injEq, Bytes.split?_eq_some_iff] at h
      have hshorter := VarInt.read32_shorter hread
      rw [h.2, List.length_append] at hshorter
      omega
    · cases h

/-- **A whole frame stays as it is when more arrives.** -/
theorem split?_append {bs batch rest : Bytes} (h : split? bs = .ok (some (batch, rest)))
    (tail : Bytes) : split? (bs ++ tail) = .ok (some (batch, rest ++ tail)) := by
  rw [split?] at h
  split at h
  · cases h
  · cases h
  · next length left hread =>
    split at h
    · next hmost =>
      rw [Except.ok.injEq, Bytes.split?_eq_some_iff] at h
      obtain ⟨hlength, rfl⟩ := h
      rw [split?, VarInt.read32_append hread]
      simp only [if_pos hmost]
      rw [Except.ok.injEq, Bytes.split?_eq_some_iff]
      exact ⟨hlength, List.append_assoc batch rest tail⟩
    · cases h

/-- What is wrong with a length: there are five bytes and no end, or the frame is too long. -/
theorem split?_eq_error_iff {bs : Bytes} {cause : FrameError} :
    split? bs = .error cause ↔
      (VarInt.read32 bs = .error .varIntTooBig ∧ cause = .unreadable .varIntTooBig) ∨
        ∃ length rest, VarInt.read32 bs = .ok (length, rest) ∧ mostBytes < length.toNat ∧
          cause = .tooLong length.toNat := by
  rw [split?]
  cases hread : VarInt.read32 bs with
  | error e =>
    rcases VarInt.read32_error hread with rfl | rfl
    · simp [eq_comm]
    · simp
  | ok r =>
    obtain ⟨length, rest⟩ := r
    by_cases hmost : length.toNat ≤ mostBytes
    · have hlong : ¬ mostBytes < length.toNat := by omega
      simp [hmost, hlong]
    · have hlong : mostBytes < length.toNat := by omega
      simp [hmost, hlong, eq_comm]

/-- A frame that is waited for has no length yet, or less than its length. -/
theorem split?_eq_none_iff {bs : Bytes} :
    split? bs = .ok none ↔
      (∃ needed remaining, VarInt.read32 bs = .error (.notEnoughData needed remaining)) ∨
        ∃ length rest, VarInt.read32 bs = .ok (length, rest) ∧ length.toNat ≤ mostBytes ∧
          rest.length < length.toNat := by
  rw [split?]
  cases hread : VarInt.read32 bs with
  | error e =>
    rcases VarInt.read32_error hread with rfl | rfl
    · simp
    · simp
  | ok r =>
    obtain ⟨length, rest⟩ := r
    by_cases hmost : length.toNat ≤ mostBytes
    · simp only [if_pos hmost, Except.ok.injEq, Bytes.split?_eq_none_iff, reduceCtorEq,
        exists_false, false_or, Prod.mk.injEq]
      constructor
      · intro hshort
        exact ⟨length, rest, ⟨rfl, rfl⟩, hmost, hshort⟩
      · rintro ⟨_, _, ⟨rfl, rfl⟩, -, hshort⟩
        exact hshort
    · simp [hmost]

/-- The batch of a frame is no longer than a frame may be. -/
theorem length_of_split? {bs batch rest : Bytes} (h : split? bs = .ok (some (batch, rest))) :
    batch.length ≤ mostBytes := by
  rw [split?] at h
  split at h
  · cases h
  · cases h
  · split at h
    · next hmost =>
      rw [Except.ok.injEq, Bytes.split?_eq_some_iff] at h
      omega
    · cases h

/-- **A length that no frame may have stays so when more arrives.** -/
theorem split?_error_append {bs : Bytes} {cause : FrameError} (h : split? bs = .error cause)
    (tail : Bytes) : split? (bs ++ tail) = .error cause := by
  rw [split?_eq_error_iff] at h ⊢
  rcases h with ⟨hread, rfl⟩ | ⟨length, rest, hread, hlong, rfl⟩
  · left
    rw [VarInt.read32_tooBig] at hread ⊢
    obtain ⟨hlength, hbytes⟩ := hread
    refine ⟨⟨?_, ?_⟩, rfl⟩
    · rw [List.length_append]
      omega
    · rw [List.take_append_of_le_length hlength]
      exact hbytes
  · right
    exact ⟨length, rest ++ tail, VarInt.read32_append hread tail, hlong, rfl⟩

/-- **What is left of a frame that was cut off is not a frame.** -/
theorem split?_cutOff {bs batch tail : Bytes} (h : split? (bs ++ tail) = .ok (some (batch, [])))
    (htail : tail ≠ []) : split? bs = .ok none := by
  cases hsplit : split? bs with
  | error cause =>
    rw [split?_error_append hsplit] at h
    cases h
  | ok found =>
    cases found with
    | none => rfl
    | some frame =>
      obtain ⟨batch', rest⟩ := frame
      rw [split?_append hsplit, Except.ok.injEq, Option.some.injEq, Prod.mk.injEq,
        List.append_eq_nil_iff] at h
      exact absurd h.2.2 htail

theorem ofBatch_ne_nil (batch : Bytes) : ofBatch batch ≠ [] := by
  intro h
  have hshorter := VarInt.read32_shorter (VarInt.read32_write32 (UInt32.ofNat batch.length) batch)
  rw [show VarInt.write32 (UInt32.ofNat batch.length) ++ batch = [] from h] at hshorter
  exact Nat.not_lt_zero _ hshorter

end Frame

/-! ### Readers -/

namespace FrameReader

/-- Every turn to the stream asks for a byte at least. -/
theorem appetite_pos (r : FrameReader) : 0 < r.appetite := by
  have hlacking : 1 ≤ r.lacking := by
    rw [lacking]
    split
    · exact Nat.le_max_left _ _
    · exact Nat.le_refl _
  rw [appetite, Inbound.readSize]
  omega

/-- What a reader holds says nothing about the end of the stream. -/
theorem nextOf_ne_ended (fuel : Nat) (r r' : FrameReader) : nextOf fuel r ≠ (.ended, r') := by
  intro h
  induction fuel generalizing r with
  | zero =>
    rw [nextOf] at h
    split at h <;> try cases h
    split at h <;> try cases h
    split at h <;> try cases h
    split at h <;> cases h
  | succ fuel ih =>
    rw [nextOf] at h
    split at h <;> try cases h
    split at h <;> try cases h
    split at h <;> try cases h
    split at h
    · cases h
    · exact ih _ h

/-- A reader that waits has looked at all it holds. -/
theorem nextOf_waiting {fuel : Nat} {r r' : FrameReader} (h : nextOf fuel r = (.waiting, r'))
    (hfuel : r.buffered.length < fuel) (n : Nat) : nextOf n r' = (.waiting, r') := by
  induction fuel generalizing r with
  | zero => exact absurd hfuel (Nat.not_lt_zero _)
  | succ fuel ih =>
    rw [nextOf] at h
    split at h
    · cases h
    · next hpending =>
      split at h
      · next hempty =>
        cases h
        rw [nextOf.eq_def]
        simp only [hpending, hempty, if_true]
      · next hsome =>
        split at h
        · cases h
        · next hnone =>
          cases h
          rw [nextOf.eq_def]
          simp only [hpending, hnone, if_neg hsome]
        · next batch rest hsplit =>
          split at h
          · cases h
          · next packets hread =>
            refine ih h ?_
            have hshorter := Frame.split?_shorter hsplit
            show rest.length < fuel
            omega

/-- Looking again changes nothing. -/
theorem next_of_waiting {r r' : FrameReader} (h : r.next = (.waiting, r')) :
    r'.next = (.waiting, r') :=
  nextOf_waiting h (Nat.lt_succ_self _) _

/-- A reader that holds the beginning of a frame waits. -/
theorem next_prefix {r : FrameReader} {batch tail : Bytes} (hpending : r.pending = [])
    (hbuffered : Frame.ofBatch batch = r.buffered ++ tail) (htail : tail ≠ [])
    (hmost : batch.length ≤ Frame.mostBytes) : r.next = (.waiting, r) := by
  rw [next, nextOf, hpending]
  simp only [Frame.split?_prefix hbuffered htail hmost, ite_self]

/-- A reader that holds nothing waits. -/
theorem next_nil {r : FrameReader} (hpending : r.pending = []) (hbuffered : r.buffered = []) :
    r.next = (.waiting, r) := by
  rw [next, nextOf, hpending, hbuffered]
  rfl

/-- A reader that holds a whole frame hands out the first packet of its batch. -/
theorem next_ofBatch {r : FrameReader} {batch rest p : Bytes} {ps : List Bytes}
    (hpending : r.pending = []) (hbuffered : r.buffered = Frame.ofBatch batch ++ rest)
    (hmost : batch.length ≤ Frame.mostBytes)
    (hread : Batch.read r.compressed batch = .ok (p :: ps)) :
    r.next = (.packet p, { r with buffered := rest, pending := ps }) := by
  have hsplit : Frame.split? r.buffered = .ok (some (batch, rest)) := by
    rw [hbuffered]
    exact Frame.split?_ofBatch _ rest hmost
  have hsome : r.buffered.isEmpty = false := by
    rw [hbuffered, List.isEmpty_eq_false_iff]
    exact List.append_ne_nil_of_left_ne_nil (Frame.ofBatch_ne_nil _) rest
  rw [next, nextOf, hpending]
  simp only [hsome, hsplit, hread, nextOf]
  rfl

/-- So it does if the frame was written from packets. -/
theorem next_frame {z : Bytes → Bytes} (hexpands : Expands z) {r : FrameReader}
    {threshold : Option UInt16} {p : Bytes} {ps : List Bytes} {rest : Bytes}
    (hpending : r.pending = [])
    (hbuffered : r.buffered = Frame.writeWith z threshold (p :: ps) ++ rest)
    (hbody : (Batch.body (p :: ps)).length ≤ Batch.mostBytes)
    (hmost : (Batch.writeWith z threshold (p :: ps)).length ≤ Frame.mostBytes)
    (hmode : r.compressed = threshold.isSome) :
    r.next = (.packet p, { r with buffered := rest, pending := ps }) := by
  have hread := Batch.read_writeWith hexpands threshold (Batch.length_lt_of_mem hbody) hbody
  rw [← hmode] at hread
  exact next_ofBatch hpending hbuffered hmost hread

end FrameReader

end PackExchange
