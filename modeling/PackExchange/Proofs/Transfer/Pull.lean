import PackExchange.Proofs.Transfer.Chunks

/-!
# A download that goes well

A server that sends the chunks of a pack as they are asked for is compared with the worker that
asks for them.  At any moment the worker has asked for the first few chunks and the receiving side
has been given one less or just as many.

* `Pack.Holds` — a pack whose bytes can be read, and are those it was announced with;
* `Pack.Numbered` — a pack whose chunks can be told apart by an index;
* `Pack.Parcels` — one whose chunks can be counted, too;
* `Pack.chunk` — one chunk of its bytes;
* `Download.At` — the state of a download after so many chunks and requests;
* `Download.At.wake`, `Download.At.accept` — what the worker and a chunk make of it.
-/

namespace PackExchange

/-! ### Packs and their chunks -/

namespace Pack

/-- Does a pack hold these bytes?  Its length and its checksum are theirs, and reading from anywhere
among them gives as many as were asked for, fewer only at the end. -/
structure Holds (p : Pack) (content : Bytes) : Prop where
  size : p.size.toNat = content.length
  checksum : p.checksum = Sha256.digest content
  readAt : ∀ (n : Nat) (offset : UInt64), offset.toNat ≤ content.length →
    p.readAt n offset = .ok ((content.drop offset.toNat).take n)

/-- A pack that is kept in memory holds the bytes that are kept. -/
theorem holds_toPack (a : Archive) (h : a.data.length < 2 ^ 64) : a.toPack.Holds a.data := by
  refine ⟨?_, rfl, ?_⟩
  · show (UInt64.ofNat a.data.length).toNat = _
    rw [UInt64.toNat_ofNat']
    exact Nat.mod_eq_of_lt h
  · intro n offset hoffset
    show Archive.readAt a.data n offset = _
    rw [Archive.readAt, if_neg (Nat.not_lt.mpr hoffset)]

/-- A pack whose chunks can be told apart by an index: it is not empty, and no index is too large. -/
structure Numbered (p : Pack) (content : Bytes) (chunkSize : UInt32) : Prop where
  holds : p.Holds content
  size_ne : p.size ≠ 0
  chunkSize_ne : chunkSize ≠ 0
  countable : Download.ceiling p.size chunkSize ≤ 2 ^ 32

/-- A pack that can be sent in chunks of a size: it is not empty, and the chunks can be counted. -/
structure Parcels (p : Pack) (content : Bytes) (chunkSize : UInt32) : Prop where
  holds : p.Holds content
  size_ne : p.size ≠ 0
  chunkSize_ne : chunkSize ≠ 0
  countable : Download.ceiling p.size chunkSize < 2 ^ 32

/-- One chunk of some bytes. -/
def chunk (content : Bytes) (chunkSize : UInt32) (k : Nat) : Bytes :=
  (content.drop (k * chunkSize.toNat)).take chunkSize.toNat

theorem take_append_chunk (content : Bytes) (chunkSize : UInt32) (k : Nat) :
    content.take (k * chunkSize.toNat) ++ chunk content chunkSize k =
      content.take ((k + 1) * chunkSize.toNat) := by
  rw [chunk, Nat.succ_mul, List.take_add]

theorem length_chunk (content : Bytes) (chunkSize : UInt32) (k : Nat) :
    (chunk content chunkSize k).length =
      min chunkSize.toNat (content.length - k * chunkSize.toNat) := by
  rw [chunk, List.length_take, List.length_drop]

variable {p : Pack} {content : Bytes} {chunkSize : UInt32}

theorem Parcels.numbered (h : p.Parcels content chunkSize) : p.Numbered content chunkSize :=
  ⟨h.holds, h.size_ne, h.chunkSize_ne, Nat.le_of_lt h.countable⟩

theorem Numbered.chunkSize_pos (h : p.Numbered content chunkSize) : 0 < chunkSize.toNat :=
  Download.toNat_pos_of_ne_zero h.chunkSize_ne

theorem Numbered.count_pos (h : p.Numbered content chunkSize) :
    0 < Download.ceiling p.size chunkSize :=
  Download.ceiling_pos h.chunkSize_pos h.size_ne

theorem Numbered.content_ne (h : p.Numbered content chunkSize) : content ≠ [] := by
  rintro rfl
  exact h.size_ne (UInt64.toNat_inj.mp h.holds.size)

/-- Chunks that are counted begin before the end. -/
theorem Numbered.lt_count_iff (h : p.Numbered content chunkSize) {k : Nat} :
    k < Download.ceiling p.size chunkSize ↔ k * chunkSize.toNat < content.length := by
  rw [← Nat.not_le, ← Nat.not_le, Download.ceiling_le_iff h.chunkSize_pos, h.holds.size]

/-- As many chunks as are counted are all the bytes. -/
theorem Numbered.take_count (h : p.Numbered content chunkSize) {k : Nat}
    (hk : Download.ceiling p.size chunkSize ≤ k) :
    content.take (k * chunkSize.toNat) = content := by
  refine List.take_of_length_le ?_
  rw [← h.holds.size, ← Download.ceiling_le_iff h.chunkSize_pos]
  exact hk

/-- The end of a numbered chunk can be counted in 64 bits. -/
theorem Numbered.room (h : p.Numbered content chunkSize) {k : Nat}
    (hk : k < Download.ceiling p.size chunkSize) :
    (k + 1) * chunkSize.toNat < 2 ^ 64 := by
  have hcountable := h.countable
  have hsize := chunkSize.toNat_lt
  calc (k + 1) * chunkSize.toNat
      ≤ 2 ^ 32 * (2 ^ 32 - 1) := Nat.mul_le_mul (by omega) (by omega)
    _ < 2 ^ 64 := by decide

end Pack

/-! ### The state of a download -/

namespace Download

/-- What the worker has done, after so many chunks were handed in and so many asked for. -/
inductive Pulls (content : Bytes) (chunkSize : UInt32) (count given asked : Nat) (d : Download) :
    Prop
  | ready {i : UInt32} (hworker : d.worker = .ready i) (hi : i.toNat = given)
      (hasked : asked = given) (hslot : d.slot = none)
      (hdata : d.data = content.take (given * chunkSize.toNat)) :
      Pulls content chunkSize count given asked d
  | waiting {i : UInt32} (hworker : d.worker = .waiting i) (hi : i.toNat = given)
      (hasked : asked = given + 1) (hslot : d.slot = none)
      (hdata : d.data = content.take (given * chunkSize.toNat)) :
      Pulls content chunkSize count given asked d
  | handed {i : UInt32} (hworker : d.worker = .waiting i) (hi : i.toNat + 1 = given)
      (hasked : asked = given) (hslot : d.slot = some (Pack.chunk content chunkSize i.toNat))
      (hdata : d.data = content.take (i.toNat * chunkSize.toNat)) :
      Pulls content chunkSize count given asked d
  | ended (hworker : d.worker = .ended) (hgiven : count = given) (hasked : asked = given)
      (hdata : d.data = content) : Pulls content chunkSize count given asked d

/-- The download of a pack after so many chunks were handed in and so many asked for. -/
structure At (p : Pack) (content : Bytes) (chunkSize : UInt32) (given asked : Nat) (d : Download) :
    Prop where
  id : d.id = p.id
  reference : d.reference = p.id.token
  size : d.size = p.size
  contentKey : d.contentKey = p.contentKey
  hash : d.hash = p.checksum
  chunks : d.chunkSize = chunkSize
  chunkCount : d.chunkCount.toNat = ceiling p.size chunkSize
  expected : d.expected.toNat = given
  received : d.received.toNat = min (given * chunkSize.toNat) content.length
  accepting : d.accepting = decide (given < ceiling p.size chunkSize)
  most : asked ≤ ceiling p.size chunkSize
  pulls : Pulls content chunkSize (ceiling p.size chunkSize) given asked d

variable {p : Pack} {content : Bytes} {chunkSize : UInt32} {given asked : Nat} {d : Download}

/-- A download that has just been announced. -/
theorem at_announced (h : p.Parcels content chunkSize) {a : PackData} (huuid : a.uuid = p.id.token)
    (hchunk : a.chunkSize = chunkSize) (hsize : a.size = p.size) (hhash : a.hash = p.checksum) :
    (announced p.id p.contentKey a).At p content chunkSize 0 0 := by
  refine ⟨rfl, huuid, hsize, rfl, hhash, hchunk, ?_, rfl, ?_, ?_, Nat.zero_le _, ?_⟩
  · show (chunksOf a.size a.chunkSize).toNat = _
    rw [toNat_chunksOf, hsize, hchunk]
    exact Nat.mod_eq_of_lt h.countable
  · rw [Nat.zero_mul, Nat.zero_min]
    rfl
  · exact (decide_eq_true h.numbered.count_pos).symm
  · refine .ready (i := 0) rfl rfl rfl rfl ?_
    rw [Nat.zero_mul]
    rfl

/-- A worker that has ended has all the bytes. -/
theorem At.data_eq (h : d.At p content chunkSize given asked) (hended : d.worker = .ended) :
    d.data = content := by
  cases h.pulls with
  | ready hworker _ _ _ _ | waiting hworker _ _ _ _ | handed hworker _ _ _ _ =>
    rw [hworker] at hended
    cases hended
  | ended _ _ _ hdata => exact hdata

/-- A worker does not end before all chunks were handed in. -/
theorem At.worker_ne (h : d.At p content chunkSize given asked)
    (hmore : given < ceiling p.size chunkSize) : d.worker ≠ .ended := by
  intro hended
  cases h.pulls with
  | ready hworker _ _ _ _ | waiting hworker _ _ _ _ | handed hworker _ _ _ _ =>
    rw [hworker] at hended
    cases hended
  | ended _ hgiven _ _ => omega

/-- A worker that does not wait for a chunk has something to do. -/
theorem At.awake_eq_true (h : d.At p content chunkSize given asked) (hasked : asked = given)
    (hworker : d.worker ≠ .ended) (cancelled : Bool) : d.awake cancelled = true := by
  cases h.pulls with
  | ready hready _ _ _ _ => rw [Download.awake, hready]
  | waiting _ _ hmore _ _ => omega
  | handed hwaiting _ _ hslot _ =>
    rw [Download.awake, hwaiting, hslot, Option.isSome_some, Bool.or_true, Bool.true_or]
  | ended hended _ _ _ => exact absurd hended hworker

/-! ### The worker -/

/-- What a worker with something to do does: it asks for a chunk, takes one, or finishes with all
the bytes. -/
theorem At.wake (h : d.At p content chunkSize given asked) (hp : p.Parcels content chunkSize)
    (hawake : d.awake false = true) (slotFirst : Bool) :
    (∃ i : UInt32, i.toNat = given ∧ asked = given ∧ given < ceiling p.size chunkSize ∧
      ({ d with worker := .waiting i } : Download).At p content chunkSize given (given + 1) ∧
        d.wake false slotFirst = ({ d with worker := .waiting i }, .request i)) ∨
      (∃ d' : Download, d'.At p content chunkSize given asked ∧ d.worker ≠ .ended ∧
        d'.worker ≠ .ended ∧ d.wake false slotFirst = (d', .nothing)) ∨
      (given = ceiling p.size chunkSize ∧ asked = given ∧ d.worker ≠ .ended ∧
        ({ d with worker := .ended } : Download).At p content chunkSize given asked ∧
        d.wake false slotFirst = ({ d with worker := .ended }, .finish content)) := by
  obtain ⟨hid, hreference, hsize, hkey, hhash, hchunks, hcount, hexpected, hreceived, haccepting,
    hmost, hpulls⟩ := h
  cases hpulls with
  | @ready i hworker hi hasked hslot hdata =>
    have hmore : i < d.chunkCount ↔ given < ceiling p.size chunkSize := by
      rw [UInt32.lt_iff_toNat_lt, hi, hcount]
    have hwake : d.wake false slotFirst = d.advance false i := by
      rw [Download.wake, hworker]
    rw [hwake, advance]
    by_cases hgiven : given < ceiling p.size chunkSize
    · left
      refine ⟨i, hi, hasked, hgiven, ?_, by rw [if_pos (hmore.mpr hgiven)]; rfl⟩
      exact ⟨hid, hreference, hsize, hkey, hhash, hchunks, hcount, hexpected, hreceived,
        haccepting, hgiven, .waiting rfl hi rfl hslot hdata⟩
    · have hall : given = ceiling p.size chunkSize := by omega
      have hcontent : d.data = content := by
        rw [hdata]
        exact hp.numbered.take_count (Nat.le_of_eq hall.symm)
      right
      right
      refine ⟨hall, hasked, by simp [hworker], ?_, ?_⟩
      · exact ⟨hid, hreference, hsize, hkey, hhash, hchunks, hcount, hexpected, hreceived,
          haccepting, hmost, .ended rfl hall.symm hasked hcontent⟩
      · rw [if_neg (fun hlt => hgiven (hmore.mp hlt))]
        show (_, Deed.finish d.data) = _
        rw [hcontent]
  | @waiting i hworker hi hasked hslot hdata =>
    have hgiven : given < ceiling p.size chunkSize := by omega
    rw [awake, hworker, hslot, haccepting, decide_eq_true hgiven] at hawake
    cases hawake
  | @handed i hworker hi hasked hslot hdata =>
    have hcountable := hp.countable
    have hnext : (i + 1).toNat = given := by
      rw [UInt32.toNat_add, ← hi]
      exact Nat.mod_eq_of_lt (show i.toNat + 1 < 2 ^ 32 by omega)
    have htaken : (Pack.chunk content chunkSize i.toNat :: d.taken).reverse.flatten =
        content.take (given * chunkSize.toNat) := by
      rw [List.reverse_cons, List.flatten_append, List.flatten_singleton, ← hi,
        ← Pack.take_append_chunk, ← hdata]
      rfl
    right
    left
    refine ⟨{ d with
        slot := none
        taken := Pack.chunk content chunkSize i.toNat :: d.taken
        worker := .ready (i + 1) }, ?_, by simp [hworker], by simp, ?_⟩
    · exact ⟨hid, hreference, hsize, hkey, hhash, hchunks, hcount, hexpected, hreceived,
        haccepting, hmost, .ready rfl hnext hasked rfl htaken⟩
    · rw [Download.wake, hworker]
      simp only [hslot, Bool.false_and]
      rfl
  | ended hworker _ _ _ =>
    rw [awake, hworker] at hawake
    cases hawake

/-! ### The receiving side -/

/-- The chunk that was asked for is accepted. -/
theorem At.accept (h : d.At p content chunkSize given (given + 1))
    (hp : p.Parcels content chunkSize) (hgiven : given < ceiling p.size chunkSize) {c : ChunkData}
    (hindex : c.index.toNat = given) (hdata : c.data = Pack.chunk content chunkSize given) :
    d.accept c = (d.put c, none) ∧ (d.put c).At p content chunkSize (given + 1) (given + 1) := by
  obtain ⟨hid, hreference, hsize, hkey, hhash, hchunks, hcount, hexpected, hreceived, haccepting,
    hmost, hpulls⟩ := h
  have hbefore := hp.numbered.lt_count_iff.mp hgiven
  have hroom := hp.numbered.room hgiven
  rw [Nat.succ_mul] at hroom
  have hcountable := hp.countable
  have htotal := hp.holds.size
  have hsmall := p.size.toNat_lt
  rw [Nat.min_eq_left (Nat.le_of_lt hbefore)] at hreceived
  have hlength : c.data.length =
      min chunkSize.toNat (content.length - given * chunkSize.toNat) := by
    rw [hdata, Pack.length_chunk]
  have hofNat : (UInt64.ofNat c.data.length).toNat = c.data.length := by
    rw [UInt64.toNat_ofNat']
    exact Nat.mod_eq_of_lt (by omega)
  have hsum : (d.received + UInt64.ofNat c.data.length).toNat =
      given * chunkSize.toNat + c.data.length := by
    rw [UInt64.toNat_add, hofNat, hreceived]
    exact Nat.mod_eq_of_lt (by omega)
  have hfull : (d.received + d.chunkSize.toUInt64).toNat =
      given * chunkSize.toNat + chunkSize.toNat := by
    rw [UInt64.toNat_add, UInt32.toNat_toUInt64, hreceived, hchunks]
    exact Nat.mod_eq_of_lt hroom
  have hnext : (d.expected + 1).toNat = given + 1 := by
    rw [UInt32.toNat_add, hexpected]
    exact Nat.mod_eq_of_lt (show given + 1 < 2 ^ 32 by omega)
  -- only a worker that waits has asked for more than it was given
  obtain ⟨i, hworker, hi, hslot, htaken⟩ : ∃ i : UInt32, d.worker = .waiting i ∧ i.toNat = given ∧
      d.slot = none ∧ d.data = content.take (given * chunkSize.toNat) := by
    cases hpulls with
    | ready _ _ hasked _ _ => omega
    | @waiting i hworker hi _ hslot hdata => exact ⟨i, hworker, hi, hslot, hdata⟩
    | handed _ _ hasked _ _ => omega
    | ended _ _ hasked _ => omega
  have hfault : d.fault? c = none := by
    have hindex' : c.index = d.expected := UInt32.toNat_inj.mp (hindex.trans hexpected.symm)
    have hlast : ¬ (¬ d.size ≤ d.received + d.chunkSize.toUInt64 ∧
        UInt64.ofNat c.data.length ≠ d.chunkSize.toUInt64) := by
      rintro ⟨hmore, hne⟩
      apply hne
      apply UInt64.toNat_inj.mp
      rw [UInt64.le_iff_toNat_le, hfull, hsize] at hmore
      rw [hofNat, UInt32.toNat_toUInt64, hchunks]
      omega
    have hover : ¬ d.size < d.received + UInt64.ofNat c.data.length := by
      rw [UInt64.lt_iff_toNat_lt, hsum, hsize]
      omega
    have hended : d.worker ≠ .ended := by rw [hworker]; exact nofun
    simp only [fault?, hindex', ne_eq, not_true_eq_false, if_false, if_neg hlast, if_neg hover,
      if_neg hended, hslot, Option.isSome_none]
    rfl
  refine ⟨by rw [Download.accept, hfault], ?_⟩
  refine ⟨hid, hreference, hsize, hkey, hhash, hchunks, hcount, hnext, ?_, ?_, hgiven, ?_⟩
  · show (d.received + UInt64.ofNat c.data.length).toNat = _
    rw [hsum, Nat.succ_mul]
    omega
  · show decide (d.expected + 1 < d.chunkCount) = _
    congr 1
    rw [UInt32.lt_iff_toNat_lt, hnext, hcount]
  · refine .handed hworker (by rw [hi]) rfl ?_ ?_
    · show some c.data = _
      rw [hdata, hi]
    · rw [hi]
      exact htaken

end Download

end PackExchange
