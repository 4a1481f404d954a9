import Mathlib.Algebra.Order.Floor.Div
import PackExchange.Proofs.Transfer.Requests
import PackExchange.Transfer.Offer

/-!
# How many chunks are counted

The number of chunks is a quotient of a 64-bit size, rounded up, and is kept in 32 bits.  It is exact as
long as it has room there.  Nothing checks that it has: a quotient beyond is cut, and the worker asks for
as few chunks as the cut count says.

* `Download.Counts` — what a count has to do with the quotient, and `Download.counts_chunksOf`: so it is
  for the counts that both sides compute;
* `Record.Counted` — what the worker of a download makes of its count, with `Record.Kept.counted`;
* `Course.chunks_counted` — the counts of both sides and the requests of every run;
* `Fetch.settle_exampleHuge` — an announcement for which no chunk is asked for.
-/

namespace PackExchange

/-! ### Counts -/

namespace Download

/-- What a 32-bit count has to do with the chunks that some bytes split into. -/
structure Counts (size : UInt64) (chunkSize n : UInt32) : Prop where
  cut : n.toNat = (size.toNat ⌈/⌉ chunkSize.toNat) % 2 ^ 32
  /-- The count is exact if it has room, and only then. -/
  exact_iff : n.toNat = size.toNat ⌈/⌉ chunkSize.toNat ↔ size.toNat ⌈/⌉ chunkSize.toNat < 2 ^ 32

variable {size : UInt64} {chunkSize : UInt32}

theorem ceiling_eq_ceilDiv (size : UInt64) (chunkSize : UInt32) :
    ceiling size chunkSize = size.toNat ⌈/⌉ chunkSize.toNat :=
  (Nat.ceilDiv_eq_add_pred_div _ _).symm

theorem counts_chunksOf (size : UInt64) (chunkSize : UInt32) :
    Counts size chunkSize (chunksOf size chunkSize) := by
  have hcut : (chunksOf size chunkSize).toNat = (size.toNat ⌈/⌉ chunkSize.toNat) % 2 ^ 32 := by
    rw [toNat_chunksOf, ceiling_eq_ceilDiv]
  refine ⟨hcut, ?_⟩
  rw [hcut]
  omega

end Download

theorem Pack.counts_chunkCount (p : Pack) {chunkSize : UInt32} (h : chunkSize ≠ 0) :
    Download.Counts p.size chunkSize (p.chunkCount chunkSize) := by
  rw [Pack.chunkCount, if_neg h]
  exact Download.counts_chunksOf p.size chunkSize

/-! ### Workers -/

/-- What the worker of a download makes of its count. -/
structure Record.Counted (r : Record) (d : Download) : Prop where
  counts : Download.Counts r.announcement.size r.announcement.chunkSize d.chunkCount
  numbered : r.requests.map (·.index.toNat) = List.range r.requests.length
  atMost : r.requests.length ≤ d.chunkCount.toNat
  /-- A worker that is about to go on asks for the next chunk until it has asked for all. -/
  asks : ∀ i slotFirst, d.worker = .ready i → r.requests.length < d.chunkCount.toNat →
    d.wake false slotFirst = ({ d with worker := .waiting i }, .request i)
  /-- A worker that finishes has asked for all. -/
  finishes : ∀ cancelled slotFirst data, (d.wake cancelled slotFirst).2 = .finish data →
    r.requests.length = d.chunkCount.toNat
  /-- If the count is cut, what a worker has in the end is thrown away. -/
  futile : 2 ^ 32 ≤ r.announcement.size.toNat ⌈/⌉ r.announcement.chunkSize.toNat →
    ∀ cancelled slotFirst data, (d.wake cancelled slotFirst).2 = .finish data →
      ∀ f : Fetch, f.complete d data = (f, [])

namespace Download

variable {cs : List ChunkData} {d : Download}

/-- What a worker finishes with is what it has taken, when there is nothing more to ask for. -/
theorem of_wake_finish {cancelled slotFirst : Bool} {data : Bytes}
    (h : (d.wake cancelled slotFirst).2 = .finish data) :
    data = d.data ∧ ∃ i, d.worker = .ready i ∧ ¬ i < d.chunkCount := by
  have hwoken := d.woken_wake cancelled slotFirst
  generalize d.wake cancelled slotFirst = x at h hwoken
  cases hwoken with
  | finishes hworker hlast =>
    cases h
    exact ⟨rfl, _, hworker, hlast⟩
  | _ => cases h

/-- A download whose count is cut never has as many bytes as were announced. -/
theorem Fed.short_of_cut (h : d.Fed cs) (hcut : 2 ^ 32 ≤ d.size.toNat ⌈/⌉ d.chunkSize.toNat) :
    UInt64.ofNat d.data.length ≠ d.size := by
  intro hsize
  have hlength : (cs.map (·.index.toNat)).length = ceiling d.size d.chunkSize := by
    rw [(h.entire hsize).1, List.length_range]
  rw [List.length_map, h.length_eq, ceiling_eq_ceilDiv] at hlength
  have hexpected := d.expected.toNat_lt
  omega

end Download

theorem Fetch.complete_of_short {f : Fetch} {d : Download} {data : Bytes}
    (h : UInt64.ofNat data.length ≠ d.size) : f.complete d data = (f, []) := by
  rw [complete, if_pos h, ite_self]

/-- **A worker asks for as many chunks as it counts.** -/
theorem Record.Kept.counted {r : Record} {d : Download} (h : r.Kept d) : r.Counted d := by
  have hcounts : Download.Counts r.announcement.size r.announcement.chunkSize d.chunkCount := by
    rw [← h.size, ← h.chunkSize, h.fed.paced.chunkCount]
    exact Download.counts_chunksOf d.size d.chunkSize
  refine ⟨hcounts, h.numbered, h.atMost, ?_, ?_, ?_⟩
  · intro i slotFirst hworker hmore
    have hlt : i < d.chunkCount := by
      rw [h.ready i hworker] at hmore
      exact hmore
    simp [Download.wake, Download.advance, hworker, hlt]
  · intro cancelled slotFirst data hfinish
    obtain ⟨-, i, hworker, hlast⟩ := Download.of_wake_finish hfinish
    have hasked := h.ready i hworker
    have hatMost := h.atMost
    have hlast' : ¬ i.toNat < d.chunkCount.toNat := hlast
    omega
  · intro hcut cancelled slotFirst data hfinish f
    obtain ⟨rfl, -⟩ := Download.of_wake_finish hfinish
    rw [← h.size, ← h.chunkSize] at hcut
    exact Fetch.complete_of_short (h.fed.short_of_cut hcut)

/-- **Counts are exact if they have room.**  The count of an announcement that is accepted, and the one
that a server announces for a pack, is the size over the size of chunks, rounded up, if that is below
`2 ^ 32`; otherwise it is cut to 32 bits.  Whatever a server sends and whenever the workers run, each
worker asks for as many chunks as it counts, numbered from zero, and finishes only when it has asked for
all; and if its count is cut, what it has in the end is thrown away. -/
theorem Course.chunks_counted (rules : FetchRules) :
    (∀ (f : Fetch) (a : PackData), (f.takeAnnouncement a).2 = none →
        a.size ≠ 0 ∧ a.chunkSize ≠ 0 ∧
          ∃ d, (f.takeAnnouncement a).1.downloads = f.downloads ++ [d] ∧ d.worker = .ready 0 ∧
            d.size = a.size ∧ d.chunkSize = a.chunkSize ∧
            Download.Counts a.size a.chunkSize d.chunkCount) ∧
      (∀ (c : Course) (records : List Record), Run rules c records →
        List.Forall₂ Record.Counted records c.fetch.downloads) ∧
      (∀ (p : Pack) (chunkSize : UInt32), chunkSize ≠ 0 →
        Download.Counts p.size chunkSize (p.chunkCount chunkSize)) ∧
      ∀ (o : Offer) (p : Pack), o.chunkSize ≠ 0 →
        Download.Counts p.size o.chunkSize (o.announcement p).chunkCount := by
  refine ⟨fun f a haccepted => ?_, fun c records hrun => ?_, fun p chunkSize => p.counts_chunkCount,
    fun o p => p.counts_chunkCount⟩
  · have hannounced := f.announced_takeAnnouncement a
    generalize f.takeAnnouncement a = result at haccepted hannounced ⊢
    cases hannounced with
    | refused e => cases haccepted
    | spoiled hw huuid e => cases haccepted
    | started hw huuid hchunk hsize =>
      exact ⟨hsize, hchunk, _, rfl, rfl, rfl, rfl, Download.counts_chunksOf a.size a.chunkSize⟩
  · exact hrun.kept.2.imp fun _ _ hkept => hkept.counted

/-- A pack of ten bytes in chunks of four: three are announced, three are counted, and when two have been
taken the third is asked for. -/
theorem Course.chunks_counted_exampleTen :
    ∃ (c : Course) (records : List Record) (o : Offer) (p : Pack),
      Run {} c records ∧ c.fetch.downloads.map (·.chunkCount) = [3] ∧
      records.map (·.requests.map (·.index)) = [[0, 1, 2]] ∧
      List.Forall₂ Record.Counted records c.fetch.downloads ∧
      p.size.toNat ⌈/⌉ o.chunkSize.toNat = 3 ∧ (o.announcement p).chunkCount.toNat = 3 := by
  let name := "00000000-0000-0000-0000-000000000001"
  let catalog : Catalog := { packs := [{ uuid := ⟨0, 1⟩, size := 10 }] }
  let announcement : PackData := { uuid := name, chunkSize := 4, size := 10 }
  let p : Pack :=
    { id := ⟨⟨0, 1⟩, ""⟩, size := 10, checksum := [], readAt := fun _ _ => .ok [] }
  have hchunk : ∀ i, Packet.Sized (.chunkData { uuid := name, index := i, data := [1, 2, 3, 4] }) := by
    intro i
    show 4 < 2 ^ 32
    decide
  have hasked : Run {} _ _ :=
    (((Run.start).handle (p := .catalog catalog) trivial).handle
      (p := .packData announcement) trivial).work 0 false
  have hsecond : Run {} _ _ := ((hasked.handle (hchunk 0)).work 0 false).work 0 false
  have hthird : Run {} _ _ := ((hsecond.handle (hchunk 1)).work 0 false).work 0 false
  obtain ⟨-, hruns, -, hoffers⟩ := Course.chunks_counted {}
  have hquotient : p.size.toNat ⌈/⌉ UInt32.toNat 4 = 3 := by
    rw [← Download.ceiling_eq_ceilDiv]
    decide
  refine ⟨_, _, Offer.ofPacks [p] 4, p, hthird, by decide +kernel, by decide +kernel, hruns _ _ hthird,
    hquotient, ?_⟩
  have hcounts := hoffers (Offer.ofPacks [p] 4) p (by decide)
  exact (hcounts.exact_iff.mpr (hquotient.trans_lt (by decide))).trans hquotient

/-- An announcement of `2 ^ 32` chunks is accepted, none is counted, and the worker ends without asking
for any. -/
theorem Fetch.settle_exampleHuge :
    ∃ (f : Fetch) (a : PackData),
      (f.takeAnnouncement a).2 = none ∧ a.size.toNat ⌈/⌉ a.chunkSize.toNat = 2 ^ 32 ∧
      (f.takeAnnouncement a).1.downloads.map (·.chunkCount) = [0] ∧
      (f.takeAnnouncement a).1.settle.2 = [] ∧
      (f.takeAnnouncement a).1.settle.1.downloads.map (·.worker) = [.ended] := by
  let name := "00000000-0000-0000-0000-000000000001"
  let catalog : Catalog := { packs := [{ uuid := ⟨0, 1⟩, size := 4294967296 }] }
  let announcement : PackData := { uuid := name, chunkSize := 1, size := 4294967296 }
  refine ⟨(({} : Fetch).takeSettings.takeCatalog catalog).1, announcement, by decide +kernel, ?_,
    by decide +kernel, by decide +kernel, by decide +kernel⟩
  rw [← Download.ceiling_eq_ceilDiv]
  decide +kernel

end PackExchange
