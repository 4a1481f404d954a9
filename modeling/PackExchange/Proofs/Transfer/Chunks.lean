import Mathlib.Algebra.Group.Nat.Defs
import Mathlib.Data.Nat.Basic
import PackExchange.Proofs.Transfer.Course
import PackExchange.Proofs.Transfer.Pace

/-!
# The chunks of a download

A download is compared with the chunks that were accepted for it.  Each accepted chunk has been
taken by the worker or is in the slot, and what has been accepted is what the announcement allows.

* `Download.ceiling` — how many chunks some bytes split into, not cut to 32 bits;
* `Download.Fed` — how a download stands to the chunks that were accepted for it;
* `Download.Fed.put`, `Woken.fed` — what steps make of it;
* `Download.Fed.entire` — a download that yields a pack has all its chunks, in order;
* `Download.Traced` — how a download stands to what was handled.
-/

namespace PackExchange

namespace Download

/-- How many chunks of a size some bytes split into. -/
def ceiling (size : UInt64) (chunkSize : UInt32) : Nat :=
  (size.toNat + chunkSize.toNat - 1) / chunkSize.toNat

theorem ceiling_le_iff {size : UInt64} {chunkSize : UInt32} (h : 0 < chunkSize.toNat) {n : Nat} :
    ceiling size chunkSize ≤ n ↔ size.toNat ≤ n * chunkSize.toNat := by
  rw [ceiling, Nat.div_le_iff_le_mul_add_pred h, Nat.mul_comm]
  omega

theorem ceiling_pos {size : UInt64} {chunkSize : UInt32} (h : 0 < chunkSize.toNat)
    (hsize : size ≠ 0) : 0 < ceiling size chunkSize := by
  by_contra hzero
  have hle : ceiling size chunkSize ≤ 0 := Nat.le_of_not_lt hzero
  rw [ceiling_le_iff h, Nat.zero_mul, Nat.le_zero] at hle
  exact hsize (UInt64.toNat_inj.mp hle)

theorem toNat_chunksOf (size : UInt64) (chunkSize : UInt32) :
    (chunksOf size chunkSize).toNat = ceiling size chunkSize % 2 ^ 32 :=
  UInt32.toNat_ofNat'

theorem toNat_pos_of_ne_zero {n : UInt32} (h : n ≠ 0) : 0 < n.toNat := by
  rw [Nat.pos_iff_ne_zero]
  exact fun hzero => h (UInt32.toNat_inj.mp hzero)

variable {cs : List ChunkData} {hs hs' : List Handled} {d : Download}

/-! ### The chunks that were accepted -/

/-- How a download stands to the chunks that were accepted for it: they are numbered from zero, all
but the last have been taken, and the last too or it is in the slot; and before the last one they
are as long as announced. -/
structure Fed (cs : List ChunkData) (d : Download) : Prop where
  paced : d.Paced
  chunkSize_ne : d.chunkSize ≠ 0
  data : cs.map (·.data) = d.taken.reverse ++ d.slot.toList
  indices : cs.map (·.index.toNat) = List.range d.expected.toNat
  short : ∀ c ∈ cs, c.data.length ≤ d.chunkSize.toNat
  whole : ∀ i c, cs[i]? = some c → i + 1 < d.most → c.data.length = d.chunkSize.toNat
  received : (cs.map (·.data.length)).sum = d.received.toNat
  room : d.received ≤ d.size
  accepting : d.accepting = true → d.received.toNat = d.expected.toNat * d.chunkSize.toNat

theorem fed_announced (id : PackId) (contentKey : String) {a : PackData} (hchunk : a.chunkSize ≠ 0)
    (hsize : a.size ≠ 0) : (announced id contentKey a).Fed [] where
  paced := paced_announced id contentKey hsize
  chunkSize_ne := hchunk
  data := rfl
  indices := rfl
  short := nofun
  whole := nofun
  received := rfl
  room := UInt64.zero_le
  accepting := fun _ => (Nat.zero_mul _).symm

theorem Fed.length_eq (h : d.Fed cs) : cs.length = d.expected.toNat := by
  rw [← List.length_range (n := d.expected.toNat), ← h.indices, List.length_map]

theorem Paced.chunkCount_le (h : d.Paced) : d.chunkCount.toNat ≤ ceiling d.size d.chunkSize := by
  rw [h.chunkCount, toNat_chunksOf]
  exact Nat.mod_le _ _

/-- Whole chunks can be counted in 64 bits, as no more than 32 bits count them. -/
theorem mul_add_lt {e k : Nat} (he : e + 1 < 2 ^ 32) (hk : k < 2 ^ 32) :
    e * k + (2 ^ 32 - 1) < 2 ^ 64 := by
  have hmost : e * k ≤ (2 ^ 32 - 2) * (2 ^ 32 - 1) :=
    Nat.mul_le_mul (by omega) (by omega)
  omega

/-- **An accepted chunk** is no longer than the announced size of chunks, and exactly as long unless
it is the last. -/
theorem Fed.put (h : d.Fed cs) {c : ChunkData} (haccepting : d.accepting = true)
    (hfault : d.fault? c = none) (hlength : c.data.length < 2 ^ 32) :
    (d.put c).Fed (cs ++ [c]) := by
  obtain ⟨hindex, hlast, hroom, -, hslot⟩ := of_fault?_eq_none hfault
  have hreceived := h.accepting haccepting
  have hlt := h.paced.accepting haccepting
  have hnext := h.paced.toNat_next haccepting
  have hmost := d.most_lt
  have hk := toNat_pos_of_ne_zero h.chunkSize_ne
  have hk' : d.chunkSize.toNat < 2 ^ 32 := d.chunkSize.toNat_lt
  have hfits := mul_add_lt (e := d.expected.toNat) (by omega) hk'
  have hofNat : (UInt64.ofNat c.data.length).toNat = c.data.length := by
    rw [UInt64.toNat_ofNat']
    exact Nat.mod_eq_of_lt (by omega)
  have hsum : (d.received + UInt64.ofNat c.data.length).toNat =
      d.expected.toNat * d.chunkSize.toNat + c.data.length := by
    rw [UInt64.toNat_add, hofNat, hreceived]
    exact Nat.mod_eq_of_lt (by omega)
  have hfull : (d.received + d.chunkSize.toUInt64).toNat =
      d.expected.toNat * d.chunkSize.toNat + d.chunkSize.toNat := by
    rw [UInt64.toNat_add, UInt32.toNat_toUInt64, hreceived]
    exact Nat.mod_eq_of_lt (by omega)
  have hroom' : d.expected.toNat * d.chunkSize.toNat + c.data.length ≤ d.size.toNat := by
    rw [← hsum]
    exact hroom
  have hlast' : d.size.toNat ≤ (d.expected.toNat + 1) * d.chunkSize.toNat ∨
      c.data.length = d.chunkSize.toNat := by
    rw [Nat.succ_mul]
    rcases hlast with hle | heq
    · exact Or.inl (by rw [← hfull]; exact hle)
    · right
      rw [← hofNat, heq, UInt32.toNat_toUInt64]
  have hwhole : d.expected.toNat + 1 < d.most → c.data.length = d.chunkSize.toNat := by
    intro hmore
    -- a shorter chunk would reach the end of the pack, so that it were the last one
    refine hlast'.resolve_left fun hend => ?_
    rw [← ceiling_le_iff hk] at hend
    have hcount := h.paced.chunkCount_le
    rw [most] at hmore
    omega
  refine ⟨h.paced.put haccepting hfault, h.chunkSize_ne, ?_, ?_, ?_, ?_, ?_, hroom, ?_⟩
  · show (cs ++ [c]).map _ = d.taken.reverse ++ [c.data]
    have hdata := h.data
    rw [hslot, Option.toList_none, List.append_nil] at hdata
    rw [List.map_append, hdata]
    rfl
  · show (cs ++ [c]).map _ = List.range (d.expected + 1).toNat
    rw [List.map_append, h.indices, hnext, List.range_succ, ← hindex]
    rfl
  · intro x hx
    rcases List.mem_append.mp hx with hx | hx
    · exact h.short x hx
    · rw [List.mem_singleton] at hx
      subst hx
      show x.data.length ≤ d.chunkSize.toNat
      rw [Nat.succ_mul] at hlast'
      omega
  · intro i x hx hmore
    by_cases hi : i < cs.length
    · rw [List.getElem?_append_left hi] at hx
      exact h.whole i x hx hmore
    · rw [List.getElem?_append_right (Nat.le_of_not_lt hi), List.getElem?_singleton] at hx
      split at hx
      · next hi' =>
        cases hx
        refine hwhole ?_
        rw [← h.length_eq, show cs.length = i by omega]
        exact hmore
      · cases hx
  · show ((cs ++ [c]).map (·.data.length)).sum = (d.received + UInt64.ofNat c.data.length).toNat
    rw [List.map_append, List.sum_append, h.received, hsum, hreceived]
    rfl
  · intro hmore
    have hcount : (d.expected + 1).toNat < d.chunkCount.toNat := of_decide_eq_true hmore
    show (d.received + UInt64.ofNat c.data.length).toNat =
      (d.expected + 1).toNat * d.chunkSize.toNat
    rw [hnext] at hcount ⊢
    rw [hsum, Nat.succ_mul, hwhole (Nat.lt_of_lt_of_le hcount (Nat.le_max_left _ _))]

theorem Fed.close (h : d.Fed cs) : d.close.Fed cs :=
  ⟨Moves.closes.paced h.paced, h.chunkSize_ne, h.data, h.indices, h.short, h.whole, h.received,
    h.room, fun hclosed => absurd hclosed Bool.false_ne_true⟩

/-- A worker moves chunks from the slot to those that it has taken, and nothing else. -/
theorem Woken.fed {r : Download × Deed} (hwoken : d.Woken r) (h : d.Fed cs) : r.1.Fed cs := by
  have hpaced := hwoken.paced h.paced
  cases hwoken with
  | idle => exact h
  | quits _ | asks _ _ | finishes _ _ =>
    exact ⟨hpaced, h.chunkSize_ne, h.data, h.indices, h.short, h.whole, h.received, h.room,
      h.accepting⟩
  | @takes i chunk _ hslot =>
    refine ⟨hpaced, h.chunkSize_ne, ?_, h.indices, h.short, h.whole, h.received, h.room,
      h.accepting⟩
    show _ = (chunk :: d.taken).reverse ++ []
    rw [h.data, hslot, List.reverse_cons, List.append_nil]
    rfl

theorem length_flatten_le {bss : List Bytes} {k : Nat} (h : ∀ bs ∈ bss, bs.length ≤ k) :
    bss.flatten.length ≤ bss.length * k := by
  induction bss with
  | nil => exact Nat.zero_le _
  | cons bs bss ih =>
    have hhead := h bs List.mem_cons_self
    have htail := ih fun x hx => h x (List.mem_cons_of_mem bs hx)
    rw [List.flatten_cons, List.length_append, List.length_cons, Nat.succ_mul]
    omega

/-- **A download that yields a pack has all its chunks.**  They are numbered from zero without a
gap, there are as many as the announced size needs, and the worker has taken them all. -/
theorem Fed.entire (h : d.Fed cs) (hsize : UInt64.ofNat d.data.length = d.size) :
    cs.map (·.index.toNat) = List.range (ceiling d.size d.chunkSize) ∧
      (cs.map (·.data)).flatten = d.data ∧ d.data.length = d.size.toNat := by
  have hk := toNat_pos_of_ne_zero h.chunkSize_ne
  have hk' : d.chunkSize.toNat < 2 ^ 32 := d.chunkSize.toNat_lt
  have he' : d.expected.toNat < 2 ^ 32 := d.expected.toNat_lt
  have htaken := h.paced.expected
  rw [← List.length_reverse] at htaken
  have hshort : d.data.length ≤ d.taken.reverse.length * d.chunkSize.toNat := by
    refine length_flatten_le fun bs hbs => ?_
    have hmem : bs ∈ cs.map (·.data) := by
      rw [h.data]
      exact List.mem_append_left _ hbs
    obtain ⟨c, hc, rfl⟩ := List.mem_map.mp hmem
    exact h.short c hc
  have hmost : d.taken.reverse.length * d.chunkSize.toNat ≤ (2 ^ 32 - 1) * (2 ^ 32 - 1) :=
    Nat.mul_le_mul (by omega) (by omega)
  have hlength : d.data.length = d.size.toNat := by
    rw [← hsize, UInt64.toNat_ofNat']
    exact (Nat.mod_eq_of_lt (by omega)).symm
  have hceiling : ceiling d.size d.chunkSize ≤ d.taken.reverse.length := by
    rw [ceiling_le_iff hk, ← hlength]
    exact hshort
  have hpos := ceiling_pos hk h.paced.size_ne
  have hbounded := h.paced.bounded
  have hcount := h.paced.chunkCount_le
  rw [most] at hbounded
  have hexpected : d.expected.toNat = ceiling d.size d.chunkSize := by omega
  have hslot : d.slot.toList = [] := List.length_eq_zero_iff.mp (by omega)
  refine ⟨?_, ?_, hlength⟩
  · rw [h.indices, hexpected]
  · rw [h.data, hslot, List.append_nil, Download.data]

/-! ### What was handled -/

/-- How a download stands to what was handled: its announcement is the only one that was accepted,
and the accepted chunks of its pack are its own. -/
structure Traced (hs : List Handled) (d : Download) : Prop where
  announced : ∃ a, Handled.announcements d.id.uuid hs = [a] ∧ a.size = d.size ∧
    a.hash = d.hash ∧ a.chunkSize = d.chunkSize
  fed : d.Fed (Handled.chunks d.id.uuid hs)

theorem Traced.of_eq (h : d.Traced hs)
    (hannouncements : Handled.announcements d.id.uuid hs' = Handled.announcements d.id.uuid hs)
    (hchunks : Handled.chunks d.id.uuid hs' = Handled.chunks d.id.uuid hs) : d.Traced hs' := by
  refine ⟨?_, ?_⟩
  · rw [hannouncements]
    exact h.announced
  · rw [hchunks]
    exact h.fed

theorem traced_announced {id : PackId} {contentKey : String} {a : PackData}
    (hannouncements : Handled.announcements id.uuid hs = [a])
    (hchunks : Handled.chunks id.uuid hs = []) (hchunk : a.chunkSize ≠ 0) (hsize : a.size ≠ 0) :
    (announced id contentKey a).Traced hs := by
  refine ⟨⟨a, hannouncements, rfl, rfl, rfl⟩, ?_⟩
  show (Download.announced id contentKey a).Fed (Handled.chunks id.uuid hs)
  rw [hchunks]
  exact fed_announced id contentKey hchunk hsize

theorem Traced.put (h : d.Traced hs) {c : ChunkData} (haccepting : d.accepting = true)
    (hfault : d.fault? c = none) (hlength : c.data.length < 2 ^ 32)
    (hannouncements : Handled.announcements d.id.uuid hs' = Handled.announcements d.id.uuid hs)
    (hchunks : Handled.chunks d.id.uuid hs' = Handled.chunks d.id.uuid hs ++ [c]) :
    (d.put c).Traced hs' := by
  refine ⟨?_, ?_⟩
  · show ∃ a, Handled.announcements d.id.uuid hs' = [a] ∧ _
    rw [hannouncements]
    exact h.announced
  · show (d.put c).Fed (Handled.chunks d.id.uuid hs')
    rw [hchunks]
    exact h.fed.put haccepting hfault hlength

theorem Traced.close (h : d.Traced hs) : d.close.Traced hs := ⟨h.announced, h.fed.close⟩

theorem Woken.traced {r : Download × Deed} (hwoken : d.Woken r) (h : d.Traced hs) :
    r.1.Traced hs := by
  have hfed := hwoken.fed h.fed
  cases hwoken with
  | idle => exact h
  | _ => exact ⟨h.announced, hfed⟩

end Download

end PackExchange
