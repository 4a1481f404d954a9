import PackExchange.Proofs.Transfer.Pull
import PackExchange.Transfer.Offer

/-!
# The calls of a client

A client answers the catalog and asks for chunks.  This file says what the server makes of either,
whatever the client has said before.

* `Offer.serveChunk_next`, `Offer.serveChunk_refused` — what becomes of a request for a chunk;
* `Pack.firsts`, `Offer.Names` — the packs that tokens name, each identifier once;
* `Offer.resolve_eq_ok_iff`, `Offer.Responded` — what becomes of an answer.
-/

namespace PackExchange

/-! ### Chunks -/

/-- Does a packet carry a chunk of a pack, whichever text names the pack? -/
structure ChunkData.Carries (c : ChunkData) (p : Pack) (content : Bytes) (chunkSize : UInt32)
    (k : Nat) : Prop where
  uuid : PackId.uuidOf? c.uuid = some p.id.uuid
  index : c.index.toNat = k
  offset : c.offset.toNat = k * chunkSize.toNat
  data : c.data = Pack.chunk content chunkSize k

namespace Offer

/-- The offset that an index stands for has room. -/
theorem index_mul_lt (index chunkSize : UInt32) : index.toNat * chunkSize.toNat < 2 ^ 64 := by
  have hproduct : index.toNat * chunkSize.toNat < 2 ^ 32 * 2 ^ 32 :=
    Nat.mul_lt_mul'' index.toNat_lt chunkSize.toNat_lt
  omega

theorem offset_eq_iff (offset : UInt64) (index chunkSize : UInt32) :
    offset = index.toUInt64 * chunkSize.toUInt64 ↔
      offset.toNat = index.toNat * chunkSize.toNat := by
  rw [← UInt64.toNat_inj, UInt64.toNat_mul, UInt32.toNat_toUInt64, UInt32.toNat_toUInt64,
    Nat.mod_eq_of_lt (index_mul_lt index chunkSize)]

variable {o : Offer} {s : Serving} {r : ChunkRequest} {k : Nat}

/-- Nobody is served before a pack was asked for. -/
theorem serveChunk_idle (hserving : o.serving = none) (r : ChunkRequest) :
    o.serveChunk r = .error .notServing := by
  simp only [serveChunk, hserving]

/-- Another pack than the one being served, or another chunk than the next, is not served. -/
theorem serveChunk_refused (hserving : o.serving = some s)
    (h : ¬ (PackId.uuidOf? r.uuid = some s.pack.id.uuid ∧
      s.offset.toNat = r.index.toNat * o.chunkSize.toNat)) :
    ∃ e, o.serveChunk r = .error e := by
  rw [← offset_eq_iff] at h
  simp only [serveChunk, hserving]
  by_cases huuid : PackId.uuidOf? r.uuid = some s.pack.id.uuid
  · have hindex : s.offset ≠ r.index.toUInt64 * o.chunkSize.toUInt64 := fun heq => h ⟨huuid, heq⟩
    rw [if_neg (not_not_intro huuid), if_pos hindex]
    exact ⟨_, rfl⟩
  · rw [if_pos huuid]
    exact ⟨_, rfl⟩

/-- **A request for the next chunk is answered with it**, whichever text names the pack; after the
last one the next pack is announced. -/
theorem serveChunk_next (hserving : o.serving = some s) {content : Bytes}
    (hp : s.pack.Numbered content o.chunkSize)
    (hoffset : s.offset.toNat = k * o.chunkSize.toNat)
    (hk : k < Download.ceiling s.pack.size o.chunkSize)
    (huuid : PackId.uuidOf? r.uuid = some s.pack.id.uuid) (hindex : r.index.toNat = k) :
    ∃ c : ChunkData, c.uuid = r.uuid ∧ c.Carries s.pack content o.chunkSize k ∧
      (k + 1 < Download.ceiling s.pack.size o.chunkSize ∧
        (∃ offset : UInt64, offset.toNat = (k + 1) * o.chunkSize.toNat ∧
          o.serveChunk r =
            .ok ({ o with serving := some { s with offset := offset } }, [.chunkData c])) ∨
      k + 1 = Download.ceiling s.pack.size o.chunkSize ∧
        o.serveChunk r =
          .ok ((o.serveNext s.later).1, .chunkData c :: (o.serveNext s.later).2)) := by
  have hbefore := hp.lt_count_iff.mp hk
  have hroom := hp.room hk
  rw [Nat.succ_mul] at hroom
  have htotal := hp.holds.size
  have hsize : o.chunkSize.toUInt64.toNat = o.chunkSize.toNat := UInt32.toNat_toUInt64 _
  have hsmall := s.pack.size.toNat_lt
  have hoffset' : s.offset = r.index.toUInt64 * o.chunkSize.toUInt64 := by
    rw [offset_eq_iff, hoffset, hindex]
  have hread : s.pack.readAt (min o.chunkSize.toUInt64.toNat
      (s.pack.size.toNat - s.offset.toNat)) s.offset =
        .ok (Pack.chunk content o.chunkSize k) := by
    rw [hp.holds.readAt _ _ (by omega), hsize, htotal, hoffset, Pack.chunk]
    congr 1
    rw [← List.take_take, List.take_of_length_le (i := content.length - _)]
    rw [List.length_drop]
  have hlength := Pack.length_chunk content o.chunkSize k
  have hsum : (s.offset + UInt64.ofNat (Pack.chunk content o.chunkSize k).length).toNat =
      k * o.chunkSize.toNat + (Pack.chunk content o.chunkSize k).length := by
    have hofNat : (UInt64.ofNat (Pack.chunk content o.chunkSize k).length).toNat =
        (Pack.chunk content o.chunkSize k).length := by
      rw [UInt64.toNat_ofNat']
      exact Nat.mod_eq_of_lt (by omega)
    rw [UInt64.toNat_add, hofNat, hoffset]
    exact Nat.mod_eq_of_lt (by omega)
  have hlast : s.pack.size ≤ s.offset + UInt64.ofNat (Pack.chunk content o.chunkSize k).length ↔
      Download.ceiling s.pack.size o.chunkSize ≤ k + 1 := by
    rw [UInt64.le_iff_toNat_le, hsum, Download.ceiling_le_iff hp.chunkSize_pos, Nat.succ_mul]
    omega
  refine ⟨⟨r.uuid, r.index, s.offset, Pack.chunk content o.chunkSize k⟩, rfl,
    ⟨huuid, hindex, hoffset, rfl⟩, ?_⟩
  by_cases hmore : k + 1 < Download.ceiling s.pack.size o.chunkSize
  · refine Or.inl ⟨hmore, s.offset + o.chunkSize.toUInt64, ?_, ?_⟩
    · rw [UInt64.toNat_add, hsize, hoffset, Nat.succ_mul]
      exact Nat.mod_eq_of_lt hroom
    · have hnot : ¬ s.pack.size ≤
          s.offset + UInt64.ofNat (Pack.chunk content o.chunkSize k).length := by
        rw [hlast]
        omega
      simp only [Offer.serveChunk, hserving, huuid, hread, ne_eq, not_true_eq_false, if_false,
        ← hoffset', if_neg hnot]
  · refine Or.inr ⟨by omega, ?_⟩
    have hend : s.pack.size ≤
        s.offset + UInt64.ofNat (Pack.chunk content o.chunkSize k).length := by
      rw [hlast]
      omega
    simp only [Offer.serveChunk, hserving, huuid, hread, ne_eq, not_true_eq_false, if_false,
      ← hoffset', if_pos hend]

end Offer

/-! ### Tokens -/

/-- Of the packs with one identifier only the first, in order. -/
def Pack.firsts : List Pack → List Pack
  | [] => []
  | p :: ps => p :: (firsts ps).filter (·.id.uuid != p.id.uuid)

theorem Pack.firsts_subset (ps : List Pack) : Pack.firsts ps ⊆ ps := by
  induction ps with
  | nil => exact List.Subset.refl _
  | cons p ps ih =>
    intro q hq
    rcases List.mem_cons.mp hq with rfl | hq
    · exact List.mem_cons_self
    · exact List.mem_cons_of_mem p (ih (List.mem_of_mem_filter hq))

theorem Pack.nodup_firsts (ps : List Pack) : ((Pack.firsts ps).map (·.id.uuid)).Nodup := by
  induction ps with
  | nil => exact List.nodup_nil
  | cons p ps ih =>
    rw [firsts, List.map_cons, List.nodup_cons]
    refine ⟨fun hmem => ?_, (List.filter_sublist.map _).nodup ih⟩
    obtain ⟨q, hq, heq⟩ := List.mem_map.mp hmem
    exact bne_iff_ne.mp (List.mem_filter.mp hq).2 heq

namespace Offer

/-- Do tokens name these packs?  Each token names a pack on offer, and of the packs with one
identifier only the first that is named counts. -/
def Names (o : Offer) (tokens : List String) (packs : List Pack) : Prop :=
  tokens ≠ [] ∧ ∃ ps : List Pack, tokens.map o.find? = ps.map some ∧ packs = Pack.firsts ps

theorem Names.mem {o : Offer} {tokens : List String} {packs : List Pack}
    (h : o.Names tokens packs) {p : Pack} (hp : p ∈ packs) : p ∈ o.packs := by
  obtain ⟨-, ps, hps, rfl⟩ := h
  have hmem : some p ∈ tokens.map o.find? := by
    rw [hps]
    exact List.mem_map_of_mem (Pack.firsts_subset ps hp)
  obtain ⟨token, -, hfind⟩ := List.mem_map.mp hmem
  simp only [find?, Option.bind_eq_bind, Option.bind_eq_some_iff] at hfind
  obtain ⟨id, -, hfind⟩ := hfind
  exact List.mem_of_find?_eq_some hfind

theorem Names.nodup {o : Offer} {tokens : List String} {packs : List Pack}
    (h : o.Names tokens packs) : (packs.map (·.id.uuid)).Nodup := by
  obtain ⟨-, ps, -, rfl⟩ := h
  exact Pack.nodup_firsts ps

/-- The packs that the loop over tokens comes to, when some packs have been named before. -/
theorem resolve_eq_ok_iff (o : Offer) (tokens : List String) (named packs : List Pack) :
    o.resolve tokens named = .ok packs ↔
      ∃ ps : List Pack, tokens.map o.find? = ps.map some ∧
        packs = named.reverse ++
          (Pack.firsts ps).filter fun p => !named.any (·.id.uuid == p.id.uuid) := by
  induction tokens generalizing named with
  | nil =>
    simp only [resolve, Except.ok.injEq, List.map_nil, List.nil_eq, List.map_eq_nil_iff,
      exists_eq_left, Pack.firsts, List.filter_nil, List.append_nil]
    exact eq_comm
  | cons token tokens ih =>
    rw [resolve, List.map_cons]
    cases hfind : o.find? token with
    | none =>
      simp only [reduceCtorEq, false_iff]
      rintro ⟨ps, hps, -⟩
      cases ps with
      | nil => simp at hps
      | cons p ps => simp at hps
    | some p =>
      have hcons : (∃ ps : List Pack, some p :: tokens.map o.find? = ps.map some ∧
            packs = named.reverse ++
              (Pack.firsts ps).filter fun q => !named.any (·.id.uuid == q.id.uuid)) ↔
          ∃ ps : List Pack, tokens.map o.find? = ps.map some ∧
            packs = named.reverse ++ (Pack.firsts (p :: ps)).filter
              fun q => !named.any (·.id.uuid == q.id.uuid) := by
        constructor
        · rintro ⟨ps, hps, rfl⟩
          cases ps with
          | nil => simp at hps
          | cons q ps =>
            simp only [List.map_cons, List.cons.injEq, Option.some.injEq] at hps
            obtain ⟨rfl, hps⟩ := hps
            exact ⟨ps, hps, rfl⟩
        · rintro ⟨ps, hps, rfl⟩
          exact ⟨p :: ps, by rw [hps, List.map_cons], rfl⟩
      rw [hcons]
      simp only [Pack.firsts, List.filter_cons]
      by_cases hnamed : named.any (·.id.uuid == p.id.uuid) = true
      · -- the pack was named before, so leaving it out twice is leaving it out once
        rw [if_pos hnamed, ih]
        have hskip : ∀ ps : List Pack,
            ((Pack.firsts ps).filter (·.id.uuid != p.id.uuid)).filter
                (fun q => !named.any (·.id.uuid == q.id.uuid)) =
              (Pack.firsts ps).filter fun q => !named.any (·.id.uuid == q.id.uuid) := by
          intro ps
          rw [List.filter_filter]
          refine List.filter_congr fun q _ => ?_
          by_cases hq : q.id.uuid = p.id.uuid
          · rw [hq, hnamed]
            rfl
          · rw [bne_iff_ne.mpr hq, Bool.and_true]
        simp only [hnamed, Bool.not_true, Bool.false_eq_true, if_false, hskip]
      · rw [if_neg hnamed, ih]
        rw [Bool.not_eq_true] at hnamed
        simp only [hnamed, Bool.not_false, if_true, List.reverse_cons, List.append_assoc,
          List.singleton_append, List.filter_filter]
        refine exists_congr fun ps => and_congr_right fun _ => ?_
        have hsame : ∀ q : Pack, (!(p :: named).any (·.id.uuid == q.id.uuid)) =
            (!named.any (·.id.uuid == q.id.uuid) && q.id.uuid != p.id.uuid) := by
          intro q
          rw [List.any_cons, Bool.not_or, Bool.and_comm, BEq.comm]
          rfl
        simp only [hsame]

/-- **The packs that are served are those that the tokens name.** -/
theorem resolve_eq_ok_iff_names {o : Offer} {tokens : List String} {packs : List Pack} :
    (o.resolve tokens [] = .ok packs ∧ packs ≠ []) ↔ o.Names tokens packs := by
  rw [resolve_eq_ok_iff]
  simp only [List.reverse_nil, List.any_nil, Bool.not_false, List.nil_append, List.filter_true]
  constructor
  · rintro ⟨⟨ps, hps, rfl⟩, hne⟩
    refine ⟨?_, ps, hps, rfl⟩
    rintro rfl
    rw [List.map_nil, List.nil_eq, List.map_eq_nil_iff] at hps
    exact hne (by rw [hps]; rfl)
  · rintro ⟨hne, ps, hps, rfl⟩
    refine ⟨⟨ps, hps, rfl⟩, ?_⟩
    cases ps with
    | nil =>
      rw [List.map_nil, List.map_eq_nil_iff] at hps
      exact absurd hps hne
    | cons p ps => exact List.cons_ne_nil _ _

/-! ### Answers -/

theorem loggedIn_serveNext (o : Offer) (ps : List Pack) :
    (o.serveNext ps).1.loggedIn = false := by
  cases ps <;> rfl

/-- What becomes of an answer that is accepted. -/
inductive Responded (o : Offer) (r : ClientResponse) : Offer → List Packet → Prop
  | asked {packs : List Pack} (hstage : o.stage = .awaitingResponse)
      (hanswer : Answer.ofCode? r.response = some .sendPacks) (hnames : o.Names r.packs packs) :
      Responded o r (o.serveNext packs).1 (o.serveNext packs).2
  | downloaded (hstage : o.stage = .awaitingResponse)
      (hanswer : Answer.ofCode? r.response = some .allPacksDownloaded) :
      Responded o r { o with stage := .awaitingCompletion } [.stack o.stack]
  | completed (hstage : o.stage = .awaitingCompletion)
      (hanswer : Answer.ofCode? r.response = some .completed) :
      Responded o r { o with stage := .loggedIn } []

/-- An answer is accepted in these three cases and in no other. -/
theorem responded_of_respond {o o' : Offer} {r : ClientResponse} {sent : List Packet}
    (h : o.respond r = .ok (o', sent)) : o.Responded r o' sent := by
  unfold respond at h
  split at h
  · cases h
  · next hstage hanswer =>
    split at h
    · cases h
    · cases h
    · next packs hne hresolve =>
      have hnext : o.serveNext packs = (o', sent) := Except.ok.inj h
      obtain rfl : (o.serveNext packs).1 = o' := by rw [hnext]
      obtain rfl : (o.serveNext packs).2 = sent := by rw [hnext]
      exact .asked hstage hanswer (resolve_eq_ok_iff_names.mp ⟨hresolve, hne⟩)
  · next hstage hanswer =>
    cases h
    exact .downloaded hstage hanswer
  · next hstage hanswer =>
    cases h
    exact .completed hstage hanswer
  · cases h

/-- Packs are served as soon as they are asked for by tokens that name them. -/
theorem respond_asked {o : Offer} {r : ClientResponse} {packs : List Pack}
    (hstage : o.stage = .awaitingResponse)
    (hanswer : Answer.ofCode? r.response = some .sendPacks) (hnames : o.Names r.packs packs) :
    o.respond r = .ok (o.serveNext packs) := by
  obtain ⟨hresolve, hne⟩ := resolve_eq_ok_iff_names.mpr hnames
  simp only [respond, hstage, hanswer, hresolve]

end Offer

end PackExchange
