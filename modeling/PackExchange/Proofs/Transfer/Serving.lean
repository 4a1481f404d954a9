import PackExchange.Proofs.Pack.Token
import PackExchange.Proofs.Transfer.Calls

/-!
# A server that is asked in the right order

A client that asks for packs by the tokens of the catalog gets them, and one that asks for the
chunks of a pack in their order gets those.

* `Offer.resolve_tokens` — the tokens of packs on offer name these packs;
* `ChunkRequest.Asks`, `ChunkData.Brings` — the packets that ask for a chunk and carry one;
* `Offer.serveChunk_eq` — what the server makes of a request for the next chunk.
-/

namespace PackExchange

namespace Offer

/-! ### Tokens -/

/-- The token of a pack on offer names it, since no other has its identifier. -/
theorem find?_token {o : Offer} (hdistinct : (o.packs.map (·.id.uuid)).Nodup) {p : Pack}
    (hp : p ∈ o.packs) : o.find? p.id.token = some p := by
  simp only [find?, PackId.parse?_token, Option.bind_eq_bind, Option.bind_some]
  cases hfind : o.packs.find? fun q =>
      q.id.uuid == p.id.uuid && (p.id.version.isEmpty || q.id.version == p.id.version) with
  | none =>
    have hnot := List.find?_eq_none.mp hfind p hp
    rw [beq_self_eq_true, beq_self_eq_true, Bool.or_true] at hnot
    exact absurd rfl hnot
  | some q =>
    have hq := List.mem_of_find?_eq_some hfind
    have hboth := List.find?_some hfind
    rw [Bool.and_eq_true, beq_iff_eq] at hboth
    rw [List.inj_on_of_nodup_map hdistinct hq hp hboth.1]

/-- **The tokens of packs on offer name these packs**, in the same order. -/
theorem resolve_tokens {o : Offer} (hdistinct : (o.packs.map (·.id.uuid)).Nodup)
    {ps named : List Pack} (hps : ∀ p ∈ ps, p ∈ o.packs)
    (hfresh : ((named ++ ps).map (·.id.uuid)).Nodup) :
    o.resolve (ps.map (·.id.token)) named = .ok (named.reverse ++ ps) := by
  induction ps generalizing named with
  | nil => rw [List.map_nil, resolve, List.append_nil]
  | cons p ps ih =>
    have hp := hps p List.mem_cons_self
    have hnew : named.any (·.id.uuid == p.id.uuid) = false := by
      rw [List.any_eq_false]
      intro q hq heq
      rw [beq_iff_eq] at heq
      rw [List.map_append] at hfresh
      exact (List.nodup_append.mp hfresh).2.2 _ (List.mem_map_of_mem hq) _
        (List.mem_map_of_mem List.mem_cons_self) heq
    have hfresh' : ((p :: named ++ ps).map (·.id.uuid)).Nodup :=
      (List.perm_middle.map _).nodup_iff.mp hfresh
    rw [List.map_cons, resolve, find?_token hdistinct hp]
    simp only [hnew]
    rw [if_neg Bool.false_ne_true, ih (fun q hq => hps q (List.mem_cons_of_mem p hq)) hfresh',
      List.reverse_cons, List.append_assoc, List.singleton_append]

end Offer

/-! ### Chunks -/

/-- Does a request ask for a chunk of a pack? -/
structure ChunkRequest.Asks (r : ChunkRequest) (p : Pack) (k : Nat) : Prop where
  uuid : r.uuid = p.id.token
  index : r.index.toNat = k

/-- Does a packet carry a chunk of a pack? -/
structure ChunkData.Brings (c : ChunkData) (p : Pack) (content : Bytes) (chunkSize : UInt32)
    (k : Nat) : Prop where
  uuid : c.uuid = p.id.token
  index : c.index.toNat = k
  data : c.data = Pack.chunk content chunkSize k

/-- **A request for the next chunk is answered with it**; after the last one the next pack is
announced. -/
theorem Offer.serveChunk_eq {o : Offer} {s : Serving} (hserving : o.serving = some s)
    {content : Bytes} (hp : s.pack.Parcels content o.chunkSize) {k : Nat}
    (hoffset : s.offset.toNat = k * o.chunkSize.toNat)
    (hk : k < Download.ceiling s.pack.size o.chunkSize) {r : ChunkRequest}
    (hr : r.Asks s.pack k) :
    ∃ c : ChunkData, c.Brings s.pack content o.chunkSize k ∧
      (k + 1 < Download.ceiling s.pack.size o.chunkSize ∧
        (∃ offset : UInt64, offset.toNat = (k + 1) * o.chunkSize.toNat ∧
          o.serveChunk r =
            .ok ({ o with serving := some { s with offset := offset } }, [.chunkData c])) ∨
      k + 1 = Download.ceiling s.pack.size o.chunkSize ∧
        o.serveChunk r =
          .ok ((o.serveNext s.later).1, .chunkData c :: (o.serveNext s.later).2)) := by
  have huuid : PackId.uuidOf? r.uuid = some s.pack.id.uuid := by
    rw [hr.uuid, PackId.uuidOf?_token]
  obtain ⟨c, hname, hcarries, hnext⟩ :=
    serveChunk_next hserving hp.numbered hoffset hk huuid hr.index
  exact ⟨c, ⟨hname.trans hr.uuid, hcarries.index, hcarries.data⟩, hnext⟩

end PackExchange
