import PackExchange.Proofs.Transfer.Queue
import PackExchange.Proofs.Transfer.Sums

/-!
# The offsets of a server have room

A server multiplies the index that it is asked for, adds to an offset what it has read, and moves the
offset by a chunk, all in words of fixed width.  This file goes through a request for a chunk once
more and looks at every offset where it is computed.  As long as the offset is on track this makes no
difference.

* `Desk.Checked`, `Desk.plain` — programs that may find an offset without room, and those that do not
  look;
* `Desk.serveChunk?` — a request for a chunk that looks at its offsets;
* `Desk.serveChunk?_run` — it comes to the same as one that does not;
* `Offer.InStep`, `Desk.offer_inStep` — what stage and queue in step mean for the offer of a desk;
* `Desk.offer_run_own` — the offer of packs that are kept where they say is the offer of a desk;
* `Desk.queue_in_step` — the queue of a server, after any calls.
-/

namespace PackExchange

/-- The product of two long words, if it has room. -/
def mul64? (a b : UInt64) : Option UInt64 := if a.toNat * b.toNat < 2 ^ 64 then some (a * b) else none

namespace Desk

/-! ### Offsets that must not run over -/

/-- A program over a desk that looks at its offsets.  An error without a cause is an offset that has
no room. -/
abbrev Checked := EStateM (Option TransferError) Desk

/-- A program that does not compute offsets. -/
def plain {α : Type} (x : Handling α) : Checked α := fun d =>
  match x d with
  | .ok a d' => .ok a d'
  | .error e d' => .error (some e) d'

/-- An offset that was computed, if it has room. -/
def inRange : Option UInt64 → Checked UInt64
  | some offset => pure offset
  | none => throw none

/-- The pack that a request for a chunk is about, and the offset of the chunk. -/
def asked? (r : ChunkRequest) : Checked (Pack × UInt64) := do
  let d ← get
  match d.queue with
  | none => throw (some .notServing)
  | some q =>
    match q.pack? with
    | none => throw (some .notServing)
    | some p =>
      let size := d.chunkSize.toUInt64
      if PackId.uuidOf? r.uuid ≠ some p.id.uuid then
        throw (some (.unexpectedPack p.id.uuid r.uuid))
      else
        let start ← inRange (mul64? r.index.toUInt64 size)
        if q.offset ≠ start then
          throw (some (.unexpectedChunkIndex (q.offset / size).toUInt32 r.index))
        else pure (p, q.offset)

/-- Sends a chunk and goes on behind it. -/
def deliver? (r : ChunkRequest) (p : Pack) (offset : UInt64) (data : Bytes) : Checked Unit := do
  let d ← get
  let next ← inRange (add64? offset d.chunkSize.toUInt64)
  plain (onQueue fun q => { q with offset := next })
  plain (send (.chunkData { uuid := r.uuid, index := r.index, offset, data }))
  let reached ← inRange (add64? offset (UInt64.ofNat data.length))
  if p.size ≤ reached then
    plain (onQueue fun q => { q with current := q.current + 1, offset := 0 })
    plain nextPack

/-- Serves one chunk of the pack being served, as `serveChunk` does, but every offset is looked at where
it is computed. -/
def serveChunk? (store : Store) (r : ChunkRequest) : Checked Unit := do
  let (p, offset) ← asked? r
  let d ← get
  let data ← plain (read store p
    (min d.chunkSize.toUInt64.toNat (p.size.toNat - offset.toNat)) offset)
  deliver? r p offset data

variable {d : Desk} {q : Queue} {p : Pack} {store : Store} {data : Bytes} {r : ChunkRequest}

theorem plain_run {α : Type} (x : Handling α) : (plain x).run d = match x.run d with
    | .ok a d' => .ok a d'
    | .error e d' => .error (some e) d' := rfl

theorem inRange_bind {α : Type} (offset : UInt64) (f : UInt64 → Checked α) :
    (inRange (some offset) >>= f) = f offset := rfl

theorem add64?_eq {a b : UInt64} {n : Nat} (hb : b.toNat = n) (h : (a + b).toNat = a.toNat + n) :
    add64? a b = some (a + b) := by
  refine if_pos ?_
  rw [hb, ← h]
  exact (a + b).toNat_lt

/-- The product of two short words always has room. -/
theorem mul64?_eq (a b : UInt32) :
    mul64? a.toUInt64 b.toUInt64 = some (a.toUInt64 * b.toUInt64) := by
  refine if_pos ?_
  rw [UInt32.toNat_toUInt64, UInt32.toNat_toUInt64]
  exact Offer.index_mul_lt a b

/-- Whether a request is for the next chunk can be told without an offset that runs over. -/
theorem asked?_run (r : ChunkRequest) : (asked? r).run d = (plain (asked r)).run d := by
  rw [plain_run, asked?, asked, EStateM.run_bind, EStateM.run_get, EStateM.run_bind, EStateM.run_get]
  simp only [mul64?_eq, inRange_bind]
  cases d.queue with
  | none => rfl
  | some q =>
    simp only
    cases q.pack? with
    | none => rfl
    | some p =>
      simp only
      by_cases huuid : PackId.uuidOf? r.uuid = some p.id.uuid
      · rw [if_neg (not_not_intro huuid), if_neg (not_not_intro huuid)]
        by_cases hoffset : q.offset = r.index.toUInt64 * d.chunkSize.toUInt64
        · rw [if_neg (not_not_intro hoffset), if_neg (not_not_intro hoffset)]
          rfl
        · rw [if_pos hoffset, if_pos hoffset]
          rfl
      · rw [if_pos huuid, if_pos huuid]
        rfl

/-- If the next offset and the end of the chunk have room, a chunk is delivered all the same. -/
theorem deliver?_run (hasked : d.Asked r q p)
    (hnext : add64? q.offset d.chunkSize.toUInt64 = some (q.offset + d.chunkSize.toUInt64))
    (hend : add64? q.offset (UInt64.ofNat data.length) =
      some (q.offset + UInt64.ofNat data.length)) :
    (deliver? r p q.offset data).run d = (plain (deliver r p q.offset data)).run d := by
  rw [plain_run, deliver?, deliver, EStateM.run_bind, EStateM.run_get, EStateM.run_bind,
    EStateM.run_get]
  simp only [hnext, hend, inRange_bind, EStateM.run_bind, plain_run, onQueue, send,
    EStateM.run_modify, hasked.queue, Option.map_some]
  by_cases hlast : p.size ≤ q.offset + UInt64.ofNat data.length
  · rw [if_pos hlast, if_pos hlast]
    simp only [EStateM.run_bind, plain_run, EStateM.run_modify]
  · rw [if_neg hlast, if_neg hlast]
    rfl

/-- **A request for a chunk is taken as if its offsets were looked at**: none of them runs over. -/
theorem serveChunk?_run {o : Offer} (hinStep : d.InStep o) (htrack : d.OnTrack)
    (hsmall : ∀ p ∈ o.packs, p.size.toNat ≤ 2 ^ 63) (hhonest : ∀ p ∈ o.packs, store.Honest p)
    (r : ChunkRequest) : (serveChunk? store r).run d = (plain (serveChunk store r)).run d := by
  rw [plain_run, serveChunk?, serveChunk, EStateM.run_bind, EStateM.run_bind, asked?_run, plain_run]
  rcases asked_run (d := d) r with ⟨e, hrun, -⟩ | ⟨q, p, hasked, hrun⟩
  · rw [hrun]
  rw [hrun]
  simp only [EStateM.run_bind, EStateM.run_get, plain_run, read]
  cases hread : store p (min d.chunkSize.toUInt64.toNat (p.size.toNat - q.offset.toNat)) q.offset with
  | error cause => rfl
  | ok data =>
    have hmem := hinStep.mem_of_asked hasked
    have hbelow := (htrack q hasked.queue).below p hasked.pack
    have hlength := length_readNext (d := d) (q := q) (hhonest p hmem) hread
    exact deliver?_run hasked
      (add64?_eq d.chunkSize.toNat_toUInt64 (toNat_next (hsmall p hmem) hbelow))
      (add64?_eq (toNat_length hlength) (toNat_end hbelow hlength))

end Desk

/-! ### The offer of a desk in step -/

/-- Is what an offer serves as it should be?  All of its packs are on offer, none is empty, and no two
have the same identifier. -/
structure Serving.Sound (packs : List Pack) (s : Serving) : Prop where
  offered : ∀ p ∈ s.pack :: s.later, p ∈ packs
  nonempty : ∀ p ∈ s.pack :: s.later, p.size ≠ 0
  distinct : ((s.pack :: s.later).map (·.id.uuid)).Nodup

/-- Is the offset of what is being served that of a chunk of its pack? -/
structure Serving.OnTrack (chunkSize : UInt32) (s : Serving) : Prop where
  aligned : chunkSize.toNat ∣ s.offset.toNat
  below : s.offset.toNat < s.pack.size.toNat

/-- Are the stage of an offer and what it serves in step?  It serves packs exactly while it serves
chunks. -/
structure Offer.InStep (packs : List Pack) (o : Offer) : Prop where
  present : o.serving.isSome = true ↔ o.stage = .servingChunks
  sound : ∀ s, o.serving = some s → s.Sound packs

namespace Desk

variable {o : Offer} {d : Desk} {q : Queue} {p : Pack} {s : Serving}

/-- What is served from a queue is the rest of it. -/
theorem Queue.busy_cons (store : Store) (hpack : q.packs[q.current]? = some p) :
    (q.busy store p).pack :: (q.busy store p).later =
      (q.packs.drop q.current).map (Pack.keptIn store) := by
  obtain ⟨hlt, rfl⟩ := List.getElem?_eq_some_iff.mp hpack
  rw [List.drop_eq_getElem_cons hlt]
  rfl

theorem Queue.Sound.busy {packs : List Pack} (h : q.Sound packs) (store : Store)
    (hpack : q.packs[q.current]? = some p) :
    (q.busy store p).Sound (packs.map (Pack.keptIn store)) := by
  have hrest : ∀ p' ∈ (q.packs.drop q.current).map (Pack.keptIn store),
      ∃ p ∈ q.packs, p.keptIn store = p' := fun p' hp' =>
    let ⟨p, hp, heq⟩ := List.mem_map.mp hp'
    ⟨p, List.mem_of_mem_drop hp, heq⟩
  rw [← Queue.busy_cons store hpack] at hrest
  refine ⟨fun p' hp' => ?_, fun p' hp' => ?_, ?_⟩
  · obtain ⟨p, hp, rfl⟩ := hrest p' hp'
    exact List.mem_map_of_mem (h.offered p hp)
  · obtain ⟨p, hp, rfl⟩ := hrest p' hp'
    exact h.nonempty p hp
  · rw [Queue.busy_cons store hpack, List.map_map]
    exact h.distinct.sublist ((List.drop_sublist _ _).map _)

/-- What the offer of a desk serves comes from the queue. -/
theorem InStep.serving (h : d.InStep o) {store : Store} (hserving : (d.offer store).serving = some s) :
    ∃ q p, d.queue = some q ∧ q.packs[q.current]? = some p ∧ s = q.busy store p := by
  cases hqueue : d.queue with
  | none =>
    have hnone : (d.offer store).serving = none := by
      show d.queue.bind _ = none
      rw [hqueue, Option.bind_none]
    cases hnone.symm.trans hserving
  | some q =>
    obtain ⟨p, -, hpack⟩ := h.pack? hqueue
    exact ⟨q, p, rfl, hpack, Option.some.inj (hserving.symm.trans (serving_offer store hqueue hpack))⟩

/-- **The offer of a desk is in step** if the desk is. -/
theorem offer_inStep (h : d.InStep o) (store : Store) :
    (d.offer store).InStep (o.packs.map (Pack.keptIn store)) where
  present := by
    refine Iff.trans ⟨fun hsome => ?_, fun hsome => ?_⟩ h.present
    · obtain ⟨s, hserving⟩ := Option.isSome_iff_exists.mp hsome
      obtain ⟨q, p, hqueue, -⟩ := h.serving hserving
      rw [hqueue]
      rfl
    · obtain ⟨q, hqueue⟩ := Option.isSome_iff_exists.mp hsome
      obtain ⟨p, -, hpack⟩ := h.pack? hqueue
      rw [serving_offer store hqueue hpack]
      rfl
  sound := fun s hserving => by
    obtain ⟨q, p, hqueue, hpack, rfl⟩ := h.serving hserving
    exact (h.sound q hqueue).busy store hpack

theorem offer_onTrack (h : d.InStep o) (htrack : d.OnTrack) {store : Store}
    (hserving : (d.offer store).serving = some s) : s.OnTrack d.chunkSize := by
  obtain ⟨q, p, hqueue, hpack, rfl⟩ := h.serving hserving
  exact ⟨(htrack q hqueue).aligned, (htrack q hqueue).below p hpack⟩

theorem map_keptIn_own (packs : List Pack) : packs.map (Pack.keptIn .own) = packs :=
  List.map_id packs

/-- The offer of packs, after some calls, is that of a desk whose packs are kept where they say. -/
theorem offer_run_own (packs : List Pack) (chunkSize : UInt32) (required : Bool)
    (calls : List Offer.Call) :
    ((opening packs chunkSize required).run (calls.map (Visit.mk .own))).offer .own =
      (((Offer.ofPacks packs chunkSize).start required).1.run calls).1 := by
  have hopening := (offer_opening .own packs chunkSize required).1
  rw [map_keptIn_own] at hopening
  rw [run_offer, hopening]

/-- **What an offer serves is in step with its stage** after any calls. -/
theorem inStep_run_ofPacks (packs : List Pack) (chunkSize : UInt32) (required : Bool)
    (calls : List Offer.Call) :
    (((Offer.ofPacks packs chunkSize).start required).1.run calls).1.InStep
      (Offer.ofPacks packs chunkSize).packs := by
  have h := offer_inStep (inStep_run packs chunkSize required (calls.map (Visit.mk .own))) .own
  rwa [offer_run_own, map_keptIn_own] at h

/-- **The offset of what an offer serves is on track** after any calls, if its packs give what they are
asked for. -/
theorem onTrack_run_ofPacks {packs : List Pack} {chunkSize : UInt32} {required : Bool}
    {calls : List Offer.Call} (hsmall : ∀ p ∈ packs, p.size.toNat ≤ 2 ^ 63)
    (hhonest : ∀ p ∈ packs, Store.own.Honest p)
    (hserving : (((Offer.ofPacks packs chunkSize).start required).1.run calls).1.serving = some s) :
    s.OnTrack (((Offer.ofPacks packs chunkSize).start required).1.run calls).1.chunkSize := by
  have hvisits : ∀ v ∈ calls.map (Visit.mk .own), ∀ p ∈ packs, v.store.Honest p := by
    intro v hv
    obtain ⟨c, -, rfl⟩ := List.mem_map.mp hv
    exact hhonest
  rw [← offer_run_own] at hserving ⊢
  exact offer_onTrack (inStep_run packs chunkSize required _)
    (onTrack_run chunkSize required hsmall hvisits) hserving

/-- **The queue of a server**, after any calls and whether they fail or not, with any stores.  There is
a queue exactly while chunks are served.  A queue that is there has a current pack; its packs are on
offer, none is empty, and no two have the same identifier.  So a request for a chunk, which that
stage admits, finds a pack being served.

If no pack has more than `2 ^ 63` bytes and the stores are honest, the offset is that of a chunk
within the current pack, and no offset that a request computes runs over.  (The index that an error
names is not an offset: it may be cut.)

The same is so of an offer, which keeps only those packs of the queue that are left. -/
theorem queue_in_step (packs : List Pack) (chunkSize : UInt32) (required : Bool) :
    (∀ visits : List Visit,
      let o := Offer.ofPacks packs chunkSize
      let d := (opening packs chunkSize required).run visits
      d.InStep o ∧
        (d.stage = .servingChunks → ∀ r, d.stage.admits (.chunkRequest r) = true ∧
          ∀ store d', (serveChunk store r).run d ≠ .error .notServing d') ∧
        ((∀ p ∈ packs, p.size.toNat ≤ 2 ^ 63) →
          (∀ v ∈ visits, ∀ p ∈ packs, v.store.Honest p) →
            d.OnTrack ∧ ∀ store, (∀ p ∈ packs, store.Honest p) → ∀ r,
              (serveChunk? store r).run d = (plain (serveChunk store r)).run d)) ∧
      ∀ calls : List Offer.Call,
        let o := (((Offer.ofPacks packs chunkSize).start required).1.run calls).1
        o.InStep (Offer.ofPacks packs chunkSize).packs ∧
          (o.stage = .servingChunks → ∀ r, o.stage.admits (.chunkRequest r) = true ∧
            o.serveChunk r ≠ .error .notServing) ∧
          ((∀ p ∈ packs, p.size.toNat ≤ 2 ^ 63) → (∀ p ∈ packs, Store.own.Honest p) →
            ∀ s, o.serving = some s → s.OnTrack o.chunkSize) := by
  refine ⟨fun visits => ?_, fun calls => ?_⟩
  · intro o d
    have hinStep : d.InStep o := inStep_run packs chunkSize required visits
    refine ⟨hinStep, fun hstage r => ⟨hstage ▸ rfl, fun store d' hrun => ?_⟩,
      fun hsmall hhonest => ?_⟩
    · exact (serveChunk_notServing_iff hinStep store r).mp ⟨d', hrun⟩ hstage
    · have htrack : d.OnTrack := onTrack_run chunkSize required hsmall hhonest
      exact ⟨htrack, fun store hstore r => serveChunk?_run hinStep htrack
        (fun p hp => hsmall p (List.mem_of_mem_filter hp))
        (fun p hp => hstore p (List.mem_of_mem_filter hp)) r⟩
  · intro o
    have hinStep := inStep_run_ofPacks packs chunkSize required calls
    refine ⟨hinStep, fun hstage r => ⟨hstage ▸ rfl, ?_⟩,
      fun hsmall hhonest s hserving => onTrack_run_ofPacks hsmall hhonest hserving⟩
    obtain ⟨s, hserving⟩ := Option.isSome_iff_exists.mp (hinStep.present.mpr hstage)
    exact Offer.serveChunk_ne_notServing hserving r

/-- A client that asks for both packs; for the chunks of the first, once while the store is away and
once more when the last was sent; and for the first chunk of the second. -/
def exampleTurns : List Visit :=
  let first := "00000000-0000-0000-0000-000000000001"
  let second := "00000000-0000-0000-0000-000000000002_1.0.0"
  let away : Store := fun _ _ _ => .error (.store "away")
  [⟨.own, .answer ⟨Answer.sendPacks.code, [first, second]⟩⟩, ⟨.own, .request ⟨first, 0⟩⟩,
    ⟨away, .request ⟨first, 1⟩⟩, ⟨.own, .request ⟨first, 1⟩⟩, ⟨.own, .request ⟨first, 2⟩⟩,
    ⟨.own, .request ⟨first, 2⟩⟩, ⟨.own, .request ⟨second, 0⟩⟩]

/-- By then the second of the packs is the current one, and its second chunk is the next.  So it is for
an offer that is asked for the same. -/
theorem queue_in_step_exampleTurns :
    let packs := Offer.exampleArchives.map (·.toPack)
    let d := (opening packs 2 false).run exampleTurns
    let o := (((Offer.ofPacks packs 2).start false).1.run (exampleTurns.map Visit.call)).1
    (d.queue.map fun q => (q.current, q.offset)) = some (1, 2) ∧
      d.InStep (Offer.ofPacks packs 2) ∧ d.OnTrack ∧
      (∀ r, (serveChunk? .own r).run d = (plain (serveChunk .own r)).run d ∧
        ∀ d', (serveChunk .own r).run d ≠ .error .notServing d') ∧
      o.InStep (Offer.ofPacks packs 2).packs ∧ (∀ r, o.serveChunk r ≠ .error .notServing) ∧
      ∀ s, o.serving = some s → s.OnTrack o.chunkSize := by
  intro packs d o
  have hsmall : ∀ p ∈ packs, p.size.toNat ≤ 2 ^ 63 := by decide +kernel
  have hown : ∀ p ∈ packs, Store.own.Honest p := by
    have hlength : ∀ a ∈ Offer.exampleArchives, a.data.length < 2 ^ 64 := by decide +kernel
    intro p hp
    obtain ⟨a, ha, rfl⟩ := List.mem_map.mp hp
    exact Store.honest_toPack a (hlength a ha)
  have hhonest : ∀ v ∈ exampleTurns, ∀ p ∈ packs, v.store.Honest p := by
    intro v hv p hp
    simp only [exampleTurns, List.mem_cons, List.not_mem_nil, or_false] at hv
    rcases hv with rfl | rfl | rfl | rfl | rfl | rfl | rfl
    all_goals first
      | exact hown p hp
      | exact fun _ _ _ hread => nomatch hread
  have h := queue_in_step packs 2 false
  obtain ⟨hdesk, hserved, htrack⟩ := h.1 exampleTurns
  obtain ⟨hoffer, hserved', htrack'⟩ := h.2 (exampleTurns.map Visit.call)
  have hserving := hserved (by decide +kernel)
  obtain ⟨htrack, hchecked⟩ := htrack hsmall hhonest
  exact ⟨by decide +kernel, hdesk, htrack,
    fun r => ⟨hchecked .own hown r, (hserving r).2 .own⟩, hoffer,
    fun r => (hserved' (by decide +kernel) r).2, htrack' hsmall hown⟩

end Desk

end PackExchange
