import PackExchange.Proofs.Transfer.Desk

/-!
# The queue of a server

A server keeps a stage and, while it serves chunks, a queue of packs with a place in it and an
offset.  Several steps of its calls change one of the two, and calls may fail in between.  This file
lists what a call can make of a desk, and follows stage, queue and offset through all calls.

* `Desk.Moved`, `Desk.after_cases` — the moves of a desk; a call makes one of them or changes
  nothing;
* `Desk.run_keeps` — what every move keeps is so after any calls;
* `Desk.InStep` — there is a queue exactly while chunks are served, and it is as it should be;
* `Desk.serveChunk_notServing_iff` — when a request for a chunk finds nothing being served;
* `Store.Honest` — a store that gives all bytes that it is asked for, except at the end of a pack;
* `Desk.OnTrack` — the offset is that of a chunk of the pack being served.
-/

namespace PackExchange

/-- While a pack is being served, a request for a chunk may fail, but not for want of a pack. -/
theorem Offer.serveChunk_ne_notServing {o : Offer} {s : Serving} (hserving : o.serving = some s)
    (r : ChunkRequest) : o.serveChunk r ≠ .error .notServing := by
  intro h
  by_cases huuid : PackId.uuidOf? r.uuid = some s.pack.id.uuid
  · by_cases hoffset : s.offset = r.index.toUInt64 * o.chunkSize.toUInt64
    · rw [serveChunk_asked hserving huuid hoffset] at h
      split at h <;> cases h
    · rw [serveChunk_otherChunk hserving huuid hoffset] at h
      cases h
  · rw [serveChunk_otherPack hserving huuid] at h
    cases h

namespace Desk

variable {d d' : Desk} {v : Visit}

/-! ### Moves -/

/-- The chunk that a request is answered with. -/
def chunkOf (r : ChunkRequest) (q : Queue) (data : Bytes) : Packet :=
  .chunkData { uuid := r.uuid, index := r.index, offset := q.offset, data }

/-- What a call makes of a desk, if it does not fail. -/
inductive Moved (d : Desk) : Visit → Desk → Prop
  /-- The first of some packs that were asked for is announced. -/
  | asked {store : Store} {r : ClientResponse} {p : Pack} {later : List Pack}
      (hstage : d.stage = .awaitingResponse) (hnames : d.shelf.Names r.packs (p :: later)) :
      Moved d ⟨store, .answer r⟩ { d with
        queue := some { packs := p :: later }
        stage := .servingChunks
        sent := d.sent ++ [.packData (d.shelf.announcement p)] }
  | downloaded {store : Store} {r : ClientResponse} (hstage : d.stage = .awaitingResponse) :
      Moved d ⟨store, .answer r⟩ { d with
        stage := .awaitingCompletion
        sent := d.sent ++ [.stack d.shelf.stack] }
  | completed {store : Store} {r : ClientResponse} (hstage : d.stage = .awaitingCompletion) :
      Moved d ⟨store, .answer r⟩ { d with stage := .loggedIn }
  /-- A chunk of the current pack is sent, and it is not the last. -/
  | chunk {store : Store} {r : ChunkRequest} {q : Queue} {p : Pack} {data : Bytes}
      (hasked : d.Asked r q p) (hread : d.readNext store q p = .ok data)
      (hmore : ¬ p.size ≤ q.offset + UInt64.ofNat data.length) :
      Moved d ⟨store, .request r⟩ { d with
        queue := some { q with offset := q.offset + d.chunkSize.toUInt64 }
        sent := d.sent ++ [chunkOf r q data] }
  /-- The last chunk of the current pack is sent, and the next pack is announced. -/
  | turned {store : Store} {r : ChunkRequest} {q : Queue} {p p' : Pack} {data : Bytes}
      (hasked : d.Asked r q p) (hread : d.readNext store q p = .ok data)
      (hlast : p.size ≤ q.offset + UInt64.ofNat data.length)
      (hnext : q.packs[q.current + 1]? = some p') :
      Moved d ⟨store, .request r⟩ { d with
        queue := some { packs := q.packs, current := q.current + 1 }
        stage := .servingChunks
        sent := d.sent ++ [chunkOf r q data] ++ [.packData (d.shelf.announcement p')] }
  /-- The last chunk of the last pack is sent. -/
  | emptied {store : Store} {r : ChunkRequest} {q : Queue} {p : Pack} {data : Bytes}
      (hasked : d.Asked r q p) (hread : d.readNext store q p = .ok data)
      (hlast : p.size ≤ q.offset + UInt64.ofNat data.length)
      (hnext : q.packs[q.current + 1]? = none) :
      Moved d ⟨store, .request r⟩ { d with
        queue := none
        stage := .awaitingResponse
        sent := d.sent ++ [chunkOf r q data] }

theorem nextPack_run_of_some {p : Pack} (h : d.queue.bind Queue.pack? = some p) :
    nextPack.run d = .ok () { d with
      stage := .servingChunks
      sent := d.sent ++ [.packData (d.shelf.announcement p)] } := by
  rw [nextPack, EStateM.run_bind, EStateM.run_get]
  simp only [h]
  rfl

theorem nextPack_run_of_none (h : d.queue.bind Queue.pack? = none) :
    nextPack.run d = .ok () { d with queue := none, stage := .awaitingResponse } := by
  rw [nextPack, EStateM.run_bind, EStateM.run_get]
  simp only [h]
  rfl

theorem moved_of_asked {store : Store} {r : ClientResponse} (hstage : d.stage = .awaitingResponse)
    (h : (do queueRequested r.packs; nextPack : Handling Unit).run d = .ok () d') :
    d.Moved ⟨store, .answer r⟩ d' := by
  rw [EStateM.run_bind, queueRequested_run] at h
  cases hresolve : d.shelf.resolve r.packs [] with
  | error e =>
    rw [hresolve] at h
    cases h
  | ok packs =>
    rw [hresolve] at h
    cases packs with
    | nil => cases h
    | cons p later =>
      have hnames := Offer.resolve_eq_ok_iff_names.mp ⟨hresolve, List.cons_ne_nil p later⟩
      have hrun := nextPack_run_of_some
        (d := { d with queue := some { packs := p :: later } }) (p := p) rfl
      obtain ⟨-, rfl⟩ := EStateM.Result.ok.inj (hrun.symm.trans h)
      exact .asked hstage hnames

theorem moved_of_respond {store : Store} {r : ClientResponse} (h : (respond r).run d = .ok () d') :
    d.Moved ⟨store, .answer r⟩ d' := by
  simp only [respond, EStateM.run_bind, EStateM.run_get] at h
  split at h
  · cases h
  · next hstage _ => exact moved_of_asked hstage h
  · next hstage _ =>
    cases h
    exact .downloaded hstage
  · next hstage _ =>
    cases h
    exact .completed hstage
  · cases h

theorem moved_of_deliver {store : Store} {r : ChunkRequest} {q : Queue} {p : Pack} {data : Bytes}
    (hasked : d.Asked r q p) (hread : d.readNext store q p = .ok data)
    (h : (deliver r p q.offset data).run d = .ok () d') : d.Moved ⟨store, .request r⟩ d' := by
  simp only [deliver, onQueue, send, EStateM.run_bind, EStateM.run_get, EStateM.run_modify,
    hasked.queue, Option.map_some] at h
  by_cases hlast : p.size ≤ q.offset + UInt64.ofNat data.length
  · rw [if_pos hlast, EStateM.run_bind, EStateM.run_modify] at h
    let behind : Desk := { d with
      queue := some { packs := q.packs, current := q.current + 1 }
      sent := d.sent ++ [chunkOf r q data] }
    cases hnext : q.packs[q.current + 1]? with
    | some p' =>
      obtain ⟨-, rfl⟩ := EStateM.Result.ok.inj
        ((nextPack_run_of_some (d := behind) (p := p') hnext).symm.trans h)
      exact .turned hasked hread hlast hnext
    | none =>
      obtain ⟨-, rfl⟩ := EStateM.Result.ok.inj
        ((nextPack_run_of_none (d := behind) hnext).symm.trans h)
      exact .emptied hasked hread hlast hnext
  · rw [if_neg hlast] at h
    cases h
    exact .chunk hasked hread hlast

theorem moved_of_serveChunk {store : Store} {r : ChunkRequest}
    (h : (serveChunk store r).run d = .ok () d') : d.Moved ⟨store, .request r⟩ d' := by
  rcases serveChunk_run (d := d) r with ⟨e, hfails⟩ | ⟨q, p, hasked, hrun⟩
  · rw [(hfails store).1] at h
    cases h
  rw [hrun store] at h
  cases hread : d.readNext store q p with
  | error cause =>
    rw [hread] at h
    cases h
  | ok data =>
    rw [hread] at h
    exact moved_of_deliver hasked hread h

/-- **A call makes one of the moves, or changes nothing.** -/
theorem after_cases (d : Desk) (v : Visit) : d.after v = d ∨ d.Moved v (d.after v) := by
  cases htakes : d.takes v with
  | false => exact Or.inl (after_of_fails htakes)
  | true =>
    refine Or.inr ?_
    rw [takes] at htakes
    rw [after]
    cases hrun : (handle v).run d with
    | error e d' =>
      rw [hrun] at htakes
      cases htakes
    | ok _ d' =>
      obtain ⟨store, call⟩ := v
      cases call with
      | answer r => exact moved_of_respond hrun
      | request r => exact moved_of_serveChunk hrun

/-- **What every move keeps is so after any calls**, whether they fail or not. -/
theorem run_keeps {P : Desk → Prop} {vs : List Visit}
    (hmoves : ∀ v ∈ vs, ∀ d d', P d → d.Moved v d' → P d') (h : P d) : P (d.run vs) := by
  induction vs generalizing d with
  | nil => exact h
  | cons v vs ih =>
    refine ih (fun w hw => hmoves w (List.mem_cons_of_mem v hw)) ?_
    rcases after_cases d v with hsame | hmoved
    · rw [hsame]
      exact h
    · exact hmoves v List.mem_cons_self d _ h hmoved

/-! ### Stage and queue -/

/-- Is a queue as it should be?  One of its packs is the current one; all of them are on offer, none
is empty, and no two have the same identifier. -/
structure Queue.Sound (packs : List Pack) (q : Queue) : Prop where
  current : q.current < q.packs.length
  offered : ∀ p ∈ q.packs, p ∈ packs
  nonempty : ∀ p ∈ q.packs, p.size ≠ 0
  distinct : (q.packs.map (·.id.uuid)).Nodup

/-- Are the stage and the queue of a desk in step?  What was on offer still is, and there is a queue
exactly while chunks are served. -/
structure InStep (o : Offer) (d : Desk) : Prop where
  shelf : d.shelf = o
  present : d.queue.isSome = true ↔ d.stage = .servingChunks
  sound : ∀ q, d.queue = some q → q.Sound o.packs

variable {o : Offer}

theorem inStep_of_none (hshelf : d.shelf = o) (hqueue : d.queue = none)
    (hstage : d.stage ≠ .servingChunks) : d.InStep o where
  shelf := hshelf
  present := iff_of_false (by rw [hqueue]; exact Bool.false_ne_true) hstage
  sound := fun q hq => by cases hqueue.symm.trans hq

theorem inStep_of_some {q : Queue} (hshelf : d.shelf = o) (hqueue : d.queue = some q)
    (hstage : d.stage = .servingChunks) (hsound : q.Sound o.packs) : d.InStep o where
  shelf := hshelf
  present := iff_of_true (by rw [hqueue]; rfl) hstage
  sound := fun q' hq' => by
    obtain rfl : q = q' := Option.some.inj (hqueue.symm.trans hq')
    exact hsound

namespace InStep

theorem queue_eq_none (h : d.InStep o) (hstage : d.stage ≠ .servingChunks) :
    d.queue = none := by
  cases hqueue : d.queue with
  | none => rfl
  | some q => exact absurd (h.present.mp (by rw [hqueue]; rfl)) hstage

/-- **A move leaves stage and queue in step.** -/
theorem move (hfull : ∀ p ∈ o.packs, p.size ≠ 0) (h : d.InStep o) (hmoved : d.Moved v d') :
    d'.InStep o := by
  cases hmoved with
  | @asked _ _ p later hstage hnames =>
    have hoffered : ∀ q ∈ p :: later, q ∈ o.packs := fun q hq => h.shelf ▸ hnames.mem hq
    exact inStep_of_some h.shelf rfl rfl ⟨Nat.succ_pos _, hoffered,
      fun q hq => hfull q (hoffered q hq), hnames.nodup⟩
  | downloaded hstage =>
    exact inStep_of_none h.shelf (h.queue_eq_none (hstage ▸ nofun)) nofun
  | completed hstage =>
    exact inStep_of_none h.shelf (h.queue_eq_none (hstage ▸ nofun)) nofun
  | chunk hasked hread hmore =>
    have hstage : d.stage = .servingChunks := h.present.mp (by rw [hasked.queue]; rfl)
    have hsound := h.sound _ hasked.queue
    exact inStep_of_some h.shelf rfl hstage
      ⟨hsound.current, hsound.offered, hsound.nonempty, hsound.distinct⟩
  | turned hasked hread hlast hnext =>
    have hsound := h.sound _ hasked.queue
    exact inStep_of_some h.shelf rfl rfl ⟨(List.getElem?_eq_some_iff.mp hnext).1,
      hsound.offered, hsound.nonempty, hsound.distinct⟩
  | emptied hasked hread hlast hnext => exact inStep_of_none h.shelf rfl nofun

/-- The pack being served. -/
theorem pack? (h : d.InStep o) {q : Queue} (hqueue : d.queue = some q) :
    ∃ p ∈ o.packs, q.packs[q.current]? = some p := by
  have hsound := h.sound q hqueue
  have hcurrent := List.getElem?_eq_getElem hsound.current
  exact ⟨_, hsound.offered _ (List.mem_of_getElem? hcurrent), hcurrent⟩

/-- A pack that a chunk is asked for is on offer. -/
theorem mem_of_asked (h : d.InStep o) {r : ChunkRequest} {q : Queue} {p : Pack}
    (hasked : d.Asked r q p) : p ∈ o.packs :=
  (h.sound q hasked.queue).offered p (List.mem_of_getElem? hasked.pack)

end InStep

theorem inStep_opening (packs : List Pack) (chunkSize : UInt32) (required : Bool) :
    (opening packs chunkSize required).InStep (Offer.ofPacks packs chunkSize) :=
  inStep_of_none rfl rfl nofun

/-- No pack on offer is empty. -/
theorem size_ne_of_mem_ofPacks {packs : List Pack} {chunkSize : UInt32} {p : Pack}
    (h : p ∈ (Offer.ofPacks packs chunkSize).packs) : p.size ≠ 0 := by
  have hsome := (List.mem_filter.mp h).2
  rw [Pack.isEmpty, Bool.not_eq_true', beq_eq_false_iff_ne] at hsome
  exact hsome

/-- **Stage and queue are in step after any calls.** -/
theorem inStep_run (packs : List Pack) (chunkSize : UInt32) (required : Bool)
    (visits : List Visit) :
    ((opening packs chunkSize required).run visits).InStep (Offer.ofPacks packs chunkSize) :=
  run_keeps (fun _ _ _ _ h hmoved => h.move (fun _ hp => size_ne_of_mem_ofPacks hp) hmoved)
    (inStep_opening packs chunkSize required)

/-- A request for a chunk finds nothing being served exactly outside the stage for it. -/
theorem serveChunk_notServing_iff (h : d.InStep o) (store : Store) (r : ChunkRequest) :
    (∃ d', (serveChunk store r).run d = .error .notServing d') ↔ d.stage ≠ .servingChunks := by
  have hfollows := serveChunk_follows (d := d) store r
  constructor
  · rintro ⟨d', hrun⟩ hstage
    obtain ⟨q, hqueue⟩ := Option.isSome_iff_exists.mp (h.present.mpr hstage)
    obtain ⟨p, -, hpack⟩ := h.pack? hqueue
    have hserving := serving_offer store hqueue hpack
    rw [hrun] at hfollows
    cases hserve : (d.offer store).serveChunk r with
    | ok reply =>
      rw [hserve] at hfollows
      obtain ⟨_, hok, -⟩ := hfollows
      cases hok
    | error e =>
      rw [hserve] at hfollows
      cases hfollows
      exact Offer.serveChunk_ne_notServing hserving r hserve
  · intro hstage
    have hserving : (d.offer store).serving = none := by
      show d.queue.bind _ = none
      rw [h.queue_eq_none hstage, Option.bind_none]
    rw [Offer.serveChunk_idle hserving] at hfollows
    exact ⟨d, hfollows⟩

end Desk

/-! ### Offsets -/

/-- Does a store give all bytes of a pack that it is asked for, except at the end of the pack?  It need
not give any. -/
def Store.Honest (store : Store) (p : Pack) : Prop :=
  ∀ (length : Nat) (offset : UInt64) (bs : Bytes), store p length offset = .ok bs →
    bs.length = min length (p.size.toNat - offset.toNat)

/-- The store in which every pack is kept where it says. -/
def Store.own : Store := fun p => p.readAt

/-- A pack that is kept in memory is read in full. -/
theorem Store.honest_toPack (a : Archive) (h : a.data.length < 2 ^ 64) :
    Store.own.Honest a.toPack := by
  intro length offset bs hread
  have hholds := Pack.holds_toPack a h
  have hoffset : offset.toNat ≤ a.data.length := by
    by_contra hpast
    have hfails : Archive.readAt a.data length offset = .error _ := if_pos (Nat.not_le.mp hpast)
    cases hfails.symm.trans hread
  have hbytes := Except.ok.inj ((hholds.readAt length offset hoffset).symm.trans hread)
  rw [← hbytes, List.length_take, List.length_drop, hholds.size]

namespace Desk

variable {d d' : Desk} {v : Visit} {q : Queue} {p : Pack} {store : Store} {data : Bytes}

/-- Is the offset of a queue that of a chunk of the current pack? -/
structure Queue.OnTrack (chunkSize : UInt32) (q : Queue) : Prop where
  aligned : chunkSize.toNat ∣ q.offset.toNat
  below : ∀ p, q.packs[q.current]? = some p → q.offset.toNat < p.size.toNat

/-- A store that is honest gives a whole chunk, or what is left of the pack. -/
theorem length_readNext (hhonest : store.Honest p) (hread : d.readNext store q p = .ok data) :
    data.length = min d.chunkSize.toNat (p.size.toNat - q.offset.toNat) := by
  rw [hhonest _ _ _ hread, UInt32.toNat_toUInt64]
  omega

/-- A chunk more than what has been sent can be counted. -/
theorem toNat_next (hsmall : p.size.toNat ≤ 2 ^ 63) (hbelow : q.offset.toNat < p.size.toNat) :
    (q.offset + d.chunkSize.toUInt64).toNat = q.offset.toNat + d.chunkSize.toNat := by
  have hchunkSize := d.chunkSize.toNat_lt
  rw [UInt64.toNat_add, UInt32.toNat_toUInt64]
  exact Nat.mod_eq_of_lt (by omega)

/-- The bytes of the next chunk can be counted. -/
theorem toNat_length
    (hlength : data.length = min d.chunkSize.toNat (p.size.toNat - q.offset.toNat)) :
    (UInt64.ofNat data.length).toNat = data.length := by
  have hchunkSize := d.chunkSize.toNat_lt
  exact UInt64.toNat_ofNat_of_lt' (by show data.length < 2 ^ 64; omega)

/-- With them what has been sent can be counted too, since they end within the pack. -/
theorem toNat_end (hbelow : q.offset.toNat < p.size.toNat)
    (hlength : data.length = min d.chunkSize.toNat (p.size.toNat - q.offset.toNat)) :
    (q.offset + UInt64.ofNat data.length).toNat = q.offset.toNat + data.length := by
  have hsize := p.size.toNat_lt
  rw [UInt64.toNat_add, toNat_length hlength]
  exact Nat.mod_eq_of_lt (by omega)

theorem toNat_size_pos (h : p.size ≠ 0) : 0 < p.size.toNat :=
  Nat.pos_of_ne_zero fun hzero => h (UInt64.toNat_inj.mp hzero)

/-- At the start of a pack that is not empty. -/
theorem onTrack_start (chunkSize : UInt32) {packs : List Pack} {current : Nat}
    (hfull : ∀ p, packs[current]? = some p → p.size ≠ 0) :
    Queue.OnTrack chunkSize { packs, current } where
  aligned := Nat.dvd_zero _
  below := fun p hp => toNat_size_pos (hfull p hp)

/-- **A chunk that is not the last leads to the next chunk of the pack.**  It did not reach the end of
the pack, so it was a whole one. -/
theorem Queue.OnTrack.next (h : q.OnTrack d.chunkSize) (hpack : q.packs[q.current]? = some p)
    (hsmall : p.size.toNat ≤ 2 ^ 63)
    (hlength : data.length = min d.chunkSize.toNat (p.size.toNat - q.offset.toNat))
    (hmore : ¬ p.size ≤ q.offset + UInt64.ofNat data.length) :
    Queue.OnTrack d.chunkSize { q with offset := q.offset + d.chunkSize.toUInt64 } := by
  have hbelow := h.below p hpack
  have hnext := toNat_next (d := d) hsmall hbelow
  rw [UInt64.le_iff_toNat_le, toNat_end hbelow hlength, hlength] at hmore
  constructor
  · show d.chunkSize.toNat ∣ (q.offset + d.chunkSize.toUInt64).toNat
    rw [hnext]
    exact Nat.dvd_add h.aligned (Nat.dvd_refl _)
  · intro p' hp'
    obtain rfl : p = p' := Option.some.inj (hpack.symm.trans hp')
    show (q.offset + d.chunkSize.toUInt64).toNat < p.size.toNat
    omega

/-- Is what a desk serves on track? -/
def OnTrack (d : Desk) : Prop := ∀ q, d.queue = some q → q.OnTrack d.chunkSize

/-- **A move leaves the offset on track**, if the store was honest. -/
theorem OnTrack.move {o : Offer} (h : d.OnTrack) (hinStep : d.InStep o)
    (hfull : ∀ p ∈ o.packs, p.size ≠ 0) (hsmall : ∀ p ∈ o.packs, p.size.toNat ≤ 2 ^ 63)
    (hhonest : ∀ p ∈ o.packs, v.store.Honest p) (hmoved : d.Moved v d') : d'.OnTrack := by
  have hinStep' := hinStep.move hfull hmoved
  have hfirst : ∀ q, d'.queue = some q → ∀ p, q.packs[q.current]? = some p → p.size ≠ 0 :=
    fun q hq p hp => (hinStep'.sound q hq).nonempty p (List.mem_of_getElem? hp)
  cases hmoved with
  | asked hstage hnames =>
    intro q hq
    cases hq
    exact onTrack_start _ (hfirst _ rfl)
  | downloaded hstage => exact h
  | completed hstage => exact h
  | @chunk store r q p data hasked hread hmore =>
    intro q' hq'
    cases hq'
    have hmem := hinStep.mem_of_asked hasked
    exact (h q hasked.queue).next hasked.pack (hsmall p hmem)
      (length_readNext (hhonest p hmem) hread) hmore
  | turned hasked hread hlast hnext =>
    intro q hq
    cases hq
    exact onTrack_start _ (hfirst _ rfl)
  | emptied hasked hread hlast hnext => exact nofun

/-- **The offset is on track after any calls** to honest stores. -/
theorem onTrack_run {packs : List Pack} (chunkSize : UInt32) (required : Bool)
    {visits : List Visit} (hsmall : ∀ p ∈ packs, p.size.toNat ≤ 2 ^ 63)
    (hhonest : ∀ v ∈ visits, ∀ p ∈ packs, v.store.Honest p) :
    ((opening packs chunkSize required).run visits).OnTrack := by
  have hfull : ∀ p ∈ (Offer.ofPacks packs chunkSize).packs, p.size ≠ 0 :=
    fun _ hp => size_ne_of_mem_ofPacks hp
  have hmoves : ∀ v ∈ visits, ∀ d d' : Desk,
      d.InStep (Offer.ofPacks packs chunkSize) ∧ d.OnTrack → d.Moved v d' →
        d'.InStep (Offer.ofPacks packs chunkSize) ∧ d'.OnTrack :=
    fun v hv d d' h hmoved => ⟨h.1.move hfull hmoved,
      h.2.move h.1 hfull (fun p hp => hsmall p (List.mem_of_mem_filter hp))
        (fun p hp => hhonest v hv p (List.mem_of_mem_filter hp)) hmoved⟩
  exact (run_keeps hmoves ⟨inStep_opening packs chunkSize required, nofun⟩).2

end Desk

end PackExchange
