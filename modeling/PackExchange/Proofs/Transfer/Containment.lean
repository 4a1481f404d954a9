import PackExchange.Proofs.Transfer.Losses

/-!
# A bad packet hurts its own pack only

An announcement or a chunk with which something is wrong may cost the pack that it names.  It
changes nothing about the others, and nothing about the exchange as a whole; but the pack that it
cost stays missing, and the client never gets to the load order.

* `Packet.pack?` — the pack that a packet of a download names;
* `Fetch.pending`, `Fetch.active`, `Fetch.workers` — what a client has for a pack;
* `Fetch.Contained` — a change that concerns one pack only;
* `Fetch.Refused` — what a bad packet may change, and what follows from it;
* `Course.contained` — bad packets along a course.
-/

namespace PackExchange

/-- The pack that a packet of a download names, if its reference can be read. -/
def Packet.pack? : Packet → Option Uuid
  | .packData a => PackId.uuidOf? a.uuid
  | .chunkData c => PackId.uuidOf? c.uuid
  | _ => none

namespace Fetch

/-! ### What a client has for a pack -/

/-- The entry of a pack that was not announced yet. -/
def pending (f : Fetch) (uuid : Uuid) : Option Wanted := f.wanted.find? (·.id.uuid == uuid)

/-- The download that accepts chunks of a pack. -/
def active (f : Fetch) (uuid : Uuid) : Option Download := f.downloads.find? (takes uuid)

/-- The downloads of a pack, with their slots and workers. -/
def workers (f : Fetch) (uuid : Uuid) : List Download := f.downloads.filter (·.id.uuid == uuid)

/-- Does a change concern one pack at most, and nothing of the exchange as a whole? -/
structure Contained (uuid? : Option Uuid) (f f' : Fetch) : Prop where
  rules : f'.rules = f.rules
  stage : f'.stage = f.stage
  remaining : f'.remaining = f.remaining
  resolved : f'.resolved = f.resolved
  ignored : f'.ignored = f.ignored
  consulted : f'.consulted = f.consulted
  cancelled : f'.cancelled = f.cancelled
  pending : ∀ u, uuid? ≠ some u → f'.pending u = f.pending u
  active : ∀ u, uuid? ≠ some u → f'.active u = f.active u
  workers : ∀ u, uuid? ≠ some u → f'.workers u = f.workers u

theorem exists_of_pending {f : Fetch} {uuid : Uuid} (h : f.pending uuid ≠ none) :
    ∃ w ∈ f.wanted, w.id.uuid = uuid := by
  obtain ⟨w, hw⟩ := Option.ne_none_iff_exists'.mp h
  exact ⟨w, List.mem_of_find?_eq_some hw, by simpa using List.find?_some hw⟩

theorem pending_of_mem {f : Fetch} {w : Wanted} (hw : w ∈ f.wanted) :
    f.pending w.id.uuid ≠ none := by
  intro hnone
  have hne := List.find?_eq_none.mp hnone w hw
  exact hne (beq_self_eq_true _)

theorem exists_of_active {f : Fetch} {uuid : Uuid} (h : f.active uuid ≠ none) :
    ∃ d ∈ f.downloads, d.id.uuid = uuid := by
  obtain ⟨d, hd⟩ := Option.ne_none_iff_exists'.mp h
  have htakes : takes uuid d = true := List.find?_some hd
  exact ⟨d, List.mem_of_find?_eq_some hd, (takes_iff.mp htakes).2⟩

theorem active_of_mem {f : Fetch} {d : Download} (hd : d ∈ f.downloads)
    (haccepting : d.accepting = true) : f.active d.id.uuid ≠ none := by
  intro hnone
  exact List.find?_eq_none.mp hnone d hd (takes_iff.mpr ⟨haccepting, rfl⟩)

theorem takes_eq_false {uuid : Uuid} {d : Download} (hne : d.id.uuid ≠ uuid) :
    takes uuid d = false := by
  rw [takes, beq_eq_false_iff_ne.mpr hne, Bool.and_false]

/-! ### What a bad packet may change -/

/-- Another state of one element is not seen by a filter that keeps neither. -/
theorem filter_set_of_neg {α : Type} {q : α → Bool} {xs : List α} {k : Nat} {x y : α}
    (hk : xs[k]? = some x) (hx : q x = false) (hy : q y = false) :
    (xs.set k y).filter q = xs.filter q := by
  induction xs generalizing k with
  | nil => cases hk
  | cons z zs ih =>
    cases k with
    | zero =>
      cases hk
      rw [List.set_cons_zero, List.filter_cons_of_neg (by rw [hy]; exact Bool.false_ne_true),
        List.filter_cons_of_neg (by rw [hx]; exact Bool.false_ne_true)]
    | succ k =>
      have htail := ih (k := k) hk
      rw [List.set_cons_succ, List.filter_cons, List.filter_cons, htail]

/-- What an announcement or a chunk may change with which something is wrong. -/
inductive Refused (f : Fetch) (p : Packet) : Fetch → Prop
  | unchanged : Refused f p f
  | spoiled {w : Wanted} (hw : w ∈ f.wanted) (hpack : p.pack? = some w.id.uuid) :
      Refused f p { f with wanted := f.wanted.filter (·.id.uuid != w.id.uuid) }
  | closed {k : Nat} {d : Download} (hk : f.downloads[k]? = some d)
      (hpack : p.pack? = some d.id.uuid) (haccepting : d.accepting = true) :
      Refused f p (f.replace k d.close)

theorem refused_take {f : Fetch} (hnodup : (f.downloads.map (·.id.uuid)).Nodup) {p : Packet}
    (hp : p.transfers = true) {e : TransferError} (hfault : (f.take p).2.2 = some e) :
    f.Refused p (f.take p).1 := by
  obtain ⟨a, rfl⟩ | ⟨c, rfl⟩ := Packet.eq_of_transfers hp
  · have hannounced := f.announced_takeAnnouncement a
    rw [take] at hfault ⊢
    revert hannounced hfault
    generalize f.takeAnnouncement a = r
    intro hfault hannounced
    cases hannounced with
    | refused e => exact .unchanged
    | spoiled hw huuid e => exact .spoiled hw huuid
    | started hw huuid hchunk hsize => cases hfault
  · have hreceived := received_takeChunk (separate_of_nodup hnodup) c
    rw [take] at hfault ⊢
    revert hreceived hfault
    generalize f.takeChunk c = r
    intro hfault hreceived
    cases hreceived with
    | refused e => exact .unchanged
    | closed hk huuid haccepting e => exact .closed hk huuid haccepting
    | stored hk huuid haccepting hfault' => cases hfault

theorem sent_of_transfers {f : Fetch} {p : Packet} (hp : p.transfers = true) :
    (f.take p).2.1 = [] := by
  obtain ⟨a, rfl⟩ | ⟨c, rfl⟩ := Packet.eq_of_transfers hp
  · rfl
  · rfl

variable {f f' : Fetch} {p : Packet}

/-- **It concerns the named pack only.** -/
theorem Refused.only_named (h : f.Refused p f') : Contained p.pack? f f' := by
  cases h with
  | unchanged =>
    exact ⟨rfl, rfl, rfl, rfl, rfl, rfl, rfl, fun _ _ => rfl, fun _ _ => rfl, fun _ _ => rfl⟩
  | @spoiled w hw hpack =>
    refine ⟨rfl, rfl, rfl, rfl, rfl, rfl, rfl, ?_, fun _ _ => rfl, fun _ _ => rfl⟩
    intro u hu
    rw [hpack, Option.some_inj.ne] at hu
    rw [pending, pending, List.find?_filter]
    congr 1
    funext v
    by_cases hv : v.id.uuid = u
    · simp [hv, Ne.symm hu]
    · simp [hv]
  | @closed k d hk hpack haccepting =>
    refine ⟨rfl, rfl, rfl, rfl, rfl, rfl, rfl, fun _ _ => rfl, ?_, ?_⟩
    · intro u hu
      rw [hpack, Option.some_inj.ne] at hu
      show (f.downloads.set k d.close).find? _ = f.downloads.find? _
      rw [← List.head?_filter, ← List.head?_filter,
        filter_set_of_neg hk (takes_eq_false hu) (takes_eq_false (d := d.close) hu)]
    · intro u hu
      rw [hpack, Option.some_inj.ne] at hu
      have hne : (d.id.uuid == u) = false := beq_eq_false_iff_ne.mpr hu
      exact filter_set_of_neg hk hne hne

/-- If the client has nothing for the named pack, nothing changes at all. -/
theorem Refused.eq_self (h : f.Refused p f')
    (hnothing : ∀ u, p.pack? = some u → f.pending u = none ∧ f.active u = none) : f' = f := by
  cases h with
  | unchanged => rfl
  | spoiled hw hpack => exact absurd (hnothing _ hpack).1 (pending_of_mem hw)
  | closed hk hpack haccepting =>
    exact absurd (hnothing _ hpack).2 (active_of_mem (List.mem_of_getElem? hk) haccepting)

theorem Refused.next (h : f.Refused p f') : f.Next f' := by
  cases h with
  | unchanged => exact .keeps rfl rfl rfl rfl
  | spoiled hw hpack => exact .spoils _
  | closed hk hpack haccepting => exact .moves hk .closes

/-- **What was removed is abandoned.** -/
theorem Refused.abandoned {ws : List Wanted} (h : f.Refused p f') (hledger : f.Ledger ws)
    (horderly : f.Orderly) {uuid : Uuid} (hpack : p.pack? = some uuid)
    (hbefore : f.pending uuid ≠ none ∨ f.active uuid ≠ none)
    (hafter : f'.pending uuid = none ∧ f'.active uuid = none) : f'.Abandoned uuid := by
  have hdisjoint : ∀ w ∈ f.wanted, ∀ d ∈ f.downloads, w.id.uuid ≠ d.id.uuid := fun w hw d hd =>
    (List.nodup_append.mp hledger.distinct).2.2 _ (List.mem_map_of_mem hw) _
      (List.mem_map_of_mem hd)
  cases h with
  | unchanged => exact (hbefore.elim (fun hne => hne hafter.1) fun hne => hne hafter.2).elim
  | @spoiled w hw hpack' =>
    obtain rfl : w.id.uuid = uuid := Option.some.inj (hpack'.symm.trans hpack)
    refine ⟨fun v hv => ?_, fun d hd huuid => absurd huuid.symm (hdisjoint w hw d hd)⟩
    exact bne_iff_ne.mp (List.mem_filter.mp hv).2
  | @closed k d hk hpack' haccepting =>
    obtain rfl : d.id.uuid = uuid := Option.some.inj (hpack'.symm.trans hpack)
    have hd : d ∈ f.downloads := List.mem_of_getElem? hk
    refine ⟨fun w hw => hdisjoint w hw d hd, fun e he huuid => ?_⟩
    rcases mem_set_or he with rfl | ⟨j, hjk, hj⟩
    · exact (horderly.paced d hd).lost_close haccepting
    · have hnodup := (List.nodup_append.mp hledger.distinct).2.1
      exact absurd (place_unique hnodup hj hk huuid) hjk

end Fetch

/-- An archive is made under the identity that it is asked for. -/
theorem Archive.id_of_unpack {id : PackId} {data : Bytes} {p : Pack}
    (h : Archive.unpack id data = .ok p) : p.id = id := by
  rw [unpack] at h
  split at h
  · cases h
  · cases h
    rfl

namespace Course

variable {rules : FetchRules} {k : Catalog} {c : Course} {p : Packet}

theorem Ongoing.handle_transfer (h : c.Ongoing rules k) (hp : p.transfers = true) :
    (c.handle p).Ongoing rules k := by
  obtain ⟨a, rfl⟩ | ⟨chunk, rfl⟩ := Packet.eq_of_transfers hp
  · exact (h.handle_announcement a).1
  · exact (h.handle_chunk chunk).1

/-- No two downloads of a course are of the same pack. -/
theorem nodup_downloads (h : Reachable rules c) :
    (c.fetch.downloads.map (·.id.uuid)).Nodup := by
  rcases invariant h with hfresh | ⟨k, hongoing⟩
  · rw [hfresh.downloads]
    exact List.nodup_nil
  · exact (List.nodup_append.mp hongoing.ledger.distinct).2.1

/-- A pack that the client has something for is one that it has chosen from the catalog. -/
theorem exists_wanted (h : Reachable rules c) {uuid : Uuid}
    (hsome : c.fetch.pending uuid ≠ none ∨ c.fetch.active uuid ≠ none) :
    ∃ k, c.Ongoing rules k ∧
      ∃ w ∈ (Selection.ofCatalog rules.filter k.packs).wanted, w.id.uuid = uuid := by
  rcases invariant h with hfresh | ⟨k, hongoing⟩
  · rcases hsome with hpending | hactive
    · obtain ⟨w, hw, -⟩ := Fetch.exists_of_pending hpending
      rw [hfresh.wanted] at hw
      cases hw
    · obtain ⟨d, hd, -⟩ := Fetch.exists_of_active hactive
      rw [hfresh.downloads] at hd
      cases hd
  · refine ⟨k, hongoing, ?_⟩
    rcases hsome with hpending | hactive
    · obtain ⟨w, hw, rfl⟩ := Fetch.exists_of_pending hpending
      exact ⟨w, hongoing.ledger.wanted w hw, rfl⟩
    · obtain ⟨d, hd, rfl⟩ := Fetch.exists_of_active hactive
      obtain ⟨w, hw, hid, -⟩ := hongoing.ledger.downloads d hd
      exact ⟨w, hw, by rw [hid]⟩

/-- **A bad packet hurts its own pack only.**  Wherever a course comes to, an announcement or a
chunk with which something is wrong has nothing sent, and changes nothing but what the client has
for the pack that it names; it changes nothing at all if the client has neither an entry nor an
active download for it.  If it takes away what the client has for the pack, every course goes on
without the pack: it is never resolved and missing for ever, and the stage in which packs are
downloaded does not end. -/
theorem contained (h : Reachable rules c) (hp : p.transfers = true) {e : TransferError}
    (hfault : (c.fetch.take p).2.2 = some e) :
    (c.handle p).sent = c.sent ∧ Fetch.Contained p.pack? c.fetch (c.handle p).fetch ∧
      ((∀ u, p.pack? = some u → c.fetch.pending u = none ∧ c.fetch.active u = none) →
        (c.handle p).fetch = c.fetch) ∧
      ∀ u, p.pack? = some u → (c.fetch.pending u ≠ none ∨ c.fetch.active u ≠ none) →
        ((c.handle p).fetch.pending u = none ∧ (c.handle p).fetch.active u = none) →
        ∃ k, Handled.catalogs (c.handle p).handled = [k] ∧
          ∀ c', Relation.ReflTransGen Step (c.handle p) c' → c'.Lacks rules k u ∧
            ((∀ id data q, rules.unpack id data = .ok q → q.id = id) →
              ∀ q ∈ c'.fetch.resolved, q.id.uuid ≠ u) := by
  have hrefused : c.fetch.Refused p (c.handle p).fetch :=
    Fetch.refused_take (nodup_downloads h) hp hfault
  refine ⟨?_, hrefused.only_named, hrefused.eq_self, ?_⟩
  · show c.sent ++ (c.fetch.take p).2.1 = c.sent
    rw [Fetch.sent_of_transfers hp, List.append_nil]
  · intro u hpack hbefore hafter
    obtain ⟨k, hongoing, hwanted⟩ := exists_wanted h hbefore
    have horderly := orderly h
    have hgoing := hongoing.handle_transfer hp
    have habandoned := hrefused.abandoned hongoing.ledger horderly hpack hbefore hafter
    refine ⟨k, hgoing.catalogs, fun c' hsteps => ?_⟩
    have hlacks :=
      hgoing.lacks_of_steps (hrefused.next.orderly horderly) habandoned hwanted hsteps
    exact ⟨hlacks, hlacks.uuid_ne⟩

/-- A course in which the first chunk of a pack has come and waits in the slot. -/
def exampleHalf : Course :=
  let name := "00000000-0000-0000-0000-000000000001"
  let entries : List CatalogEntry := [{ uuid := ⟨0, 1⟩, size := 2 }, { uuid := ⟨0, 2⟩, size := 9 }]
  let c := (start {}).handle (.networkSettings {})
  let c := c.handle (.catalog { packs := entries })
  let c := c.handle (.packData { uuid := name, chunkSize := 1, size := 2 })
  let c := c.work 0 false
  c.handle (.chunkData { uuid := name, data := [7] })

/-- A chunk that comes too early costs the pack, and the course goes on without it. -/
theorem contained_exampleHalf :
    ∃ (p : Packet) (e : TransferError) (k : Catalog),
      (exampleHalf.fetch.take p).2.2 = some e ∧ p.pack? = some ⟨0, 1⟩ ∧
      exampleHalf.fetch.active ⟨0, 1⟩ ≠ none ∧ (exampleHalf.handle p).sent = exampleHalf.sent ∧
      Handled.catalogs (exampleHalf.handle p).handled = [k] ∧
      ∀ c', Relation.ReflTransGen Step (exampleHalf.handle p) c' →
        c'.Lacks {} k ⟨0, 1⟩ ∧ ∀ q ∈ c'.fetch.resolved, q.id.uuid ≠ ⟨0, 1⟩ := by
  have hreachable : Reachable {} exampleHalf := by
    refine Reachable.pass ?_ rfl (by decide +kernel)
    refine Relation.ReflTransGen.tail ?_ (.work _ 0 false)
    refine Reachable.pass ?_ rfl (by decide +kernel)
    refine Reachable.pass ?_ rfl (by decide +kernel)
    exact Reachable.pass .refl rfl (by decide +kernel)
  let p : Packet := .chunkData
    { uuid := "00000000-0000-0000-0000-000000000001", index := 2, data := [7] }
  have hfault : (exampleHalf.fetch.take p).2.2 = some (.chunkIndexMismatch ⟨0, 1⟩ 1 2) := by
    decide +kernel
  have hpack : p.pack? = some ⟨0, 1⟩ := by decide +kernel
  have hactive : exampleHalf.fetch.active ⟨0, 1⟩ ≠ none := by decide +kernel
  obtain ⟨hsent, -, -, hlacks⟩ := contained hreachable rfl hfault
  obtain ⟨k, hcatalogs, hwithout⟩ := hlacks _ hpack (Or.inr hactive)
    ⟨by decide +kernel, by decide +kernel⟩
  refine ⟨p, _, k, hfault, hpack, hactive, hsent, hcatalogs, fun c' hsteps => ?_⟩
  exact ⟨(hwithout c' hsteps).1, (hwithout c' hsteps).2 fun _ _ _ hq => Archive.id_of_unpack hq⟩

end Course

end PackExchange
