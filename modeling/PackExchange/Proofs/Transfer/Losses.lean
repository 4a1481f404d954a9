import PackExchange.Proofs.Transfer.Balance
import PackExchange.Proofs.Transfer.Pace

/-!
# Packs that are lost

A download that was closed early may still have a chunk in its slot, and its worker may not even
have started.  It goes on and comes to nothing: a worker finishes with a pack only if all chunks
have been accepted.  So a pack that was given up stays missing.

* `Fetch.Next` — what one step makes of the lists of a client's side, and `Course.Ongoing.next`;
* `Fetch.Orderly` — resolved packs come from complete downloads, and `Course.orderly`;
* `Fetch.Abandoned` — a pack that nothing can bring any more, and `Fetch.Next.abandoned`;
* `Course.Lacks` — what it means for a course to go on without a pack;
* `Course.lacks` — so does every course that has abandoned one.
-/

namespace PackExchange

namespace Fetch

/-! ### One step -/

/-- What one step after the catalog makes of the lists of a client's side. -/
inductive Next (f : Fetch) : Fetch → Prop
  | keeps {f' : Fetch} (hrules : f'.rules = f.rules) (hwanted : f'.wanted = f.wanted)
      (hdownloads : f'.downloads = f.downloads) (hresolved : f'.resolved = f.resolved) : Next f f'
  | spoils (uuid : Uuid) : Next f { f with wanted := f.wanted.filter (·.id.uuid != uuid) }
  | starts {w : Wanted} {a : PackData} (hw : w ∈ f.wanted) (hsize : a.size ≠ 0) :
      Next f
        { f with
          wanted := f.wanted.filter (·.id.uuid != w.id.uuid)
          downloads := f.downloads ++ [Download.announced w.id w.contentKey a] }
  | moves {k : Nat} {d d' : Download} (hk : f.downloads[k]? = some d) (hmoves : d.Moves d') :
      Next f (f.replace k d')
  | delivers {f' : Fetch} {k : Nat} {d : Download} {i : UInt32} {p : Pack}
      (hk : f.downloads[k]? = some d) (hworker : d.worker = .ready i) (hlast : ¬ i < d.chunkCount)
      (hyields : d.Yields f.rules.unpack p) (hrules : f'.rules = f.rules)
      (hwanted : f'.wanted = f.wanted)
      (hdownloads : f'.downloads = (f.replace k { d with worker := .ended }).downloads)
      (hresolved : f'.resolved = f.resolved ++ [p]) : Next f f'

theorem Announced.next {f : Fetch} {a : PackData} {r : Fetch × Option TransferError}
    (h : f.Announced a r) : f.Next r.1 := by
  cases h with
  | refused e => exact .keeps rfl rfl rfl rfl
  | spoiled hw huuid e => exact .spoils _
  | started hw huuid hchunk hsize => exact .starts hw hsize

theorem Received.next {f : Fetch} {c : ChunkData} {r : Fetch × Option TransferError}
    (h : f.Received c r) : f.Next r.1 := by
  cases h with
  | refused e => exact .keeps rfl rfl rfl rfl
  | closed hk huuid haccepting e => exact .moves hk .closes
  | stored hk huuid haccepting hfault => exact .moves hk (.accepts haccepting hfault)

theorem Worked.next {f : Fetch} {r : Fetch × List Packet} (h : f.Worked r) : f.Next r.1 := by
  cases h with
  | idle => exact .keeps rfl rfl rfl rfl
  | quits hk hworker => exact .moves hk (.wakes (.quits hworker))
  | asks hk hworker hmore => exact .moves hk (.wakes (.asks hworker hmore))
  | takes hk hworker hslot => exact .moves hk (.wakes (.takes hworker hslot))
  | delivers hk hworker hlast hyields =>
    rw [countOff]
    split
    · exact .delivers hk hworker hlast hyields rfl rfl rfl rfl
    · exact .delivers hk hworker hlast hyields rfl rfl rfl rfl
    · exact .delivers hk hworker hlast hyields rfl rfl rfl rfl

/-- So does every packet but a catalog, in any stage. -/
theorem next_take {f : Fetch} (hseparate : Separate f.downloads) {p : Packet}
    (hp : ∀ k, p ≠ .catalog k) : f.Next (f.take p).1 := by
  cases p with
  | unknown id bytes => exact .keeps rfl rfl rfl rfl
  | known kind body =>
    cases kind with
    | catalog => exact absurd rfl (hp body)
    | packData => exact (f.announced_takeAnnouncement body).next
    | chunkData => exact (received_takeChunk hseparate body).next
    | stack =>
      rw [take]
      cases hstack : f.takeStack body with
      | error e => exact .keeps rfl rfl rfl rfl
      | ok r =>
        rw [takeStack] at hstack
        split at hstack
        · cases hstack
        · cases hstack
          exact .keeps rfl rfl rfl rfl
    | networkSettings =>
      rw [take, takeSettings]
      split
      · exact .keeps rfl rfl rfl rfl
      · exact .keeps rfl rfl rfl rfl
    | _ => exact .keeps rfl rfl rfl rfl

/-! ### Resolved packs come from complete downloads -/

/-- Do both sides of every download keep the pace, and does every resolved pack come from a complete
download? -/
structure Orderly (f : Fetch) : Prop where
  paced : ∀ d ∈ f.downloads, d.Paced
  complete : ∃ ks, f.Origins ks ∧ ∀ k ∈ ks, ∀ d, f.downloads[k]? = some d → d.Complete

theorem orderly_of_nil {f : Fetch} (hdownloads : f.downloads = []) (hresolved : f.resolved = []) :
    f.Orderly := by
  refine ⟨?_, [], ⟨List.nodup_nil, ?_⟩, fun _ hk => nomatch hk⟩
  · rw [hdownloads]
    exact fun _ hd => nomatch hd
  · rw [hresolved]
    exact .nil

theorem Orderly.moves {f : Fetch} (h : f.Orderly) {k : Nat} {d d' : Download}
    (hk : f.downloads[k]? = some d) (hmoves : d.Moves d') : (f.replace k d').Orderly := by
  obtain ⟨ks, horigins, hcomplete⟩ := h.complete
  refine ⟨?_, ks, horigins.of_leads rfl rfl (leads_replace hk hmoves.leads), ?_⟩
  · intro e he
    rcases List.mem_or_eq_of_mem_set he with he | rfl
    · exact h.paced e he
    · exact hmoves.paced (h.paced d (List.mem_of_getElem? hk))
  · intro j hj e he
    rcases getElem?_set_or he with ⟨rfl, rfl⟩ | ⟨-, he⟩
    · exact hmoves.complete (hcomplete j hj d hk)
    · exact hcomplete j hj e he

/-- **One step keeps order.** -/
theorem Next.orderly {f f' : Fetch} (hnext : f.Next f') (h : f.Orderly) : f'.Orderly := by
  obtain ⟨ks, horigins, hcomplete⟩ := h.complete
  cases hnext with
  | keeps hrules hwanted hdownloads hresolved =>
    refine ⟨?_, ks, horigins.of_leads hrules hresolved fun k d hk => ⟨d, ?_, .refl d⟩, ?_⟩
    · rw [hdownloads]
      exact h.paced
    · rw [hdownloads, hk]
    · rw [hdownloads]
      exact hcomplete
  | spoils uuid =>
    exact ⟨h.paced, ks, horigins.of_leads rfl rfl fun k d hk => ⟨d, hk, .refl d⟩, hcomplete⟩
  | @starts w a hw hsize =>
    have hold : ∀ {k : Nat} {d : Download}, f.downloads[k]? = some d →
        (f.downloads ++ [Download.announced w.id w.contentKey a])[k]? = some d := by
      intro k d hk
      rw [List.getElem?_append_left (List.getElem?_eq_some_iff.mp hk).1, hk]
    refine ⟨?_, ks, horigins.of_leads rfl rfl fun k d hk => ⟨d, hold hk, .refl d⟩, ?_⟩
    · intro d hd
      rcases List.mem_append.mp hd with hd | hd
      · exact h.paced d hd
      · rw [List.mem_singleton] at hd
        subst hd
        exact Download.paced_announced _ _ hsize
    · intro k hk d hd
      obtain ⟨e, he, -⟩ := horigins.lt_length hk
      obtain rfl : e = d := Option.some.inj ((hold he).symm.trans hd)
      exact hcomplete k hk e he
  | moves hk hmoves => exact h.moves hk hmoves
  | @delivers _ k d i p hk hworker hlast hyields hrules hwanted hdownloads hresolved =>
    have hne : d.worker ≠ .ended := by rw [hworker]; exact nofun
    have hmoved := h.moves hk (.wakes (.quits hne))
    have hdone : d.Complete :=
      (h.paced d (List.mem_of_getElem? hk)).complete hworker hlast hyields.size
    refine ⟨?_, ks ++ [k], horigins.deliver hk hne hyields hrules hdownloads hresolved, ?_⟩
    · rw [hdownloads]
      exact hmoved.paced
    · rw [hdownloads]
      intro j hj e he
      rcases getElem?_set_or he with ⟨-, rfl⟩ | ⟨hjk, he⟩
      · exact hdone
      · refine hcomplete j ?_ e he
        exact (List.mem_append.mp hj).resolve_right fun hmem => hjk (List.mem_singleton.mp hmem)

/-! ### What nothing brings any more -/

/-- Is the pack one that can not be announced any more and whose downloads are lost? -/
structure Abandoned (uuid : Uuid) (f : Fetch) : Prop where
  wanted : ∀ w ∈ f.wanted, w.id.uuid ≠ uuid
  downloads : ∀ d ∈ f.downloads, d.id.uuid = uuid → d.Lost

theorem Abandoned.moves {uuid : Uuid} {f : Fetch} (h : f.Abandoned uuid) {k : Nat}
    {d d' : Download} (hk : f.downloads[k]? = some d) (hmoves : d.Moves d') :
    (f.replace k d').Abandoned uuid := by
  refine ⟨h.wanted, fun e he huuid => ?_⟩
  rcases List.mem_or_eq_of_mem_set he with he | rfl
  · exact h.downloads e he huuid
  · rw [hmoves.leads.id] at huuid
    exact hmoves.lost (h.downloads d (List.mem_of_getElem? hk) huuid)

/-- **What was abandoned stays so.** -/
theorem Next.abandoned {uuid : Uuid} {f f' : Fetch} (hnext : f.Next f') (h : f.Abandoned uuid) :
    f'.Abandoned uuid := by
  cases hnext with
  | keeps hrules hwanted hdownloads hresolved =>
    refine ⟨?_, ?_⟩
    · rw [hwanted]
      exact h.wanted
    · rw [hdownloads]
      exact h.downloads
  | spoils u => exact ⟨fun w hw => h.wanted w (List.mem_of_mem_filter hw), h.downloads⟩
  | starts hw hsize =>
    refine ⟨fun v hv => h.wanted v (List.mem_of_mem_filter hv), fun d hd huuid => ?_⟩
    rcases List.mem_append.mp hd with hd | hd
    · exact h.downloads d hd huuid
    · rw [List.mem_singleton] at hd
      subst hd
      exact absurd huuid (h.wanted _ hw)
  | moves hk hmoves => exact h.moves hk hmoves
  | @delivers _ k d i p hk hworker hlast hyields hrules hwanted hdownloads hresolved =>
    have hne : d.worker ≠ .ended := by rw [hworker]; exact nofun
    have hmoved := h.moves hk (.wakes (.quits hne))
    refine ⟨?_, ?_⟩
    · rw [hwanted]
      exact h.wanted
    · rw [hdownloads]
      exact hmoved.downloads

end Fetch

namespace Course

variable {rules : FetchRules} {k : Catalog} {c c' : Course}

/-! ### Along a course -/

/-- **One step after the catalog.** -/
theorem Ongoing.next (h : c.Ongoing rules k) (hstep : Step c c') : c.fetch.Next c'.fetch := by
  cases hstep with
  | hold hheld hadmits => exact .keeps rfl rfl rfl rfl
  | cancel => exact .keeps rfl rfl rfl rfl
  | work i slotFirst => exact (c.fetch.worked_work i slotFirst).next
  | handle hheld =>
    refine Fetch.next_take h.ledger.separate fun k' hk' => ?_
    rw [hk'] at hheld
    exact h.held_catalog k' hheld

theorem Fresh.orderly_step (h : c.Fresh rules) (hstep : Step c c') : c'.fetch.Orderly := by
  cases hstep with
  | hold hheld hadmits => exact Fetch.orderly_of_nil h.downloads h.resolved
  | cancel => exact Fetch.orderly_of_nil h.downloads h.resolved
  | work i slotFirst =>
    rw [h.work_eq]
    exact Fetch.orderly_of_nil h.downloads h.resolved
  | @handle p hheld =>
    rcases h.held p hheld with hp | ⟨k, rfl⟩
    · have hfresh := (h.handle_preliminary hp).1
      exact Fetch.orderly_of_nil hfresh.downloads hfresh.resolved
    · exact Fetch.orderly_of_nil (h.downloads_catalog k) (h.resolved_catalog k)

/-- **Every course keeps order.** -/
theorem orderly (h : Reachable rules c) : c.fetch.Orderly := by
  have hboth : (c.Fresh rules ∨ ∃ k, c.Ongoing rules k) ∧ c.fetch.Orderly := by
    refine h.invariant
      (P := fun c => (c.Fresh rules ∨ ∃ k, c.Ongoing rules k) ∧ c.fetch.Orderly) ?_ ?_
    · exact ⟨Or.inl (fresh_start rules), Fetch.orderly_of_nil rfl rfl⟩
    · rintro c c' ⟨hfresh | ⟨k, hongoing⟩, horderly⟩ hstep
      · exact ⟨(hfresh.step hstep).1, hfresh.orderly_step hstep⟩
      · exact ⟨Or.inr ⟨k, (hongoing.step hstep).1⟩, (hongoing.next hstep).orderly horderly⟩
  exact hboth.2

/-! ### Without a pack -/

/-- Does the course go on without a pack?  It still downloads, has not said that all packs are
there, and the packs that it has resolved stand for other entries of the catalog. -/
structure Lacks (rules : FetchRules) (k : Catalog) (uuid : Uuid) (c : Course) : Prop where
  stage : c.fetch.stage = .downloading
  remaining : c.fetch.remaining ≠ 0
  sent : Answer.allPacksDownloaded.count c.sent = 0
  resolved : ∃ places : List Nat, places.Nodup ∧
    List.Forall₂ (fun i p => ∃ e, k.packs[i]? = some e ∧ e.uuid ≠ uuid ∧
      e.wanted.Yields rules.unpack p) places c.fetch.resolved

/-- If packs are made under the identity that they are asked for, none of the resolved ones has that
of the pack that is lacking. -/
theorem Lacks.uuid_ne {uuid : Uuid} (h : c.Lacks rules k uuid)
    (hunpack : ∀ id data q, rules.unpack id data = .ok q → q.id = id) :
    ∀ p ∈ c.fetch.resolved, p.id.uuid ≠ uuid := by
  obtain ⟨places, -, hresolved⟩ := h.resolved
  intro p hp
  have hflipped := List.Forall₂.flip (R := flip _) hresolved
  obtain ⟨i, e, -, hne, data, q, hq, rfl⟩ := Fetch.exists_of_forall₂ hflipped p hp
  show q.id.uuid ≠ uuid
  rw [hunpack _ _ _ hq]
  exact hne

/-- A course that has abandoned a wanted pack goes on without it. -/
theorem Ongoing.lacks (h : c.Ongoing rules k) (horderly : c.fetch.Orderly) {uuid : Uuid}
    (habandoned : c.fetch.Abandoned uuid)
    (hwanted : ∃ w ∈ (Selection.ofCatalog rules.filter k.packs).wanted, w.id.uuid = uuid) :
    c.Lacks rules k uuid := by
  obtain ⟨places, hascending, hmem, hplaces⟩ := Selection.wanted_ofCatalog rules.filter k.packs
  obtain ⟨ks, horigins, hcomplete⟩ := horderly.complete
  obtain ⟨got, missing, hperm, hmissing, hgot⟩ :=
    h.resolved horigins (fun i => (hmem i).mp) hplaces
  have hothers : List.Forall₂ (fun i p => ∃ e, k.packs[i]? = some e ∧ e.uuid ≠ uuid ∧
      e.wanted.Yields rules.unpack p) got c.fetch.resolved := by
    refine hgot.imp ?_
    rintro i p ⟨e, he, hyields, j, hj, d, hd, hid⟩
    refine ⟨e, he, fun huuid => ?_, hyields⟩
    have hlost := habandoned.downloads d (List.mem_of_getElem? hd) (by rw [← hid]; exact huuid)
    exact hlost.not_complete (hcomplete j hj d hd)
  have hremaining : c.fetch.remaining ≠ 0 := by
    intro hzero
    -- the place of the pack is that of a missing one
    rw [hplaces] at hwanted
    obtain ⟨w, hw, hid⟩ := hwanted
    obtain ⟨i, hi, rfl⟩ := List.mem_map.mp hw
    rw [hzero, List.length_eq_zero_iff] at hmissing
    rw [hmissing, List.append_nil] at hperm
    obtain ⟨p, e, he, hne, -⟩ := Fetch.exists_of_forall₂ hothers i (hperm.mem_iff.mpr hi)
    rw [Catalog.getD_eq he] at hid
    exact hne hid
  refine ⟨?_, hremaining, ?_, got, ?_, hothers⟩
  · rcases h.ledger.stage with ⟨hstage, -⟩ | ⟨-, hzero⟩
    · exact hstage
    · exact absurd hzero hremaining
  · rw [h.finished, if_neg hremaining]
  · have hnodup : (got ++ missing).Nodup := hperm.nodup_iff.mpr (hascending.imp Nat.ne_of_lt)
    exact (List.nodup_append.mp hnodup).1

/-- **A pack that was abandoned stays missing**, however the course goes on. -/
theorem Ongoing.lacks_of_steps (h : c.Ongoing rules k) (horderly : c.fetch.Orderly) {uuid : Uuid}
    (habandoned : c.fetch.Abandoned uuid)
    (hwanted : ∃ w ∈ (Selection.ofCatalog rules.filter k.packs).wanted, w.id.uuid = uuid)
    (hsteps : Relation.ReflTransGen Step c c') : c'.Lacks rules k uuid := by
  have hkept : c'.Ongoing rules k ∧ c'.fetch.Orderly ∧ c'.fetch.Abandoned uuid := by
    induction hsteps with
    | refl => exact ⟨h, horderly, habandoned⟩
    | tail _ hlast ih =>
      obtain ⟨hongoing, horderly', habandoned'⟩ := ih
      have hnext := hongoing.next hlast
      exact ⟨(hongoing.step hlast).1, hnext.orderly horderly', hnext.abandoned habandoned'⟩
  exact hkept.1.lacks hkept.2.1 hkept.2.2 hwanted

end Course

end PackExchange
