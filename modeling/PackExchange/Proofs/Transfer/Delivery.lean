import PackExchange.Proofs.Transfer.Balance
import PackExchange.Proofs.Transfer.Chunks

/-!
# What resolved packs are made of

Along a whole course every download keeps to what was accepted for its pack, and a pack that was
never announced has no accepted chunks.  So a resolved pack is what the server has sent.

* `Course.Sized` — no handled chunk is longer than a packet can say;
* `Course.Traced` — how a course stands to its past, and `Course.Traced.step`;
* `Handled.Delivers` — some bytes are those of an announced pack, by what was handled;
* `Handled.AccountFor` — some packs are those that were wanted, by what was handled;
* `Course.delivered` — what a finished course has resolved is accounted for.
-/

namespace PackExchange

namespace Handled

/-! ### The lists of what was accepted -/

theorem announcements_append (uuid : Uuid) (hs : List Handled) (h : Handled) :
    announcements uuid (hs ++ [h]) = announcements uuid hs ++ announcements uuid [h] :=
  List.filterMap_append

theorem chunks_append (uuid : Uuid) (hs : List Handled) (h : Handled) :
    chunks uuid (hs ++ [h]) = chunks uuid hs ++ chunks uuid [h] :=
  List.filterMap_append

theorem stacks_append (hs : List Handled) (h : Handled) :
    loadOrders (hs ++ [h]) = loadOrders hs ++ loadOrders [h] :=
  List.filterMap_append

theorem announcements_accepted (uuid : Uuid) (a : PackData) :
    announcements uuid [⟨.packData a, none⟩] =
      if PackId.uuidOf? a.uuid = some uuid then [a] else [] := by
  show List.filterMap _ _ = _
  rw [List.filterMap_cons]
  by_cases h : PackId.uuidOf? a.uuid = some uuid
  · simp only [h, if_true, List.filterMap_nil]
  · simp only [h, if_false, List.filterMap_nil]

theorem chunks_accepted (uuid : Uuid) (c : ChunkData) :
    chunks uuid [⟨.chunkData c, none⟩] =
      if PackId.uuidOf? c.uuid = some uuid then [c] else [] := by
  show List.filterMap _ _ = _
  rw [List.filterMap_cons]
  by_cases h : PackId.uuidOf? c.uuid = some uuid
  · simp only [h, if_true, List.filterMap_nil]
  · simp only [h, if_false, List.filterMap_nil]

/-- Does the packet neither announce a pack, nor carry a chunk, nor give a load order? -/
def Plain (p : Packet) : Prop :=
  p.kind? ≠ some .packData ∧ p.kind? ≠ some .chunkData ∧ p.kind? ≠ some .stack

theorem Plain.lists {h : Handled} (hp : Plain h.packet) (uuid : Uuid) :
    announcements uuid [h] = [] ∧ chunks uuid [h] = [] ∧ loadOrders [h] = [] := by
  obtain ⟨p, e⟩ := h
  obtain ⟨hannouncement, hchunk, hstack⟩ := hp
  cases p with
  | unknown id bytes => exact ⟨rfl, rfl, rfl⟩
  | known kind body =>
    cases kind with
    | packData => exact absurd rfl hannouncement
    | chunkData => exact absurd rfl hchunk
    | stack => exact absurd rfl hstack
    | _ => exact ⟨rfl, rfl, rfl⟩

theorem plain_unknown (id : UInt32) (bytes : Bytes) : Plain (.unknown id bytes) := by
  simp [Plain, Packet.kind?]

theorem plain_known {kind : Packet.Kind} (body : kind.Body)
    (h : kind ≠ .packData ∧ kind ≠ .chunkData ∧ kind ≠ .stack) : Plain (.known kind body) := by
  simpa [Plain, Packet.kind?] using h

theorem plain_of_preliminary {p : Packet} (hp : p.preliminary = true) : Plain p := by
  cases p with
  | unknown id bytes => exact absurd hp Bool.false_ne_true
  | known kind body =>
    cases kind with
    | disconnect | networkSettings | playStatus => exact plain_known body (by decide)
    | _ => exact absurd hp Bool.false_ne_true

theorem lists_of_preliminary {hs : List Handled}
    (h : ∀ x ∈ hs, x.packet.preliminary = true) (uuid : Uuid) :
    announcements uuid hs = [] ∧ chunks uuid hs = [] ∧ loadOrders hs = [] := by
  induction hs with
  | nil => exact ⟨rfl, rfl, rfl⟩
  | cons x hs ih =>
    obtain ⟨ha, hc, hs'⟩ := (plain_of_preliminary (h x List.mem_cons_self)).lists uuid
    obtain ⟨ha', hc', hs''⟩ := ih fun y hy => h y (List.mem_cons_of_mem x hy)
    have hcons : ∀ {α : Type} (f : Handled → Option α),
        (x :: hs).filterMap f = [x].filterMap f ++ hs.filterMap f := fun f => by
      rw [← List.filterMap_append]
      rfl
    refine ⟨(hcons _).trans ?_, (hcons _).trans ?_, (hcons _).trans ?_⟩
    · exact List.append_eq_nil_iff.mpr ⟨ha, ha'⟩
    · exact List.append_eq_nil_iff.mpr ⟨hc, hc'⟩
    · exact List.append_eq_nil_iff.mpr ⟨hs', hs''⟩

/-- Are these the bytes of the pack in a catalog entry?  Then one announcement of it was accepted,
and chunks without a gap, as many as the announced size needs, that give the bytes. -/
structure Delivers (hs : List Handled) (e : CatalogEntry) (a : PackData) (bytes : Bytes) :
    Prop where
  announced : announcements e.uuid hs = [a]
  indices : (chunks e.uuid hs).map (·.index.toNat) =
    List.range ((a.size.toNat + a.chunkSize.toNat - 1) / a.chunkSize.toNat)
  joined : ((chunks e.uuid hs).map (·.data)).flatten = bytes
  size : bytes.length = a.size.toNat
  hash : a.hash ≠ [] → Sha256.digest bytes = a.hash

/-- Does what was handled account for some packs?  There was one catalog, the packs are its wanted
entries, each once and with its own identity, content key and bytes, and the one load order that
was accepted names nothing else, but for packs that every client has or that the filter has turned
down. -/
def AccountFor (filter : Option DownloadFilter) (hs : List Handled) (packs : List Pack) : Prop :=
  ∃ catalog places, catalogs hs = [catalog] ∧ places.Nodup ∧
    (∀ i, i ∈ places ↔ IsWanted filter catalog.packs i) ∧
    List.Forall₂ (fun i p => ∃ e a bytes, catalog.packs[i]? = some e ∧ Delivers hs e a bytes ∧
      p = Archive.toPack { id := e.id, data := bytes, contentKey := e.contentKey }) places packs ∧
    ∃ s, loadOrders hs = [s] ∧ ∀ entry ∈ s.packs, ∃ uuid, PackId.uuidOf? entry.uuid = some uuid ∧
      (PackId.isExempted ⟨uuid, entry.version⟩ = true ∨
        (∃ i, IsRejected filter catalog.packs i ⟨uuid, entry.version⟩) ∨
        ∃ p ∈ packs, p.id = ⟨uuid, entry.version⟩)

end Handled

/-- Is a chunk no longer than a packet can say? -/
def Packet.Sized : Packet → Prop
  | .chunkData c => c.data.length < 2 ^ 32
  | _ => True

namespace Course

/-- Is no handled chunk longer than a packet can say? -/
def Sized (c : Course) : Prop := ∀ h ∈ c.handled, h.packet.Sized

/-- How a course stands to its past. -/
structure Traced (c : Course) : Prop where
  downloads : ∀ d ∈ c.fetch.downloads, d.Traced c.handled
  others : ∀ uuid, (∀ d ∈ c.fetch.downloads, d.id.uuid ≠ uuid) →
    Handled.announcements uuid c.handled = [] ∧ Handled.chunks uuid c.handled = []
  unloaded : c.fetch.stage ≠ .done → Handled.loadOrders c.handled = []
  loaded : c.fetch.stage = .done → ∃ s, Handled.loadOrders c.handled = [s] ∧
    ∀ e ∈ s.packs, c.fetch.holds e = true

variable {rules : FetchRules} {k : Catalog} {c c' : Course}

theorem Fresh.traced (h : c.Fresh rules) : c.Traced := by
  have hlists := Handled.lists_of_preliminary h.handled
  refine ⟨?_, fun uuid _ => ⟨(hlists uuid).1, (hlists uuid).2.1⟩, ?_, ?_⟩
  · rw [h.downloads]
    exact fun _ hd => nomatch hd
  · exact fun _ => (hlists .nil).2.2
  · intro hdone
    rcases h.stage with hstage | hstage <;> rw [hstage] at hdone <;> cases hdone

/-- The catalog starts no download. -/
theorem Fresh.traced_catalog (h : c.Fresh rules) (k : Catalog) :
    (c.handle (.catalog k)).Traced := by
  have hlists := Handled.lists_of_preliminary h.handled
  have hfetch : (c.handle (.catalog k)).fetch = (c.fetch.takeCatalog k).1 := rfl
  rw [Fetch.takeCatalog_eq] at hfetch
  have hplain : Handled.Plain (.catalog k) := Handled.plain_known k (by decide)
  have happend := fun uuid => Handled.Plain.lists (h := ⟨.catalog k, none⟩) hplain uuid
  refine ⟨?_, fun uuid _ => ⟨?_, ?_⟩, fun _ => ?_, fun hdone => ?_⟩
  · rw [h.downloads_catalog k]
    exact fun _ hd => nomatch hd
  · show Handled.announcements uuid (c.handled ++ [⟨.catalog k, none⟩]) = []
    rw [Handled.announcements_append, (hlists uuid).1, (happend uuid).1]
    rfl
  · show Handled.chunks uuid (c.handled ++ [⟨.catalog k, none⟩]) = []
    rw [Handled.chunks_append, (hlists uuid).2.1, (happend uuid).2.1]
    rfl
  · show Handled.loadOrders (c.handled ++ [⟨.catalog k, none⟩]) = []
    rw [Handled.stacks_append, (hlists .nil).2.2, (happend .nil).2.2]
    rfl
  · rw [hfetch] at hdone
    simp only at hdone
    split at hdone <;> cases hdone

/-! ### Steps after the catalog -/

/-- A step of a worker: one download moves on, and nothing else is touched that the past says
anything about. -/
theorem Traced.work (h : c.Traced) (hongoing : c.Ongoing rules k) (i : Nat) (slotFirst : Bool) :
    (c.work i slotFirst).Traced := by
  have hworked := c.fetch.worked_work i slotFirst
  rw [Course.work]
  revert hworked
  generalize c.fetch.work i slotFirst = r
  intro hworked
  have hreplace : ∀ {j : Nat} {d d' : Download} {deed : Download.Deed} {sent : List Packet},
      c.fetch.downloads[j]? = some d → d.Woken (d', deed) →
      ({ c with fetch := c.fetch.replace j d', sent := sent } : Course).Traced := by
    intro j d d' deed sent hj hwoken
    refine ⟨?_, ?_, h.unloaded, h.loaded⟩
    · intro e he
      rcases List.mem_or_eq_of_mem_set he with he | rfl
      · exact h.downloads e he
      · exact hwoken.traced (h.downloads d (List.mem_of_getElem? hj))
    · intro uuid hothers
      refine h.others uuid ?_
      have huuids : uuid ∉ (c.fetch.replace j d').downloads.map (·.id.uuid) := by
        intro hmem
        obtain ⟨e, he, heq⟩ := List.mem_map.mp hmem
        exact hothers e he heq
      rw [Fetch.map_uuid_replace hj hwoken.leads.id] at huuids
      exact fun e he heq => huuids (List.mem_map.mpr ⟨e, he, heq⟩)
  cases hworked with
  | idle => exact ⟨h.downloads, h.others, h.unloaded, h.loaded⟩
  | quits hk hworker => exact hreplace hk (.quits hworker)
  | asks hk hworker hmore => exact hreplace hk (.asks hworker hmore)
  | takes hk hworker hslot => exact hreplace hk (.takes hworker hslot)
  | @delivers j d i p hk hworker hlast hyields =>
    have hne : d.worker ≠ .ended := by simp [hworker]
    have hmissing := hongoing.ledger.remaining_ne_zero hk hne
    have hmoved : ({ c with fetch := c.fetch.replace j { d with worker := .ended } } :
      Course).Traced := hreplace hk (.quits hne)
    have hstage : c.fetch.stage = .downloading := by
      rcases hongoing.ledger.stage with ⟨hstage, -⟩ | ⟨-, hzero⟩
      · exact hstage
      · exact absurd hzero hmissing
    rw [Fetch.countOff_eq (f := { c.fetch.replace j { d with worker := .ended } with
      resolved := c.fetch.resolved ++ [p] }) hmissing]
    refine ⟨hmoved.downloads, hmoved.others, ?_, ?_⟩
    · intro _
      refine h.unloaded ?_
      rw [hstage]
      decide
    · intro hdone
      simp only [Fetch.replace, hstage] at hdone
      split at hdone <;> cases hdone

/-- A packet that leaves the client's side alone and is not accepted. -/
theorem Traced.ignore (h : c.Traced) {x : Handled} {sent : List Packet}
    (hlists : ∀ uuid, Handled.announcements uuid [x] = [] ∧ Handled.chunks uuid [x] = [] ∧
      Handled.loadOrders [x] = []) {f : Fetch} (hdownloads : ∀ d ∈ f.downloads, d.Traced c.handled)
    (huuids : f.downloads.map (·.id.uuid) = c.fetch.downloads.map (·.id.uuid))
    (hstage : f.stage = c.fetch.stage) (hholds : f.holds = c.fetch.holds) :
    ({ fetch := f, handled := c.handled ++ [x], sent := sent } : Course).Traced := by
  have hsame : ∀ uuid, Handled.announcements uuid (c.handled ++ [x]) =
        Handled.announcements uuid c.handled ∧
      Handled.chunks uuid (c.handled ++ [x]) = Handled.chunks uuid c.handled := by
    intro uuid
    rw [Handled.announcements_append, Handled.chunks_append, (hlists uuid).1,
      (hlists uuid).2.1, List.append_nil, List.append_nil]
    exact ⟨rfl, rfl⟩
  have hstacks : Handled.loadOrders (c.handled ++ [x]) = Handled.loadOrders c.handled := by
    rw [Handled.stacks_append, (hlists .nil).2.2, List.append_nil]
  refine ⟨?_, ?_, ?_, ?_⟩
  · intro d hd
    exact (hdownloads d hd).of_eq (hsame _).1 (hsame _).2
  · intro uuid hothers
    show Handled.announcements uuid (c.handled ++ [x]) = [] ∧
      Handled.chunks uuid (c.handled ++ [x]) = []
    rw [(hsame uuid).1, (hsame uuid).2]
    refine h.others uuid fun d hd heq => ?_
    have hmem : uuid ∈ f.downloads.map (·.id.uuid) := by
      rw [huuids]
      exact List.mem_map.mpr ⟨d, hd, heq⟩
    obtain ⟨e, he, heq'⟩ := List.mem_map.mp hmem
    exact hothers e he heq'
  · show f.stage ≠ .done → Handled.loadOrders (c.handled ++ [x]) = []
    rw [hstacks, hstage]
    exact h.unloaded
  · show f.stage = .done → ∃ s, Handled.loadOrders (c.handled ++ [x]) = [s] ∧ _
    rw [hstacks, hstage, hholds]
    exact h.loaded

theorem Traced.handle_announcement (h : c.Traced) (hongoing : c.Ongoing rules k) (a : PackData) :
    (c.handle (.packData a)).Traced := by
  have hannounced := c.fetch.announced_takeAnnouncement a
  rw [Course.handle, Fetch.take]
  revert hannounced
  generalize c.fetch.takeAnnouncement a = r
  intro hannounced
  cases hannounced with
  | refused e => exact h.ignore (fun _ => ⟨rfl, rfl, rfl⟩) h.downloads rfl rfl rfl
  | spoiled hw huuid e => exact h.ignore (fun _ => ⟨rfl, rfl, rfl⟩) h.downloads rfl rfl rfl
  | @started w hw huuid hchunk hsize =>
    have hfresh : ∀ d ∈ c.fetch.downloads, d.id.uuid ≠ w.id.uuid := by
      intro d hd heq
      have hdisjoint := (List.nodup_append.mp hongoing.ledger.distinct).2.2
      exact hdisjoint _ (List.mem_map_of_mem hw) _ (List.mem_map_of_mem hd) heq.symm
    obtain ⟨hannouncements, hchunks⟩ := h.others w.id.uuid hfresh
    have hann : ∀ uuid, Handled.announcements uuid (c.handled ++ [⟨.packData a, none⟩]) =
        Handled.announcements uuid c.handled ++ if w.id.uuid = uuid then [a] else [] := by
      intro uuid
      rw [Handled.announcements_append, Handled.announcements_accepted, huuid]
      simp only [Option.some.injEq]
    have hchk : ∀ uuid, Handled.chunks uuid (c.handled ++ [⟨.packData a, none⟩]) =
        Handled.chunks uuid c.handled := by
      intro uuid
      rw [Handled.chunks_append]
      exact List.append_nil _
    have hstk : Handled.loadOrders (c.handled ++ [⟨.packData a, none⟩]) =
        Handled.loadOrders c.handled := by
      rw [Handled.stacks_append]
      exact List.append_nil _
    refine ⟨?_, ?_, ?_, ?_⟩
    · intro d hd
      rcases List.mem_append.mp hd with hd | hd
      · refine (h.downloads d hd).of_eq ?_ (hchk _)
        rw [hann, if_neg fun heq => hfresh d hd heq.symm, List.append_nil]
      · rw [List.mem_singleton] at hd
        subst hd
        refine Download.traced_announced ?_ ?_ hchunk hsize
        · rw [hann, if_pos rfl, hannouncements]
          rfl
        · rw [hchk, hchunks]
    · intro uuid hothers
      obtain ⟨hnone, hnone'⟩ := h.others uuid fun d hd => hothers d (List.mem_append_left _ hd)
      have hne : w.id.uuid ≠ uuid := hothers (.announced w.id w.contentKey a)
        (List.mem_append_right _ (List.mem_singleton_self _))
      show Handled.announcements uuid (c.handled ++ [⟨.packData a, none⟩]) = [] ∧
        Handled.chunks uuid (c.handled ++ [⟨.packData a, none⟩]) = []
      rw [hann, hchk, hnone, hnone', if_neg hne]
      exact ⟨rfl, rfl⟩
    · show c.fetch.stage ≠ .done → Handled.loadOrders (c.handled ++ [⟨.packData a, none⟩]) = []
      rw [hstk]
      exact h.unloaded
    · show c.fetch.stage = .done → ∃ s, Handled.loadOrders (c.handled ++ [⟨.packData a, none⟩]) =
        [s] ∧ _
      rw [hstk]
      exact h.loaded

theorem Traced.handle_chunk (h : c.Traced) (hongoing : c.Ongoing rules k) {x : ChunkData}
    (hsized : x.data.length < 2 ^ 32) : (c.handle (.chunkData x)).Traced := by
  have hdistinct := (List.nodup_append.mp hongoing.ledger.distinct).2.1
  have hreceived := Fetch.received_takeChunk (Fetch.separate_of_nodup hdistinct) x
  rw [Course.handle, Fetch.take]
  revert hreceived
  generalize c.fetch.takeChunk x = r
  intro hreceived
  cases hreceived with
  | refused e => exact h.ignore (fun _ => ⟨rfl, rfl, rfl⟩) h.downloads rfl rfl rfl
  | @closed j d hk huuid haccepting e =>
    refine h.ignore (fun _ => ⟨rfl, rfl, rfl⟩) ?_ (Fetch.map_uuid_replace hk rfl) rfl rfl
    intro d' hd'
    rcases List.mem_or_eq_of_mem_set hd' with hd' | rfl
    · exact h.downloads d' hd'
    · exact (h.downloads d (List.mem_of_getElem? hk)).close
  | @stored j d hk huuid haccepting hfault =>
    have hann : ∀ uuid, Handled.announcements uuid (c.handled ++ [⟨.chunkData x, none⟩]) =
        Handled.announcements uuid c.handled := by
      intro uuid
      rw [Handled.announcements_append]
      exact List.append_nil _
    have hchk : ∀ uuid, Handled.chunks uuid (c.handled ++ [⟨.chunkData x, none⟩]) =
        Handled.chunks uuid c.handled ++ if d.id.uuid = uuid then [x] else [] := by
      intro uuid
      rw [Handled.chunks_append, Handled.chunks_accepted, huuid]
      simp only [Option.some.injEq]
    have hstk : Handled.loadOrders (c.handled ++ [⟨.chunkData x, none⟩]) =
        Handled.loadOrders c.handled := by
      rw [Handled.stacks_append]
      exact List.append_nil _
    refine ⟨?_, ?_, ?_, ?_⟩
    · intro d' hd'
      rcases Fetch.mem_set_or hd' with rfl | ⟨i, hij, hi⟩
      · refine (h.downloads d (List.mem_of_getElem? hk)).put haccepting hfault hsized (hann _) ?_
        rw [hchk, if_pos rfl]
      · refine (h.downloads d' (List.mem_of_getElem? hi)).of_eq (hann _) ?_
        have hne : d.id.uuid ≠ d'.id.uuid := fun heq =>
          hij (Fetch.place_unique hdistinct hi hk heq.symm)
        rw [hchk, if_neg hne, List.append_nil]
    · intro uuid hothers
      have huuids : (c.fetch.replace j (d.put x)).downloads.map (·.id.uuid) =
          c.fetch.downloads.map (·.id.uuid) := Fetch.map_uuid_replace hk rfl
      have hnone : ∀ e ∈ c.fetch.downloads, e.id.uuid ≠ uuid := by
        intro e he heq
        have hmem : uuid ∈ (c.fetch.replace j (d.put x)).downloads.map (·.id.uuid) := by
          rw [huuids]
          exact List.mem_map.mpr ⟨e, he, heq⟩
        obtain ⟨e', he', heq'⟩ := List.mem_map.mp hmem
        exact hothers e' he' heq'
      show Handled.announcements uuid (c.handled ++ [⟨.chunkData x, none⟩]) = [] ∧
        Handled.chunks uuid (c.handled ++ [⟨.chunkData x, none⟩]) = []
      rw [hann, hchk, (h.others uuid hnone).1, (h.others uuid hnone).2,
        if_neg (hnone d (List.mem_of_getElem? hk))]
      exact ⟨rfl, rfl⟩
    · show c.fetch.stage ≠ .done → Handled.loadOrders (c.handled ++ [⟨.chunkData x, none⟩]) = []
      rw [hstk]
      exact h.unloaded
    · show c.fetch.stage = .done → ∃ s, Handled.loadOrders (c.handled ++ [⟨.chunkData x, none⟩]) =
        [s] ∧ _
      rw [hstk]
      exact h.loaded

theorem Traced.handle_stack (h : c.Traced) (hongoing : c.Ongoing rules k) {s : PackStack}
    (hheld : c.held = some (.stack s)) : (c.handle (.stack s)).Traced := by
  rw [Course.handle, Fetch.take]
  cases hstack : c.fetch.takeStack s with
  | error e => exact h.ignore (fun _ => ⟨rfl, rfl, rfl⟩) h.downloads rfl rfl rfl
  | ok r =>
    rw [Fetch.takeStack] at hstack
    split at hstack
    · cases hstack
    · next hfind =>
      cases hstack
      have hstage := hongoing.held_stack s hheld
      have hnone : Handled.loadOrders c.handled = [] := h.unloaded (by rw [hstage]; decide)
      have hann : ∀ uuid, Handled.announcements uuid (c.handled ++ [⟨.stack s, none⟩]) =
          Handled.announcements uuid c.handled := by
        intro uuid
        rw [Handled.announcements_append]
        exact List.append_nil _
      have hchk : ∀ uuid, Handled.chunks uuid (c.handled ++ [⟨.stack s, none⟩]) =
          Handled.chunks uuid c.handled := by
        intro uuid
        rw [Handled.chunks_append]
        exact List.append_nil _
      refine ⟨?_, ?_, fun hne => absurd rfl hne, fun _ => ⟨s, ?_, ?_⟩⟩
      · exact fun d hd => (h.downloads d hd).of_eq (hann _) (hchk _)
      · intro uuid hothers
        show Handled.announcements uuid (c.handled ++ [⟨.stack s, none⟩]) = [] ∧
          Handled.chunks uuid (c.handled ++ [⟨.stack s, none⟩]) = []
        rw [hann, hchk]
        exact h.others uuid hothers
      · show Handled.loadOrders (c.handled ++ [⟨.stack s, none⟩]) = [s]
        rw [Handled.stacks_append, hnone]
        rfl
      · intro e he
        have hholds := List.find?_eq_none.mp hfind e he
        rwa [Bool.not_eq_true, Bool.not_eq_false'] at hholds

/-- One step after the catalog. -/
theorem Traced.step (h : c.Traced) (hongoing : c.Ongoing rules k) (hstep : Step c c')
    (hsized : c'.Sized) : c'.Traced := by
  cases hstep with
  | hold hheld hadmits => exact ⟨h.downloads, h.others, h.unloaded, h.loaded⟩
  | work i slotFirst => exact h.work hongoing i slotFirst
  | cancel => exact ⟨h.downloads, h.others, h.unloaded, h.loaded⟩
  | @handle p hheld =>
    have hlast : p.Sized := hsized ⟨p, (c.fetch.take p).2.2⟩
      (List.mem_append_right _ (List.mem_singleton_self _))
    have hquiet : Handled.Plain p → c.fetch.take p = (c.fetch, [], none) → (c.handle p).Traced := by
      intro hplain htake
      rw [Course.handle, htake]
      exact h.ignore (fun uuid => Handled.Plain.lists (h := ⟨p, none⟩) hplain uuid) h.downloads
        rfl rfl rfl
    cases p with
    | unknown id bytes => exact hquiet (Handled.plain_unknown id bytes) rfl
    | known kind body =>
      cases kind with
      | catalog => exact absurd hheld (hongoing.held_catalog body)
      | packData => exact h.handle_announcement hongoing body
      | chunkData => exact h.handle_chunk hongoing hlast
      | stack => exact h.handle_stack hongoing hheld
      | networkSettings =>
        refine hquiet (Handled.plain_known body (by decide)) ?_
        rw [Fetch.take, hongoing.takeSettings_eq]
      | _ => exact hquiet (Handled.plain_known body (by decide)) rfl

theorem Sized.of_step (hstep : Step c c') (h : c'.Sized) : c.Sized := by
  cases hstep with
  | handle hheld => exact fun x hx => h x (List.mem_append_left _ hx)
  | hold hheld hadmits => exact h
  | work i slotFirst => exact h
  | cancel => exact h

/-! ### Finished courses -/

theorem traced (h : Reachable rules c) (hsized : c.Sized) : c.Traced := by
  have hboth : (c.Fresh rules ∨ ∃ k, c.Ongoing rules k) ∧ (c.Sized → c.Traced) := by
    refine h.invariant (P := fun c =>
      (c.Fresh rules ∨ ∃ k, c.Ongoing rules k) ∧ (c.Sized → c.Traced)) ?_ ?_
    · exact ⟨Or.inl (fresh_start rules), fun _ => (fresh_start rules).traced⟩
    · rintro c c' ⟨hfresh | ⟨k, hongoing⟩, htraced⟩ hstep
      · refine ⟨(hfresh.step hstep).1, fun _ => ?_⟩
        cases hstep with
        | @handle p hheld =>
          rcases hfresh.held p hheld with hp | ⟨k, rfl⟩
          · exact (hfresh.handle_preliminary hp).1.traced
          · exact hfresh.traced_catalog k
        | hold hheld hadmits =>
          exact ⟨hfresh.traced.downloads, hfresh.traced.others, hfresh.traced.unloaded,
            hfresh.traced.loaded⟩
        | work i slotFirst =>
          rw [hfresh.work_eq]
          exact hfresh.traced
        | cancel =>
          exact ⟨hfresh.traced.downloads, hfresh.traced.others, hfresh.traced.unloaded,
            hfresh.traced.loaded⟩
      · refine ⟨Or.inr ⟨k, (hongoing.step hstep).1⟩, fun hsized => ?_⟩
        exact (htraced (hsized.of_step hstep)).step hongoing hstep hsized
  exact hboth.2 hsized

/-- What a resolved pack is, in terms of the download it comes from. -/
theorem Traced.delivers (h : c.Traced) {e : CatalogEntry} {d : Download} {p : Pack}
    (hd : d ∈ c.fetch.downloads) (hyields : d.Yields Archive.unpack p) (hid : e.id = d.id)
    (hkey : e.contentKey = d.contentKey) :
    ∃ a bytes, Handled.Delivers c.handled e a bytes ∧
      p = Archive.toPack { id := e.id, data := bytes, contentKey := e.contentKey } := by
  have htraced := h.downloads d hd
  obtain ⟨a, hannounced, hsize, hhash, hchunkSize⟩ := htraced.announced
  obtain ⟨hindices, hbytes, hlength⟩ := htraced.fed.entire hyields.size
  have huuid : e.uuid = d.id.uuid := congrArg PackId.uuid hid
  refine ⟨a, d.data, ⟨?_, ?_, ?_, ?_, ?_⟩, ?_⟩
  · rw [huuid]
    exact hannounced
  · rw [huuid, hindices, hsize, hchunkSize]
    rfl
  · rw [huuid]
    exact hbytes
  · rw [hlength, hsize]
  · rw [hhash]
    exact hyields.hash
  · obtain ⟨q, hq, rfl⟩ := hyields.unpacked
    rw [Archive.unpack] at hq
    split at hq
    · cases hq
    · cases hq
      rw [hid, hkey]
      rfl

/-- **What a finished course has resolved** is accounted for by what it has handled. -/
theorem delivered (h : Reachable rules c) (hunpack : rules.unpack = Archive.unpack)
    (hsized : c.Sized) (hdone : c.fetch.stage = .done) :
    Handled.AccountFor rules.filter c.handled c.fetch.resolved := by
  have htraced := traced h hsized
  rcases invariant h with hfresh | ⟨k, hongoing⟩
  · rcases hfresh.stage with hstage | hstage <;> rw [hstage] at hdone <;> cases hdone
  obtain ⟨places, hascending, hmem, hwanted⟩ := Selection.wanted_ofCatalog rules.filter k.packs
  obtain ⟨ks, horigins⟩ := hongoing.ledger.origins
  obtain ⟨got, missing, hperm, hmissing, hgot⟩ := hongoing.ledger.split horigins hwanted
  have hzero : c.fetch.remaining = 0 := by
    rcases hongoing.ledger.stage with ⟨hstage, -⟩ | ⟨-, hzero⟩
    · rw [hstage] at hdone
      cases hdone
    · exact hzero
  have hnil : missing = [] := List.length_eq_zero_iff.mp (hmissing.trans hzero)
  rw [hnil, List.append_nil] at hperm
  have hplaces : ∀ i, i ∈ got ↔ IsWanted rules.filter k.packs i := fun i => by
    rw [hperm.mem_iff, hmem]
  have hnodup : got.Nodup := by
    rw [hperm.nodup_iff]
    exact hascending.imp Nat.ne_of_lt
  refine ⟨k, got, hongoing.catalogs, hnodup, hplaces, ?_, ?_⟩
  · have hentry : ∀ i ∈ got, ∃ e, k.packs[i]? = some e := fun i hi =>
      ((hplaces i).mp hi).exists_entry
    refine (List.forall₂_and_left _ _).mpr ⟨hentry, hgot⟩ |>.imp ?_
    rintro i p ⟨⟨e, he⟩, j, -, d, hd, -, hyields, hid, hkey⟩
    rw [Catalog.getD_eq he] at hid hkey
    rw [hongoing.sameRules, hunpack] at hyields
    obtain ⟨a, bytes, hdelivers, hp⟩ :=
      htraced.delivers (List.mem_of_getElem? hd) hyields hid hkey
    exact ⟨e, a, bytes, he, hdelivers, hp⟩
  · obtain ⟨s, hstacks, hholds⟩ := htraced.loaded hdone
    refine ⟨s, hstacks, ?_⟩
    intro entry hentry
    have hheld := hholds entry hentry
    rw [Fetch.holds] at hheld
    split at hheld
    · cases hheld
    · next uuid huuid =>
      simp only [Bool.or_eq_true, List.any_eq_true, beq_iff_eq, List.contains_iff_mem,
        hongoing.ignored, Selection.mem_ignored_ofCatalog] at hheld
      refine ⟨uuid, huuid, ?_⟩
      rcases hheld with (hexempted | hrejected) | hresolved
      · exact Or.inl hexempted
      · exact Or.inr (Or.inl hrejected)
      · exact Or.inr (Or.inr hresolved)

end Course

end PackExchange
