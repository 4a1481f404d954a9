import PackExchange.Proofs.Transfer.Accepted
import PackExchange.Proofs.Transfer.Serving

/-!
# A client whose server sends what it asks for

Of the packs that the client wants, some are not announced yet and the others are being downloaded
or resolved.  Nothing is ever given up, so what is missing is exactly what has not ended.

* `Leg` — how far the download of one pack is;
* `Gathering` — the packs that are not announced, and those that are, with how far each is;
* `Gathering.announce`, `Gathering.receive`, `Gathering.work` — what an announcement, a chunk and a
  worker make of it;
* `Gathering.resolved_perm` — the packs at the end.
-/

namespace PackExchange

/-- A pack as a client has it in the end. -/
def Pack.copy (p : Pack) (content : Bytes) : Pack :=
  Archive.toPack { id := p.id, data := content, contentKey := p.contentKey }

namespace Download

/-- Has the worker not come to its end? -/
def running (d : Download) : Bool := d.worker != .ended

/-- The pack that the bytes of a finished download make. -/
def pack (d : Download) : Pack :=
  Archive.toPack { id := d.id, data := d.data, contentKey := d.contentKey }

theorem running_eq_true {d : Download} (h : d.worker ≠ .ended) : d.running = true :=
  bne_iff_ne.mpr h

end Download

/-- How far the download of a pack is: how many of its chunks were handed in, and how many were
asked for. -/
structure Leg where
  pack : Pack
  given : Nat
  asked : Nat

/-- The download of a pack that was sent in full. -/
def Leg.whole (chunkSize : UInt32) (p : Pack) : Leg :=
  ⟨p, Download.ceiling p.size chunkSize, Download.ceiling p.size chunkSize⟩

/-- Is a download as far as its leg says? -/
def Leg.Describes (content : Pack → Bytes) (chunkSize : UInt32) (l : Leg) (d : Download) : Prop :=
  d.At l.pack (content l.pack) chunkSize l.given l.asked

/-- A client that gathers packs: `rest` are those it waits to be announced, `legs` are those that
were. -/
structure Gathering (content : Pack → Bytes) (chunkSize : UInt32) (rest : List Pack)
    (legs : List Leg) (f : Fetch) : Prop where
  wanted : f.wanted = rest.map Pack.wanted
  downloads : List.Forall₂ (Leg.Describes content chunkSize) legs f.downloads
  count : f.remaining = rest.length + f.downloads.countP Download.running
  resolved : f.resolved.Perm ((f.downloads.filter (!·.running)).map Download.pack)
  stage : f.stage = if f.remaining = 0 then .awaitingStack else .downloading
  unpack : f.rules.unpack = Archive.unpack
  going : f.cancelled = false

namespace Gathering

variable {content : Pack → Bytes} {chunkSize : UInt32} {rest : List Pack} {legs : List Leg}
  {f : Fetch}

theorem stage_eq (h : Gathering content chunkSize rest legs f) (hremaining : f.remaining ≠ 0) :
    f.stage = .downloading := by
  rw [h.stage, if_neg hremaining]

theorem stage_ne (h : Gathering content chunkSize rest legs f) : f.stage ≠ .done := by
  rw [h.stage]
  split
  · exact nofun
  · exact nofun

/-! ### The catalog and announcements -/

/-- A catalog is answered with the tokens of the packs that are wanted. -/
theorem of_catalog (content : Pack → Bytes) {o : Offer} {filter : Option DownloadFilter}
    (required : Bool)
    (hdistinct : (o.packs.map (·.id.uuid)).Nodup) (hrules : f.rules = { filter := filter })
    (hdownloads : f.downloads = []) (hresolved : f.resolved = []) (hgoing : f.cancelled = false) :
    Gathering content o.chunkSize (o.accepted filter) [] (f.takeCatalog (o.catalog required)).1 ∧
      (f.takeCatalog (o.catalog required)).1.ignored =
        (Selection.ofCatalog filter (o.packs.map Offer.entry)).ignored ∧
      (f.takeCatalog (o.catalog required)).2 =
        [.clientResponse (if o.accepted filter = [] then .plain .allPacksDownloaded
          else ⟨Answer.sendPacks.code, (o.accepted filter).map (·.id.token)⟩)] := by
  have hwanted := o.wanted_catalog filter hdistinct
  have hnil : (o.accepted filter).map Pack.wanted = [] ↔ o.accepted filter = [] :=
    List.map_eq_nil_iff
  have hzero : (o.accepted filter).length = 0 ↔ o.accepted filter = [] :=
    List.length_eq_zero_iff
  simp only [Fetch.takeCatalog_eq, hrules, Offer.catalog, hwanted, hnil, List.length_map,
    List.map_map]
  refine ⟨⟨rfl, ?_, ?_, ?_, ?_, rfl, hgoing⟩, trivial, rfl⟩
  · simp only [hdownloads, List.map_nil]
    exact .nil
  · simp only [hdownloads, List.map_nil, List.countP_nil, Nat.add_zero]
  · simp only [hdownloads, hresolved, List.map_nil, List.filter_nil]
    exact .nil
  · simp only [hzero]

/-- The next pack that is waited for may be announced. -/
theorem announce {p : Pack} (h : Gathering content chunkSize (p :: rest) legs f)
    (hdistinct : ((p :: rest).map (·.id.uuid)).Nodup) (hp : p.Parcels (content p) chunkSize)
    {o : Offer} (hchunk : o.chunkSize = chunkSize) :
    ∃ f', f.takeAnnouncement (o.announcement p) = (f', none) ∧
      Gathering content chunkSize rest (legs ++ [⟨p, 0, 0⟩]) f' ∧ f'.ignored = f.ignored := by
  have hfind : f.wanted.find? (·.id.uuid == p.id.uuid) = some p.wanted := by
    rw [h.wanted, List.map_cons]
    exact List.find?_cons_of_pos (beq_self_eq_true _)
  have hfilter : f.wanted.filter (·.id.uuid != p.id.uuid) = rest.map Pack.wanted := by
    rw [h.wanted, List.map_cons, List.filter_cons_of_neg, List.filter_eq_self]
    · intro w hw
      obtain ⟨q, hq, rfl⟩ := List.mem_map.mp hw
      rw [bne_iff_ne]
      intro heq
      exact (List.nodup_cons.mp hdistinct).1 (List.mem_map.mpr ⟨q, hq, heq⟩)
    · rw [bne_iff_ne]
      exact fun hne => hne rfl
  have hpos : f.remaining ≠ 0 := by
    rw [h.count, List.length_cons]
    omega
  have hnew := Download.at_announced (a := o.announcement p) hp rfl hchunk rfl rfl
  refine ⟨{ f with
      wanted := rest.map Pack.wanted
      downloads := f.downloads ++
        [Download.announced p.id p.contentKey (o.announcement p)] }, ?_,
    ⟨rfl, ?_, ?_, ?_, ?_, h.unpack, h.going⟩, rfl⟩
  · have huuid : PackId.uuidOf? (o.announcement p).uuid = some p.id.uuid :=
      PackId.uuidOf?_token p.id
    have hchunk' : (o.announcement p).chunkSize ≠ 0 := by
      rw [show (o.announcement p).chunkSize = chunkSize from hchunk]
      exact hp.chunkSize_ne
    have hsize : (o.announcement p).size ≠ 0 := hp.size_ne
    simp only [Fetch.takeAnnouncement, huuid, hfind, hfilter, if_neg hchunk', if_neg hsize]
    rfl
  · exact List.rel_append h.downloads (.cons hnew .nil)
  · show f.remaining = rest.length + (f.downloads ++ [_]).countP Download.running
    rw [List.countP_append, h.count, List.length_cons]
    show _ = rest.length + (_ + 1)
    omega
  · simp only [List.filter_append]
    rw [List.filter_cons_of_neg Bool.false_ne_true, List.filter_nil, List.append_nil]
    exact h.resolved
  · exact h.stage

/-! ### One download -/

/-- Each download has its leg. -/
theorem split (h : Gathering content chunkSize rest legs f) {k : Nat} {d : Download}
    (hk : f.downloads[k]? = some d) :
    ∃ front l back, ∃ ds es : List Download, legs = front ++ l :: back ∧ ds.length = k ∧
      f.downloads = ds ++ d :: es ∧
      List.Forall₂ (Leg.Describes content chunkSize) front ds ∧
      l.Describes content chunkSize d ∧
      List.Forall₂ (Leg.Describes content chunkSize) back es := by
  obtain ⟨hlt, hd⟩ := List.getElem?_eq_some_iff.mp hk
  have hsplit : f.downloads = f.downloads.take k ++ d :: f.downloads.drop (k + 1) := by
    rw [← hd, List.getElem_cons_drop, List.take_append_drop]
  have hall := h.downloads
  rw [hsplit] at hall
  have hfront := List.forall₂_take_append _ _ _ hall
  have hback := List.forall₂_drop_append _ _ _ hall
  obtain ⟨l, back, hl, hrest, hlegs⟩ := List.forall₂_cons_right_iff.mp hback
  refine ⟨_, l, back, f.downloads.take k, f.downloads.drop (k + 1), ?_, ?_, hsplit, hfront, hl,
    hrest⟩
  · rw [← hlegs, List.take_append_drop]
  · rw [List.length_take]
    omega

/-- Each leg has its download. -/
theorem split_leg {front back : List Leg} {l : Leg}
    (h : Gathering content chunkSize rest (front ++ l :: back) f) :
    ∃ ds d es, f.downloads = ds ++ d :: es ∧
      List.Forall₂ (Leg.Describes content chunkSize) front ds ∧
      l.Describes content chunkSize d ∧
      List.Forall₂ (Leg.Describes content chunkSize) back es := by
  have hfront := (List.forall₂_take_append _ _ _ h.downloads.flip).flip
  have hback := (List.forall₂_drop_append _ _ _ h.downloads.flip).flip
  obtain ⟨d, es, hl, hrest, hdrop⟩ := List.forall₂_cons_left_iff.mp hback
  refine ⟨f.downloads.take front.length, d, es, ?_, hfront, hl, hrest⟩
  rw [← hdrop, List.take_append_drop]

/-- Another state of a download whose worker still runs. -/
theorem move (h : Gathering content chunkSize rest legs f) {front back : List Leg} {l : Leg}
    {ds es : List Download} {d d' : Download} (hsplit : f.downloads = ds ++ d :: es)
    (hfront : List.Forall₂ (Leg.Describes content chunkSize) front ds)
    (hl : l.Describes content chunkSize d')
    (hback : List.Forall₂ (Leg.Describes content chunkSize) back es)
    (hd : d.worker ≠ .ended) (hd' : d'.worker ≠ .ended) :
    Gathering content chunkSize rest (front ++ l :: back)
      { f with downloads := ds ++ d' :: es } := by
  have hrunning := Download.running_eq_true hd
  have hrunning' := Download.running_eq_true hd'
  have hcount := h.count
  have hresolved := h.resolved
  rw [hsplit, List.countP_append, List.countP_cons_of_pos hrunning] at hcount
  rw [hsplit, List.filter_append,
    List.filter_cons_of_neg (by rw [hrunning]; exact Bool.false_ne_true)] at hresolved
  refine ⟨h.wanted, List.rel_append hfront (.cons hl hback), ?_, ?_, h.stage, h.unpack, h.going⟩
  · show f.remaining = rest.length + (ds ++ d' :: es).countP Download.running
    rw [List.countP_append, List.countP_cons_of_pos hrunning', hcount]
  · simp only [List.filter_append]
    rw [List.filter_cons_of_neg (by rw [hrunning']; exact Bool.false_ne_true)]
    exact hresolved

theorem remaining_ne_zero (h : Gathering content chunkSize rest legs f) {d : Download}
    (hd : d ∈ f.downloads) (hworker : d.worker ≠ .ended) : f.remaining ≠ 0 := by
  have hpos := List.countP_pos_iff.mpr ⟨d, hd, Download.running_eq_true hworker⟩
  have hcount := h.count
  omega

/-- A download that is finished. -/
theorem finish (h : Gathering content chunkSize rest legs f) {front back : List Leg} {l : Leg}
    {ds es : List Download} {d : Download} (hsplit : f.downloads = ds ++ d :: es)
    (hfront : List.Forall₂ (Leg.Describes content chunkSize) front ds)
    (hl : l.Describes content chunkSize { d with worker := .ended })
    (hback : List.Forall₂ (Leg.Describes content chunkSize) back es)
    (hd : d.worker ≠ .ended) :
    Gathering content chunkSize rest (front ++ l :: back)
      { f with
        downloads := ds ++ { d with worker := .ended } :: es
        resolved := f.resolved ++ [d.pack]
        remaining := f.remaining - 1
        stage := if f.remaining = 1 then .awaitingStack else f.stage } := by
  have hrunning := Download.running_eq_true hd
  have hended : ({ d with worker := .ended } : Download).running = false := rfl
  have hne := h.remaining_ne_zero (by rw [hsplit]; exact List.mem_append_cons_self) hd
  have hcount := h.count
  have hresolved := h.resolved
  rw [hsplit, List.countP_append, List.countP_cons_of_pos hrunning] at hcount
  rw [hsplit, List.filter_append,
    List.filter_cons_of_neg (by rw [hrunning]; exact Bool.false_ne_true),
    List.map_append] at hresolved
  refine ⟨h.wanted, List.rel_append hfront (.cons hl hback), ?_, ?_, ?_, h.unpack, h.going⟩
  · show f.remaining - 1 = rest.length + (ds ++ _ :: es).countP Download.running
    rw [List.countP_append, List.countP_cons_of_neg (by rw [hended]; exact Bool.false_ne_true)]
    omega
  · simp only [List.filter_append]
    rw [List.filter_cons_of_pos (by rw [hended]; rfl), List.map_append, List.map_cons]
    refine (hresolved.append_right _).trans ?_
    rw [List.append_assoc]
    exact (List.perm_append_singleton _ _).append_left _
  · show (if f.remaining = 1 then _ else f.stage) = if f.remaining - 1 = 0 then _ else _
    by_cases hone : f.remaining = 1
    · rw [if_pos hone, if_pos (by omega)]
    · rw [if_neg hone, if_neg (by omega), h.stage_eq hne]

/-- While chunks of a pack are missing, not only the packs that are not announced are missing. -/
theorem length_lt_remaining (h : Gathering content chunkSize rest legs f) {l : Leg} (hl : l ∈ legs)
    (hmore : l.given < Download.ceiling l.pack.size chunkSize) : rest.length < f.remaining := by
  obtain ⟨front, back, rfl⟩ := List.append_of_mem hl
  obtain ⟨ds, d, es, hsplit, -, hd, -⟩ := h.split_leg
  have hmem : d ∈ f.downloads := by
    rw [hsplit]
    exact List.mem_append_cons_self
  have hpos := List.countP_pos_iff.mpr ⟨d, hmem, Download.running_eq_true (hd.worker_ne hmore)⟩
  have hcount := h.count
  omega

theorem ne_zero_of_last {front : List Leg} {l : Leg}
    (h : Gathering content chunkSize rest (front ++ [l]) f)
    (hmore : l.given < Download.ceiling l.pack.size chunkSize) : f.remaining ≠ 0 := by
  have hlt := h.length_lt_remaining (List.mem_append_right _ (List.mem_singleton_self l)) hmore
  omega

/-! ### Workers -/

/-- A download that has all the bytes it was announced with resolves its pack. -/
theorem complete_eq {f : Fetch} {d : Download} {p : Pack} {bytes : Bytes} {given asked : Nat}
    (hunpack : f.rules.unpack = Archive.unpack) (hp : p.Parcels bytes chunkSize)
    (hd : d.At p bytes chunkSize given asked) (hdata : d.data = bytes) :
    f.complete d bytes = ({ f with resolved := f.resolved ++ [d.pack] } : Fetch).countOff := by
  have hhash : (!d.hash.isEmpty && Sha256.digest bytes != d.hash) = false := by
    rw [hd.hash, hp.holds.checksum, bne_self_eq_false, Bool.and_false]
  have hsize : UInt64.ofNat bytes.length = d.size := by
    rw [hd.size, ← hp.holds.size, UInt64.ofNat_toNat]
  have hsome : bytes.isEmpty = false := List.isEmpty_eq_false_iff.mpr hp.numbered.content_ne
  have hunpacked : Archive.unpack d.id bytes =
      .ok (Archive.toPack { id := d.id, data := bytes }) := by
    rw [Archive.unpack, if_neg (by rw [hsome]; exact Bool.false_ne_true)]
  rw [Fetch.complete, hhash, if_neg Bool.false_ne_true, if_neg (fun hne => hne hsize), hunpack,
    hunpacked]
  simp only [Download.pack, hdata]
  rfl

/-- **What a worker with something to do does**: it asks for the next chunk, goes on, or resolves
its pack, and says so when no other is missing. -/
theorem work (h : Gathering content chunkSize rest legs f)
    (hparcels : ∀ l ∈ legs, l.pack.Parcels (content l.pack) chunkSize) {k : Nat} {d : Download}
    (hk : f.downloads[k]? = some d) (hawake : d.awake f.cancelled = true) (slotFirst : Bool) :
    ∃ f' sent, f.work k slotFirst = (f', sent) ∧ f'.ignored = f.ignored ∧
      ((∃ front p given back r, legs = front ++ ⟨p, given, given⟩ :: back ∧
          given < Download.ceiling p.size chunkSize ∧ sent = [.chunkRequest r] ∧ r.Asks p given ∧
          Gathering content chunkSize rest (front ++ ⟨p, given, given + 1⟩ :: back) f' ∧
          f'.remaining ≠ 0) ∨
        (sent = [] ∧ Gathering content chunkSize rest legs f' ∧ f'.remaining ≠ 0) ∨
        (sent = [.clientResponse (.plain .allPacksDownloaded)] ∧
          Gathering content chunkSize rest legs f' ∧ f'.remaining = 0)) := by
  obtain ⟨front, ⟨p, given, asked⟩, back, ds, es, rfl, rfl, hsplit, hfront, hl, hback⟩ :=
    h.split hk
  have hd : d.At p (content p) chunkSize given asked := hl
  have hp : p.Parcels (content p) chunkSize :=
    hparcels _ (List.mem_append_right _ List.mem_cons_self)
  have hmem : d ∈ f.downloads := List.mem_of_getElem? hk
  have hset : ∀ d' : Download, f.downloads.set ds.length d' = ds ++ d' :: es := by
    intro d'
    rw [hsplit, List.set_append_right _ _ (Nat.le_refl _), Nat.sub_self, List.set_cons_zero]
  rw [h.going] at hawake
  rcases hd.wake hp hawake slotFirst with
    ⟨i, hi, rfl, hgiven, hd', hwake⟩ | ⟨d', hd', hworker, hworker', hwake⟩ |
      ⟨-, -, hworker, hd', hwake⟩
  · have hworker : d.worker ≠ .ended := by
      rintro hended
      rw [Download.awake, hended] at hawake
      cases hawake
    refine ⟨{ f with downloads := ds ++ { d with worker := .waiting i } :: es },
      [.chunkRequest ⟨d.reference, i⟩], ?_, rfl, Or.inl ⟨front, p, asked, back, _, rfl, hgiven, rfl,
        ⟨hd.reference, hi⟩,
        h.move (l := ⟨p, asked, asked + 1⟩) hsplit hfront hd' hback hworker (by simp),
        h.remaining_ne_zero hmem hworker⟩⟩
    simp only [Fetch.work, hk, h.going, hwake, hset]
  · refine ⟨{ f with downloads := ds ++ d' :: es }, [], ?_, rfl, Or.inr (Or.inl ⟨rfl,
      h.move (l := ⟨p, given, asked⟩) hsplit hfront hd' hback hworker hworker',
      h.remaining_ne_zero hmem hworker⟩)⟩
    simp only [Fetch.work, hk, h.going, hwake, hset]
  · have hfinish := h.finish (l := ⟨p, given, asked⟩) hsplit hfront hd' hback hworker
    have hdata : d.data = content p := hd'.data_eq rfl
    have hwork : f.work ds.length slotFirst =
        ({ f with
            downloads := ds ++ { d with worker := .ended } :: es
            resolved := f.resolved ++ [d.pack] } : Fetch).countOff := by
      simp only [Fetch.work, hk, h.going, hwake, hset]
      exact complete_eq h.unpack hp hd hdata
    have hne : f.remaining ≠ 0 := h.remaining_ne_zero hmem hworker
    refine ⟨_, _, hwork.trans (Fetch.countOff_eq hne), rfl, Or.inr ?_⟩
    by_cases hone : f.remaining = 1
    · right
      refine ⟨if_pos hone, hfinish, ?_⟩
      show f.remaining - 1 = 0
      omega
    · left
      refine ⟨if_neg hone, hfinish, ?_⟩
      show f.remaining - 1 ≠ 0
      omega

/-- Packs that were sent in full are not being asked for. -/
theorem not_mem_whole {before : List Pack} {p : Pack} {g a : Nat}
    (hg : g < Download.ceiling p.size chunkSize) :
    (⟨p, g, a⟩ : Leg) ∉ before.map (Leg.whole chunkSize) := by
  intro hmem
  obtain ⟨q, -, hq⟩ := List.mem_map.mp hmem
  cases hq
  exact Nat.lt_irrefl _ hg

/-- Only one pack is being asked for when the others were sent in full. -/
theorem eq_of_whole {before : List Pack} {front back : List Leg} {l : Leg} {p : Pack} {g a : Nat}
    (h : before.map (Leg.whole chunkSize) ++ [l] = front ++ ⟨p, g, a⟩ :: back)
    (hg : g < Download.ceiling p.size chunkSize) :
    front = before.map (Leg.whole chunkSize) ∧ back = [] ∧ l = ⟨p, g, a⟩ := by
  rcases List.eq_nil_or_concat back with rfl | ⟨bs, b, rfl⟩
  · obtain ⟨hfront, hl⟩ := List.append_inj' h rfl
    exact ⟨hfront.symm, rfl, (List.cons.inj hl).1⟩
  · rw [List.concat_eq_append, ← List.cons_append, ← List.append_assoc] at h
    have hmem : (⟨p, g, a⟩ : Leg) ∈ before.map (Leg.whole chunkSize) := by
      rw [(List.append_inj' h rfl).1]
      exact List.mem_append_cons_self
    exact absurd hmem (not_mem_whole hg)

/-- The same while only the last of the announced packs was not sent in full. -/
theorem work_last {before : List Pack} {l : Leg}
    (h : Gathering content chunkSize rest (before.map (Leg.whole chunkSize) ++ [l]) f)
    (hmore : l.given < Download.ceiling l.pack.size chunkSize)
    (hparcels : ∀ p ∈ l.pack :: before, p.Parcels (content p) chunkSize) {k : Nat} {d : Download}
    (hk : f.downloads[k]? = some d) (hawake : d.awake f.cancelled = true) (slotFirst : Bool) :
    ∃ f' sent, f.work k slotFirst = (f', sent) ∧ f'.ignored = f.ignored ∧
      ((∃ r, l.asked = l.given ∧ sent = [.chunkRequest r] ∧ r.Asks l.pack l.given ∧
          Gathering content chunkSize rest
            (before.map (Leg.whole chunkSize) ++ [⟨l.pack, l.given, l.given + 1⟩]) f') ∨
        (sent = [] ∧
          Gathering content chunkSize rest (before.map (Leg.whole chunkSize) ++ [l]) f')) := by
  have hall : ∀ l' ∈ before.map (Leg.whole chunkSize) ++ [l],
      l'.pack.Parcels (content l'.pack) chunkSize := by
    intro l' hl'
    rcases List.mem_append.mp hl' with hl' | hl'
    · obtain ⟨p, hp, rfl⟩ := List.mem_map.mp hl'
      exact hparcels p (List.mem_cons_of_mem _ hp)
    · rw [List.mem_singleton] at hl'
      rw [hl']
      exact hparcels l.pack List.mem_cons_self
  obtain ⟨f', sent, hwork, hignored, hcases⟩ := h.work hall hk hawake slotFirst
  refine ⟨f', sent, hwork, hignored, ?_⟩
  rcases hcases with ⟨front, p, g, back, r, hlegs, hg, rfl, hr, h', -⟩ | ⟨rfl, h', -⟩ | ⟨-, h', hz⟩
  · obtain ⟨rfl, rfl, rfl⟩ := eq_of_whole hlegs hg
    exact Or.inl ⟨r, rfl, rfl, hr, h'⟩
  · exact Or.inr ⟨rfl, h'⟩
  · exact absurd hz (h'.ne_zero_of_last hmore)

/-- A worker that waits for a chunk asks for no other. -/
theorem work_asked {before : List Pack} {p : Pack} {g : Nat}
    (h : Gathering content chunkSize rest (before.map (Leg.whole chunkSize) ++ [⟨p, g, g + 1⟩]) f)
    (hg : g < Download.ceiling p.size chunkSize)
    (hparcels : ∀ q ∈ p :: before, q.Parcels (content q) chunkSize) {k : Nat} {d : Download}
    (hk : f.downloads[k]? = some d) (hawake : d.awake f.cancelled = true) (slotFirst : Bool) :
    ∃ f', f.work k slotFirst = (f', []) ∧ f'.ignored = f.ignored ∧
      Gathering content chunkSize rest (before.map (Leg.whole chunkSize) ++ [⟨p, g, g + 1⟩])
        f' := by
  obtain ⟨f', sent, hwork, hignored, hcases⟩ := h.work_last hg hparcels hk hawake slotFirst
  rcases hcases with ⟨r, hasked, -⟩ | ⟨rfl, h'⟩
  · exact absurd hasked (Nat.succ_ne_self g)
  · exact ⟨f', hwork, hignored, h'⟩

/-- When nothing is missing all workers have ended. -/
theorem asleep (h : Gathering content chunkSize rest legs f) (hremaining : f.remaining = 0)
    {k : Nat} {d : Download} (hk : f.downloads[k]? = some d) : d.worker = .ended := by
  by_contra hne
  exact h.remaining_ne_zero (List.mem_of_getElem? hk) hne hremaining

/-! ### Chunks -/

/-- The downloads of packs that were sent in full take no more chunks. -/
theorem accepting_eq_false {before : List Pack} {ds : List Download}
    (h : List.Forall₂ (Leg.Describes content chunkSize) (before.map (Leg.whole chunkSize)) ds) :
    ∀ d ∈ ds, d.accepting = false := by
  rw [List.forall₂_map_left_iff] at h
  induction h with
  | nil => exact fun _ hd => nomatch hd
  | cons hl _ ih =>
    intro d hd
    rcases List.mem_cons.mp hd with rfl | hd
    · rw [hl.accepting]
      exact decide_eq_false (Nat.lt_irrefl _)
    · exact ih d hd

/-- The chunk that was asked for last is accepted, when the other packs were sent in full. -/
theorem receive {before : List Pack} {p : Pack} {g : Nat}
    (h : Gathering content chunkSize rest (before.map (Leg.whole chunkSize) ++ [⟨p, g, g + 1⟩]) f)
    (hp : p.Parcels (content p) chunkSize) (hg : g < Download.ceiling p.size chunkSize)
    {c : ChunkData} (hc : c.Brings p (content p) chunkSize g) :
    ∃ f', f.takeChunk c = (f', none) ∧ f'.ignored = f.ignored ∧ f'.remaining = f.remaining ∧
      Gathering content chunkSize rest (before.map (Leg.whole chunkSize) ++ [⟨p, g + 1, g + 1⟩])
        f' := by
  obtain ⟨ds, d, es, hsplit, hfront, hl, hback⟩ := h.split_leg
  have hd : d.At p (content p) chunkSize g (g + 1) := hl
  obtain ⟨haccept, hput⟩ := hd.accept hp hg hc.index hc.data
  obtain rfl := List.forall₂_nil_left_iff.mp hback
  have huuid : PackId.uuidOf? c.uuid = some p.id.uuid := by rw [hc.uuid, PackId.uuidOf?_token]
  have hclosed : ∀ e ∈ ds, Fetch.takes p.id.uuid e = false := by
    intro e he
    rw [Fetch.takes, accepting_eq_false hfront e he, Bool.false_and]
  have htakes : Fetch.takes p.id.uuid d = true := by
    rw [Fetch.takes, hd.accepting, hd.id, decide_eq_true hg, beq_self_eq_true, Bool.and_self]
  have hfind : f.downloads.find? (Fetch.takes p.id.uuid) = some d := by
    rw [hsplit, List.find?_append, List.find?_eq_none.mpr, Option.none_or]
    · exact List.find?_cons_of_pos htakes
    · intro e he
      rw [hclosed e he]
      exact Bool.false_ne_true
  have hmap : (f.downloads.map fun e => if Fetch.takes p.id.uuid e then d.put c else e) =
      ds ++ [d.put c] := by
    rw [hsplit, List.map_append, List.map_singleton, if_pos htakes]
    congr 1
    refine (List.map_congr_left fun e he => ?_).trans (List.map_id ds)
    rw [if_neg (by rw [hclosed e he]; exact Bool.false_ne_true)]
    rfl
  refine ⟨{ f with downloads := ds ++ [d.put c] }, ?_, rfl, rfl, ?_⟩
  · simp only [Fetch.takeChunk, huuid, hfind, haccept, hmap]
  · refine h.move hsplit hfront hput .nil ?_ ?_
    · exact hd.worker_ne hg
    · exact hd.worker_ne hg

/-! ### The end -/

/-- Some worker has something to do, when no chunk is on its way and more is missing than the packs
that are not announced. -/
theorem awake (h : Gathering content chunkSize rest legs f)
    (hsettled : ∀ l ∈ legs, l.asked = l.given) (hmore : rest.length < f.remaining) :
    ∃ (k : Nat) (d : Download), f.downloads[k]? = some d ∧ d.awake f.cancelled = true := by
  have hcount := h.count
  obtain ⟨d, hd, hrunning⟩ := List.countP_pos_iff.mp
    (show 0 < f.downloads.countP Download.running by omega)
  obtain ⟨k, hk⟩ := List.getElem?_of_mem hd
  obtain ⟨front, l, back, ds, es, hlegs, -, -, -, hl, -⟩ := h.split hk
  have hasked : l.asked = l.given :=
    hsettled l (by rw [hlegs]; exact List.mem_append_cons_self)
  refine ⟨k, d, hk, hl.awake_eq_true hasked ?_ _⟩
  exact bne_iff_ne.mp hrunning

theorem map_pack {ds : List Download}
    (h : List.Forall₂ (Leg.Describes content chunkSize) legs ds)
    (hended : ∀ d ∈ ds, d.worker = .ended) :
    ds.map Download.pack = legs.map fun l => l.pack.copy (content l.pack) := by
  induction h with
  | nil => rfl
  | @cons l d legs ds hl _ ih =>
    have hd := hended d List.mem_cons_self
    rw [List.map_cons, List.map_cons, ih fun e he => hended e (List.mem_cons_of_mem d he),
      Download.pack, hl.data_eq hd, hl.id, hl.contentKey]
    rfl

/-- **In the end the client has the packs that it took.** -/
theorem resolved_perm (h : Gathering content chunkSize [] legs f) (hremaining : f.remaining = 0) :
    f.resolved.Perm (legs.map fun l => l.pack.copy (content l.pack)) := by
  have hcount := h.count
  have hended : ∀ d ∈ f.downloads, d.worker = .ended := by
    intro d hd
    by_contra hne
    exact h.remaining_ne_zero hd hne hremaining
  have hfilter : f.downloads.filter (!·.running) = f.downloads := by
    rw [List.filter_eq_self]
    intro d hd
    rw [Download.running, hended d hd]
    rfl
  have hresolved := h.resolved
  rw [hfilter, map_pack h.downloads hended] at hresolved
  exact hresolved

end Gathering

end PackExchange
