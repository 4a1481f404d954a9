import PackExchange.Proofs.Transfer.Course
import PackExchange.Proofs.Transfer.Gathering

/-!
# The exchange of packs between two sides

Once the client has answered the catalog, the two sides take turns: at any moment only one of them
has packets to look at, or the worker of the pack that is being served has something to do.

* `Offer.take` — the reaction of the server's side to any packet;
* `Offer.Fair` — an offer of packs that can be sent;
* `Dialog` — where the two sides can stand, with the packets on their way in either direction;
* `Dialog.take_down`, `Dialog.take_up`, `Dialog.work` — what either side and the workers make of
  it;
* `Dialog.awake` — somebody always has something to do.
-/

namespace PackExchange

namespace Offer

/-- The reaction to a packet.  A client that has just completed the exchange is let into the
game. -/
def take (o : Offer) (p : Packet) : Except TransferError (Offer × List Packet) :=
  match p with
  | .clientResponse r =>
    match o.respond r with
    | .error e => .error e
    | .ok (o, sent) => .ok (o, if o.loggedIn then sent ++ [.playStatus .playerSpawn] else sent)
  | .chunkRequest r => o.serveChunk r
  | _ => .ok (o, [])

/-- An offer that a client can take: the packs have identifiers of their own and can be sent. -/
structure Fair (o : Offer) (content : Pack → Bytes) : Prop where
  distinct : (o.packs.map (·.id.uuid)).Nodup
  parcels : ∀ p ∈ o.packs, p.Parcels (content p) o.chunkSize

/-- The packets of an offer: announcements, chunks and the load order. -/
inductive Emits (o : Offer) : Packet → Prop
  | packData (a : PackData) : Emits o (.packData a)
  | chunkData (c : ChunkData) : Emits o (.chunkData c)
  | stack : Emits o (.stack o.stack)

/-- The packets of a client that is made an offer: requests for chunks, and answers that name no
more packs than there are. -/
inductive Elicits (o : Offer) : Packet → Prop
  | chunkRequest (r : ChunkRequest) : Elicits o (.chunkRequest r)
  | clientResponse {r : ClientResponse} (h : r.packs.length ≤ o.packs.length) :
      Elicits o (.clientResponse r)

/-- The server's side in a stage in which it serves no pack. -/
def idle (o : Offer) (stage : ServerStage) : Offer := { o with stage := stage, serving := none }

/-- The server's side while it serves a pack. -/
def serve (o : Offer) (p : Pack) (offset : UInt64) (later : List Pack) : Offer :=
  { o with stage := .servingChunks, serving := some ⟨p, offset, later⟩ }

variable {o : Offer} {filter : Option DownloadFilter} {content : Pack → Bytes}

theorem accepted_sublist (o : Offer) (filter : Option DownloadFilter) :
    (o.accepted filter).Sublist o.packs := by
  have hsub := (List.filter_sublist (p := takes filter o.packs.length)
    (l := o.packs.zipIdx)).map (·.1)
  rw [List.zipIdx_map_fst] at hsub
  exact hsub

theorem emits_serveNext (o : Offer) (ps : List Pack) : ∀ p ∈ (o.serveNext ps).2, o.Emits p := by
  intro p hp
  cases ps with
  | nil => cases hp
  | cons q ps =>
    rw [List.mem_singleton.mp hp]
    exact .packData _

/-- A client that names packs by their tokens is served them. -/
theorem respond_tokens (hdistinct : (o.packs.map (·.id.uuid)).Nodup)
    (hsome : o.accepted filter ≠ []) :
    (o.idle .awaitingResponse).respond
        ⟨Answer.sendPacks.code, (o.accepted filter).map (·.id.token)⟩ =
      .ok (o.serveNext (o.accepted filter)) := by
  have hsub := o.accepted_sublist filter
  have hresolve : (o.idle .awaitingResponse).resolve ((o.accepted filter).map (·.id.token)) [] =
      .ok ([].reverse ++ o.accepted filter) := by
    refine resolve_tokens (o := o.idle .awaitingResponse) hdistinct ?_ ?_
    · exact fun _ hp => hsub.subset hp
    · exact hdistinct.sublist (hsub.map _)
  have hcode : Answer.ofCode? Answer.sendPacks.code = some .sendPacks := rfl
  rw [respond]
  simp only [hresolve, hcode]
  cases haccepted : o.accepted filter with
  | nil => exact absurd haccepted hsome
  | cons p ps => rfl

theorem Fair.of_accepted (h : o.Fair content) {p : Pack} (hp : p ∈ o.accepted filter) :
    p.Parcels (content p) o.chunkSize :=
  h.parcels p ((o.accepted_sublist filter).subset hp)

/-- The packs up to the one that is being served can be sent. -/
theorem Fair.of_split (h : o.Fair content) {before rest : List Pack} {p : Pack}
    (hsplit : o.accepted filter = before ++ p :: rest) :
    ∀ q ∈ p :: before, q.Parcels (content q) o.chunkSize := by
  intro q hq
  have hmem : q ∈ o.accepted filter := by
    rw [hsplit, List.mem_append, List.mem_cons]
    rcases List.mem_cons.mp hq with rfl | hq
    · exact Or.inr (Or.inl rfl)
    · exact Or.inl hq
  exact h.of_accepted hmem

theorem Fair.distinct_accepted (h : o.Fair content) (filter : Option DownloadFilter) :
    ((o.accepted filter).map (·.id.uuid)).Nodup :=
  h.distinct.sublist ((o.accepted_sublist filter).map _)

end Offer

/-- Where the two sides can stand after the catalog: the server's side, the client's side, and the
packets on their way to the client and to the server. -/
inductive Dialog (content : Pack → Bytes) (filter : Option DownloadFilter) (base : Offer) :
    Offer → Fetch → List Packet → List Packet → Prop
  /-- The client has asked for packs. -/
  | asked {f : Fetch} (hsome : base.accepted filter ≠ [])
      (h : Gathering content base.chunkSize (base.accepted filter) [] f) :
      Dialog content filter base (base.idle .awaitingResponse) f []
        [.clientResponse ⟨Answer.sendPacks.code, (base.accepted filter).map (·.id.token)⟩]
  /-- The server goes on to the next pack. -/
  | next {o : Offer} {f : Fetch} {down : List Packet} {before rest : List Pack}
      (hsplit : base.accepted filter = before ++ rest) (hnext : base.serveNext rest = (o, down))
      (h : Gathering content base.chunkSize rest (before.map (Leg.whole base.chunkSize)) f)
      (hmissing : f.remaining ≠ 0) : Dialog content filter base o f down []
  /-- The worker has been given the chunks it asked for. -/
  | given {f : Fetch} {before rest : List Pack} {p : Pack} {offset : UInt64} {k : Nat}
      (hsplit : base.accepted filter = before ++ p :: rest)
      (hoffset : offset.toNat = k * base.chunkSize.toNat)
      (hk : k < Download.ceiling p.size base.chunkSize)
      (h : Gathering content base.chunkSize rest
        (before.map (Leg.whole base.chunkSize) ++ [⟨p, k, k⟩]) f) :
      Dialog content filter base (base.serve p offset rest) f [] []
  /-- It has asked for the next one. -/
  | requested {f : Fetch} {before rest : List Pack} {p : Pack} {offset : UInt64} {k : Nat}
      {r : ChunkRequest} (hsplit : base.accepted filter = before ++ p :: rest)
      (hoffset : offset.toNat = k * base.chunkSize.toNat)
      (hk : k < Download.ceiling p.size base.chunkSize) (hr : r.Asks p k)
      (h : Gathering content base.chunkSize rest
        (before.map (Leg.whole base.chunkSize) ++ [⟨p, k, k + 1⟩]) f) :
      Dialog content filter base (base.serve p offset rest) f [] [.chunkRequest r]
  /-- The server has sent it. -/
  | served {f : Fetch} {before rest : List Pack} {p : Pack} {offset : UInt64} {k : Nat}
      {c : ChunkData} (hsplit : base.accepted filter = before ++ p :: rest)
      (hoffset : offset.toNat = (k + 1) * base.chunkSize.toNat)
      (hk : k + 1 < Download.ceiling p.size base.chunkSize)
      (hc : c.Brings p (content p) base.chunkSize k)
      (h : Gathering content base.chunkSize rest
        (before.map (Leg.whole base.chunkSize) ++ [⟨p, k, k + 1⟩]) f) :
      Dialog content filter base (base.serve p offset rest) f [.chunkData c] []
  /-- The server has sent the last one, and goes on. -/
  | last {o : Offer} {f : Fetch} {down : List Packet} {before rest : List Pack} {p : Pack} {k : Nat}
      {c : ChunkData} (hsplit : base.accepted filter = before ++ p :: rest)
      (hnext : base.serveNext rest = (o, down))
      (hk : k + 1 = Download.ceiling p.size base.chunkSize)
      (hc : c.Brings p (content p) base.chunkSize k)
      (h : Gathering content base.chunkSize rest
        (before.map (Leg.whole base.chunkSize) ++ [⟨p, k, k + 1⟩]) f) :
      Dialog content filter base o f (.chunkData c :: down) []
  /-- The client has all packs. -/
  | gathered {f : Fetch}
      (h : Gathering content base.chunkSize []
        ((base.accepted filter).map (Leg.whole base.chunkSize)) f)
      (hzero : f.remaining = 0) :
      Dialog content filter base (base.idle .awaitingResponse) f []
        [.clientResponse (.plain .allPacksDownloaded)]
  /-- The server has sent the load order. -/
  | loading {f : Fetch}
      (h : Gathering content base.chunkSize []
        ((base.accepted filter).map (Leg.whole base.chunkSize)) f)
      (hzero : f.remaining = 0) :
      Dialog content filter base (base.idle .awaitingCompletion) f [.stack base.stack] []
  /-- The client has accepted it. -/
  | completed {f : Fetch}
      (h : Gathering content base.chunkSize []
        ((base.accepted filter).map (Leg.whole base.chunkSize)) f)
      (hzero : f.remaining = 0) :
      Dialog content filter base (base.idle .awaitingCompletion) { f with stage := .done } []
        [.clientResponse (.plain .completed)]
  /-- The server knows. -/
  | spawned {f : Fetch}
      (h : Gathering content base.chunkSize []
        ((base.accepted filter).map (Leg.whole base.chunkSize)) f)
      (hzero : f.remaining = 0) :
      Dialog content filter base (base.idle .loggedIn) { f with stage := .done }
        [.playStatus .playerSpawn] []

namespace Dialog

variable {content : Pack → Bytes} {filter : Option DownloadFilter} {base o : Offer} {f : Fetch}
  {down up : List Packet}

/-- What a catalog leads to. -/
theorem of_catalog
    (h : Gathering content base.chunkSize (base.accepted filter) [] f) :
    Dialog content filter base (base.idle .awaitingResponse) f []
      [.clientResponse (if base.accepted filter = [] then .plain .allPacksDownloaded
        else ⟨Answer.sendPacks.code, (base.accepted filter).map (·.id.token)⟩)] := by
  by_cases hnil : base.accepted filter = []
  · rw [if_pos hnil]
    rw [hnil] at h
    refine .gathered ?_ ?_
    · rw [hnil]
      exact h
    · have hcount := h.count
      rw [List.forall₂_nil_left_iff.mp h.downloads] at hcount
      exact hcount
  · rw [if_neg hnil]
    exact .asked hnil h

/-! ### The packets -/

theorem emits_down (h : Dialog content filter base o f down up) :
    ∀ p ∈ down, base.Emits p ∨ p = .playStatus .playerSpawn := by
  intro p hp
  cases h with
  | next hsplit hnext hg hmissing =>
    have hemits := base.emits_serveNext _ p (by rw [hnext]; exact hp)
    exact Or.inl hemits
  | served hsplit hoffset hk hc hg =>
    rw [List.mem_singleton.mp hp]
    exact Or.inl (.chunkData _)
  | last hsplit hnext hk hc hg =>
    rcases List.mem_cons.mp hp with rfl | hp
    · exact Or.inl (.chunkData _)
    · exact Or.inl (base.emits_serveNext _ p (by rw [hnext]; exact hp))
  | loading hg hzero =>
    rw [List.mem_singleton.mp hp]
    exact Or.inl .stack
  | spawned hg hzero => exact Or.inr (List.mem_singleton.mp hp)
  | _ => cases hp

theorem elicits_up (h : Dialog content filter base o f down up) : ∀ p ∈ up, base.Elicits p := by
  intro p hp
  cases h with
  | asked hsome hg =>
    rw [List.mem_singleton.mp hp]
    refine .clientResponse ?_
    rw [List.length_map]
    exact (base.accepted_sublist filter).length_le
  | requested hsplit hoffset hk hr hg =>
    rw [List.mem_singleton.mp hp]
    exact .chunkRequest _
  | gathered hg hzero | completed hg hzero =>
    rw [List.mem_singleton.mp hp]
    exact .clientResponse (Nat.zero_le _)
  | _ => cases hp

/-! ### The client's side -/

/-- **The client takes what comes next**, and nothing is wrong with it. -/
theorem take_down {p : Packet} (h : Dialog content filter base o f (p :: down) up)
    (hfair : base.Fair content) (hstage : f.stage ≠ .done)
    (hignored : f.ignored = (Selection.ofCatalog filter (base.packs.map Offer.entry)).ignored) :
    f.stage.admits p = true ∧ base.Emits p ∧ ∃ f' sent, f.take p = (f', sent, none) ∧
      f'.ignored = f.ignored ∧ Dialog content filter base o f' down (up ++ sent) := by
  cases h with
  | @next _ _ _ before rest hsplit hnext hg hmissing =>
    cases rest with
    | nil => cases hnext
    | cons q rest =>
      cases hnext
      have hq := hfair.of_split hsplit q List.mem_cons_self
      have hall := hfair.distinct_accepted filter
      rw [hsplit, List.map_append] at hall
      obtain ⟨f', htake, hg', hignored'⟩ :=
        hg.announce (List.nodup_append.mp hall).2.1 hq rfl
      refine ⟨by rw [hg.stage_eq hmissing]; rfl, .packData _, f', [], ?_, hignored',
        .given hsplit (Nat.zero_mul _).symm hq.numbered.count_pos hg'⟩
      simp only [Fetch.take, htake]
  | @served _ before rest q offset k c hsplit hoffset hk hc hg =>
    have hq := hfair.of_split hsplit q List.mem_cons_self
    have hk' : k < Download.ceiling q.size base.chunkSize := by omega
    obtain ⟨f', htake, hignored', -, hg'⟩ := hg.receive hq hk' hc
    refine ⟨by rw [hg.stage_eq (hg.ne_zero_of_last hk')]; rfl, .chunkData _, f', [], ?_,
      hignored', .given hsplit hoffset hk hg'⟩
    simp only [Fetch.take, htake]
  | @last _ _ _ before rest q k c hsplit hnext hk hc hg =>
    have hq := hfair.of_split hsplit q List.mem_cons_self
    have hk' : k < Download.ceiling q.size base.chunkSize := by omega
    have hne := hg.ne_zero_of_last hk'
    obtain ⟨f', htake, hignored', hremaining, hg'⟩ := hg.receive hq hk' hc
    have hwhole : (⟨q, k + 1, k + 1⟩ : Leg) = Leg.whole base.chunkSize q := by rw [hk]; rfl
    rw [hwhole, ← List.map_singleton, ← List.map_append] at hg'
    refine ⟨by rw [hg.stage_eq hne]; rfl, .chunkData _, f', [], ?_, hignored',
      .next ?_ hnext hg' ?_⟩
    · simp only [Fetch.take, htake]
    · rw [hsplit, List.append_assoc, List.singleton_append]
    · rw [hremaining]
      exact hne
  | loading hg hzero =>
    have hresolved := hg.resolved_perm hzero
    have htake := Fetch.takeStack_offered hfair.distinct hignored ?_
    · refine ⟨by rw [hg.stage, if_pos hzero]; rfl, .stack, { f with stage := .done }, _, ?_, rfl,
        .completed hg hzero⟩
      simp only [Fetch.take, htake]
    · intro p hp
      refine ⟨p.copy (content p), hresolved.mem_iff.mpr ?_, rfl⟩
      rw [List.map_map]
      exact List.mem_map.mpr ⟨p, hp, rfl⟩
  | spawned hg hzero => exact absurd rfl hstage

/-! ### The server's side -/

/-- **The server takes what comes next**, and nothing is wrong with it. -/
theorem take_up {p : Packet} (h : Dialog content filter base o f down (p :: up))
    (hfair : base.Fair content) :
    o.stage.admits p = true ∧ ∃ o' sent, o.take p = .ok (o', sent) ∧
      Dialog content filter base o' f (down ++ sent) up := by
  cases h with
  | asked hsome hg =>
    refine ⟨rfl, _, _, ?_, .next (List.nil_append _).symm rfl hg ?_⟩
    · simp only [Offer.take, Offer.respond_tokens hfair.distinct hsome, Offer.loggedIn_serveNext]
      rfl
    · rw [hg.count, ne_eq, Nat.add_eq_zero_iff, List.length_eq_zero_iff]
      exact fun hzero => hsome hzero.1
  | @requested _ before rest q offset k r hsplit hoffset hk hr hg =>
    have hq := hfair.of_split hsplit q List.mem_cons_self
    obtain ⟨c, hc, ⟨hmore, offset', hoffset', hserve⟩ | ⟨hlast, hserve⟩⟩ :=
      Offer.serveChunk_eq (o := base.serve q offset rest) rfl hq hoffset hk hr
    · exact ⟨rfl, _, _, hserve, .served hsplit hoffset' hmore hc hg⟩
    · have hnext : (base.serve q offset rest).serveNext rest = base.serveNext rest := by
        cases rest <;> rfl
      rw [hnext] at hserve
      exact ⟨rfl, _, _, hserve, .last hsplit rfl hlast hc hg⟩
  | gathered hg hzero => exact ⟨rfl, _, _, rfl, .loading hg hzero⟩
  | completed hg hzero => exact ⟨rfl, _, _, rfl, .spawned hg hzero⟩

/-! ### The workers -/

/-- **A worker asks only for what the server is about to send**, and the last one to resolve its
pack says so. -/
theorem work (h : Dialog content filter base o f down up) (hfair : base.Fair content) {k : Nat}
    {d : Download} (hk : f.downloads[k]? = some d) (hawake : d.awake f.cancelled = true)
    (slotFirst : Bool) :
    ∃ f' sent, f.work k slotFirst = (f', sent) ∧ f'.ignored = f.ignored ∧ f'.stage ≠ .done ∧
      Dialog content filter base o f' down (up ++ sent) := by
  have hended : d.worker ≠ .ended := by
    intro hended
    rw [Download.awake, hended] at hawake
    cases hawake
  cases h with
  | asked hsome hg =>
    have hnil := hg.downloads
    rw [List.forall₂_nil_left_iff] at hnil
    rw [hnil] at hk
    cases hk
  | @next _ _ _ before rest hsplit hnext hg hmissing =>
    have hparcels : ∀ l ∈ before.map (Leg.whole base.chunkSize),
        l.pack.Parcels (content l.pack) base.chunkSize := by
      intro l hl
      obtain ⟨p, hp, rfl⟩ := List.mem_map.mp hl
      have hmem : p ∈ base.accepted filter := by
        rw [hsplit]
        exact List.mem_append_left _ hp
      exact hfair.of_accepted hmem
    obtain ⟨f', sent, hwork, hignored, hcases⟩ := hg.work hparcels hk hawake slotFirst
    refine ⟨f', sent, hwork, hignored, ?_⟩
    rcases hcases with ⟨front, p, g, back, r, hlegs, hmore, -⟩ | ⟨rfl, hg', hmissing'⟩ |
      ⟨rfl, hg', hzero⟩
    · have hmem : (⟨p, g, g⟩ : Leg) ∈ before.map (Leg.whole base.chunkSize) := by
        rw [hlegs]
        exact List.mem_append_cons_self
      exact absurd hmem (Gathering.not_mem_whole hmore)
    · exact ⟨hg'.stage_ne, .next hsplit hnext hg' hmissing'⟩
    · have hcount := hg'.count
      obtain rfl : rest = [] := by
        rw [← List.length_eq_zero_iff]
        omega
      rw [List.append_nil] at hsplit
      cases hnext
      rw [← hsplit] at hg'
      exact ⟨hg'.stage_ne, .gathered hg' hzero⟩
  | @given _ before rest q offset n hsplit hoffset hn hg =>
    obtain ⟨f', sent, hwork, hignored, hcases⟩ :=
      hg.work_last hn (hfair.of_split hsplit) hk hawake slotFirst
    refine ⟨f', sent, hwork, hignored, ?_⟩
    rcases hcases with ⟨r, -, rfl, hr, hg'⟩ | ⟨rfl, hg'⟩
    · exact ⟨hg'.stage_ne, .requested hsplit hoffset hn hr hg'⟩
    · exact ⟨hg'.stage_ne, .given hsplit hoffset hn hg'⟩
  | requested hsplit hoffset hn hr hg =>
    obtain ⟨f', hwork, hignored, hg'⟩ :=
      hg.work_asked hn (hfair.of_split hsplit) hk hawake slotFirst
    exact ⟨f', [], hwork, hignored, hg'.stage_ne, .requested hsplit hoffset hn hr hg'⟩
  | served hsplit hoffset hn hc hg =>
    have hn' := Nat.lt_of_succ_lt hn
    obtain ⟨f', hwork, hignored, hg'⟩ :=
      hg.work_asked hn' (hfair.of_split hsplit) hk hawake slotFirst
    exact ⟨f', [], hwork, hignored, hg'.stage_ne, .served hsplit hoffset hn hc hg'⟩
  | last hsplit hnext hn hc hg =>
    have hn' := Nat.lt_of_succ_le (Nat.le_of_eq hn)
    obtain ⟨f', hwork, hignored, hg'⟩ :=
      hg.work_asked hn' (hfair.of_split hsplit) hk hawake slotFirst
    exact ⟨f', [], hwork, hignored, hg'.stage_ne, .last hsplit hnext hn hc hg'⟩
  | gathered hg hzero | loading hg hzero | completed hg hzero | spawned hg hzero =>
    exact absurd (hg.asleep hzero hk) hended

/-- **Somebody always has something to do**: when no packet is on its way, a worker has. -/
theorem awake (h : Dialog content filter base o f [] []) :
    ∃ (k : Nat) (d : Download), f.downloads[k]? = some d ∧ d.awake f.cancelled = true := by
  cases h with
  | @next _ _ _ before rest hsplit hnext hg hmissing =>
    cases rest with
    | nil =>
      refine hg.awake ?_ (Nat.pos_of_ne_zero hmissing)
      intro l hl
      obtain ⟨p, -, rfl⟩ := List.mem_map.mp hl
      rfl
    | cons q rest => cases hnext
  | @given _ before rest q offset n hsplit hoffset hn hg =>
    refine hg.awake ?_ (hg.length_lt_remaining (List.mem_append_right _ List.mem_cons_self) hn)
    intro l hl
    rcases List.mem_append.mp hl with hl | hl
    · obtain ⟨p, -, rfl⟩ := List.mem_map.mp hl
      rfl
    · rw [List.mem_singleton] at hl
      rw [hl]

/-! ### The end -/

/-- A client that is done has the packs that it takes. -/
theorem resolved_perm (h : Dialog content filter base o f down up) (hdone : f.stage = .done) :
    f.resolved.Perm ((base.accepted filter).map fun p => p.copy (content p)) := by
  cases h with
  | completed hg hzero | spawned hg hzero =>
    have hresolved := hg.resolved_perm hzero
    rw [List.map_map] at hresolved
    exact hresolved
  | asked _ hg | next _ _ hg | given _ _ _ hg | requested _ _ _ _ hg | served _ _ _ _ hg
  | last _ _ _ _ hg | gathered hg | loading hg => exact absurd hdone hg.stage_ne

/-- A server that has heard the last of such a client knows that it is done. -/
theorem loggedIn (h : Dialog content filter base o f down []) (hdone : f.stage = .done) :
    o.loggedIn = true := by
  cases h with
  | spawned hg hzero => rfl
  | next _ _ hg | given _ _ _ hg | served _ _ _ _ hg | last _ _ _ _ hg | loading hg =>
    exact absurd hdone hg.stage_ne

end Dialog

end PackExchange
