import PackExchange.Proofs.Frame.RoundTrip
import PackExchange.Proofs.Session.Crossing
import PackExchange.Proofs.Session.Performing

/-!
# What a client collects

A client reads one packet after another from a stream that arrives in pieces, opens each under its
revision, and hears of compression with the settings.  What it collects can be said of each packet
alone, without the stream: it depends on the packet and on the client's policy, but not on the
revision.

* `Listener.collect` — the packets that a client collects;
* `Listener.collect_frames` — what it collects from frames, packet by packet;
* `Outgoing.Opens` — what an entry of an outbox is opened as, under every revision;
* `opens_constant`, `opens_catalog`, `opens_stack` — the packets of the exchange;
* `Listener.collect_agreement` — what a client collects from a session that agrees on compression.
-/

namespace PackExchange

/-! ### Reading and opening -/

namespace Listener

/-- Hears of compression. -/
def heed (x : Listener) : Packet → Listener
  | .networkSettings n => x.compress n.compressionThreshold
  | _ => x

/-- The packets that a client collects with at most so many reads.  It stops at the first failure. -/
def collect (revision : Revision) (policy : Policy) : Nat → Listener → List Packet
  | 0, _ => []
  | n + 1, x =>
    match x.read with
    | (.packet raw, y) =>
      match openRaw revision policy raw with
      | .error _ => []
      | .ok ps => ps ++ collect revision policy n (ps.foldl heed y)
    | _ => []

end Listener

/-- The packets at the front of what raw packets are opened as, up to the first failure. -/
def firstOpened : Nat → List (Option (List Packet)) → List Packet
  | n + 1, some ps :: rest => ps ++ firstOpened n rest
  | _, _ => []

/-- Where nothing fails all packets are collected. -/
theorem firstOpened_all {n : Nat} {ps : List Packet} (h : ps.length ≤ n) :
    firstOpened n (ps.map fun p => some [p]) = ps := by
  induction ps generalizing n with
  | nil => cases n <;> rfl
  | cons p ps ih =>
    cases n with
    | zero => exact absurd h (Nat.not_succ_le_zero _)
    | succ n =>
      rw [List.map_cons, firstOpened, ih (Nat.le_of_succ_le_succ h)]
      rfl

/-! ### Frames -/

/-- The batch that goes out. -/
def Batched.batch (z : Bytes → Bytes) (b : Batched) : Bytes :=
  Batch.writeWith z b.threshold [b.packet]

/-- A batch that fits is read as its packet, with the compression it was written with. -/
theorem Batched.Fits.read {z : Bytes → Bytes} (hexpands : Expands z) {b : Batched}
    (h : b.Fits z) : Batch.read b.threshold.isSome (b.batch z) = .ok [b.packet] :=
  Batch.read_writeWith hexpands b.threshold (Batch.length_lt_of_mem h.1) h.1

namespace Listener

variable {z : Bytes → Bytes} {revision : Revision} {policy : Policy}

theorem heed_transcript (x : Listener) (p : Packet) :
    (x.heed p).transcript = x.transcript ∨ (x.heed p).transcript = x.transcript.compress := by
  rw [heed.eq_def]
  split
  · exact Or.inr (transcript_compress x _)
  · exact Or.inl rfl

/-- A reader that compresses hears nothing new. -/
theorem foldl_heed_transcript {x : Listener} (h : x.transcript.compressed = true)
    (ps : List Packet) : (ps.foldl heed x).transcript = x.transcript := by
  induction ps generalizing x with
  | nil => rfl
  | cons p ps ih =>
    have hp : (x.heed p).transcript = x.transcript := by
      rcases x.heed_transcript p with hsame | hcompress
      · exact hsame
      · rw [hcompress, Transcript.compress, ← h]
    rw [List.foldl_cons, ih (by rw [hp]; exact h), hp]

/-- A client that reads nothing collects nothing. -/
theorem collect_ended {x : Listener} (hread : x.read.1 = .ended) (n : Nat) :
    x.collect revision policy (n + 1) = [] := by
  rw [collect, ← Prod.eta x.read, hread]

/-- What a client reads it opens. -/
theorem collect_packet {x : Listener} {raw : Bytes} (hread : x.read.1 = .packet raw) (n : Nat) :
    x.collect revision policy (n + 1) =
      match openRaw revision policy raw with
      | .error _ => []
      | .ok ps => ps ++ collect revision policy n (ps.foldl heed x.read.2) := by
  rw [collect, ← Prod.eta x.read, hread]

/-- A reader of frames takes the packet of the first one, if it was written with the compression
that the reader knows of. -/
theorem read_frame (hexpands : Expands z) {x : Listener} {b : Batched} {bs : List Batched}
    (htranscript : x.transcript =
      ⟨b.threshold.isSome, [], (b :: bs).map (Batched.batch z), []⟩) (hfits : b.Fits z) :
    x.read.1 = .packet b.packet ∧
      x.read.2.transcript = ⟨b.threshold.isSome, [], bs.map (Batched.batch z), []⟩ := by
  have hread := x.read_eq
  rw [htranscript, List.map_cons, Transcript.read_first [] (hfits.read hexpands)] at hread
  exact ⟨(Prod.mk.inj hread).1.symm, (Prod.mk.inj hread).2.symm⟩

/-- **What is collected from frames** that a reader has left to take and that were written with
compression. -/
theorem collect_compressed (hexpands : Expands z) {x : Listener} {bs : List Batched}
    (htranscript : x.transcript = ⟨true, [], bs.map (Batched.batch z), []⟩)
    (hfits : ∀ b ∈ bs, b.Fits z) (hmode : ∀ b ∈ bs, b.threshold.isSome = true) (n : Nat) :
    x.collect revision policy n =
      firstOpened n (bs.map fun b => (openRaw revision policy b.packet).toOption) := by
  induction n generalizing x bs with
  | zero => rfl
  | succ n ih =>
    cases bs with
    | nil =>
      have hread := x.read_eq
      rw [htranscript] at hread
      exact collect_ended (Prod.mk.inj hread).1.symm n
    | cons b bs =>
      have hb := hfits b List.mem_cons_self
      have hcompressed := hmode b List.mem_cons_self
      rw [← hcompressed] at htranscript
      obtain ⟨hpacket, hrest⟩ := read_frame hexpands htranscript hb
      rw [hcompressed] at hrest
      rw [collect_packet hpacket, List.map_cons]
      cases openRaw revision policy b.packet with
      | error e => rfl
      | ok ps =>
        have hheard : (ps.foldl heed x.read.2).transcript = _ :=
          (foldl_heed_transcript (by rw [hrest]) ps).trans hrest
        show ps ++ _ = ps ++ firstOpened n _
        rw [ih hheard (fun b hb => hfits b (List.mem_cons_of_mem _ hb))
          fun b hb => hmode b (List.mem_cons_of_mem _ hb)]

/-- **What is collected from the frames of a session** that agrees on compression with the first
packet. -/
theorem collect_frames (hexpands : Expands z) {pieces : List Bytes} {b : Batched}
    {bs : List Batched} {settings : NetworkSettings}
    (hpieces : pieces.flatten = (b :: bs).flatMap (Batched.frame z))
    (hfits : ∀ c ∈ b :: bs, c.Fits z) (hplain : b.threshold = none)
    (hmode : ∀ c ∈ bs, c.threshold.isSome = true)
    (hopen : openRaw revision policy b.packet = .ok [.networkSettings settings]) (n : Nat) :
    (start pieces).collect revision policy (n + 1) = .networkSettings settings ::
      firstOpened n (bs.map fun b => (openRaw revision policy b.packet).toOption) := by
  have hunread : (start pieces).unread =
      ((b :: bs).map (Batched.batch z)).flatMap Frame.ofBatch := by
    rw [unread_start, hpieces, List.flatMap_map]
    rfl
  have hframes : ∀ batch ∈ (b :: bs).map (Batched.batch z), batch.length ≤ Frame.mostBytes := by
    intro batch hbatch
    obtain ⟨c, hc, rfl⟩ := List.mem_map.mp hbatch
    exact (hfits c hc).2
  have htranscript := transcript_of_frames (x := start pieces) rfl hunread hframes
  have hmode' : (start pieces).compressed = b.threshold.isSome := by
    rw [hplain]
    rfl
  rw [hmode'] at htranscript
  obtain ⟨hpacket, hrest⟩ := read_frame hexpands htranscript (hfits b List.mem_cons_self)
  have hheard : ((start pieces).read.2.heed (.networkSettings settings)).transcript =
      ⟨true, [], bs.map (Batched.batch z), []⟩ := by
    rw [heed, transcript_compress, hrest]
    rfl
  rw [collect_packet hpacket, hopen]
  simp only [List.foldl_cons, List.foldl_nil, List.singleton_append]
  rw [collect_compressed hexpands hheard (fun c hc => hfits c (List.mem_cons_of_mem _ hc)) hmode]

end Listener

/-! ### Packet by packet -/

/-- Is an entry of the outbox written as one packet, which a client opens as this under every
revision? -/
def Outgoing.Opens (client : Policy) (o : Outgoing) (opened : Option (List Packet)) : Prop :=
  ∀ (shield : Int32) (r : Revision), ∃ raw,
    (∀ w : FrameWriter, w.carryOut shield r o = ([⟨w.threshold, raw⟩], w)) ∧
      ((Batch.body [raw]).length ≤ Batch.mostBytes → (openRaw r client raw).toOption = opened)

/-- What a client makes of a packet with a list of this length. -/
def Policy.opened (client : Policy) (p : Packet) (length : Nat) : Option (List Packet) :=
  if client.limits = true ∧ CountWidth.countLimit < length then
    if client.disconnectOnInvalid then none else some []
  else some [p]

/-- A list that is short enough for the client. -/
theorem Policy.opened_short {client : Policy} {length : Nat}
    (h : client.limits = true → length ≤ CountWidth.countLimit) (p : Packet) :
    client.opened p length = some [p] :=
  if_neg fun hlong => absurd (h hlong.1) (Nat.not_le.mpr hlong.2)

/-- A packet whose only long list has this length is opened as it was sent, or refused. -/
theorem toOption_openRaw {r : Revision} {client : Policy} {kind : Packet.Kind} {body : kind.Body}
    {p : Packet} {width : CountWidth} {n : Nat} (shield : Int32)
    (hkind : r.kind? kind.id = some kind) (hplain : kind ≠ .mobEquipment) (hn : n ≤ width.most)
    (hcountable : ∀ limits,
      (kind.layout client.shield).Countable limits body ↔ width.Admits limits n)
    (hlatest : r.toLatest (.known kind body) = [p])
    (hbody : (Batch.body [(Packet.known kind body).toBytes shield]).length ≤ Batch.mostBytes) :
    (openRaw r client ((Packet.known kind body).toBytes shield)).toOption = client.opened p n := by
  by_cases hlong : client.limits = true ∧ CountWidth.countLimit < n
  · rw [Policy.opened, if_pos hlong]
    refine openRaw_refused shield hkind hplain ((hcountable false).mpr ⟨hn, nofun⟩) ?_ hbody
    intro hshort
    exact absurd (((hcountable _).mp hshort).2 hlong.1) (Nat.not_le.mpr hlong.2)
  · have hadmits : width.Admits client.limits n :=
      ⟨hn, fun hlimits => Nat.not_lt.mp fun hlt => hlong ⟨hlimits, hlt⟩⟩
    rw [Policy.opened, if_neg hlong,
      openRaw_toBytes shield hkind hplain ((hcountable _).mpr hadmits) hbody, hlatest]
    rfl

/-- The packets that both revisions have and that hold no list. -/
theorem opens_constant {kind : Packet.Kind} (h : kind.constant = true) {client : Policy}
    {body : kind.Body} (hcountable : (kind.layout client.shield).Countable client.limits body) :
    (Outgoing.queued (.known kind body)).Opens client (some [.known kind body]) := by
  intro shield r
  obtain ⟨raw, hwrite, hopens⟩ := Packet.Kind.sends_constant h hcountable shield r
  refine ⟨raw, hwrite, fun hbody => ?_⟩
  rw [hopens hbody r]
  rfl

theorem opens_catalog {c : Catalog} (hplain : c.Plain)
    (hcount : c.packs.length ≤ CountWidth.two.most) (client : Policy) :
    (Outgoing.queued (.catalog c)).Opens client (client.opened (.catalog c) c.packs.length) := by
  intro shield r
  cases r with
  | r729 =>
    exact ⟨(Packet.catalog c).toBytes shield, fun _ => rfl,
      toOption_openRaw shield rfl (by decide) hcount (fun _ => Catalog.countable_iff) rfl⟩
  | r712 =>
    refine ⟨(Packet.legacyCatalog (Revision.catalogOfLatest c)).toBytes shield, fun _ => rfl,
      toOption_openRaw shield rfl (by decide) hcount (fun _ => hplain.countable_iff) ?_⟩
    show [Packet.catalog _] = _
    rw [hplain.catalogToLatest_catalogOfLatest]

theorem opens_stack {s : PackStack} (heditor : s.includeEditorPacks = false)
    (hexperiments : s.experiments = []) (hcount : s.packs.length ≤ CountWidth.varying.most)
    (client : Policy) :
    (Outgoing.queued (.stack s)).Opens client (client.opened (.stack s) s.packs.length) := by
  intro shield r
  cases r with
  | r729 =>
    exact ⟨Packet.toBytes shield (.stack s), fun _ => rfl, toOption_openRaw shield rfl (by decide)
      hcount (fun _ => PackStack.countable_iff hexperiments) rfl⟩
  | r712 =>
    refine ⟨Packet.toBytes shield (.legacyStack (Revision.stackOfLatest s)), fun _ => rfl,
      toOption_openRaw shield rfl (by decide) hcount
        (fun _ => LegacyPackStack.countable_iff rfl hexperiments) ?_⟩
    obtain ⟨required, packs, version, experiments, toggled, editor⟩ := s
    obtain rfl : editor = false := heditor
    rfl

/-! ### Sessions -/

/-- What a writer makes of packets that are left to it, and what they are opened as. -/
theorem FrameWriter.carryAll_queued (z : Bytes → Bytes) {client : Policy} {ps : List Packet}
    {openings : List (Option (List Packet))}
    (h : List.Forall₂ (fun p opened => (Outgoing.queued p).Opens client opened) ps openings)
    (shield : Int32) (r : Revision) (w : FrameWriter) :
    ∃ bs : List Batched, w.carryAll shield r (ps.map .queued) = (bs, w) ∧
      (∀ b ∈ bs, b.threshold = w.threshold) ∧
      ((∀ b ∈ bs, b.Fits z) →
        bs.map (fun b => (openRaw r client b.packet).toOption) = openings) := by
  induction h with
  | nil => exact ⟨[], rfl, List.forall_mem_nil _, fun _ => rfl⟩
  | @cons p opened ps openings hp _ ih =>
    obtain ⟨raw, hwrite, hopens⟩ := hp shield r
    obtain ⟨bs, hcarry, hmode, hbs⟩ := ih
    refine ⟨⟨w.threshold, raw⟩ :: bs, ?_, List.forall_mem_cons.mpr ⟨rfl, hmode⟩, ?_⟩
    · rw [List.map_cons, carryAll, hwrite]
      simp only [hcarry]
      rfl
    · intro hfits
      obtain ⟨hfit, hfits⟩ := List.forall_mem_cons.mp hfits
      rw [List.map_cons, hopens hfit.1, hbs hfits]

/-- What a session writes that agrees on compression first. -/
def agreement (settings : NetworkSettings) (ps : List Packet) : List Outgoing :=
  .direct (.networkSettings settings) :: .compress settings.compressionThreshold ::
    ps.map .queued

/-- **What a client collects from such a session** does not depend on the revision. -/
theorem Listener.collect_agreement {z : Bytes → Bytes} (hexpands : Expands z) {client : Policy}
    {settings : NetworkSettings} {ps : List Packet} {openings : List (Option (List Packet))}
    (h : List.Forall₂ (fun p opened => (Outgoing.queued p).Opens client opened) ps openings)
    {shield : Int32} {r : Revision} {pieces : List Bytes}
    (hfits : ∀ b ∈ (FrameWriter.carryAll shield r {} (agreement settings ps)).1, b.Fits z)
    (hpieces : pieces.flatten =
      (FrameWriter.carryAll shield r {} (agreement settings ps)).1.flatMap (Batched.frame z))
    (n : Nat) :
    (start pieces).collect r client (n + 1) =
      .networkSettings settings :: firstOpened n openings := by
  obtain ⟨bs, hcarry, hmode, hopened⟩ := FrameWriter.carryAll_queued z h shield r
    { threshold := some settings.compressionThreshold }
  have hframes : (FrameWriter.carryAll shield r {} (agreement settings ps)).1 =
      ⟨none, (Packet.networkSettings settings).toBytes shield⟩ :: bs := by
    show _ ++ ([] ++ (FrameWriter.carryAll shield r { threshold := _ } (ps.map .queued)).1) = _
    rw [hcarry]
    rfl
  rw [hframes] at hfits hpieces
  obtain ⟨hfirst, hrest⟩ := List.forall_mem_cons.mp hfits
  obtain ⟨raw, hwrite, hopens⟩ := sends_direct settings client shield r
  have hraw : raw = (Packet.networkSettings settings).toBytes shield := by
    have hbatched := (Prod.mk.inj (hwrite {})).1
    exact (congrArg Batched.packet (List.singleton_inj.mp hbatched)).symm
  rw [hraw] at hopens
  have hmode' : ∀ b ∈ bs, b.threshold.isSome = true := by
    intro b hb
    rw [hmode b hb]
    rfl
  rw [collect_frames hexpands hpieces hfits rfl hmode' (hopens hfirst.1 r), hopened hrest]

end PackExchange
