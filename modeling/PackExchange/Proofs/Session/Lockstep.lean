import PackExchange.Proofs.Session.Collecting
import PackExchange.Proofs.Session.Language

/-!
# Servers of two revisions

A server that has agreed on one revision does just what it would do under the other.  The two read
some raw packets differently, but only such as no server heeds; and every packet that is sent comes
out at the client as it was sent, or fails to, under both.

* `openRaw_heeded` — packets that a server heeds are read the same under every revision;
* `Serve.under` — a session as if another revision had been agreed on, with `Serve.hear_under`;
* `Serve.Utters` — what a server may send after the settings, with `Serve.Utters.opens`;
* `Serve.collect_hear` — what a client collects from what a server writes;
* `Serve.transparent` — the two runs beside each other.
-/

namespace PackExchange

open Packet (Kind)

/-! ### Packets that a server heeds -/

/-- Does a server react to packets of this kind, once a revision is agreed on? -/
def Packet.Kind.heeded : Kind → Bool
  | disconnect | clientResponse | chunkRequest => true
  | _ => false

/-- Such packets are the same in every revision. -/
theorem Packet.Kind.heeded_same {kind : Kind} (h : kind.heeded = true) (r : Revision) :
    r.kind? kind.id = some kind ∧
      ∀ body : kind.Body, r.toLatest (.known kind body) = [.known kind body] := by
  cases kind with
  | disconnect | clientResponse | chunkRequest =>
    cases r <;> exact ⟨rfl, fun _ => rfl⟩
  | _ => cases h

/-- What a heeded packet was decoded from. -/
theorem Revision.heeded_of_toLatest {r : Revision} {p : Packet} {kind : Kind} {body : kind.Body}
    (h : r.toLatest p = [.known kind body]) (hkind : kind.heeded = true) :
    p = .known kind body := by
  rw [toLatest.eq_def] at h
  split at h
  · rw [List.singleton_inj, Packet.known.injEq] at h
    rw [← h.1] at hkind
    cases hkind
  · rw [List.singleton_inj, Packet.known.injEq] at h
    rw [← h.1] at hkind
    cases hkind
  · cases h
  · exact List.singleton_inj.mp h

/-- So is the payload of such a packet. -/
theorem RawPacket.decode_heeded {r : Revision} {policy : Policy} {raw : RawPacket} {d : Decoded}
    {kind : Kind} {body : kind.Body} (h : raw.decode r policy = .ok d)
    (hpackets : d.packets = [.known kind body]) (hkind : kind.heeded = true) (r' : Revision) :
    raw.decode r' policy = .ok d := by
  rcases of_decode h with ⟨kind₀, body₀, rest, hbelongs, -, hfrom, -⟩ | ⟨-, -, hfrom, -⟩
  · rw [hpackets] at hfrom
    have hsource := Revision.heeded_of_toLatest hfrom.symm hkind
    obtain rfl : kind₀ = kind := (Packet.known.inj hsource).1
    have hbelongs' : r'.kind? raw.header.packetId = some kind₀ := by
      rw [← Revision.id_of_kind? hbelongs]
      exact (kind₀.heeded_same hkind r').1
    simp only [decode, hbelongs, decodeKnown, (kind₀.heeded_same hkind r).2] at h
    simp only [decode, hbelongs', decodeKnown, (kind₀.heeded_same hkind r').2]
    exact h
  · rw [hpackets] at hfrom
    cases hfrom

/-- **A packet that a server heeds is read under every revision, if it is under one.** -/
theorem openRaw_heeded {r : Revision} {policy : Policy} {raw : Bytes} {kind : Kind}
    {body : kind.Body} (h : openRaw r policy raw = .ok [.known kind body])
    (hkind : kind.heeded = true) (r' : Revision) :
    openRaw r' policy raw = .ok [.known kind body] := by
  rw [openRaw] at h ⊢
  cases hparse : RawPacket.parse raw with
  | error e =>
    rw [hparse] at h
    cases h
  | ok p =>
    simp only [hparse] at h ⊢
    cases hdecode : p.decode r policy with
    | error e =>
      simp only [hdecode] at h
      split at h <;> cases h
    | ok d =>
      simp only [hdecode, Except.ok.injEq] at h
      simp only [p.decode_heeded hdecode h hkind r', h]

/-! ### A server under another revision -/

/-- The same reaction of another side. -/
def Turn.map {σ τ ρ : Type} (f : σ → τ) (t : Turn σ ρ) : Turn τ ρ :=
  ⟨f t.side, t.outgoing, t.ending⟩

theorem Turn.map_andThen {σ τ ρ : Type} (f : σ → τ) (t : Turn σ ρ) {next : σ → Turn σ ρ}
    {next' : τ → Turn τ ρ} (h : t.ending = none → next' (f t.side) = (next t.side).map f) :
    (t.map f).andThen next' = (t.andThen next).map f := by
  cases hending : t.ending with
  | some e =>
    rw [andThen_of_ended hending, andThen_of_ended (t := t.map f) hending]
  | none =>
    rw [andThen_of_going hending, andThen_of_going (t := t.map f) hending]
    show Turn.mk (next' (f t.side)).side (t.outgoing ++ (next' (f t.side)).outgoing)
      (next' (f t.side)).ending = _
    rw [h hending]
    rfl

namespace Serve

/-- The session as if another revision had been agreed on. -/
def under (revision : Revision) (s : Serve) : Serve :=
  { s with exchange := s.exchange.map fun exchange => (revision, exchange.2) }

/-- What a server does not heed it passes over. -/
theorem react_unheeded (s : Serve) (revision : Revision) {p : Packet}
    (h : ∀ (kind : Kind) (body : kind.Body), p = .known kind body → kind.heeded = false) :
    s.react revision p = { side := s } := by
  rw [react]
  split
  · rfl
  · split
    · split
      · cases h _ _ rfl
      · cases h _ _ rfl
      · cases h _ _ rfl
      · rfl
    · rfl

theorem follow_under (s : Serve) (r r' : Revision)
    (outcome : Except TransferError (Offer × List Packet)) :
    (s.under r').follow r' outcome = (s.follow r outcome).map (under r') := by
  cases outcome with
  | ok reply => rfl
  | error e =>
    rw [follow, follow]
    split <;> rfl

theorem spawn_under (s : Serve) (r' : Revision) : (s.under r').spawn = s.spawn.map (under r') := by
  obtain ⟨settings, packs, exchange⟩ := s
  cases exchange with
  | none => rfl
  | some exchange =>
    show (if exchange.2.loggedIn then _ else _) = Turn.map _ (if exchange.2.loggedIn then _ else _)
    split <;> rfl

/-- **A reaction does not depend on the revision.** -/
theorem react_under (s : Serve) (r r' : Revision) (p : Packet) :
    (s.under r').react r' p = (s.react r p).map (under r') := by
  cases hexchange : s.exchange with
  | none =>
    have hunder : (s.under r').exchange = none := by rw [under, hexchange]; rfl
    simp only [react, hexchange, hunder]
    rfl
  | some exchange =>
    have hunder : (s.under r').exchange = some (r', exchange.2) := by rw [under, hexchange]; rfl
    simp only [react, hexchange, hunder]
    split
    · split
      · rfl
      · rw [s.follow_under r r', Turn.map_andThen]
        intro _
        exact spawn_under _ r'
      · exact s.follow_under r r' _
      · rfl
    · rfl

/-- **A server makes the same of a raw packet under every revision**, unless its policy ends
sessions over what cannot be read. -/
theorem take_under {s : Serve} (hlenient : s.settings.policy.Lenient)
    (hexchange : s.exchange.isSome = true) (r' : Revision) (raw : Bytes) :
    (s.under r').take raw = (s.take raw).map (under r') := by
  have hunder : (s.under r').exchange.isSome = true := by rw [under, Option.isSome_map, hexchange]
  have hrevision : (s.under r').revision = r' := by
    obtain ⟨exchange, hsome⟩ := Option.isSome_iff_exists.mp hexchange
    rw [revision, under, hsome]
    rfl
  by_cases hheeded : ∃ kind body, kind.heeded = true ∧
      openRaw s.revision s.settings.policy raw = .ok [.known kind body]
  · obtain ⟨kind, body, hkind, hopen⟩ := hheeded
    have hopen' := openRaw_heeded hopen hkind (s.under r').revision
    rw [take_of_singleton hopen, if_pos hexchange, take_of_singleton (s := s.under r') hopen',
      if_pos hunder, hrevision]
    exact s.react_under s.revision r' _
  · -- under neither revision is anything read that the server heeds
    have hpass : ∀ t : Serve, t.settings = s.settings → t.exchange.isSome = true →
        t.take raw = { side := t } := by
      intro t hsettings hsome
      obtain ⟨ps, hps⟩ := openRaw_of_lenient hlenient t.revision raw
      rw [← hsettings] at hps
      rcases openRaw_eq_ok hps with rfl | ⟨p, rfl⟩
      · exact take_of_nil hps
      · rw [take_of_singleton hps, if_pos hsome]
        refine t.react_unheeded _ fun kind body hp => ?_
        subst hp
        rw [Bool.eq_false_iff]
        intro hkind
        rw [hsettings] at hps
        exact hheeded ⟨kind, body, hkind, openRaw_heeded hps hkind s.revision⟩
    rw [hpass s rfl hexchange, hpass (s.under r') rfl hunder]
    rfl

/-- **And so of raw packets in a row.** -/
theorem hear_under {s : Serve} (hlenient : s.settings.policy.Lenient)
    (hexchange : s.exchange.isSome = true) (r' : Revision) (raws : List Bytes) :
    role.hear (s.under r') raws = (role.hear s raws).map (under r') := by
  induction raws generalizing s with
  | nil => rfl
  | cons raw raws ih =>
    obtain ⟨hsettings, -, hstays⟩ := (s.took raw).keeps
    rw [hear_cons, hear_cons, take_under hlenient hexchange r' raw, Turn.map_andThen]
    intro _
    rw [← hsettings] at hlenient
    exact ih hlenient (hstays hexchange).1

/-! ### What is sent -/

/-- What a server may send after the settings. -/
inductive Utters (s : Serve) : Packet → Prop
  | playStatus (p : PlayStatus) : Utters s (.playStatus p)
  | catalog : Utters s (.catalog (s.offer.catalog s.settings.required))
  | packData (a : PackData) : Utters s (.packData a)
  | chunkData (c : ChunkData) : Utters s (.chunkData c)
  | stack : Utters s (.stack s.offer.stack)

theorem Utters.of_transfers {s : Serve} {p : Packet} (h : p.transfers = true) : s.Utters p := by
  obtain ⟨a, rfl⟩ | ⟨c, rfl⟩ := Packet.eq_of_transfers h
  · exact .packData a
  · exact .chunkData c

/-- What a word consists of. -/
theorem Word.utters {s : Serve} {v : List Packet} (h : s.Word v) :
    (∃ p, v = [.playStatus p]) ∨
      ∃ rest, v = .networkSettings s.networkSettings :: rest ∧ ∀ p ∈ rest, s.Utters p := by
  have hgreeting : ∀ p ∈ s.greeting.tail, s.Utters p := by
    intro p hp
    rcases List.mem_cons.mp hp with rfl | hp
    · exact .playStatus _
    · rw [List.mem_singleton.mp hp]
      exact .catalog
  cases h with
  | refused _ => exact Or.inl ⟨_, rfl⟩
  | complete h =>
    refine Or.inr ⟨s.greeting.tail ++ _ ++ _, rfl, ?_⟩
    intro p hp
    rcases List.mem_append.mp hp with hp | hp
    · rcases List.mem_append.mp hp with hp | hp
      · exact hgreeting p hp
      · exact .of_transfers (h.transfers p hp)
    · rcases List.mem_cons.mp hp with rfl | hp
      · exact .stack
      · rw [List.mem_singleton.mp hp]
        exact .playStatus _
  | underway h _ hbefore hlast =>
    refine Or.inr ⟨s.greeting.tail ++ _ ++ _ ++ _, rfl, ?_⟩
    intro p hp
    rcases List.mem_append.mp hp with hp | hp
    · rcases List.mem_append.mp hp with hp | hp
      · rcases List.mem_append.mp hp with hp | hp
        · exact hgreeting p hp
        · exact .of_transfers (h.transfers p hp)
      · exact .of_transfers (hbefore.transfers p hp)
    · exact .of_transfers (hlast.transfers p hp)

/-- What a client of either revision makes of a packet. -/
def opening (client : Policy) : Packet → Option (List Packet)
  | .catalog c => client.opened (.catalog c) c.packs.length
  | .stack k => client.opened (.stack k) k.packs.length
  | p => some [p]

theorem length_offer_le (s : Serve) : s.offer.packs.length ≤ s.packs.length :=
  List.length_filter_le _ _

/-- **A client of either revision makes the same of what a server says.** -/
theorem Utters.opens {s : Serve} (hcount : s.packs.length ≤ CountWidth.two.most) (client : Policy)
    {p : Packet} (h : s.Utters p) : (Outgoing.queued p).Opens client (opening client p) := by
  have hoffer := s.length_offer_le
  cases h with
  | playStatus p => exact opens_constant rfl trivial
  | packData a =>
    exact opens_constant rfl ⟨trivial, trivial, trivial, trivial, trivial, trivial, trivial⟩
  | chunkData c => exact opens_constant rfl ⟨trivial, trivial, trivial, trivial⟩
  | catalog =>
    refine opens_catalog (s.offer.catalog_plain _) ?_ client
    rw [Offer.length_catalog]
    exact Nat.le_trans hoffer hcount
  | stack =>
    refine opens_stack rfl rfl ?_ client
    have hmost : CountWidth.two.most + 1 ≤ CountWidth.varying.most := by decide
    rw [Offer.length_stack]
    omega

/-- A client that takes lists of that length makes of it what was said. -/
theorem Utters.opening_eq {s : Serve} {client : Policy}
    (hfew : client.limits = true → s.packs.length < CountWidth.countLimit) {p : Packet}
    (h : s.Utters p) : opening client p = some [p] := by
  have hoffer := s.length_offer_le
  cases h with
  | catalog =>
    refine client.opened_short (fun hlimits => ?_) _
    have := hfew hlimits
    rw [Offer.length_catalog]
    omega
  | stack =>
    refine client.opened_short (fun hlimits => ?_) _
    have := hfew hlimits
    rw [Offer.length_stack]
    omega
  | playStatus _ | packData _ | chunkData _ => rfl

/-- A client that asks for settings under a known revision is welcomed, and then heard under that
revision. -/
theorem hear_request {s : Serve} (hfresh : s.exchange = none) {raw : Bytes} {q : SettingsRequest}
    {r : Revision} (hopen : openRaw .latest s.settings.policy raw = .ok [.settingsRequest q])
    (hnumber : Revision.ofNumber? q.protocol = some r) (raws : List Bytes) :
    role.hear s (raw :: raws) =
      (Turn.proceed (s.greeted r) s.welcome).andThen fun s => role.hear s raws := by
  rw [hear_cons, take_request hfresh hopen hnumber]

/-- **What a server sends to a client that it greets**: the settings, and everything else with
compression. -/
theorem hear_agreement {s : Serve} (hfresh : s.exchange = none) {raw : Bytes} {q : SettingsRequest}
    {r : Revision} (hopen : openRaw .latest s.settings.policy raw = .ok [.settingsRequest q])
    (hnumber : Revision.ofNumber? q.protocol = some r) (raws : List Bytes) :
    ∃ ps : List Packet, (role.hear s (raw :: raws)).outgoing = agreement s.networkSettings ps ∧
      (role.hear s (raw :: raws)).sent = .networkSettings s.networkSettings :: ps ∧
      ∀ p ∈ ps, s.Utters p := by
  obtain ⟨-, v, hv, hprefix⟩ := Spoke.silent.hear hfresh (raw :: raws)
  rw [List.nil_append] at hprefix
  have hsent : (role.hear s (raw :: raws)).sent =
      s.greeting ++ (role.hear (s.greeted r) raws).sent := by
    rw [hear_request hfresh hopen hnumber, Turn.sent_andThen rfl]
    rfl
  refine ⟨s.greeting.tail ++ (role.hear (s.greeted r) raws).sent, ?_, hsent, ?_⟩
  · rw [hear_request hfresh hopen hnumber, Turn.andThen_of_going rfl]
    show s.welcome ++ (role.hear (s.greeted r) raws).outgoing = _
    rw [hear_outgoing rfl]
    rfl
  · rw [hsent] at hprefix
    rcases hv.utters with ⟨p, rfl⟩ | ⟨rest, rfl, hrest⟩
    · exact absurd (List.cons_prefix_cons.mp hprefix).1 (by simp)
    · intro p hp
      exact hrest p ((List.cons_prefix_cons.mp hprefix).2.subset hp)

/-- **What a client collects** from what a server writes to it under some revision can be said of
each packet alone, and of the packet only. -/
theorem collect_hear {z : Bytes → Bytes} (hexpands : Expands z) {s : Serve}
    (hfresh : s.exchange = none) (hcount : s.packs.length ≤ CountWidth.two.most) {raw : Bytes}
    {q : SettingsRequest} {r : Revision}
    (hopen : openRaw .latest s.settings.policy raw = .ok [.settingsRequest q])
    (hnumber : Revision.ofNumber? q.protocol = some r) (raws : List Bytes) {shield : Int32}
    {r' : Revision} (client : Policy) {pieces : List Bytes}
    (hfits : ∀ b ∈ (FrameWriter.carryAll shield r' {} (role.hear s (raw :: raws)).outgoing).1,
      b.Fits z)
    (hpieces : pieces.flatten = (FrameWriter.carryAll shield r' {}
      (role.hear s (raw :: raws)).outgoing).1.flatMap (Batched.frame z)) (n : Nat) :
    (Listener.start pieces).collect r' client n =
      firstOpened n ((role.hear s (raw :: raws)).sent.map (opening client)) := by
  obtain ⟨ps, houtgoing, hsent, hutters⟩ := hear_agreement hfresh hopen hnumber raws
  have hopens : List.Forall₂ (fun p opened => (Outgoing.queued p).Opens client opened) ps
      (ps.map (opening client)) := by
    rw [List.forall₂_map_right_iff, List.forall₂_same]
    exact fun p hp => (hutters p hp).opens hcount client
  rw [houtgoing] at hfits hpieces
  rw [hsent]
  cases n with
  | zero => rfl
  | succ n =>
    rw [Listener.collect_agreement hexpands hopens hfits hpieces n]
    rfl

/-- A client that takes lists of that length makes of every packet what was sent. -/
theorem opening_hear {s : Serve} (hfresh : s.exchange = none) {raw : Bytes} {q : SettingsRequest}
    {r : Revision} (hopen : openRaw .latest s.settings.policy raw = .ok [.settingsRequest q])
    (hnumber : Revision.ofNumber? q.protocol = some r) (raws : List Bytes) {client : Policy}
    (hfew : client.limits = true → s.packs.length < CountWidth.countLimit) :
    (role.hear s (raw :: raws)).sent.map (opening client) =
      (role.hear s (raw :: raws)).sent.map fun p => some [p] := by
  obtain ⟨ps, -, hsent, hutters⟩ := hear_agreement hfresh hopen hnumber raws
  rw [hsent, List.map_cons, List.map_cons]
  exact congrArg (_ :: ·) (List.map_congr_left fun p hp => (hutters p hp).opening_eq hfew)

/-! ### The two revisions -/

theorem lose_under (s : Serve) (r' : Revision) (e : SessionError) :
    (s.under r').lose e = s.lose e := by
  obtain ⟨settings, packs, exchange⟩ := s
  cases exchange <;> rfl

/-- The revision stays as agreed on. -/
theorem hear_agreed {s : Serve} (hsome : s.exchange.isSome = true) (raws : List Bytes) :
    ∃ o, (role.hear s raws).side.exchange = some (s.revision, o) := by
  obtain ⟨-, -, hexchange⟩ := s.hear_keeps raws
  obtain ⟨hsome', hrevision⟩ := hexchange hsome
  obtain ⟨⟨r, o⟩, ho⟩ := Option.isSome_iff_exists.mp hsome'
  refine ⟨o, ?_⟩
  rw [← hrevision, revision, ho]
  rfl

/-- A client of the latest revision that asks for settings, and sends the same after that, leads a
server to the same session under another revision. -/
theorem hear_newer {s : Serve} (hfresh : s.exchange = none)
    (hlenient : s.settings.policy.Lenient) {older newer : Bytes}
    (holder : openRaw .latest s.settings.policy older = .ok [.settingsRequest ⟨712⟩])
    (hnewer : openRaw .latest s.settings.policy newer = .ok [.settingsRequest ⟨729⟩])
    (raws : List Bytes) :
    role.hear s (newer :: raws) = (role.hear s (older :: raws)).map (under .r729) := by
  rw [hear_request hfresh hnewer rfl raws, hear_request hfresh holder rfl raws,
    ← Turn.map_andThen (under .r729) (Turn.proceed (s.greeted .r712) s.welcome)]
  · rfl
  · intro _
    exact hear_under (s := s.greeted .r712) hlenient rfl .r729 raws

/-- **A server does the same for clients of both revisions**, whatever its packs and whatever raw
packets the clients send after their request for settings.  It comes to the same offer after each of
them and to the same end, and a client of the older revision collects from what is written to it
just what one of the latest revision collects, with any number of reads, whatever compresses the
batches and however the stream is cut: everything that was sent, if its policy takes lists of that
length. -/
theorem transparent (settings : SessionSettings) (packs : List Pack)
    (hlenient : settings.policy.Lenient) (hcount : packs.length ≤ 65535) {older newer : Bytes}
    (holder : openRaw .latest settings.policy older = .ok [.settingsRequest ⟨712⟩])
    (hnewer : openRaw .latest settings.policy newer = .ok [.settingsRequest ⟨729⟩])
    (raws : List Bytes) :
    let s : Serve := { settings, packs }
    let t := role.hear s (older :: raws)
    let u := role.hear s (newer :: raws)
    (∃ o, t.side.exchange = some (.r712, o) ∧ u.side.exchange = some (.r729, o)) ∧
      t.ending = u.ending ∧
      (∀ e, (role.hearOut s (older :: raws) e).ending = (role.hearOut s (newer :: raws) e).ending) ∧
      t.sent = u.sent ∧
      ∀ (z z' : Bytes → Bytes) (client : Policy) (n : Nat) (pieces pieces' : List Bytes),
        let bs := (FrameWriter.carryAll settings.policy.shield .r712 {} t.outgoing).1
        let bs' := (FrameWriter.carryAll settings.policy.shield .r729 {} u.outgoing).1
        Expands z → Expands z' → (∀ b ∈ bs, b.Fits z) → (∀ b ∈ bs', b.Fits z') →
          pieces.flatten = bs.flatMap (Batched.frame z) →
          pieces'.flatten = bs'.flatMap (Batched.frame z') →
          (Listener.start pieces).collect .r712 client n =
              (Listener.start pieces').collect .r729 client n ∧
            ((client.limits = true → packs.length < CountWidth.countLimit) → t.sent.length ≤ n →
              (Listener.start pieces).collect .r712 client n = t.sent) := by
  intro s t u
  have hfresh : s.exchange = none := rfl
  -- the one run is the other, under another revision
  have hu : u = t.map (under .r729) := hear_newer hfresh hlenient holder hnewer raws
  refine ⟨?_, by rw [hu]; rfl, ?_, by rw [hu]; rfl, ?_⟩
  · obtain ⟨o, ho⟩ := hear_agreed (s := s.greeted .r712) rfl raws
    have hside : t.side.exchange = some (.r712, o) := by
      rw [show t = _ from hear_request hfresh holder rfl raws, Turn.andThen_of_going rfl]
      exact ho
    refine ⟨o, hside, ?_⟩
    rw [hu]
    show (t.side.under .r729).exchange = _
    rw [under, hside]
    rfl
  · intro e
    show (t.andThen _).ending = (u.andThen _).ending
    rw [hu, Turn.map_andThen (under .r729) t]
    · rfl
    · intro _
      show Turn.mk _ _ (some ((t.side.under .r729).lose e)) = _
      rw [lose_under]
      rfl
  · intro z z' client n pieces pieces' bs bs' hexpands hexpands' hfits hfits' hpieces hpieces'
    have hcollect := collect_hear hexpands hfresh hcount holder rfl raws client hfits hpieces n
    have hcollect' :=
      collect_hear hexpands' hfresh hcount hnewer rfl raws client hfits' hpieces' n
    have hsent : u.sent = t.sent := by
      rw [hu]
      rfl
    refine ⟨?_, fun hfew hlength => ?_⟩
    · rw [hcollect, hcollect']
      show firstOpened n (t.sent.map _) = firstOpened n (u.sent.map _)
      rw [hsent]
    · rw [hcollect, opening_hear hfresh holder rfl raws hfew]
      exact firstOpened_all hlength

/-- A clock comparison, which only the older revision knows, and what a client sends that fetches the
second of two packs. -/
def exampleStray : List Bytes := (Packet.tickSync {}).toBytes 0 :: exampleRaws.tail

/-- Seven packets are sent to it under either revision, and it collects all of them. -/
theorem transparent_exampleStray :
    let settings : SessionSettings := { chunkSize := 3 }
    let packs := Offer.exampleArchives.map (·.toPack)
    let request (n : Int32) : Bytes := (Packet.settingsRequest ⟨n⟩).toBytes 0
    let s : Serve := { settings, packs }
    let t := role.hear s (request 712 :: exampleStray)
    let u := role.hear s (request 729 :: exampleStray)
    let stream (r : Revision) (t : Turn Serve Unit) : Bytes :=
      (FrameWriter.carryAll 0 r {} t.outgoing).1.flatMap (Batched.frame Batch.compressor)
    t.sent.length = 7 ∧ (Listener.start [stream .r712 t]).collect .r712 {} 9 = t.sent ∧
      (Listener.start [stream .r729 u]).collect .r729 {} 9 = t.sent := by
  intro settings packs request s t u stream
  have hrequest : ∀ n : Int32, n = 712 ∨ n = 729 →
      openRaw .latest settings.policy (request n) = .ok [.settingsRequest ⟨n⟩] := by
    rintro n (rfl | rfl) <;> decide +kernel
  obtain ⟨-, -, -, -, hclients⟩ := transparent settings packs ⟨rfl, rfl⟩ (by decide)
    (hrequest 712 (Or.inl rfl)) (hrequest 729 (Or.inr rfl)) exampleStray
  have hlength : t.sent.length = 7 := by decide +kernel
  obtain ⟨hsame, hall⟩ := hclients Batch.compressor Batch.compressor {} 9 [stream .r712 t]
    [stream .r729 u] expands_deflate expands_deflate (by decide +kernel) (by decide +kernel)
    (List.append_nil _) (List.append_nil _)
  have hall := hall nofun (by show t.sent.length ≤ 9; omega)
  exact ⟨hlength, hall, hsame.symm.trans hall⟩

end Serve

end PackExchange
