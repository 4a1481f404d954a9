import PackExchange.Proofs.Frame.Bounds
import PackExchange.Proofs.Packet.Size
import PackExchange.Proofs.Session.Lockstep
import PackExchange.Proofs.Session.Outcome

/-!
# Whether a client can read what a server writes

A server writes frames of any size.  A client can read those, and only those, that are no larger
than a frame may be and hold no more than a batch may.  How large they get depends on what the packs
say about themselves, on the size of the chunks, and on the client, whose name for a pack comes back
with every chunk of it.

* `Serve.Tells`, `Spoke.tells_hear` — what a server sends, whatever it reads;
* `Serve.Roomy`, `Tells.roomy` — when all of it is somewhat smaller than a frame;
* `FrameWriter.mem_carryAll` — what the writer makes of it;
* `Serve.readable` — which frames a client can read;
* `Serve.readable_hugeUrl` — **not every frame**.
-/

namespace PackExchange

/-! ### What is sent -/

/-- A chunk comes under the name that the client has asked for it by. -/
theorem Offer.uuid_of_serveChunk {o o' : Offer} {r : ChunkRequest} {sent : List Packet}
    (h : o.serveChunk r = .ok (o', sent)) {c : ChunkData} (hc : .chunkData c ∈ sent) :
    c.uuid = r.uuid := by
  have hnext : ∀ ps : List Pack, .chunkData c ∉ (o.serveNext ps).2 := by
    intro ps hmem
    cases ps with
    | nil => cases hmem
    | cons p later => cases List.mem_singleton.mp hmem
  cases hserving : o.serving with
  | none =>
    rw [serveChunk_idle hserving] at h
    cases h
  | some s =>
    simp only [serveChunk, hserving] at h
    split at h
    · cases h
    split at h
    · cases h
    split at h
    · cases h
    split at h
    · cases h
      rcases List.mem_cons.mp hc with heq | hmem
      · cases heq
        rfl
      · exact absurd hmem (hnext _)
    · cases h
      cases List.mem_singleton.mp hc
      rfl

namespace Serve

variable {s s' : Serve} {raws : List Bytes} {p : Packet}

/-- What a server may send to a client that it has read some raw packets of. -/
inductive Tells (s : Serve) (raws : List Bytes) : Packet → Prop
  | settings : Tells s raws (.networkSettings s.networkSettings)
  | status (status : PlayStatus) : Tells s raws (.playStatus status)
  | catalog : Tells s raws (.catalog (s.offer.catalog s.settings.required))
  | stack : Tells s raws (.stack s.offer.stack)
  | announcement {p : Pack} (hp : p ∈ s.offer.packs) :
      Tells s raws (.packData (s.offer.announcement p))
  /-- A chunk holds what the store gives for no more than the size of a chunk, and comes under the
  name in a raw packet. -/
  | chunk {p : Pack} {c : ChunkData} {r : ChunkRequest} {raw : Bytes} {revision : Revision}
      {n : Nat} (hp : p ∈ s.offer.packs) (hraw : raw ∈ raws)
      (hopen : openRaw revision s.settings.policy raw = .ok [.chunkRequest r])
      (huuid : c.uuid = r.uuid) (hn : n ≤ s.offer.chunkSize.toNat)
      (hdata : p.readAt n c.offset = .ok c.data) : Tells s raws (.chunkData c)

theorem Tells.mono {raws' : List Bytes} (h : s.Tells raws p) (hraws : raws ⊆ raws') :
    s.Tells raws' p := by
  cases h with
  | settings => exact .settings
  | status status => exact .status status
  | catalog => exact .catalog
  | stack => exact .stack
  | announcement hp => exact .announcement hp
  | chunk hp hraw hopen huuid hn hdata => exact .chunk hp (hraws hraw) hopen huuid hn hdata

/-- Packs on offer are announced. -/
theorem tells_serveNext {ps : List Pack} (hps : ∀ p ∈ ps, p ∈ s.offer.packs) :
    ∀ q ∈ (s.offer.serveNext ps).2, s.Tells raws q := by
  cases ps with
  | nil => exact List.forall_mem_nil _
  | cons p later =>
    intro q hq
    rw [List.mem_singleton.mp hq]
    exact .announcement (hps p List.mem_cons_self)

theorem tells_greeting : ∀ q ∈ s.greeting, s.Tells raws q := by
  rw [greeting]
  refine List.forall_mem_cons.mpr ⟨.settings, List.forall_mem_cons.mpr ⟨.status _, ?_⟩⟩
  exact List.forall_mem_cons.mpr ⟨.catalog, List.forall_mem_nil _⟩

/-- **What a raw packet makes a server send.** -/
theorem Spoke.tells {w : List Packet} (h : s.Spoke s' w) (hfresh : s.exchange = none) (raw : Bytes) :
    ∀ q ∈ (s'.take raw).sent, s.Tells [raw] q := by
  have htook := s'.took raw
  generalize s'.take raw = t at htook ⊢
  cases htook with
  | ignored | unreadable _ | left _ _ | failed _ _ => exact List.forall_mem_nil _
  | refused _ _ _ =>
    intro q hq
    rw [List.mem_singleton.mp hq]
    exact .status _
  | agreed hexchange _ _ =>
    obtain ⟨rfl, -⟩ := h.eq_nil hexchange
    exact tells_greeting
  | @answered r revision o o' sent hexchange hopen hresponded =>
    rw [Turn.sent_queued, List.forall_mem_append]
    refine ⟨?_, ?_⟩
    · cases h with
      | silent =>
        rw [hfresh] at hexchange
        cases hexchange
      | serving _ _ _ _ _ _ =>
        cases hexchange
        cases hresponded with
        | asked hstage _ _ | downloaded hstage _ | completed hstage _ => cases hstage
      | resting _ _ _ =>
        cases hexchange
        cases hresponded with
        | asked _ _ hnames =>
          rw [Offer.serveNext_resting]
          exact tells_serveNext fun p hp => hnames.mem hp
        | downloaded _ _ =>
          intro q hq
          rw [List.mem_singleton.mp hq]
          exact .stack
        | completed _ _ => exact List.forall_mem_nil _
    · intro q hq
      split at hq
      · rw [List.mem_singleton.mp hq]
        exact .status _
      · cases hq
  | @served r revision o o' sent hexchange hopen hserve =>
    have huuid : ∀ c, .chunkData c ∈ sent → c.uuid = r.uuid :=
      fun c hc => Offer.uuid_of_serveChunk hserve hc
    obtain ⟨v, c, hserving, -, hreads, hgiven⟩ := Offer.given_of_serveChunk hserve
    rw [Turn.sent_queued]
    cases h with
    | silent =>
      rw [hfresh] at hexchange
      cases hexchange
    | resting _ _ _ =>
      cases hexchange
      cases hserving
    | @serving _ _ _ _ _ before later p _ _ _ hnames _ _ _ =>
      cases hexchange
      cases hserving
      have hmem : ∀ q ∈ p :: later, q ∈ s.offer.packs :=
        fun q hq => hnames.mem (List.mem_append_right before hq)
      have hchunk : .chunkData c ∈ sent → s.Tells [raw] (.chunkData c) := fun hc =>
        .chunk (hmem p List.mem_cons_self) (List.mem_singleton_self raw) hopen (huuid c hc)
          (Nat.min_le_left _ _) hreads.data
      cases hgiven with
      | last _ =>
        rw [Offer.serveNext_busy] at hchunk ⊢
        refine List.forall_mem_cons.mpr ⟨hchunk List.mem_cons_self, ?_⟩
        exact tells_serveNext fun p hp => hmem p (List.mem_cons_of_mem _ hp)
      | inner _ _ =>
        refine List.forall_mem_cons.mpr ⟨hchunk List.mem_cons_self, List.forall_mem_nil _⟩

/-- **What any raw packets make it send.** -/
theorem Spoke.tells_hear {w : List Packet} (h : s.Spoke s' w) (hfresh : s.exchange = none)
    (raws : List Bytes) : ∀ q ∈ (role.hear s' raws).sent, s.Tells raws q := by
  induction raws generalizing s' w with
  | nil => exact List.forall_mem_nil _
  | cons raw raws ih =>
    have hfirst : ∀ q ∈ (s'.take raw).sent, s.Tells (raw :: raws) q := fun q hq =>
      (h.tells hfresh raw q hq).mono (List.cons_subset_cons raw (List.nil_subset raws))
    rw [hear_cons]
    cases hending : (s'.take raw).ending with
    | some e =>
      rw [Turn.andThen_of_ended hending]
      exact hfirst
    | none =>
      rw [Turn.sent_andThen hending, List.forall_mem_append]
      refine ⟨hfirst, fun q hq => ?_⟩
      exact (ih ((h.take hfresh raw).1 hending) q hq).mono (List.subset_cons_self raw raws)

/-! ### How large it gets -/

/-- Is all that a server sends somewhat smaller than a frame?  The stores give no more than they are
asked for, and checksums have 32 bytes. -/
structure Roomy (s : Serve) (raws : List Bytes) : Prop where
  listing : s.offer.listing + 256 ≤ Batch.roomy
  chunks : ∀ raw ∈ raws, s.offer.chunkSize.toNat + raw.length + 64 ≤ Batch.roomy
  stores : ∀ p ∈ s.offer.packs, ∀ n offset data, p.readAt n offset = .ok data → data.length ≤ n
  checksums : ∀ p ∈ s.offer.packs, p.checksum.length = 32

/-- A packet that a server heeds was read from the payload of the raw packet that holds it. -/
theorem read_of_openRaw {r : Revision} {policy : Policy} {raw : Bytes} {kind : Packet.Kind}
    {body : kind.Body} (h : openRaw r policy raw = .ok [.known kind body])
    (hkind : kind.heeded = true) :
    ∃ payload rest, payload.length < raw.length ∧
      (kind.layout policy.shield).read policy.limits payload = .ok (body, rest) := by
  rw [openRaw] at h
  cases hparse : RawPacket.parse raw with
  | error e =>
    rw [hparse] at h
    cases h
  | ok p =>
    have hshorter : p.payload.length < raw.length := by
      rw [RawPacket.parse, Header.read?] at hparse
      cases hheader : VarInt.read32 raw with
      | error e =>
        rw [hheader] at hparse
        cases hparse
      | ok w =>
        rw [hheader] at hparse
        cases hparse
        exact VarInt.read32_shorter hheader
    simp only [hparse] at h
    cases hdecode : p.decode r policy with
    | error e =>
      simp only [hdecode] at h
      split at h <;> cases h
    | ok d =>
      simp only [hdecode, Except.ok.injEq] at h
      rcases RawPacket.of_decode hdecode with
        ⟨kind', body', rest, -, hread, hpackets, -⟩ | ⟨-, -, hpackets, -⟩
      · cases Revision.heeded_of_toLatest (hpackets.symm.trans h) hkind
        exact ⟨p.payload, rest, hshorter, hread⟩
      · rw [hpackets] at h
        cases h

/-- Packs held in memory give no more than they are asked for. -/
theorem roomy_of_archives {settings : SessionSettings} {archives : List Archive}
    {o : Offer} (ho : o = Offer.ofPacks (archives.map (·.toPack)) settings.chunkSize)
    (listing : o.listing + 256 ≤ Batch.roomy)
    (chunks : ∀ raw ∈ raws, o.chunkSize.toNat + raw.length + 64 ≤ Batch.roomy) :
    Roomy { settings, packs := archives.map (·.toPack) } raws := by
  subst ho
  have harchive : ∀ p ∈ (Offer.ofPacks (archives.map (·.toPack)) settings.chunkSize).packs,
      ∃ a : Archive, p = a.toPack := by
    intro p hp
    obtain ⟨a, -, rfl⟩ := List.mem_map.mp (List.mem_of_mem_filter hp)
    exact ⟨a, rfl⟩
  refine ⟨listing, chunks, fun p hp n offset data hdata => ?_, fun p hp => ?_⟩
  · obtain ⟨a, rfl⟩ := harchive p hp
    have hread : Archive.readAt a.data n offset = .ok data := hdata
    rw [Archive.readAt] at hread
    split at hread
    · cases hread
    · cases hread
      exact List.length_take_le _ _
  · obtain ⟨a, rfl⟩ := harchive p hp
    exact Sha256.length_digest a.data

/-- The name in a request for a chunk is no longer than the raw packet that holds it. -/
theorem size_of_chunkRequest {revision : Revision} {policy : Policy} {raw : Bytes}
    {r : ChunkRequest} (hopen : openRaw revision policy raw = .ok [.chunkRequest r]) :
    r.uuid.utf8ByteSize ≤ raw.length := by
  obtain ⟨payload, rest, hshorter, hread⟩ := read_of_openRaw hopen rfl
  have hwritten : (ChunkRequest.layout.write r).length + rest.length ≤ payload.length :=
    Layout.length_write_le hread
  simp only [ChunkRequest.layout, Layout.write, Scalar.write, Scalar.writeBlob, List.length_append,
    Bytes.length_ofText] at hwritten
  omega

/-- **What a server sends is somewhat smaller than a frame**, under any revision. -/
theorem Tells.roomy (h : s.Tells raws p) (hroomy : s.Roomy raws) (shield : Int32)
    (revision : Revision) :
    ∀ q ∈ revision.ofLatest p, (Batch.body [q.toBytes shield]).length ≤ Batch.roomy := by
  have hmost : 256 ≤ Batch.roomy := by decide
  have hlisting := hroomy.listing
  -- what comes before a packet and its payload takes ten bytes at most
  have hknown : ∀ {kind : Packet.Kind} {body : kind.Body} {n : Nat},
      (kind.layout shield).room body ≤ n → n + 10 ≤ Batch.roomy →
        (Batch.body [(Packet.known kind body).toBytes shield]).length ≤ Batch.roomy := by
    intro kind body n hroom hn
    have hlength := Packet.length_toBytes_le shield kind body
    have hword := VarInt.length_write32_le_five
      (UInt32.ofNat ((Packet.known kind body).toBytes shield).length)
    rw [Batch.body_cons, show Batch.body [] = [] from rfl, List.length_nil]
    omega
  cases h with
  | settings =>
    cases revision <;> exact List.forall_mem_singleton.mpr (hknown (Nat.le_refl 10) (by omega))
  | status status =>
    cases revision <;> exact List.forall_mem_singleton.mpr (hknown (Nat.le_refl 4) (by omega))
  | catalog =>
    cases revision with
    | r712 =>
      exact List.forall_mem_singleton.mpr (hknown (s.offer.room_legacyCatalog_le _) (by omega))
    | r729 => exact List.forall_mem_singleton.mpr (hknown (s.offer.room_catalog_le _) (by omega))
  | stack =>
    cases revision with
    | r712 => exact List.forall_mem_singleton.mpr (hknown s.offer.room_legacyStack_le (by omega))
    | r729 => exact List.forall_mem_singleton.mpr (hknown s.offer.room_stack_le (by omega))
  | announcement hp =>
    have hroom := Offer.room_announcement_le hp
    rw [hroomy.checksums _ hp] at hroom
    cases revision <;> exact List.forall_mem_singleton.mpr (hknown hroom (by omega))
  | @chunk p c r raw _ n hp hraw hopen huuid hn hdata =>
    have hname := size_of_chunkRequest hopen
    have hgiven := hroomy.stores _ hp _ _ _ hdata
    have hchunk := hroomy.chunks _ hraw
    have hroom := Nat.le_of_eq c.room_eq
    rw [huuid] at hroom
    cases revision <;> exact List.forall_mem_singleton.mpr (hknown hroom (by omega))

/-! ### What is written -/

end Serve

/-- Every batch that the writer makes holds a packet that it was to write, in the form of some
revision. -/
theorem FrameWriter.mem_carryAll {shield : Int32} {revision : Revision} {w : FrameWriter}
    {os : List Outgoing} {b : Batched} (h : b ∈ (w.carryAll shield revision os).1) :
    ∃ p ∈ os.filterMap Outgoing.packet?, ∃ revision' : Revision, ∃ q ∈ revision'.ofLatest p,
      b.packet = q.toBytes shield := by
  induction os generalizing w with
  | nil => cases h
  | cons o os ih =>
    rcases List.mem_append.mp h with hb | hb
    · cases o with
      | direct p =>
        obtain rfl := List.mem_singleton.mp hb
        exact ⟨p, List.mem_cons_self, .r729, p, List.mem_singleton_self p, rfl⟩
      | queued p =>
        obtain ⟨q, hq, rfl⟩ := List.mem_map.mp hb
        exact ⟨p, List.mem_cons_self, revision, q, hq, rfl⟩
      | compress threshold => cases hb
    · obtain ⟨p, hp, hform⟩ := ih hb
      refine ⟨p, ?_, hform⟩
      cases o with
      | direct | queued => exact List.mem_cons_of_mem _ hp
      | compress => exact hp

/-- What is sent over raw packets does not depend on what comes after them. -/
theorem Role.outgoing_hearUntil {σ ρ : Type} (role : Role σ ρ) (side : σ) (raws : List Bytes)
    (lost : Option SessionError) :
    (role.hearUntil side raws lost).outgoing = (role.hear side raws).outgoing := by
  cases lost with
  | none => rfl
  | some e =>
    rw [hearUntil, hearOut]
    cases hending : (role.hear side raws).ending with
    | none =>
      rw [Turn.andThen_of_going hending]
      exact List.append_nil _
    | some ending => rw [Turn.andThen_of_ended hending]

namespace Serve

variable {s : Serve} {raws : List Bytes} {z : Bytes → Bytes}

/-- What a server that has read some raw packets has written, with the thresholds in use. -/
def batches (s : Serve) (raws : List Bytes) : List Batched :=
  ((role.hear s raws).side.carried {} (role.hear s raws).outgoing).1

/-- A server whose packets are somewhat smaller than a frame writes nothing that cannot be sent. -/
theorem Roomy.sendable (hroomy : s.Roomy raws) (hfresh : s.exchange = none) (hmodest : Modest z) :
    ∀ b ∈ s.batches raws, Batch.Sendable z b.threshold [b.packet] := by
  intro b hb
  obtain ⟨p, hp, revision, q, hq, hpacket⟩ := FrameWriter.mem_carryAll hb
  have htells := (Spoke.silent (s := s)).tells_hear hfresh raws p hp
  refine Batch.sendable_of_roomy hmodest b.threshold (List.cons_ne_nil _ _) ?_
  rw [hpacket]
  exact htells.roomy hroomy _ revision q hq

/-- **Which frames can be read.**  Whatever happens to a server, what it has written is one frame
for each of its batches.  However the batches are compressed, a reader in the same mode takes the
packet of a frame, and goes on behind it, if and only if the frame is no larger than a frame may be
and its body, if it is compressed, no larger than a batch may be.  This is so for all of them if the
packs say less than 14 MiB about themselves, and a chunk takes less together with any packet of the
client. -/
theorem readable (hexpands : Expands z) (hmodest : Modest z) (settings : SessionSettings)
    (packs : List Pack) (raws : List Bytes) :
    let s : Serve := { settings, packs }
    (∀ lost session, (Session.begin role s []).History raws lost session →
      ∃ delivered, delivered ++ session.undelivered =
        (s.batches raws).flatMap (Batched.frame Batch.compressor)) ∧
    ∀ b ∈ s.batches raws,
      (∀ rest, FrameReader.next
            { compressed := b.threshold.isSome,
              buffered := Frame.writeWith z b.threshold [b.packet] ++ rest } =
          (.packet b.packet, { compressed := b.threshold.isSome, buffered := rest }) ↔
        Batch.Sendable z b.threshold [b.packet]) ∧
      (s.Roomy raws → Batch.Sendable z b.threshold [b.packet]) := by
  intro s
  refine ⟨?_, fun b hb => ⟨fun rest => ?_, fun hroomy => ?_⟩⟩
  · intro lost session hhistory
    obtain ⟨delivered, hdelivered⟩ := (hhistory.reacted ⟨rfl, rfl, rfl, rfl⟩).undelivered
    rw [Role.side_hearUntil, Role.outgoing_hearUntil] at hdelivered
    exact ⟨delivered, hdelivered⟩
  · exact FrameReader.next_iff hexpands hmodest b.threshold b.packet rest
  · exact hroomy.sendable rfl hmodest b hb

/-- Of what a server writes to a client that is sent one of two packs, everything can be read. -/
theorem readable_exampleRaws :
    let s : Serve :=
      { settings := { chunkSize := 3 }, packs := Offer.exampleArchives.map (·.toPack) }
    (s.batches exampleRaws).length = 7 ∧
      ∀ b ∈ s.batches exampleRaws, ∀ rest,
        FrameReader.next
            { compressed := b.threshold.isSome,
              buffered :=
                Frame.writeWith (Deflate.deflate Batch.mostBytes) b.threshold [b.packet] ++ rest } =
          (.packet b.packet, { compressed := b.threshold.isSome, buffered := rest }) := by
  intro s
  have hroomy : s.Roomy exampleRaws :=
    roomy_of_archives rfl (by decide +kernel) (by decide +kernel)
  obtain ⟨-, hreads⟩ := readable expands_deflate (modest_deflate _) s.settings s.packs exampleRaws
  refine ⟨by decide +kernel, fun b hb rest => ?_⟩
  obtain ⟨hiff, hsendable⟩ := hreads b hb
  exact (hiff rest).mpr (hsendable hroomy)

/-- What a client of the latest revision is greeted with, batch by batch. -/
theorem batches_request (hfresh : s.exchange = none) {raw : Bytes} {q : SettingsRequest}
    (hopen : openRaw .latest s.settings.policy raw = .ok [.settingsRequest q])
    (hnumber : Revision.ofNumber? q.protocol = some .r729) :
    s.batches [raw] =
      [⟨none, (Packet.networkSettings s.networkSettings).toBytes s.settings.policy.shield⟩,
        ⟨some s.settings.compressionThreshold,
          (Packet.playStatus .loginSuccess).toBytes s.settings.policy.shield⟩,
        ⟨some s.settings.compressionThreshold,
          (Packet.catalog (s.offer.catalog s.settings.required)).toBytes
            s.settings.policy.shield⟩] := by
  have htake : role.take s raw = .proceed (s.greeted .r729) s.welcome :=
    take_request hfresh hopen hnumber
  rw [batches, Role.hear_singleton, htake]
  rfl

/-- A pack whose address alone is as long as a batch may be. -/
def hugeArchive : Archive :=
  { id := ⟨⟨0, 1⟩, "1.0.0"⟩
    data := [0, 1, 2, 3, 4, 5, 6, 7, 8, 9]
    downloadUrl := String.ofList (List.replicate Batch.mostBytes '1') }

/-- The server of that pack. -/
def hugeServe : Serve := { settings := {}, packs := [hugeArchive.toPack] }

/-- A request for settings in the latest revision. -/
def hugeRequest : Bytes := (Packet.settingsRequest ⟨729⟩).toBytes 0

/-- The catalog that it writes. -/
def hugeCatalog : Batched :=
  { threshold := some 256, packet := (Packet.catalog (hugeServe.offer.catalog false)).toBytes 0 }

/-- It is written once the client has asked for settings. -/
theorem hugeCatalog_mem : hugeCatalog ∈ hugeServe.batches [hugeRequest] := by
  have hopen : openRaw .latest hugeServe.settings.policy hugeRequest =
      .ok [.settingsRequest ⟨729⟩] := rfl
  rw [batches_request rfl hopen rfl]
  exact List.mem_cons_of_mem _ (List.mem_cons_of_mem _ (List.mem_singleton_self _))

/-- Its packet is longer than a batch may be. -/
theorem length_hugeCatalog : Batch.mostBytes < hugeCatalog.packet.length := by
  have hurl : hugeArchive.downloadUrl.utf8ByteSize = Batch.mostBytes := by
    rw [hugeArchive, size_ofList, List.length_replicate]
    intro c hc
    rw [List.eq_of_mem_replicate hc]
    decide
  have hoffered : hugeArchive.toPack ∈ hugeServe.offer.packs :=
    List.mem_filter.mpr ⟨List.mem_singleton_self _, rfl⟩
  have hentry : Offer.entry hugeArchive.toPack ∈ (hugeServe.offer.catalog false).packs :=
    List.mem_map_of_mem hoffered
  have hsame : (Offer.entry hugeArchive.toPack).downloadUrl = hugeArchive.downloadUrl := rfl
  have hpayload := Catalog.size_downloadUrl_le hentry
  have hheader := Scalar.length_write32_pos
    (Header.toWord { packetId := (Packet.catalog (hugeServe.offer.catalog false)).id })
  rw [hsame, hurl] at hpayload
  show Batch.mostBytes < (VarInt.write32 _ ++ Catalog.layout.write _).length
  rw [List.length_append]
  omega

/-- **Not every frame can be read**: the catalog of that pack is not. -/
theorem readable_hugeUrl :
    ∃ b ∈ hugeServe.batches [hugeRequest],
      FrameReader.next { compressed := b.threshold.isSome, buffered := b.frame Batch.compressor } ≠
        (.packet b.packet, { compressed := b.threshold.isSome, buffered := [] }) := by
  refine ⟨hugeCatalog, hugeCatalog_mem, fun hnext => ?_⟩
  have hbody := (FrameReader.next_iff expands_deflate (modest_deflate _) hugeCatalog.threshold
    hugeCatalog.packet []).mp (by rw [List.append_nil]; exact hnext)
  have hlong := length_hugeCatalog
  have hmost := hbody.body_le
  rw [Batch.body_cons] at hmost
  omega

end Serve

end PackExchange
