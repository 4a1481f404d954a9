import Mathlib.Algebra.Group.Nat.Defs
import Mathlib.Tactic.Tauto
import PackExchange.Packet.Envelope
import PackExchange.Proofs.Wire.RoundTrip

/-!
# Packets that survive being sent

A packet is representable if encoding it loses nothing.  The condition is spelled out field by
field, and turns out to be exactly what reading can give back.

* `Packet.texts`, `Packet.blobs`, `Packet.counts` — the parts of a packet that carry a length;
* `Packet.Representable` — the packets of a revision that lose nothing;
* `Packet.echo` — a packet that was encoded, split off its header again and decoded;
* `Packet.fits_iff` — a packet of a known kind is representable if its body fits its layout;
* `echo_representable_iff` — the round trip, in both directions.
-/

namespace PackExchange

/-! ### The parts that carry a length -/

/-- The texts of a catalog entry. -/
def CatalogEntry.texts (e : CatalogEntry) : List String :=
  [e.version, e.contentKey, e.subPackName, e.contentIdentity, e.downloadUrl]

/-- The texts of an entry of the load order. -/
def StackEntry.texts (e : StackEntry) : List String := [e.uuid, e.version, e.subPackName]

namespace Packet

/-- All texts of a packet. -/
def texts : Packet → List String
  | .disconnect d => [d.message, d.filteredMessage]
  | .catalog c => c.worldTemplateVersion :: c.packs.flatMap CatalogEntry.texts
  | .legacyCatalog c => (c.behaviourPacks ++ c.texturePacks).flatMap CatalogEntry.texts
  | .stack s => s.gameVersion :: s.packs.flatMap StackEntry.texts ++ s.experiments.map (·.name)
  | .legacyStack s =>
    s.gameVersion :: (s.behaviourPacks ++ s.texturePacks).flatMap StackEntry.texts ++
      s.experiments.map (·.name)
  | .clientResponse r => r.packs
  | .packData d => [d.uuid]
  | .chunkRequest r => [r.uuid]
  | .chunkData c => [c.uuid]
  | .mobEquipment m => m.item.canBePlacedOn ++ m.item.canBreak
  | _ => []

/-- All byte runs of a packet that travel with their length. -/
def blobs : Packet → List Bytes
  | .packData d => [d.hash]
  | .chunkData c => [c.data]
  | _ => []

/-- The lengths of all lists of a packet, with the widths of their counts. -/
def counts : Packet → List (CountWidth × Nat)
  | .catalog c => [(.two, c.packs.length)]
  | .legacyCatalog c => [(.two, c.behaviourPacks.length), (.two, c.texturePacks.length)]
  | .stack s => [(.varying, s.packs.length), (.four, s.experiments.length)]
  | .legacyStack s =>
    [(.varying, s.behaviourPacks.length), (.varying, s.texturePacks.length),
      (.four, s.experiments.length)]
  | .clientResponse r => [(.two, r.packs.length)]
  | .mobEquipment m => [(.four, m.item.canBePlacedOn.length), (.four, m.item.canBreak.length)]
  | _ => []

/-! ### Representable packets -/

/-- Is the packet one that a revision makes of its id?  A packet of an unknown id counts, as long
as unknown packets are tolerated. -/
def Belongs (r : Revision) (policy : Policy) : Packet → Prop
  | .known kind _ => r.kind? kind.id = some kind
  | .unknown id _ => id < 1024 ∧ r.kind? id = none ∧ policy.disconnectOnUnknown = false

/-- Does the packet hold nothing where nothing is written?  The messages of a disconnect that
hides the screen are not written, nor is anything of an empty slot but its network id, nor is the
blocking tick of an item that is no shield. -/
def Consistent (shield : Int32) : Packet → Prop
  | .disconnect d => d.hideScreen = true → d.message = "" ∧ d.filteredMessage = ""
  | .mobEquipment m =>
    (m.item.networkId = 0 → m.item = {}) ∧
      (m.item.networkId ≠ shield → m.item.blockingTick = 0)
  | _ => True

/-- The packets of a revision that lose nothing when they are encoded. -/
structure Representable (r : Revision) (policy : Policy) (p : Packet) : Prop where
  belongs : p.Belongs r policy
  texts : ∀ s ∈ p.texts, s.utf8ByteSize < 2 ^ 32
  blobs : ∀ b ∈ p.blobs, b.length < 2 ^ 32
  counts : ∀ c ∈ p.counts, c.2 ≤ c.1.most ∧ (policy.limits = true → c.2 ≤ 1024)
  consistent : p.Consistent policy.shield

end Packet

open Packet

/-! ### Layouts and representable bodies -/

theorem Item.restLayout_counted (shield networkId : Int32) :
    (Item.restLayout shield networkId).Counted := by
  rw [Item.restLayout]
  split
  · trivial
  · simp only [Layout.Counted, Layout.Solid, true_and, Item.tick]
    intros
    split <;> trivial

/-- Every element of a list in a packet takes a byte at least. -/
theorem Packet.Kind.layout_counted (shield : Int32) (kind : Kind) :
    (kind.layout shield).Counted := by
  cases kind with
  | disconnect =>
    refine ⟨trivial, fun _ => ⟨trivial, fun hideScreen => ?_⟩⟩
    cases hideScreen with
    | false => exact ⟨trivial, fun _ => trivial⟩
    | true => trivial
  | mobEquipment =>
    have hitem : (Item.layout shield).Counted := ⟨trivial, Item.restLayout_counted shield⟩
    exact ⟨trivial, fun _ => ⟨hitem, fun _ => ⟨trivial, fun _ => ⟨trivial, fun _ => trivial⟩⟩⟩⟩
  | _ => simp [Kind.layout, SettingsRequest.layout, NetworkSettings.layout, PlayStatus.layout,
      Catalog.layout, CatalogEntry.layout, PackStack.layout, StackEntry.layout, Experiment.layout,
      LegacyCatalog.layout, LegacyPackStack.layout, ClientResponse.layout, PackData.layout,
      ChunkRequest.layout, ChunkData.layout, TickSync.layout, Layout.Counted, Layout.Solid]

theorem CatalogEntry.fits_iff (limits : Bool) (e : CatalogEntry) :
    CatalogEntry.layout.Fits limits e ↔ ∀ s ∈ e.texts, s.utf8ByteSize < 2 ^ 32 := by
  simp [CatalogEntry.layout, Layout.Fits, Scalar.Fits, CatalogEntry.texts, Bytes.length_ofText,
    UInt32.size]

theorem StackEntry.fits_iff (limits : Bool) (e : StackEntry) :
    StackEntry.layout.Fits limits e ↔ ∀ s ∈ e.texts, s.utf8ByteSize < 2 ^ 32 := by
  simp [StackEntry.layout, Layout.Fits, Scalar.Fits, StackEntry.texts, Bytes.length_ofText,
    UInt32.size]

theorem Experiment.fits_iff (limits : Bool) (e : Experiment) :
    Experiment.layout.Fits limits e ↔ e.name.utf8ByteSize < 2 ^ 32 := by
  simp [Experiment.layout, Layout.Fits, Scalar.Fits, Bytes.length_ofText, UInt32.size]

theorem Disconnect.fits_iff (limits : Bool) (d : Disconnect) :
    Disconnect.layout.Fits limits d ↔
      (d.message.utf8ByteSize < 2 ^ 32 ∧ d.filteredMessage.utf8ByteSize < 2 ^ 32) ∧
        (d.hideScreen = true → d.message = "" ∧ d.filteredMessage = "") := by
  obtain ⟨reason, hideScreen, message, filtered⟩ := d
  cases hideScreen with
  | false =>
    simp [Disconnect.layout, Disconnect.messages, Layout.Fits, Scalar.Fits, Bytes.length_ofText,
      UInt32.size]
  | true =>
    simp only [Disconnect.layout, Disconnect.messages, Layout.Fits, Scalar.Fits, if_true,
      Prod.mk.injEq, true_and, true_implies, iff_and_self]
    rintro ⟨rfl, rfl⟩
    decide

theorem Item.tick_fits_iff (shield networkId : Int32) (limits : Bool) (tick : Int64) :
    (Item.tick shield networkId).Fits limits tick ↔ (networkId ≠ shield → tick = 0) := by
  rw [Item.tick]
  split
  · next h => exact ⟨fun _ hne => absurd h hne, fun _ => trivial⟩
  · next h => exact ⟨fun htick _ => htick, fun htick => htick h⟩

theorem Item.fits_iff (shield : Int32) (limits : Bool) (i : Item) :
    (Item.layout shield).Fits limits i ↔
      (∀ s ∈ i.canBePlacedOn ++ i.canBreak, s.utf8ByteSize < 2 ^ 32) ∧
        (CountWidth.four.Admits limits i.canBePlacedOn.length ∧
          CountWidth.four.Admits limits i.canBreak.length) ∧
        (i.networkId = 0 → i = {}) ∧ (i.networkId ≠ shield → i.blockingTick = 0) := by
  obtain ⟨networkId, count, metadata, stackId, blockId, placedOn, breaks, tick⟩ := i
  by_cases hzero : networkId = 0
  · subst hzero
    simp only [Item.layout, Item.restLayout, Layout.Fits, Scalar.Fits, if_true, Prod.mk.injEq,
      true_and, true_implies, Item.mk.injEq]
    constructor
    · rintro ⟨rfl, rfl, rfl, rfl, rfl, rfl, rfl⟩
      simp [CountWidth.Admits]
    · rintro ⟨-, -, h, -⟩
      exact h
  · have hstack : (Layout.optional (.scalar .varInt32)).Fits limits stackId := by
      cases stackId <;> trivial
    simp only [hzero, false_implies, true_and, List.forall_mem_append]
    constructor
    · rintro ⟨-, h⟩
      simp only [Item.restLayout, if_neg hzero] at h
      obtain ⟨-, -, -, -, ⟨hplaced, htexts⟩, ⟨hbreaks, htexts'⟩, htick⟩ := h
      exact ⟨⟨htexts, htexts'⟩, ⟨hplaced, hbreaks⟩, (Item.tick_fits_iff _ _ _ _).mp htick⟩
    · rintro ⟨⟨htexts, htexts'⟩, ⟨hplaced, hbreaks⟩, htick⟩
      refine ⟨trivial, ?_⟩
      simp only [Item.restLayout, if_neg hzero]
      exact ⟨trivial, trivial, hstack, trivial, ⟨hplaced, htexts⟩, ⟨hbreaks, htexts'⟩,
        (Item.tick_fits_iff _ _ _ _).mpr htick⟩

/-- **A body fits its layout exactly if it loses nothing.** -/
theorem Packet.fits_iff (policy : Policy) (kind : Packet.Kind) (body : kind.Body) :
    (kind.layout policy.shield).Fits policy.limits body ↔
      (∀ s ∈ (Packet.known kind body).texts, s.utf8ByteSize < 2 ^ 32) ∧
      (∀ b ∈ (Packet.known kind body).blobs, b.length < 2 ^ 32) ∧
      (∀ c ∈ (Packet.known kind body).counts, c.1.Admits policy.limits c.2) ∧
      (Packet.known kind body).Consistent policy.shield := by
  cases kind with
  | disconnect =>
    show Disconnect.layout.Fits policy.limits body ↔ _
    simp [Disconnect.fits_iff, texts, blobs, counts, Consistent]
  | mobEquipment =>
    have hitem := Item.fits_iff policy.shield policy.limits body.item
    simp only [Kind.layout, MobEquipment.layout, Layout.Fits, Scalar.Fits, true_and, and_true,
      hitem]
    simp [texts, blobs, counts, Consistent]
  | catalog =>
    simp [Kind.layout, Catalog.layout, Layout.Fits, Scalar.Fits, texts, blobs, counts, Consistent,
      CatalogEntry.fits_iff, Bytes.length_ofText, UInt32.size]
    tauto
  | legacyCatalog =>
    simp [Kind.layout, LegacyCatalog.layout, Layout.Fits, Scalar.Fits, texts, blobs, counts,
      Consistent, CatalogEntry.fits_iff, or_imp, forall_and]
    tauto
  | stack =>
    simp [Kind.layout, PackStack.layout, Layout.Fits, Scalar.Fits, texts, blobs, counts,
      Consistent, StackEntry.fits_iff, Experiment.fits_iff, Bytes.length_ofText, UInt32.size,
      or_imp, forall_and]
    tauto
  | legacyStack =>
    simp [Kind.layout, LegacyPackStack.layout, Layout.Fits, Scalar.Fits, texts, blobs, counts,
      Consistent, StackEntry.fits_iff, Experiment.fits_iff, Bytes.length_ofText, UInt32.size,
      or_imp, forall_and]
    tauto
  | _ =>
    simp [Kind.layout, SettingsRequest.layout, NetworkSettings.layout, PlayStatus.layout,
      ClientResponse.layout, PackData.layout, ChunkRequest.layout, ChunkData.layout,
      TickSync.layout, Layout.Fits, Scalar.Fits, texts, blobs, counts, Consistent, and_comm,
      Bytes.length_ofText, UInt32.size]

/-! ### Headers -/

namespace Header

theorem packetId_ofWord_lt (w : UInt32) : (ofWord w).packetId < 1024 := by
  have hw : w.toNat % 1024 < 1024 := Nat.mod_lt _ (by decide)
  show (UInt32.ofNat (w.toNat % 1024)).toNat < 1024
  rw [UInt32.toNat_ofNat']
  omega

theorem ofWord_toWord {h : Header} (hid : h.packetId < 1024) (hsender : h.sender < 4)
    (htarget : h.target < 4) : ofWord h.toWord = h := by
  obtain ⟨packetId, sender, target⟩ := h
  have hp : packetId.toNat < 1024 := hid
  have hs : sender.toNat < 4 := hsender
  have ht : target.toNat < 4 := htarget
  have hword : (toWord ⟨packetId, sender, target⟩).toNat =
      packetId.toNat + 1024 * sender.toNat + 4096 * target.toNat := by
    rw [toWord, UInt32.toNat_ofNat']
    show (packetId.toNat % 1024 + 1024 * (sender.toNat % 4) + 4096 * (target.toNat % 4)) % 2 ^ 32
      = _
    omega
  have h1 : (packetId.toNat + 1024 * sender.toNat + 4096 * target.toNat) % 1024
      = packetId.toNat := by omega
  have h2 : (packetId.toNat + 1024 * sender.toNat + 4096 * target.toNat) / 1024 % 4
      = sender.toNat := by omega
  have h3 : (packetId.toNat + 1024 * sender.toNat + 4096 * target.toNat) / 4096 % 4
      = target.toNat := by omega
  rw [ofWord, hword, h1, h2, h3, UInt32.ofNat_toNat, UInt8.ofNat_toNat, UInt8.ofNat_toNat]

end Header

/-! ### The round trip -/

/-- The header and the packets that come back when a packet is encoded, split off its header and
decoded. -/
def Packet.echo (r : Revision) (policy : Policy) (h : Header) (p : Packet) :
    Except HeaderError (Header × Except DecodeError Decoded) :=
  match RawPacket.parse (p.encode policy.shield h) with
  | .error e => .error e
  | .ok raw => .ok (raw.header, raw.decode r policy)

theorem RawPacket.parse_encode (shield : Int32) (h : Header) (p : Packet) :
    parse (p.encode shield h) = .ok ⟨.ofWord h.toWord, p.payload shield⟩ := by
  simp only [parse, Packet.encode, Header.write, Header.read?, VarInt.read32_write32]

theorem Revision.id_of_kind? {r : Revision} {id : UInt32} {kind : Packet.Kind}
    (h : r.kind? id = some kind) : kind.id = id := by
  simpa using List.find?_some h

theorem Packet.Belongs.id_lt {r : Revision} {policy : Policy} {p : Packet}
    (h : p.Belongs r policy) : p.id < 1024 := by
  cases p with
  | known kind body =>
    show kind.id < 1024
    cases kind <;> decide
  | unknown id bytes => exact h.1

/-- A representable packet comes back whole. -/
theorem Packet.Representable.decode_payload {r : Revision} {policy : Policy} {p : Packet}
    (hp : p.Representable r policy) {h : Header} (hid : h.packetId = p.id) :
    RawPacket.decode r policy ⟨h, p.payload policy.shield⟩ = .ok ⟨r.toLatest p, none⟩ := by
  cases p with
  | known kind body =>
    have hkind : r.kind? h.packetId = some kind := by
      rw [hid]
      exact hp.belongs
    have hfits : (kind.layout policy.shield).Fits policy.limits body :=
      (Packet.fits_iff policy kind body).mpr ⟨hp.texts, hp.blobs, hp.counts, hp.consistent⟩
    have hread := (kind.layout policy.shield).read_write policy.limits body []
      (kind.layout_counted policy.shield) hfits
    rw [List.append_nil] at hread
    simp only [RawPacket.decode, hkind, RawPacket.decodeKnown, Packet.payload, hread]
    rfl
  | unknown id bytes =>
    obtain ⟨-, hkind, htolerated⟩ := hp.belongs
    have hid' : h.packetId = id := hid
    simp only [RawPacket.decode, hid', hkind, htolerated, Packet.payload]
    rfl

/-- A body that was read loses nothing. -/
theorem Packet.Representable.of_read {r : Revision} {policy : Policy} {id : UInt32}
    {kind : Packet.Kind} {body : kind.Body} {bs rest : Bytes} (hkind : r.kind? id = some kind)
    (hread : (kind.layout policy.shield).read policy.limits bs = .ok (body, rest)) :
    (Packet.known kind body).Representable r policy := by
  obtain ⟨htexts, hblobs, hcounts, hconsistent⟩ :=
    (Packet.fits_iff policy kind body).mp (Layout.fits_of_read hread)
  refine ⟨?_, htexts, hblobs, hcounts, hconsistent⟩
  show r.kind? kind.id = some kind
  rw [Revision.id_of_kind? hkind]
  exact hkind

/-- Neither does a packet of an unknown id that is tolerated. -/
theorem Packet.Representable.of_unknown {r : Revision} {policy : Policy} {id : UInt32}
    (bytes : Bytes) (hid : id < 1024) (hkind : r.kind? id = none)
    (htolerated : policy.disconnectOnUnknown = false) :
    (Packet.unknown id bytes).Representable r policy := by
  have hnone : ∀ {α : Type} (P : α → Prop), ∀ a ∈ ([] : List α), P a := fun _ _ ha => nomatch ha
  exact ⟨⟨hid, hkind, htolerated⟩, hnone _, hnone _, hnone _, trivial⟩

/-- What decodes without a warning to one packet of the latest revision is representable. -/
theorem RawPacket.representable_of_decode {policy : Policy} {raw : RawPacket} {p : Packet}
    (hid : raw.header.packetId < 1024)
    (h : raw.decode .latest policy = .ok ⟨[p], none⟩) : p.Representable .latest policy := by
  simp only [decode] at h
  split at h
  · next kind hkind =>
    simp only [decodeKnown] at h
    split at h
    · cases h
    · next body rest hread =>
      split at h
      · cases h
        exact .of_read hkind hread
      · split at h <;> cases h
  · next hkind =>
    split at h
    · cases h
    · next htolerated =>
      cases h
      exact .of_unknown _ hid hkind (Bool.of_not_eq_true htolerated)

/-- **A packet comes back whole exactly if it is representable.**  Under either revision a
representable packet comes back under its own header, as the packets of the latest revision that
it stands for, without a warning; under the latest revision no other packet does. -/
theorem echo_representable_iff (r : Revision) (policy : Policy) (p : Packet) (h : Header)
    (hid : h.packetId = p.id) (hsender : h.sender < 4) (htarget : h.target < 4) :
    (p.Representable r policy → p.echo r policy h = .ok (h, .ok ⟨r.toLatest p, none⟩)) ∧
      (p.Representable .latest policy ↔ p.echo .latest policy h = .ok (h, .ok ⟨[p], none⟩)) := by
  have hforward : ∀ r : Revision, p.Representable r policy →
      p.echo r policy h = .ok (h, .ok ⟨r.toLatest p, none⟩) := by
    intro r hp
    have hword : Header.ofWord h.toWord = h := by
      apply Header.ofWord_toWord _ hsender htarget
      rw [hid]
      exact hp.belongs.id_lt
    simp only [Packet.echo, RawPacket.parse_encode, hword, hp.decode_payload hid]
  refine ⟨hforward r, fun hp => ?_, fun hecho => ?_⟩
  · exact hforward .latest hp
  · simp only [Packet.echo, RawPacket.parse_encode, Except.ok.injEq, Prod.mk.injEq] at hecho
    exact RawPacket.representable_of_decode (Header.packetId_ofWord_lt _) hecho.2

/-- A shield in the hand of a creature. -/
def Item.exampleShield : Item :=
  { networkId := 355, count := 1, stackNetworkId := some (-3), canBreak := ["stone"]
    blockingTick := 12 }

/-- The shield comes back with its blocking tick, under limits and through both sub-clients. -/
theorem echo_exampleShield :
    ∃ (policy : Policy) (p : Packet) (h : Header), p = .mobEquipment { item := .exampleShield } ∧
      h.packetId = p.id ∧ h.sender < 4 ∧ h.target < 4 ∧ p.Representable .r712 policy ∧
      p.echo .r712 policy h = .ok (h, .ok ⟨[p], none⟩) := by
  refine ⟨{ shield := 355, limits := true }, _, ⟨0x1F, 3, 2⟩, rfl, rfl, by decide, by decide, ?_⟩
  have hp : Packet.Representable .r712 { shield := 355, limits := true }
      (.mobEquipment { item := .exampleShield }) :=
    ⟨rfl, by decide, by decide, by decide, by decide, by decide⟩
  exact ⟨hp, (echo_representable_iff .r712 _ _ ⟨0x1F, 3, 2⟩ rfl (by decide) (by decide)).1 hp⟩

end PackExchange
