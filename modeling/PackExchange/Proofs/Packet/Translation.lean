import PackExchange.Proofs.Packet.RoundTrip
import PackExchange.Transfer.Stage

/-!
# Packets that go through the older revision

The older revision has forms of its own for the catalog and the load order, and one packet more.  A
packet of the latest revision is rewritten before it is sent under the older one, and rewritten back
when it was read.

* `Packet.Kind.retired` — the kinds that only the older revision has;
* `Decoded.unread` — the count of the bytes that decoding left unread;
* `RawPacket.of_decode` — where the packets come from that decoding gives, and
  `RawPacket.current_of_decode`: none of them is of a retired kind;
* `Packet.translated` — what comes back of a packet that goes through the older revision;
* `Packet.Representable.ofLatest` — what loses nothing under the latest revision loses nothing more
  than that under the older one;
* `echo_translated` — the way there and back.
-/

namespace PackExchange

open Packet (Kind)

/-! ### What decoding gives -/

/-- Is the kind one that the latest revision does not have any more? -/
def Packet.Kind.retired : Kind → Bool
  | legacyCatalog | legacyStack | tickSync => true
  | _ => false

/-- The latest revision has no retired kind. -/
theorem Revision.current_of_kind? {id : UInt32} {kind : Kind}
    (h : Revision.latest.kind? id = some kind) : kind.retired = false := by
  have hmem := List.mem_of_find?_eq_some h
  revert hmem
  cases kind <;> decide

/-- The count of the bytes that decoding left unread. -/
def Decoded.unread (d : Decoded) : Nat :=
  match d.warning with
  | some (.trailingBytes _ n) => n
  | _ => 0

/-- The packets that decoding gives are those that one known body stands for, or one unknown
packet, which leaves no byte unread. -/
theorem RawPacket.of_decode {r : Revision} {policy : Policy} {raw : RawPacket} {d : Decoded}
    (h : raw.decode r policy = .ok d) :
    (∃ kind body rest, r.kind? raw.header.packetId = some kind ∧
        (kind.layout policy.shield).read policy.limits raw.payload = .ok (body, rest) ∧
        d.packets = r.toLatest (.known kind body) ∧ d.unread = rest.length) ∨
      (r.kind? raw.header.packetId = none ∧ policy.disconnectOnUnknown = false ∧
        d.packets = [.unknown raw.header.packetId raw.payload] ∧ d.unread = 0) := by
  rw [decode] at h
  split at h
  · next kind hkind =>
    rw [decodeKnown] at h
    split at h
    · cases h
    · next body rest hread =>
      refine Or.inl ⟨kind, body, rest, hkind, hread, ?_⟩
      simp only at h
      split at h
      · next hempty =>
        cases h
        exact ⟨rfl, (List.length_eq_zero_iff.mpr (List.isEmpty_iff.mp hempty)).symm⟩
      · split at h
        · cases h
        · cases h
          exact ⟨rfl, rfl⟩
  · next hkind =>
    split at h
    · cases h
    · next htolerated =>
      cases h
      refine Or.inr ⟨hkind, Bool.of_not_eq_true htolerated, ?_, rfl⟩
      cases r <;> rfl

/-- What a known body stands for in the latest revision is at most one packet, and none of a retired
kind. -/
theorem Revision.toLatest_known {r : Revision} {id : UInt32} {kind : Kind}
    (hkind : r.kind? id = some kind) (body : kind.Body) :
    r.toLatest (.known kind body) = [] ∨
      ∃ kind' body', r.toLatest (.known kind body) = [.known kind' body'] ∧
        kind'.retired = false := by
  cases r with
  | r729 => exact Or.inr ⟨kind, body, rfl, current_of_kind? hkind⟩
  | r712 =>
    cases kind with
    | tickSync => exact Or.inl rfl
    | legacyCatalog => exact Or.inr ⟨.catalog, _, rfl, rfl⟩
    | legacyStack => exact Or.inr ⟨.stack, _, rfl, rfl⟩
    | _ => exact Or.inr ⟨_, body, rfl, rfl⟩

/-- **No packet of a retired kind is ever decoded**, whatever the bytes and the revision. -/
theorem RawPacket.current_of_decode {r : Revision} {policy : Policy} {raw : RawPacket} {d : Decoded}
    (h : raw.decode r policy = .ok d) {p : Packet} (hp : p ∈ d.packets) {kind : Kind}
    (hkind : p.kind? = some kind) : kind.retired = false := by
  rcases of_decode h with ⟨k, body, rest, hk, -, hpackets, -⟩ | ⟨-, -, hpackets, -⟩
  · rw [hpackets] at hp
    rcases Revision.toLatest_known hk body with hnone | ⟨k', body', hone, hcurrent⟩
    · rw [hnone] at hp
      cases hp
    · rw [hone, List.mem_singleton] at hp
      subst hp
      cases hkind
      exact hcurrent
  · rw [hpackets, List.mem_singleton] at hp
    subst hp
    cases hkind

/-! ### What comes back -/

/-- What comes back of a catalog: the add-ons come before the other packs, the catalog says that it
has some if it does, and there is no world template. -/
def Catalog.translated (c : Catalog) : Catalog :=
  { c with
    hasAddons := c.hasAddons || c.packs.any (·.addon)
    worldTemplateUuid := .nil
    worldTemplateVersion := ""
    packs := c.packs.filter (·.addon) ++ c.packs.filter (!·.addon) }

/-- What comes back of a load order: it includes no editor packs. -/
def PackStack.translated (s : PackStack) : PackStack := { s with includeEditorPacks := false }

/-- What comes back of a packet that goes through the older revision. -/
def Packet.translated : Packet → Packet
  | .catalog c => .catalog c.translated
  | .stack s => .stack s.translated
  | p => p

/-- No entry of a catalog is lost, doubled or altered. -/
theorem Catalog.translated_perm (c : Catalog) : c.translated.packs.Perm c.packs :=
  List.filter_append_perm CatalogEntry.addon c.packs

/-- Rewriting a catalog for the older revision and back sorts its entries. -/
theorem Revision.catalogToLatest_catalogOfLatest (c : Catalog) :
    catalogToLatest (catalogOfLatest c) = c.translated := by
  have hmarked : (c.packs.filter (·.addon)).map (fun e => { e with addon := true }) =
      c.packs.filter (·.addon) := by
    have hsame : ∀ e ∈ c.packs.filter (·.addon), { e with addon := true } = id e := by
      intro e he
      have haddon : e.addon = true := (List.mem_filter.mp he).2
      show { e with addon := true } = e
      rw [← haddon]
    rw [List.map_congr_left hsame, List.map_id]
  have hsome : (!(c.packs.filter (·.addon)).isEmpty) = c.packs.any (·.addon) := by
    rw [Bool.eq_iff_iff]
    simp [List.filter_eq_nil_iff]
  simp only [catalogToLatest, catalogOfLatest, hmarked, hsome, Catalog.translated]

/-! ### What can be sent -/

/-- **A packet that loses nothing under the latest revision** is one packet of the older revision,
which loses nothing either and stands for what comes back. -/
theorem Packet.Representable.ofLatest {policy : Policy} {kind : Kind} {body : kind.Body}
    (hp : (Packet.known kind body).Representable .latest policy) :
    ∃ q, Revision.r712.ofLatest (.known kind body) = [q] ∧ q.id = kind.id ∧
      q.Representable .r712 policy ∧
      Revision.r712.toLatest q = [(Packet.known kind body).translated] := by
  obtain ⟨hbelongs, htexts, hblobs, hcounts, hconsistent⟩ := hp
  cases kind with
  | catalog =>
    refine ⟨.legacyCatalog (Revision.catalogOfLatest body), rfl, rfl,
      ⟨rfl, ?_, hblobs, ?_, trivial⟩, ?_⟩
    · intro s hs
      obtain ⟨e, he, hs⟩ := List.mem_flatMap.mp hs
      have hmem : e ∈ body.packs := by
        rcases List.mem_append.mp he with he | he
        · exact (List.mem_filter.mp he).1
        · exact (List.mem_filter.mp he).1
      exact htexts s (List.mem_cons_of_mem _ (List.mem_flatMap.mpr ⟨e, hmem, hs⟩))
    · have hpacks := hcounts (.two, body.packs.length) (List.mem_singleton_self _)
      have hpart : ∀ q : CatalogEntry → Bool, (body.packs.filter q).length ≤ CountWidth.two.most ∧
          (policy.limits = true → (body.packs.filter q).length ≤ 1024) := by
        intro q
        have hle := List.length_filter_le q body.packs
        exact ⟨Nat.le_trans hle hpacks.1, fun hlimits => Nat.le_trans hle (hpacks.2 hlimits)⟩
      show ∀ c ∈ [(CountWidth.two, (body.packs.filter (·.addon)).length),
        (CountWidth.two, (body.packs.filter (!·.addon)).length)], _
      simp only [List.forall_mem_cons]
      exact ⟨hpart _, hpart _, List.forall_mem_nil _⟩
    · show [Packet.catalog (Revision.catalogToLatest (Revision.catalogOfLatest body))] = _
      rw [Revision.catalogToLatest_catalogOfLatest]
      rfl
  | stack =>
    refine ⟨.legacyStack (Revision.stackOfLatest body), rfl, rfl,
      ⟨rfl, htexts, hblobs, ?_, trivial⟩, rfl⟩
    show ∀ c ∈ [(CountWidth.varying, 0), (CountWidth.varying, body.packs.length),
      (CountWidth.four, body.experiments.length)], _
    rw [List.forall_mem_cons]
    exact ⟨⟨Nat.zero_le _, fun _ => Nat.zero_le _⟩, hcounts⟩
  | legacyCatalog | legacyStack | tickSync =>
    have hcurrent := Revision.current_of_kind? hbelongs
    cases hcurrent
  | _ => exact ⟨_, rfl, rfl, ⟨rfl, htexts, hblobs, hcounts, hconsistent⟩, rfl⟩

/-- A representable packet comes back under its own header. -/
theorem Packet.Representable.echo_eq {r : Revision} {policy : Policy} {p : Packet}
    (hp : p.Representable r policy) {h : Header} (hid : h.packetId = p.id) (hsender : h.sender < 4)
    (htarget : h.target < 4) : p.echo r policy h = .ok (h, .ok ⟨r.toLatest p, none⟩) := by
  have hlt : h.packetId < 1024 := by
    rw [hid]
    exact hp.belongs.id_lt
  have hword := Header.ofWord_toWord hlt hsender htarget
  simp only [echo, RawPacket.parse_encode, hword, hp.decode_payload hid]

/-! ### The way there and back -/

/-- **A packet goes through the older revision.**  What the latest revision can make and send is
rewritten to one packet, which comes back without a warning as the packet itself; but a catalog
comes back with its add-ons in front and without a world template, and a load order without editor
packs.  No bytes are ever read as a packet of a retired kind, under either revision. -/
theorem echo_translated (policy : Policy) (kind : Kind) (body : kind.Body) (h : Header)
    (hp : (Packet.known kind body).Representable .latest policy)
    (hid : h.packetId = kind.id) (hsender : h.sender < 4) (htarget : h.target < 4) :
    (Revision.r712.ofLatest (.known kind body)).map (fun q => q.echo .r712 policy h) =
        [.ok (h, .ok ⟨[(Packet.known kind body).translated], none⟩)] ∧
      (∀ c : Catalog, c.translated.packs.Perm c.packs) ∧
      ∀ (r : Revision) (policy' : Policy) (bs : Bytes) (raw : RawPacket) (d : Decoded),
        RawPacket.parse bs = .ok raw → raw.decode r policy' = .ok d →
          ∀ p ∈ d.packets, p.kind? ≠ some .legacyCatalog ∧ p.kind? ≠ some .legacyStack ∧
            p.kind? ≠ some .tickSync := by
  refine ⟨?_, Catalog.translated_perm, ?_⟩
  · obtain ⟨q, hq, hqid, hrepresentable, hback⟩ := hp.ofLatest
    rw [hq, List.map_singleton, hrepresentable.echo_eq (hid.trans hqid.symm) hsender htarget, hback]
  · intro r policy' bs raw d _ hdecode p hmem
    have hcurrent : ∀ kind, p.kind? = some kind → kind.retired = false :=
      fun kind hkind => RawPacket.current_of_decode hdecode hmem hkind
    refine ⟨?_, ?_, ?_⟩ <;>
      · intro hretired
        cases hcurrent _ hretired

/-- A catalog that has an add-on between two other packs, and a world template. -/
def Catalog.exampleAddons : Catalog :=
  { worldTemplateUuid := ⟨1, 2⟩
    worldTemplateVersion := "1.0.0"
    packs := [{ version := "1" }, { version := "2", addon := true }, { version := "3" }] }

/-- The add-on comes back in front, and the catalog says that there is one. -/
theorem echo_translated_exampleAddons :
    ∃ (policy : Policy) (h : Header), h.packetId = Kind.catalog.id ∧ h.sender < 4 ∧ h.target < 4 ∧
      (Packet.catalog .exampleAddons).Representable .latest policy ∧
      (Revision.r712.ofLatest (.catalog .exampleAddons)).map (fun q => q.echo .r712 policy h) =
        [.ok (h, .ok ⟨[.catalog
          { hasAddons := true
            packs := [{ version := "2", addon := true }, { version := "1" }, { version := "3" }] }],
          none⟩)] := by
  have hp : (Packet.catalog .exampleAddons).Representable .latest {} :=
    ⟨rfl, by decide, by decide, by decide, trivial⟩
  refine ⟨{}, ⟨0x06, 1, 3⟩, rfl, by decide, by decide, hp, ?_⟩
  exact (echo_translated {} .catalog .exampleAddons ⟨0x06, 1, 3⟩ hp rfl (by decide) (by decide)).1

end PackExchange
