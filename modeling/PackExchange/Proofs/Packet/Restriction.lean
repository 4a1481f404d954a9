import Mathlib.Algebra.GroupWithZero.Nat
import PackExchange.Proofs.Packet.Translation
import PackExchange.Proofs.Wire.Tally

/-!
# Limits restrict, and do nothing else

Under limits a packet is decoded as it is without them, unless a list in it announces more elements than
limits admit.  And with or without limits a packet has no more elements than bytes.

* `RawPacket.tallies` — the counts that decoding a raw packet meets;
* `Packet.lengths` and `Packet.elements` — how long the lists of a packet are and how many elements they
  have, with `Packet.lengths_eq`: as its layout has it;
* `RawPacket.decode_limited`, `decode_limitHit`, `decode_overrun` — what decoding gives;
* `decode_restricted` — limits as a restriction, and what follows for lists and elements.
-/

namespace PackExchange

open Packet (Kind)

/-! ### The lists of a packet -/

/-- How long those lists of a packet are that are not empty. -/
def Packet.lengths (p : Packet) : List Nat := (p.counts.map (·.2)).filter (0 < ·)

/-- How many elements the lists of a packet have. -/
def Packet.elements (p : Packet) : Nat := (p.counts.map (·.2)).sum

theorem sum_filter_pos (ns : List Nat) : (ns.filter (0 < ·)).sum = ns.sum := by
  induction ns with
  | nil => rfl
  | cons n ns ih => by_cases hn : 0 < n <;> simp_all

/-- Elements without lists have no lists. -/
@[simp] theorem flatMap_none {α β : Type} (vs : List α) : vs.flatMap (fun _ => ([] : List β)) = [] :=
  List.flatMap_eq_nil_iff.mpr fun _ _ => rfl

@[simp] theorem CatalogEntry.lengths_eq : CatalogEntry.layout.lengths = fun _ => [] := rfl

@[simp] theorem StackEntry.lengths_eq : StackEntry.layout.lengths = fun _ => [] := rfl

@[simp] theorem Experiment.lengths_eq : Experiment.layout.lengths = fun _ => [] := rfl

/-- An empty slot has no lists in its bytes, and any other item has two. -/
theorem Item.lengths_eq (shield : Int32) (i : Item) :
    (Item.layout shield).lengths i =
      if i.networkId = 0 then [] else [i.canBePlacedOn.length, i.canBreak.length] := by
  by_cases hzero : i.networkId = 0
  · simp [Item.layout, Item.restLayout, Layout.lengths, hzero]
  · have htick : (Item.tick shield i.networkId).lengths i.blockingTick = [] := by
      rw [Item.tick]
      split <;> rfl
    have hstack : (Layout.optional (.scalar .varInt32)).lengths i.stackNetworkId = [] := by
      cases i.stackNetworkId <;> rfl
    simp [Item.layout, Item.restLayout, Layout.lengths, hzero, htick, hstack]

/-- The lists of a packet are those that its layout has.  Only the lists of an empty slot are not in the
bytes, and they are empty. -/
theorem Packet.lengths_eq {shield : Int32} {limits : Bool} {kind : Kind} {body : kind.Body}
    (h : (kind.layout shield).Fits limits body) :
    ((kind.layout shield).lengths body).filter (0 < ·) = (Packet.known kind body).lengths := by
  cases kind with
  | disconnect =>
    have hmessages : (Disconnect.messages body.hideScreen).lengths
        (body.message, body.filteredMessage) = [] := by
      cases body.hideScreen <;> rfl
    simp [Kind.layout, Disconnect.layout, Layout.lengths, hmessages, lengths, counts]
  | mobEquipment =>
    have hitem : (Item.layout shield).Fits limits body.item := h.2.1
    have hempty := ((Item.fits_iff shield limits body.item).mp hitem).2.2.1
    simp only [Kind.layout, MobEquipment.layout, Layout.lengths, Item.lengths_eq]
    by_cases hzero : body.item.networkId = 0
    · simp [hempty hzero, lengths, counts]
    · simp [hzero, lengths, counts]
  | _ => simp [Kind.layout, SettingsRequest.layout, NetworkSettings.layout, PlayStatus.layout,
      Catalog.layout, PackStack.layout, LegacyCatalog.layout, LegacyPackStack.layout,
      ClientResponse.layout, PackData.layout, ChunkRequest.layout, ChunkData.layout, TickSync.layout,
      Layout.lengths, lengths, counts]

/-- A packet has as many elements as its layout counts. -/
theorem Packet.elements_eq {shield : Int32} {limits : Bool} {kind : Kind} {body : kind.Body}
    (h : (kind.layout shield).Fits limits body) :
    (Packet.known kind body).elements = ((kind.layout shield).lengths body).sum := by
  rw [elements, ← sum_filter_pos, ← sum_filter_pos ((kind.layout shield).lengths body), lengths_eq h,
    lengths]

/-- Conversion to the latest revision keeps the elements. -/
theorem Revision.elements_toLatest (r : Revision) (p : Packet) :
    ((r.toLatest p).map Packet.elements).sum = p.elements := by
  cases p with
  | unknown id payload => cases r <;> rfl
  | known kind body =>
    cases r with
    | r729 => simp [toLatest]
    | r712 =>
      cases kind with
      | legacyCatalog =>
        simp [toLatest, catalogToLatest, Packet.elements, Packet.counts]
      | legacyStack =>
        simp [toLatest, stackToLatest, Packet.elements, Packet.counts, Nat.add_assoc]
      | tickSync => rfl
      | _ => simp [toLatest]

/-! ### Decoding under limits -/

namespace RawPacket

variable {r : Revision} {policy : Policy} {raw : RawPacket} {kind : Kind}

/-- The counts that decoding a raw packet without limits meets, in order. -/
def tallies (r : Revision) (shield : Int32) (raw : RawPacket) : List Tally :=
  match r.kind? raw.header.packetId with
  | none => []
  | some kind => (kind.layout shield).tallies raw.payload

theorem tallies_eq (hkind : r.kind? raw.header.packetId = some kind) :
    raw.tallies r policy.shield = (kind.layout policy.shield).tallies raw.payload := by
  rw [tallies, hkind]

theorem known_of_tally {t : Tally} (ht : t ∈ raw.tallies r policy.shield) :
    ∃ kind, r.kind? raw.header.packetId = some kind := by
  cases hkind : r.kind? raw.header.packetId with
  | none => simp [tallies, hkind] at ht
  | some kind => exact ⟨kind, rfl⟩

/-- Where the payload cannot be read, that is the error. -/
theorem decode_error {cause : WireError} (hkind : r.kind? raw.header.packetId = some kind)
    (hread : (kind.layout policy.shield).read policy.limits raw.payload = .error cause) :
    raw.decode r policy = .error (.malformed kind cause) := by
  simp only [decode, hkind, decodeKnown, hread]

/-- A raw packet without a count beyond the limit is decoded in the same way under limits and
without. -/
theorem decode_limited (h : ∀ t ∈ raw.tallies r policy.shield, t.count ≤ CountWidth.countLimit) :
    raw.decode r { policy with limits := true } = raw.decode r { policy with limits := false } := by
  cases hkind : r.kind? raw.header.packetId with
  | none => simp only [decode, hkind]
  | some kind =>
    have hnone : ((kind.layout policy.shield).tallies raw.payload).find? Tally.exceeds = none := by
      rw [List.find?_eq_none, ← tallies_eq hkind]
      intro t ht
      simpa [Tally.exceeds] using h t ht
    have hread := ((kind.layout policy.shield).tallied raw.payload).limited
    rw [Tally.enforce, hnone] at hread
    simp only [decode, hkind, decodeKnown, hread]

/-- The first count beyond the limit is refused under limits. -/
theorem decode_limitHit {t : Tally}
    (h : (raw.tallies r policy.shield).find? Tally.exceeds = some t) :
    ∃ kind, r.kind? raw.header.packetId = some kind ∧
      raw.decode r { policy with limits := true } =
        .error (.malformed kind (.limitHit t.count CountWidth.countLimit)) := by
  obtain ⟨kind, hkind⟩ := known_of_tally (List.mem_of_find?_eq_some h)
  have hread := ((kind.layout policy.shield).tallied raw.payload).limited
  rw [tallies_eq hkind] at h
  rw [Tally.enforce, h] at hread
  exact ⟨kind, hkind, decode_error hkind hread⟩

/-- A count that the bytes left cannot hold is refused for that. -/
theorem decode_overrun {t : Tally} (ht : t ∈ raw.tallies r policy.shield) (hmore : t.left < t.count) :
    ∃ kind, r.kind? raw.header.packetId = some kind ∧
      raw.decode r { policy with limits := false } =
        .error (.malformed kind (.notEnoughData t.count t.left)) := by
  obtain ⟨kind, hkind⟩ := known_of_tally ht
  rw [tallies_eq hkind] at ht
  exact ⟨kind, hkind, decode_error hkind (((kind.layout policy.shield).tallied _).overrun t ht hmore)⟩

/-- The packets have no more elements than the payload has bytes. -/
theorem elements_decode_le {d : Decoded} (h : raw.decode r policy = .ok d) :
    (d.packets.map Packet.elements).sum ≤ raw.payload.length := by
  rcases of_decode h with ⟨kind, body, rest, -, hread, hpackets, -⟩ | ⟨-, -, hpackets, -⟩
  · rw [hpackets, Revision.elements_toLatest, Packet.elements_eq (Layout.fits_of_read hread)]
    exact Layout.lengths_le_length (kind.layout_counted policy.shield) hread
  · rw [hpackets]
    exact Nat.zero_le _

end RawPacket

/-- **Limits restrict, and do nothing else.**  Consider the counts that a raw packet is found to have
when it is decoded without limits.  If none is beyond the limit, it is decoded in the same way under
limits; else the first that is beyond it is refused under limits.  If a body is read without limits, the
counts are the lengths of its lists; if it is read under limits, its lists are within the limit.  Under
limits and without, the packets that are decoded have no more elements than the payload has bytes; and
a count that the bytes left cannot hold is refused for that. -/
theorem decode_restricted (r : Revision) (policy : Policy) (raw : RawPacket) :
    ((∀ t ∈ raw.tallies r policy.shield, t.count ≤ CountWidth.countLimit) →
        raw.decode r { policy with limits := true } =
          raw.decode r { policy with limits := false }) ∧
      (∀ t, (raw.tallies r policy.shield).find? (CountWidth.countLimit < ·.count) = some t →
        ∃ kind, r.kind? raw.header.packetId = some kind ∧
          raw.decode r { policy with limits := true } =
            .error (.malformed kind (.limitHit t.count CountWidth.countLimit))) ∧
      (∀ kind body rest, r.kind? raw.header.packetId = some kind →
        ((kind.layout policy.shield).read false raw.payload = .ok (body, rest) →
          ((raw.tallies r policy.shield).map (·.count)).filter (0 < ·) =
            (Packet.known kind body).lengths) ∧
        ((kind.layout policy.shield).read true raw.payload = .ok (body, rest) →
          ∀ n ∈ (Packet.known kind body).lengths, n ≤ CountWidth.countLimit)) ∧
      (∀ limits d, raw.decode r { policy with limits := limits } = .ok d →
        (d.packets.map Packet.elements).sum ≤ raw.payload.length) ∧
      ∀ t ∈ raw.tallies r policy.shield, t.left < t.count →
        ∃ kind, r.kind? raw.header.packetId = some kind ∧
          raw.decode r { policy with limits := false } =
            .error (.malformed kind (.notEnoughData t.count t.left)) := by
  refine ⟨RawPacket.decode_limited, fun t => RawPacket.decode_limitHit, ?_,
    fun limits d => RawPacket.elements_decode_le, fun t => RawPacket.decode_overrun⟩
  intro kind body rest hkind
  constructor
  · intro hread
    rw [RawPacket.tallies_eq hkind, Layout.counts_tallies hread,
      Packet.lengths_eq (Layout.fits_of_read hread)]
  · intro hread n hn
    have hfits := (Packet.fits_iff { policy with limits := true } kind body).mp
      (Layout.fits_of_read hread)
    obtain ⟨c, hc, rfl⟩ := List.mem_map.mp (List.mem_filter.mp hn).1
    exact (hfits.2.2.1 c hc).2 rfl

/-- An answer that names a pack is the same answer under limits, and one that announces 1025 names and
ends there is refused: under limits for the count, without for the bytes. -/
theorem decode_restricted_exampleNames :
    ∃ (policy : Policy) (named : ClientResponse) (short long : RawPacket),
      named.packs = ["a"] ∧
      short.decode .r712 { policy with limits := false } = .ok ⟨[.clientResponse named], none⟩ ∧
      short.decode .r712 { policy with limits := true } = .ok ⟨[.clientResponse named], none⟩ ∧
      (short.tallies .r712 policy.shield).map (·.count) = [1] ∧
      (Packet.clientResponse named).lengths = [1] ∧
      (Packet.clientResponse named).elements ≤ short.payload.length ∧
      long.tallies .r712 policy.shield = [⟨1025, 0⟩] ∧
      long.decode .r712 { policy with limits := true } =
        .error (.malformed .clientResponse (.limitHit 1025 1024)) ∧
      long.decode .r712 { policy with limits := false } =
        .error (.malformed .clientResponse (.notEnoughData 1025 0)) := by
  let policy : Policy := {}
  let named : ClientResponse := ⟨2, ["a"]⟩
  let short : RawPacket := ⟨⟨8, 0, 0⟩, [2, 1, 0, 1, 0x61]⟩
  let long : RawPacket := ⟨⟨8, 0, 0⟩, [2, 1, 4]⟩
  have hread : (Kind.clientResponse.layout policy.shield).read false short.payload =
      .ok (named, []) := rfl
  have hdecode : short.decode .r712 { policy with limits := false } =
      .ok ⟨[.clientResponse named], none⟩ := rfl
  have hcounts : (short.tallies .r712 policy.shield).map (·.count) = [1] := rfl
  obtain ⟨hsame, -, hlists, helements, -⟩ := decode_restricted .r712 policy short
  obtain ⟨-, hlimit, -, -, hoverrun⟩ := decode_restricted .r712 policy long
  obtain ⟨kind, hkind, hlimited⟩ := hlimit ⟨1025, 0⟩ rfl
  cases hkind
  obtain ⟨kind, hkind, hfree⟩ := hoverrun ⟨1025, 0⟩ List.mem_cons_self (by decide)
  cases hkind
  obtain ⟨hlengths, -⟩ := hlists .clientResponse named [] rfl
  refine ⟨policy, named, short, long, rfl, hdecode, ?_, hcounts, ?_, helements false _ hdecode, rfl,
    hlimited, hfree⟩
  · rw [hsame (by decide), hdecode]
  · rw [← hlengths hread, hcounts]
    rfl

end PackExchange
