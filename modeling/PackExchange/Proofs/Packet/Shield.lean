import PackExchange.Proofs.Packet.Prefix

/-!
# Two sides with different shields

The blocking tick travels with the shield item only, and which item that is each side takes from its
own settings.  If the settings differ in whether the item is the shield, the reader is eight bytes ahead
or behind at the end of the item, and the three bytes after the item do not make up for them.

* `Packet.heard` — a packet that was written under one shield and decoded under another;
* `Item.trunk` and `MobEquipment.write_eq` — an item is written as its trunk and its tick;
* `Layout.read_andThen_error` — what goes wrong behind a part that was written;
* `heard_shield` — what becomes of an item whose shield is another on the other side.
-/

namespace PackExchange

open Packet (Kind)

/-- The header and the packets that arrive when a packet is encoded under one shield, split off its
header and decoded. -/
def Packet.heard (r : Revision) (policy : Policy) (writer : Int32) (h : Header) (p : Packet) :
    Except HeaderError (Header × Except DecodeError Decoded) :=
  match RawPacket.parse (p.encode writer h) with
  | .error e => .error e
  | .ok raw => .ok (raw.header, raw.decode r policy)

theorem Packet.heard_eq {r : Revision} {policy : Policy} {writer : Int32} {h : Header} {p : Packet}
    (hid : h.packetId < 1024) (hsender : h.sender < 4) (htarget : h.target < 4) :
    p.heard r policy writer h = .ok (h, RawPacket.decode r policy ⟨h, p.payload writer⟩) := by
  simp only [heard, RawPacket.parse_encode, Header.ofWord_toWord hid hsender htarget]

/-- A body that loses nothing is read back, and nothing is left. -/
theorem Packet.Representable.read_payload {r : Revision} {policy : Policy} {kind : Kind}
    {body : kind.Body} (hp : (Packet.known kind body).Representable r policy) :
    (kind.layout policy.shield).Fits policy.limits body ∧
      (kind.layout policy.shield).read policy.limits ((Packet.known kind body).payload policy.shield) =
        .ok (body, []) := by
  have hfits := (Packet.fits_iff policy kind body).mpr ⟨hp.texts, hp.blobs, hp.counts, hp.consistent⟩
  have hread := (kind.layout policy.shield).read_write policy.limits body []
    (kind.layout_counted policy.shield) hfits
  rw [List.append_nil] at hread
  exact ⟨hfits, hread⟩

/-! ### Behind a part that was written -/

namespace Layout

variable {α β : Type} {first : Layout α} {next : α → Layout β} {limits : Bool} {a : α} {rest : Bytes}
  {e : WireError}

/-- What goes wrong behind a part that was written goes wrong with both parts. -/
theorem read_andThen_error (hcounted : first.Counted) (hfits : first.Fits limits a)
    (h : (next a).read limits rest = .error e) :
    (andThen first next).read limits (first.write a ++ rest) = .error e := by
  simp only [read, first.read_write limits a rest hcounted hfits, h]

end Layout

/-! ### Items -/

/-- What is written of an item whatever the shield. -/
def Item.trunk (i : Item) : Bytes := (Item.layout 0).write i

/-- An item is written as its trunk and, if it is the shield, its blocking tick. -/
theorem Item.write_eq (shield : Int32) {i : Item} (h : i.networkId ≠ 0) :
    (Item.layout shield).write i = i.trunk ++ (Item.tick shield i.networkId).write i.blockingTick := by
  simp [Item.trunk, Item.layout, Item.restLayout, Item.tick, Layout.write, h]

theorem Item.write_tick {shield networkId : Int32} (h : networkId = shield) (tick : Int64) :
    (Item.tick shield networkId).write tick = Bytes.little 8 tick.toUInt64.toNat := by
  rw [Item.tick, if_pos h]
  rfl

theorem Item.write_noTick {shield networkId : Int32} (h : networkId ≠ shield) (tick : Int64) :
    (Item.tick shield networkId).write tick = [] := by
  rw [Item.tick, if_neg h]
  rfl

theorem MobEquipment.write_eq (shield : Int32) {m : MobEquipment} (h : m.item.networkId ≠ 0) :
    (MobEquipment.layout shield).write m = VarInt.write64 m.entity ++ (m.item.trunk ++
      ((Item.tick shield m.item.networkId).write m.item.blockingTick ++
        [m.inventorySlot, m.hotbarSlot, m.window])) := by
  simp [MobEquipment.layout, Layout.write, Scalar.write, Item.write_eq shield h]

/-- **A tick that is not there.**  Behind the trunk of an item that is the shield for the reader, eight
bytes are needed. -/
theorem Item.read_trunk {shield : Int32} {limits : Bool} {i : Item} {rest : Bytes}
    (hnonzero : i.networkId ≠ 0) (hshield : i.networkId = shield)
    (hfits : (Item.layout shield).Fits limits i) (hshort : rest.length < 8) :
    (Item.layout shield).read limits (i.trunk ++ rest) = .error (.notEnoughData 8 rest.length) := by
  obtain ⟨networkId, count, metadata, stackId, blockId, placedOn, breaks, tick⟩ := i
  have htick : (Item.tick shield networkId).read limits rest =
      .error (.notEnoughData 8 rest.length) := by
    have hsplit : Bytes.split? 8 rest = none := Bytes.split?_eq_none_iff.mpr hshort
    rw [Item.tick, if_pos hshield]
    simp only [Layout.read, Scalar.read, Scalar.readFixed, Scalar.take, hsplit]
  have htrunk : Item.trunk ⟨networkId, count, metadata, stackId, blockId, placedOn, breaks, tick⟩ =
      (Layout.scalar .varInt32).write networkId ++ ((Layout.scalar .word16).write count ++
        ((Layout.scalar .varWord32).write metadata ++
          ((Layout.optional (.scalar .varInt32)).write stackId ++
            ((Layout.scalar .varInt32).write blockId ++
              ((Layout.list .four (.scalar .text)).write placedOn ++
                (Layout.list .four (.scalar .text)).write breaks))))) := by
    simp [Item.trunk, Item.layout, Item.restLayout, Item.tick, Layout.write, hnonzero]
  have hparts : (Item.restLayout shield networkId).Fits limits
      (count, metadata, stackId, blockId, placedOn, breaks, tick) := hfits.2
  have hread : (Item.restLayout shield networkId).read limits
      ((Layout.scalar .word16).write count ++ ((Layout.scalar .varWord32).write metadata ++
        ((Layout.optional (.scalar .varInt32)).write stackId ++
          ((Layout.scalar .varInt32).write blockId ++
            ((Layout.list .four (.scalar .text)).write placedOn ++
              ((Layout.list .four (.scalar .text)).write breaks ++ rest)))))) =
      .error (.notEnoughData 8 rest.length) := by
    simp only [Item.restLayout, if_neg hnonzero] at hparts ⊢
    obtain ⟨hcount, hmetadata, hstackId, hblockId, hplacedOn, hbreaks, -⟩ := hparts
    refine Layout.read_andThen_error (by trivial) hcount ?_
    refine Layout.read_andThen_error (by trivial) hmetadata ?_
    refine Layout.read_andThen_error (by trivial) hstackId ?_
    refine Layout.read_andThen_error (by trivial) hblockId ?_
    refine Layout.read_andThen_error (by trivial) hplacedOn ?_
    exact Layout.read_andThen_error (by trivial) hbreaks htick
  have hwhole : (Layout.andThen (.scalar .varInt32) (Item.restLayout shield)).read limits
      ((Layout.scalar .varInt32).write networkId ++ _) = .error (.notEnoughData 8 rest.length) :=
    Layout.read_andThen_error trivial trivial hread
  rw [Item.layout, Layout.read, htrunk]
  simp only [List.append_assoc, hwhole]

/-! ### What arrives -/

/-- What a reader takes an item in the hand for when it does not expect the blocking tick: the first
three bytes of the tick stand where it looks for the slots and the window. -/
def MobEquipment.misread (m : MobEquipment) : MobEquipment :=
  let tick := m.item.blockingTick.toUInt64.toNat
  { m with
    item := { m.item with blockingTick := 0 }
    inventorySlot := UInt8.ofNat (tick % 256)
    hotbarSlot := UInt8.ofNat (tick / 256 % 256)
    window := UInt8.ofNat (tick / 256 / 256 % 256) }

namespace MobEquipment

variable {writer reader : Int32} {m : MobEquipment}

/-- A tick that the reader does not expect puts eight bytes behind what it reads. -/
theorem write_misread (hnonzero : m.item.networkId ≠ 0) (hwriter : m.item.networkId = writer)
    (hreader : m.item.networkId ≠ reader) :
    ∃ more, more.length = 8 ∧
      (layout writer).write m = (layout reader).write m.misread ++ more := by
  have htrunk : m.misread.item.trunk = m.item.trunk := by
    simp [misread, Item.trunk, Item.layout, Item.restLayout, Item.tick, Layout.write, hnonzero]
  have hmisread : m.misread.item.networkId ≠ reader := hreader
  refine ⟨Bytes.little 5 (m.item.blockingTick.toUInt64.toNat / 256 / 256 / 256) ++
    [m.inventorySlot, m.hotbarSlot, m.window], by simp, ?_⟩
  rw [write_eq writer hnonzero, write_eq reader (m := m.misread) hnonzero, Item.write_tick hwriter,
    Item.write_noTick hmisread, htrunk]
  simp [misread, Bytes.little]

/-- Where both sides agree whether the item is the shield, it is written in the same bytes. -/
theorem write_agreed (hnonzero : m.item.networkId ≠ 0)
    (h : m.item.networkId = writer ↔ m.item.networkId = reader) :
    (layout writer).write m = (layout reader).write m := by
  rw [write_eq writer hnonzero, write_eq reader hnonzero, Item.tick, Item.tick]
  simp only [h]

/-- A tick that the reader expects and the writer left out is looked for in the three bytes that end the
packet. -/
theorem read_missing {limits : Bool} (hnonzero : m.item.networkId ≠ 0)
    (hwriter : m.item.networkId ≠ writer) (hreader : m.item.networkId = reader)
    (hfits : (layout reader).Fits limits m) :
    (layout reader).read limits ((layout writer).write m) = .error (.notEnoughData 8 3) := by
  have hitem : (Item.layout reader).read limits
      (m.item.trunk ++ [m.inventorySlot, m.hotbarSlot, m.window]) = .error (.notEnoughData 8 3) :=
    Item.read_trunk hnonzero hreader hfits.2.1 (by simp)
  have hentity := (Scalar.varWord64).read_write m.entity
    (m.item.trunk ++ [m.inventorySlot, m.hotbarSlot, m.window]) trivial
  rw [write_eq writer hnonzero, Item.write_noTick hwriter, List.nil_append]
  simp only [layout, Layout.read, Scalar.write] at hentity ⊢
  simp only [hentity, hitem]

end MobEquipment

/-- **A shield mismatch does not pass unnoticed.**  Take an item in the hand that loses nothing for its
writer.  If it is the shield for both sides or for neither, it arrives whole.  If it is the shield for
the writer alone, eight bytes are left unread.  If it is the shield for the reader alone, eight bytes are
needed for the tick where three are left. -/
theorem heard_shield (r : Revision) (policy : Policy) (writer : Int32) (m : MobEquipment) (h : Header)
    (hp : (Packet.mobEquipment m).Representable r { policy with shield := writer })
    (hnonzero : m.item.networkId ≠ 0) (hid : h.packetId = Kind.mobEquipment.id)
    (hsender : h.sender < 4) (htarget : h.target < 4) :
    ((m.item.networkId = writer ↔ m.item.networkId = policy.shield) →
        (Packet.mobEquipment m).heard r policy writer h =
          .ok (h, .ok ⟨[.mobEquipment m], none⟩)) ∧
      (m.item.networkId = writer → m.item.networkId ≠ policy.shield →
        (Packet.mobEquipment m).heard r policy writer h =
          .ok (h, if policy.disconnectOnInvalid then .error (.trailingBytes .mobEquipment 8)
            else .ok ⟨[.mobEquipment m.misread], some (.trailingBytes .mobEquipment 8)⟩)) ∧
      (m.item.networkId = policy.shield → m.item.networkId ≠ writer →
        (Packet.mobEquipment m).heard r policy writer h =
          .ok (h, .error (.malformed .mobEquipment (.notEnoughData 8 3)))) := by
  have hlt : h.packetId < 1024 := by
    rw [hid]
    decide
  have hkind : r.kind? h.packetId = some .mobEquipment := by
    rw [hid]
    exact hp.belongs
  have hlatest : ∀ m' : MobEquipment, r.toLatest (.mobEquipment m') = [.mobEquipment m'] := by
    intro m'
    cases r <;> rfl
  have hreader : (m.item.networkId ≠ policy.shield → m.item.blockingTick = 0) →
      (Packet.mobEquipment m).Representable r policy := fun htick =>
    ⟨hp.belongs, hp.texts, hp.blobs, hp.counts, fun hzero => absurd hzero hnonzero, htick⟩
  rw [Packet.heard_eq hlt hsender htarget]
  refine ⟨fun hagreed => ?_, fun hwriter hother => ?_, fun hshield hother => ?_⟩
  · have hrepresentable := hreader fun hne => hp.consistent.2 fun heq => hne (hagreed.mp heq)
    have hpayload : (Packet.mobEquipment m).payload writer =
        (Packet.mobEquipment m).payload policy.shield := MobEquipment.write_agreed hnonzero hagreed
    rw [hpayload, hrepresentable.decode_payload hid, hlatest]
  · have hmisread : (Packet.mobEquipment m.misread).Representable r policy :=
      ⟨hp.belongs, hp.texts, hp.blobs, hp.counts, fun hzero => absurd hzero hnonzero, fun _ => rfl⟩
    obtain ⟨more, hlength, hwrite⟩ := MobEquipment.write_misread hnonzero hwriter hother
    have hmore : more ≠ [] := List.ne_nil_of_length_pos (by omega)
    have hpayload : (Packet.mobEquipment m).payload writer =
        (Packet.mobEquipment m.misread).payload policy.shield ++ more := hwrite
    rw [hpayload, RawPacket.decode_append hkind hmisread.read_payload.2 hmore, hlength, hlatest]
  · have hrepresentable := hreader fun hne => absurd hshield hne
    have hread : (Kind.mobEquipment.layout policy.shield).read policy.limits
        ((Packet.mobEquipment m).payload writer) = .error (.notEnoughData 8 3) :=
      MobEquipment.read_missing hnonzero hother hshield hrepresentable.read_payload.1
    simp only [RawPacket.decode, hkind, RawPacket.decodeKnown, hread]

/-- A shield and a torch come to a reader for whom the torch is the shield, and the shield to one who
agrees with the writer. -/
theorem heard_exampleShield :
    ∃ (policy : Policy) (torch shield : MobEquipment) (h : Header),
      shield.item = .exampleShield ∧ shield.item.networkId ≠ 0 ∧ torch.item.networkId ≠ 0 ∧
      h.packetId = Kind.mobEquipment.id ∧ h.sender < 4 ∧ h.target < 4 ∧
      (Packet.mobEquipment shield).Representable .r712 { policy with shield := 355 } ∧
      (Packet.mobEquipment torch).Representable .r712 { policy with shield := 355 } ∧
      (Packet.mobEquipment shield).heard .r712 policy 355 h =
        .ok (h, .ok ⟨[.mobEquipment shield.misread], some (.trailingBytes .mobEquipment 8)⟩) ∧
      (Packet.mobEquipment torch).heard .r712 policy 355 h =
        .ok (h, .error (.malformed .mobEquipment (.notEnoughData 8 3))) ∧
      (Packet.mobEquipment shield).heard .r712 { policy with shield := 355 } 355 h =
        .ok (h, .ok ⟨[.mobEquipment shield], none⟩) := by
  let torch : MobEquipment := { entity := 300, item := { networkId := -50, count := 64 } }
  let shield : MobEquipment := { entity := 300, item := .exampleShield, window := 119 }
  have htorch : (Packet.mobEquipment torch).Representable .r712 { shield := 355 } :=
    ⟨rfl, by decide, by decide, by decide, by decide, by decide⟩
  have hshield : (Packet.mobEquipment shield).Representable .r712 { shield := 355 } :=
    ⟨rfl, by decide, by decide, by decide, by decide, by decide⟩
  refine ⟨{ shield := -50 }, torch, shield, ⟨0x1F, 1, 2⟩, rfl, by decide, by decide, rfl, by decide,
    by decide, hshield, htorch, ?_, ?_, ?_⟩
  · exact (heard_shield .r712 { shield := -50 } 355 shield ⟨0x1F, 1, 2⟩ hshield (by decide) rfl
      (by decide) (by decide)).2.1 (by decide) (by decide)
  · exact (heard_shield .r712 { shield := -50 } 355 torch ⟨0x1F, 1, 2⟩ htorch (by decide) rfl
      (by decide) (by decide)).2.2 (by decide) (by decide)
  · exact (heard_shield .r712 { shield := 355 } 355 shield ⟨0x1F, 1, 2⟩ hshield (by decide) rfl
      (by decide) (by decide)).1 (by decide)

end PackExchange
