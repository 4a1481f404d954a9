import PackExchange.Proofs.Packet.RoundTrip
import PackExchange.Proofs.Session.Link
import PackExchange.Transfer.Offer

/-!
# Packets that cross

A packet of the exchange is read as it was sent, under either revision, if its lists are no longer
than the reader takes.  Texts and byte runs need no such condition, because a batch holds no more
bytes than their lengths can say.

* `Layout.Countable` — a value whose lists a reader takes, with `Layout.fits_of_countable`;
* `openRaw_toBytes`, `openRaw_refused` — a packet of a known kind is read as it was sent, and under
  limits only if its lists are short enough;
* `Opens`, `OpensAlways` — what a reader of one revision, or of any, reads a raw packet as;
* `Catalog.Plain` — a catalog of which the older revision loses nothing;
* `Packet.Kind.sends_constant`, `sends_direct`, `sends_catalog`, `sends_stack` — the packets of the
  exchange cross.
-/

namespace PackExchange

/-! ### Values that are short enough -/

namespace Layout

/-- Does a reader take the lists of a value?  What is not written has to be what it is known to
be. -/
def Countable (limits : Bool) : {α : Type} → Layout α → α → Prop
  | _, scalar _, _ => True
  | _, always value, v => v = value
  | _, andThen first next, (a, b) => first.Countable limits a ∧ (next a).Countable limits b
  | _, optional _, none => True
  | _, optional value, some v => value.Countable limits v
  | _, list count item, vs => count.Admits limits vs.length ∧ ∀ v ∈ vs, item.Countable limits v
  | _, mapped parts _ take _ _, v => parts.Countable limits (take v)

/-- **Only lists can be too long** for a value of fewer bytes than a length can say. -/
theorem fits_of_countable {α : Type} {l : Layout α} {limits : Bool} {v : α}
    (h : l.Countable limits v) (hshort : (l.write v).length < UInt32.size) : l.Fits limits v := by
  induction l with
  | scalar field =>
    cases field with
    | blob | text =>
      refine Nat.lt_of_le_of_lt ?_ hshort
      rw [write, Scalar.write, Scalar.writeBlob, List.length_append]
      exact Nat.le_add_left _ _
    | _ => trivial
  | always value => exact h
  | andThen first next ihFirst ihNext =>
    obtain ⟨a, b⟩ := v
    rw [write, List.length_append] at hshort
    exact ⟨ihFirst h.1 (by omega), ihNext a h.2 (by omega)⟩
  | optional value ih =>
    cases v with
    | none => trivial
    | some v =>
      rw [write, List.length_append] at hshort
      exact ih h (by omega)
  | list count item ih =>
    refine ⟨h.1, ?_⟩
    intro v hv
    refine ih (h.2 v hv) (Nat.lt_of_le_of_lt ?_ hshort)
    rw [write, List.length_append]
    refine Nat.le_trans ?_ (Nat.le_add_left _ _)
    exact (List.sublist_flatten_of_mem (List.mem_map_of_mem hv)).length_le
  | mapped parts build take _ _ ih => exact ih h hshort

/-- The lists of a value that fits are no longer than a reader takes. -/
theorem countable_of_fits {α : Type} {l : Layout α} {limits : Bool} {v : α}
    (h : l.Fits limits v) : l.Countable limits v := by
  induction l with
  | scalar field => trivial
  | always value => exact h
  | andThen first next ihFirst ihNext => exact ⟨ihFirst h.1, ihNext v.1 h.2⟩
  | optional value ih =>
    cases v with
    | none => trivial
    | some v => exact ih h
  | list count item ih => exact ⟨h.1, fun v hv => ih (h.2 v hv)⟩
  | mapped parts build take _ _ ih => exact ih h

end Layout

/-! ### Packets of a known kind -/

/-- Only what a creature holds looks different to readers with different shields. -/
theorem Packet.Kind.layout_shield {kind : Kind} (h : kind ≠ .mobEquipment)
    (shield shield' : Int32) : kind.layout shield = kind.layout shield' := by
  cases kind with
  | mobEquipment => exact absurd rfl h
  | _ => rfl

/-- A packet under its own id is split again into its header and its payload. -/
theorem RawPacket.parse_toBytes {r : Revision} {kind : Packet.Kind} (body : kind.Body)
    (hkind : r.kind? kind.id = some kind) (hplain : kind ≠ .mobEquipment) (shield shield' : Int32) :
    parse ((Packet.known kind body).toBytes shield) =
      .ok ⟨{ packetId := kind.id }, (kind.layout shield').write body⟩ := by
  have hfour : (0 : UInt8) < 4 := by decide
  have hbelongs : (Packet.known kind body).Belongs r {} := hkind
  rw [Packet.toBytes, parse_encode, Header.ofWord_toWord hbelongs.id_lt hfour hfour,
    Packet.payload, Packet.Kind.layout_shield hplain shield shield']
  rfl

/-- The payload of a packet that a batch holds is shorter than a length can say. -/
theorem Packet.payload_short {p : Packet} {shield : Int32}
    (hbody : (Batch.body [p.toBytes shield]).length ≤ Batch.mostBytes) :
    (p.payload shield).length < UInt32.size := by
  have hle := Nat.le_trans (Batch.length_le_body (List.mem_singleton_self _)) hbody
  rw [toBytes, encode, List.length_append, Batch.mostBytes] at hle
  rw [UInt32.size]
  omega

section

variable {r : Revision} {policy : Policy} {kind : Packet.Kind} {body : kind.Body} (shield : Int32)
  (hkind : r.kind? kind.id = some kind) (hplain : kind ≠ .mobEquipment)

include hplain in
/-- The lists alone decide whether a packet that a batch holds can be read. -/
theorem fits_layout_iff
    (hbody : (Batch.body [(Packet.known kind body).toBytes shield]).length ≤ Batch.mostBytes)
    (limits : Bool) :
    (kind.layout policy.shield).Fits limits body ↔
      (kind.layout policy.shield).Countable limits body := by
  have hshort := Packet.payload_short hbody
  rw [Packet.payload, Packet.Kind.layout_shield hplain shield policy.shield] at hshort
  exact ⟨Layout.countable_of_fits, fun hcountable => Layout.fits_of_countable hcountable hshort⟩

include hkind hplain in
/-- A packet of a known kind is read as it was sent. -/
theorem openRaw_toBytes (hcountable : (kind.layout policy.shield).Countable policy.limits body)
    (hbody : (Batch.body [(Packet.known kind body).toBytes shield]).length ≤ Batch.mostBytes) :
    openRaw r policy ((Packet.known kind body).toBytes shield) =
      .ok (r.toLatest (.known kind body)) := by
  have hread := (kind.layout policy.shield).read_write policy.limits body []
    (kind.layout_counted policy.shield) ((fits_layout_iff shield hplain hbody _).mpr hcountable)
  rw [List.append_nil] at hread
  rw [openRaw, RawPacket.parse_toBytes body hkind hplain shield policy.shield]
  simp only [RawPacket.decode, hkind, RawPacket.decodeKnown, hread]
  rfl

include hkind hplain in
/-- A packet whose lists are longer than a reader takes under limits cannot be read under them. -/
theorem openRaw_refused (hcountable : (kind.layout policy.shield).Countable false body)
    (hlong : ¬ (kind.layout policy.shield).Countable policy.limits body)
    (hbody : (Batch.body [(Packet.known kind body).toBytes shield]).length ≤ Batch.mostBytes) :
    (openRaw r policy ((Packet.known kind body).toBytes shield)).toOption =
      if policy.disconnectOnInvalid then none else some [] := by
  have hfree := (kind.layout policy.shield).read_write false body []
    (kind.layout_counted policy.shield) ((fits_layout_iff shield hplain hbody _).mpr hcountable)
  rw [List.append_nil] at hfree
  have hfail : ∃ cause, (kind.layout policy.shield).read policy.limits
      ((kind.layout policy.shield).write body) = .error cause := by
    cases hread : (kind.layout policy.shield).read policy.limits
        ((kind.layout policy.shield).write body) with
    | error cause => exact ⟨cause, rfl⟩
    | ok v =>
      obtain ⟨v, rest⟩ := v
      -- the same value would have been read without limits
      have hsame := Layout.read_unlimited hread
      rw [hfree] at hsame
      cases hsame
      exact absurd (Layout.countable_of_fits (Layout.fits_of_read hread)) hlong
  obtain ⟨cause, hread⟩ := hfail
  rw [openRaw, RawPacket.parse_toBytes body hkind hplain shield policy.shield]
  have hends : (DecodeError.malformed kind cause).disconnects policy =
      policy.disconnectOnInvalid := rfl
  simp only [RawPacket.decode, hkind, RawPacket.decodeKnown, hread, hends]
  split <;> rfl

end

/-- Does a reader of a revision read a raw packet as one packet alone? -/
def Opens (r : Revision) (policy : Policy) (raw : Bytes) (p : Packet) : Prop :=
  openRaw r policy raw = .ok [p]

/-- Does every reader do so, whatever its revision? -/
def OpensAlways (policy : Policy) (raw : Bytes) (p : Packet) : Prop := ∀ r, Opens r policy raw p

/-! ### The packets that both revisions have -/

namespace Packet.Kind

/-- Is the kind the same in both revisions, and part of the exchange? -/
def constant : Kind → Bool
  | settingsRequest | networkSettings | playStatus | clientResponse | packData | chunkRequest
  | chunkData => true
  | _ => false

theorem kind?_constant {kind : Kind} (h : kind.constant = true) (r : Revision) :
    r.kind? kind.id = some kind := by
  cases kind <;> first | exact absurd h Bool.false_ne_true | (cases r <;> rfl)

theorem ofLatest_constant {kind : Kind} (h : kind.constant = true) (r : Revision)
    (body : kind.Body) : r.ofLatest (.known kind body) = [.known kind body] := by
  cases kind <;> first | exact absurd h Bool.false_ne_true | (cases r <;> rfl)

theorem toLatest_constant {kind : Kind} (h : kind.constant = true) (r : Revision)
    (body : kind.Body) : r.toLatest (.known kind body) = [.known kind body] := by
  cases kind <;> first | exact absurd h Bool.false_ne_true | (cases r <;> rfl)

theorem opens_constant {kind : Kind} (h : kind.constant = true) {policy : Policy} (shield : Int32)
    {body : kind.Body} (hcountable : (kind.layout policy.shield).Countable policy.limits body)
    (hbody : (Batch.body [(Packet.known kind body).toBytes shield]).length ≤ Batch.mostBytes) :
    OpensAlways policy ((Packet.known kind body).toBytes shield) (.known kind body) := by
  intro r
  have hplain : kind ≠ .mobEquipment := by
    rintro rfl
    cases h
  rw [Opens, openRaw_toBytes shield (kind?_constant h r) hplain hcountable hbody,
    toLatest_constant h]

/-- A packet that both revisions have crosses from a queue. -/
theorem sends_constant {kind : Kind} (h : kind.constant = true) {policy : Policy}
    {body : kind.Body} (hcountable : (kind.layout policy.shield).Countable policy.limits body)
    (shield : Int32) (r : Revision) :
    (Outgoing.queued (.known kind body)).Sends (OpensAlways policy) shield r
      (.known kind body) := by
  refine ⟨(Packet.known kind body).toBytes shield, ?_, opens_constant h shield hcountable⟩
  intro w
  rw [FrameWriter.carryOut, ofLatest_constant h]
  rfl

end Packet.Kind

theorem Outgoing.Sends.opens {policy : Policy} {shield : Int32} {r : Revision} {o : Outgoing}
    {p : Packet} (h : o.Sends (OpensAlways policy) shield r p) :
    o.Sends (Opens r policy) shield r p := by
  obtain ⟨raw, hwrite, hopens⟩ := h
  exact ⟨raw, hwrite, fun hbody => hopens hbody r⟩

/-- Settings are written directly. -/
theorem sends_direct (n : NetworkSettings) (policy : Policy) (shield : Int32) (r : Revision) :
    (Outgoing.direct (.networkSettings n)).Sends (OpensAlways policy) shield r
      (.networkSettings n) := by
  refine ⟨(Packet.networkSettings n).toBytes shield, fun _ => rfl, ?_⟩
  refine Packet.Kind.opens_constant rfl shield ?_
  exact ⟨trivial, trivial, trivial, trivial, trivial⟩

/-! ### The packets that differ -/

theorem CountWidth.admits_zero (limits : Bool) (width : CountWidth) : width.Admits limits 0 :=
  ⟨Nat.zero_le _, fun _ => Nat.zero_le _⟩

theorem CatalogEntry.countable (limits : Bool) (e : CatalogEntry) :
    CatalogEntry.layout.Countable limits e := by
  simp [CatalogEntry.layout, Layout.Countable]

theorem StackEntry.countable (limits : Bool) (e : StackEntry) :
    StackEntry.layout.Countable limits e := by
  simp [StackEntry.layout, Layout.Countable]

theorem Catalog.countable_iff {limits : Bool} {c : Catalog} :
    Catalog.layout.Countable limits c ↔ CountWidth.two.Admits limits c.packs.length :=
  ⟨fun h => h.2.2.2.2.2.1,
    fun h => ⟨trivial, trivial, trivial, trivial, trivial, h, fun e _ => e.countable limits⟩⟩

theorem LegacyCatalog.countable_iff {limits : Bool} {c : LegacyCatalog} :
    LegacyCatalog.layout.Countable limits c ↔
      CountWidth.two.Admits limits c.behaviourPacks.length ∧
        CountWidth.two.Admits limits c.texturePacks.length :=
  ⟨fun h => ⟨h.2.2.2.2.1.1, h.2.2.2.2.2.1⟩,
    fun h => ⟨trivial, trivial, trivial, trivial, ⟨h.1, fun e _ => e.countable limits⟩,
      h.2, fun e _ => e.countable limits⟩⟩

theorem PackStack.countable_iff {limits : Bool} {s : PackStack} (hexperiments : s.experiments = []) :
    PackStack.layout.Countable limits s ↔ CountWidth.varying.Admits limits s.packs.length := by
  obtain ⟨required, packs, version, experiments, toggled, editor⟩ := s
  obtain rfl : experiments = [] := hexperiments
  exact ⟨fun h => h.2.1.1, fun h => ⟨trivial, ⟨h, fun e _ => e.countable limits⟩, trivial,
    ⟨CountWidth.admits_zero limits _, List.forall_mem_nil _⟩, trivial, trivial⟩⟩

theorem LegacyPackStack.countable_iff {limits : Bool} {s : LegacyPackStack}
    (hbehaviour : s.behaviourPacks = []) (hexperiments : s.experiments = []) :
    LegacyPackStack.layout.Countable limits s ↔
      CountWidth.varying.Admits limits s.texturePacks.length := by
  obtain ⟨required, behaviour, texture, version, experiments, toggled⟩ := s
  obtain rfl : behaviour = [] := hbehaviour
  obtain rfl : experiments = [] := hexperiments
  exact ⟨fun h => h.2.2.1.1, fun h => ⟨trivial,
    ⟨CountWidth.admits_zero limits _, List.forall_mem_nil _⟩, ⟨h, fun e _ => e.countable limits⟩,
    trivial, ⟨CountWidth.admits_zero limits _, List.forall_mem_nil _⟩, trivial⟩⟩

/-- Has a catalog no add-ons and no world template? -/
structure Catalog.Plain (c : Catalog) : Prop where
  addon : ∀ e ∈ c.packs, e.addon = false
  template : c.worldTemplateUuid = .nil
  templateVersion : c.worldTemplateVersion = ""

namespace Catalog.Plain

variable {c : Catalog} (h : c.Plain)

include h

/-- All entries of such a catalog are texture packs of the older revision. -/
theorem catalogOfLatest : (Revision.catalogOfLatest c).behaviourPacks = [] ∧
    (Revision.catalogOfLatest c).texturePacks = c.packs := by
  refine ⟨List.filter_eq_nil_iff.mpr ?_, List.filter_eq_self.mpr ?_⟩
  · intro e he
    rw [h.addon e he]
    exact Bool.false_ne_true
  · intro e he
    rw [h.addon e he]
    rfl

/-- The older revision loses nothing of it. -/
theorem catalogToLatest_catalogOfLatest :
    Revision.catalogToLatest (Revision.catalogOfLatest c) = c := by
  obtain ⟨hbehaviour, htexture⟩ := h.catalogOfLatest
  rw [Revision.catalogToLatest, hbehaviour, htexture]
  obtain ⟨required, addons, scripts, template, version, packs⟩ := c
  obtain ⟨-, rfl, rfl⟩ := h
  simp [Revision.catalogOfLatest]

theorem countable_iff {limits : Bool} :
    LegacyCatalog.layout.Countable limits (Revision.catalogOfLatest c) ↔
      CountWidth.two.Admits limits c.packs.length := by
  obtain ⟨hbehaviour, htexture⟩ := h.catalogOfLatest
  rw [LegacyCatalog.countable_iff, hbehaviour, htexture, List.length_nil]
  exact and_iff_right (CountWidth.admits_zero limits _)

end Catalog.Plain

/-- A plain catalog crosses, if it is not too long. -/
theorem sends_catalog {c : Catalog} (hplain : c.Plain) {policy : Policy}
    (hcount : CountWidth.two.Admits policy.limits c.packs.length) (shield : Int32) (r : Revision) :
    (Outgoing.queued (.catalog c)).Sends (Opens r policy) shield r (.catalog c) := by
  cases r with
  | r729 =>
    refine ⟨(Packet.catalog c).toBytes shield, fun _ => rfl, fun hbody => ?_⟩
    exact openRaw_toBytes shield rfl (by decide) (Catalog.countable_iff.mpr hcount) hbody
  | r712 =>
    refine ⟨(Packet.legacyCatalog (Revision.catalogOfLatest c)).toBytes shield, fun _ => rfl,
      fun hbody => ?_⟩
    rw [Opens, openRaw_toBytes shield rfl (by decide) (hplain.countable_iff.mpr hcount) hbody]
    show Except.ok [Packet.catalog _] = _
    rw [hplain.catalogToLatest_catalogOfLatest]

/-- A load order without editor packs crosses, if its lists are not too long. -/
theorem sends_stack {s : PackStack} (heditor : s.includeEditorPacks = false) {policy : Policy}
    (hcount : CountWidth.varying.Admits policy.limits s.packs.length)
    (hexperiments : s.experiments = []) (shield : Int32) (r : Revision) :
    (Outgoing.queued (.stack s)).Sends (Opens r policy) shield r (.stack s) := by
  cases r with
  | r729 =>
    refine ⟨Packet.toBytes shield (.stack s), fun _ => rfl, fun hbody => ?_⟩
    exact openRaw_toBytes shield rfl (by decide) ((PackStack.countable_iff hexperiments).mpr hcount)
      hbody
  | r712 =>
    refine ⟨Packet.toBytes shield (.legacyStack (Revision.stackOfLatest s)), fun _ => rfl,
      fun hbody => ?_⟩
    rw [Opens, openRaw_toBytes shield rfl (by decide)
      ((LegacyPackStack.countable_iff rfl hexperiments).mpr hcount) hbody]
    show Except.ok [Packet.stack _] = _
    obtain ⟨required, packs, version, experiments, toggled, editor⟩ := s
    obtain rfl : editor = false := heditor
    rfl

/-! ### The catalog and the load order of an offer -/

namespace Offer

theorem catalog_plain (o : Offer) (required : Bool) : (o.catalog required).Plain := by
  refine ⟨?_, rfl, rfl⟩
  intro e he
  obtain ⟨p, -, rfl⟩ := List.mem_map.mp he
  rfl

theorem length_catalog (o : Offer) (required : Bool) :
    (o.catalog required).packs.length = o.packs.length := by
  rw [catalog, List.length_map]

/-- The load order names one pack more, which every client has. -/
theorem length_stack (o : Offer) : o.stack.packs.length = o.packs.length + 1 := by
  rw [stack, List.length_map, List.length_append, List.length_map]
  rfl

end Offer

end PackExchange
