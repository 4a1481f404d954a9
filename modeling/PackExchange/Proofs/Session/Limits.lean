import PackExchange.Proofs.Packet.Size
import PackExchange.Proofs.Session.Crossing

/-!
# What limits cut short

Under limits a reader refuses a list of more than 1024 elements.  A server lists the packs on offer
twice, in the catalog and in the load order, and the load order names one pack more.  So there is
one number of packs at which a client takes the catalog and cannot take the load order.

* `Cleanly` — what a client decodes a packet of the server as, without a warning;
* `Layout.read_own`, `Layout.length_of_read_list` — when what was written is read to the end;
* `cleanly_catalog_iff`, `eq_of_cleanly_catalog` — when the catalog is decoded cleanly, and that
  nothing else comes of it;
* `cleanly_stack_iff` — when the load order is;
* `Offer.limits_cut_short` — the load order of an offer, once its catalog was decoded cleanly;
* `Offer.boundary_stack_refused` — an offer whose load order is one pack too long.
-/

namespace PackExchange

/-! ### Reading back to the end -/

/-- A count of two bytes drops what does not fit, unless it is refused. -/
theorem CountWidth.read_two_write (limits : Bool) (n : Nat) (rest : Bytes) :
    two.read limits (two.write n ++ rest) = .ok (n % 65536, rest) ∨
      ∃ e, two.read limits (two.write n ++ rest) = .error e := by
  have hraw : two.readRaw (two.write n ++ rest) = .ok (n % 65536, rest) := by
    rw [readRaw, write, Scalar.readFixed_append _ _ (Bytes.length_little 2 n),
      Bytes.ofLittle_little]
    rfl
  rw [read, hraw]
  simp only
  split
  · exact Or.inr ⟨_, rfl⟩
  · split
    · exact Or.inr ⟨_, rfl⟩
    · exact Or.inl rfl

namespace Layout

variable {α β : Type} {limits : Bool}

/-- The bytes of a value that fits are read as this value, and only where the limits admit it. -/
theorem read_own {l : Layout α} (hcounted : l.Counted) {v v' : α} (hfits : l.Fits false v) :
    l.read limits (l.write v) = .ok (v', []) ↔ v' = v ∧ l.Fits limits v := by
  have hown : ∀ limits, l.Fits limits v → l.read limits (l.write v) = .ok (v, []) := by
    intro limits h
    have hread := l.read_write limits v [] hcounted h
    rwa [List.append_nil] at hread
  constructor
  · intro h
    have hsame := read_unlimited h
    rw [hown false hfits] at hsame
    cases hsame
    exact ⟨rfl, fits_of_read h⟩
  · rintro ⟨rfl, h⟩
    exact hown limits h

/-- A part that fits is read as it was written, and the rest is left to the part after it. -/
theorem read_next {first : Layout α} {next : Layout β} {a : α} {b : β} {v : α × β} {rest : Bytes}
    (h : (first.pair next).read limits ((first.pair next).write (a, b)) = .ok (v, rest))
    (hcounted : first.Counted) (ha : first.Fits limits a) :
    ∃ b', next.read limits (next.write b) = .ok (b', rest) := by
  simp only [read, write, first.read_write limits a (next.write b) hcounted ha] at h
  split at h
  · cases h
  · next b' rest' hb =>
    cases h
    exact ⟨b', hb⟩

theorem read_parts {parts : Layout α} {build : α → β} {take : β → α}
    {build_take : ∀ b, build (take b) = b} {take_build : ∀ a, take (build a) = a} {v : β}
    {v' : β × Bytes} (h : (mapped parts build take build_take take_build).read limits
      (parts.write (take v)) = .ok v') :
    ∃ a, parts.read limits (parts.write (take v)) = .ok (a, v'.2) := by
  simp only [read] at h
  split at h
  · cases h
  · next a rest ha =>
    cases h
    exact ⟨a, ha⟩

/-- A list whose length does not fit its count is not read to the end: the count says less. -/
theorem length_of_read_list {item : Layout α} {vs vs' : List α}
    (h : (list .two item).read limits ((list .two item).write vs) = .ok (vs', []))
    (hsolid : item.Solid) (hcounted : item.Counted) (hfits : ∀ v ∈ vs, item.Fits limits v) :
    vs.length ≤ CountWidth.two.most := by
  let n := vs.length % 65536
  have hle : n ≤ vs.length := Nat.mod_le _ _
  have hsplit : (vs.flatMap fun v => item.write v) =
      ((vs.take n).flatMap fun v => item.write v) ++ (vs.drop n).flatMap fun v => item.write v := by
    rw [← List.flatMap_append, List.take_append_drop]
  have hmany := readMany_write item limits (vs.take n) []
    ((vs.drop n).flatMap fun v => item.write v)
    fun v hv rest => item.read_write limits v rest hcounted (hfits v (List.mem_of_mem_take hv))
  rw [List.length_take_of_le hle, ← hsplit] at hmany
  rcases CountWidth.read_two_write limits vs.length (vs.flatMap fun v => item.write v) with
    hcount | ⟨e, hcount⟩
  · simp only [read, write, hcount] at h
    rw [hmany] at h
    -- nothing is left, so no element was left out
    have hrest : ((vs.drop n).flatMap fun v => item.write v) = [] :=
      (Prod.mk.inj (Except.ok.inj h)).2
    have hnone : vs.drop n = [] := by
      refine List.eq_nil_iff_forall_not_mem.mpr fun v hv => ?_
      have hempty := List.flatMap_eq_nil_iff.mp hrest v hv
      have hpos := item.length_write_pos v hsolid
      rw [hempty] at hpos
      exact absurd hpos (Nat.lt_irrefl 0)
    have hlt : n < 65536 := Nat.mod_lt _ (by decide)
    exact Nat.le_of_lt_succ (Nat.lt_of_le_of_lt (List.drop_eq_nil_iff.mp hnone) hlt)
  · simp only [read, write, hcount] at h
    cases h

end Layout

/-! ### Clean decoding -/

/-- What a reader of a revision decodes the raw packets as that a writer makes of a packet. -/
def Revision.decodings (r : Revision) (policy : Policy) (shield : Int32) (p : Packet) :
    List (Option Decoded) :=
  (r.ofLatest p).map fun q =>
    (RawPacket.parse (q.toBytes shield)).toOption.bind fun raw => (raw.decode r policy).toOption

/-- Is a packet of the server decoded without a warning, as some packets? -/
def Cleanly (r : Revision) (policy : Policy) (shield : Int32) (p : Packet) (ps : List Packet) :
    Prop :=
  r.decodings policy shield p = [some ⟨ps, none⟩]

/-- A packet of a known kind is decoded cleanly if its body is read to the end. -/
theorem cleanly_known {r : Revision} {policy : Policy} {p : Packet} {ps : List Packet}
    (shield : Int32) (kind : Packet.Kind) (body : kind.Body) (hkind : r.kind? kind.id = some kind)
    (hplain : kind ≠ .mobEquipment) (hp : r.ofLatest p = [.known kind body]) :
    Cleanly r policy shield p ps ↔ ∃ body', (kind.layout policy.shield).read policy.limits
      ((kind.layout policy.shield).write body) = .ok (body', []) ∧
        ps = r.toLatest (.known kind body') := by
  rw [Cleanly, Revision.decodings, hp, List.map_singleton,
    RawPacket.parse_toBytes body hkind hplain shield policy.shield]
  simp only [Except.toOption, Option.bind_some, RawPacket.decode, hkind, RawPacket.decodeKnown]
  cases hread : (kind.layout policy.shield).read policy.limits
      ((kind.layout policy.shield).write body) with
  | error e => simp
  | ok v =>
    obtain ⟨body', rest⟩ := v
    cases rest with
    | nil => simp [eq_comm]
    | cons b rest => cases policy.disconnectOnInvalid <;> simp

/-- If all lengths fit, it is decoded as itself, where the limits admit its lists, and else not. -/
theorem cleanly_iff {r : Revision} {policy : Policy} {p : Packet} {ps : List Packet}
    (shield : Int32) (kind : Packet.Kind) (body : kind.Body) (hkind : r.kind? kind.id = some kind)
    (hplain : kind ≠ .mobEquipment) (hp : r.ofLatest p = [.known kind body])
    (hfits : (kind.layout policy.shield).Fits false body) :
    Cleanly r policy shield p ps ↔
      ps = r.toLatest (.known kind body) ∧ (kind.layout policy.shield).Fits policy.limits body := by
  rw [cleanly_known shield kind body hkind hplain hp]
  constructor
  · rintro ⟨body', hread, rfl⟩
    obtain ⟨rfl, h⟩ := (Layout.read_own (kind.layout_counted _) hfits).mp hread
    exact ⟨rfl, h⟩
  · rintro ⟨rfl, h⟩
    exact ⟨body, (Layout.read_own (kind.layout_counted _) hfits).mpr ⟨rfl, h⟩, rfl⟩

/-! ### The catalog -/

/-- Are all texts of the entries short enough for their lengths to be written? -/
def Catalog.Short (c : Catalog) : Prop :=
  ∀ e ∈ c.packs, ∀ s ∈ e.texts, s.utf8ByteSize < 2 ^ 32

section

variable {c : Catalog} {policy : Policy} (limits : Bool)

theorem Catalog.fits_iff (hversion : c.worldTemplateVersion = "") :
    Catalog.layout.Fits limits c ↔ c.Short ∧ CountWidth.two.Admits limits c.packs.length := by
  simp [Catalog.layout, Layout.Fits, Scalar.Fits, CatalogEntry.fits_iff, Catalog.Short, hversion,
    Bytes.length_ofText, UInt32.size, and_comm]

theorem LegacyCatalog.fits_iff {c : LegacyCatalog} (hbehaviour : c.behaviourPacks = []) :
    LegacyCatalog.layout.Fits limits c ↔ CountWidth.two.Admits limits c.texturePacks.length ∧
      ∀ e ∈ c.texturePacks, ∀ s ∈ e.texts, s.utf8ByteSize < 2 ^ 32 := by
  simp [LegacyCatalog.layout, Layout.Fits, Scalar.Fits, CatalogEntry.fits_iff, hbehaviour,
    CountWidth.admits_zero]

theorem CatalogEntry.layout_counted : CatalogEntry.layout.Counted := by
  simp [CatalogEntry.layout, Layout.Counted]

/-- A catalog that is read to the end has no more entries than its count can say. -/
theorem Catalog.length_of_read {limits : Bool} {c' : Catalog}
    (hversion : c.worldTemplateVersion = "") (hshort : c.Short)
    (h : Catalog.layout.read limits (Catalog.layout.write c) = .ok (c', [])) :
    c.packs.length ≤ CountWidth.two.most := by
  obtain ⟨_, h⟩ := Layout.read_parts h
  obtain ⟨_, h⟩ := Layout.read_next h trivial trivial
  obtain ⟨_, h⟩ := Layout.read_next h trivial trivial
  obtain ⟨_, h⟩ := Layout.read_next h trivial trivial
  obtain ⟨_, h⟩ := Layout.read_next h trivial trivial
  have hempty : (Layout.scalar .text).Fits limits c.worldTemplateVersion := by
    rw [hversion]
    exact Nat.zero_lt_of_ne_zero (by decide)
  obtain ⟨_, h⟩ := Layout.read_next h trivial hempty
  exact Layout.length_of_read_list h trivial CatalogEntry.layout_counted fun e he =>
    (CatalogEntry.fits_iff limits e).mpr (hshort e he)

theorem LegacyCatalog.length_of_read {limits : Bool} {c c' : LegacyCatalog}
    (hbehaviour : c.behaviourPacks = [])
    (hshort : ∀ e ∈ c.texturePacks, ∀ s ∈ e.texts, s.utf8ByteSize < 2 ^ 32)
    (h : LegacyCatalog.layout.read limits (LegacyCatalog.layout.write c) = .ok (c', [])) :
    c.texturePacks.length ≤ CountWidth.two.most := by
  obtain ⟨_, h⟩ := Layout.read_parts h
  obtain ⟨_, h⟩ := Layout.read_next h trivial trivial
  obtain ⟨_, h⟩ := Layout.read_next h trivial trivial
  obtain ⟨_, h⟩ := Layout.read_next h trivial trivial
  obtain ⟨_, h⟩ := Layout.read_next h trivial trivial
  have hcounted : (Layout.list .two CatalogEntry.layout).Counted :=
    ⟨trivial, CatalogEntry.layout_counted⟩
  have hnone : (Layout.list .two CatalogEntry.layout).Fits limits c.behaviourPacks := by
    rw [hbehaviour]
    exact ⟨CountWidth.admits_zero limits _, List.forall_mem_nil _⟩
  obtain ⟨_, h⟩ := Layout.read_next h hcounted hnone
  exact Layout.length_of_read_list h trivial CatalogEntry.layout_counted fun e he =>
    (CatalogEntry.fits_iff limits e).mpr (hshort e he)

/-- Of a plain catalog the older revision writes the entries as texture packs, and nothing else that
has a length. -/
theorem Catalog.Plain.legacy_fits_iff (hplain : c.Plain) :
    LegacyCatalog.layout.Fits limits (Revision.catalogOfLatest c) ↔
      c.Short ∧ CountWidth.two.Admits limits c.packs.length := by
  obtain ⟨hbehaviour, htexture⟩ := hplain.catalogOfLatest
  rw [LegacyCatalog.fits_iff limits hbehaviour, htexture, and_comm]
  rfl

variable {r : Revision} {ps : List Packet}

/-- **Nothing but the catalog comes of it** when it is decoded cleanly. -/
theorem eq_of_cleanly_catalog (hplain : c.Plain) (hshort : c.Short) {shield : Int32}
    (h : Cleanly r policy shield (.catalog c) ps) :
    ps = [.catalog c] ∧ CountWidth.two.Admits policy.limits c.packs.length := by
  cases r with
  | r729 =>
    obtain ⟨c', hread, -⟩ := (cleanly_known shield .catalog c rfl (by decide) rfl).mp h
    have hfree : Catalog.layout.Fits false c := (Catalog.fits_iff _ hplain.templateVersion).mpr
      ⟨hshort, Catalog.length_of_read hplain.templateVersion hshort hread, nofun⟩
    obtain ⟨hps, hfits⟩ := (cleanly_iff shield .catalog c rfl (by decide) rfl hfree).mp h
    exact ⟨hps, ((Catalog.fits_iff _ hplain.templateVersion).mp hfits).2⟩
  | r712 =>
    obtain ⟨hbehaviour, htexture⟩ := hplain.catalogOfLatest
    obtain ⟨c', hread, -⟩ := (cleanly_known shield .legacyCatalog (Revision.catalogOfLatest c) rfl
      (by decide) rfl).mp h
    have hlength := LegacyCatalog.length_of_read hbehaviour (by rw [htexture]; exact hshort) hread
    rw [htexture] at hlength
    have hfree : LegacyCatalog.layout.Fits false (Revision.catalogOfLatest c) :=
      (hplain.legacy_fits_iff _).mpr ⟨hshort, hlength, nofun⟩
    obtain ⟨hps, hfits⟩ := (cleanly_iff shield .legacyCatalog (Revision.catalogOfLatest c) rfl
      (by decide) rfl hfree).mp h
    refine ⟨?_, ((hplain.legacy_fits_iff _).mp hfits).2⟩
    rw [hps]
    show [Packet.catalog _] = _
    rw [hplain.catalogToLatest_catalogOfLatest]

/-- An older catalog that stands for a plain one lists its entries as texture packs. -/
theorem Catalog.Plain.texturePacks_eq {c' : LegacyCatalog} (hplain : c.Plain)
    (h : Revision.catalogToLatest c' = c) : c'.behaviourPacks = [] ∧ c'.texturePacks = c.packs := by
  have hpacks : c'.behaviourPacks.map (fun e => { e with addon := true }) ++ c'.texturePacks =
      c.packs := by
    rw [← h]
    rfl
  have hnone : c'.behaviourPacks = [] := by
    refine List.eq_nil_iff_forall_not_mem.mpr fun e he => ?_
    have hmem : { e with addon := true } ∈ c.packs := by
      rw [← hpacks]
      exact List.mem_append_left _ (List.mem_map_of_mem he)
    exact absurd (hplain.addon _ hmem) Bool.true_eq_false_eq_False
  rw [hnone, List.map_nil, List.nil_append] at hpacks
  exact ⟨hnone, hpacks⟩

/-- **The catalog is decoded as itself** exactly if its texts are short enough and the limits admit
its list. -/
theorem cleanly_catalog_iff (hplain : c.Plain) (shield : Int32) :
    Cleanly r policy shield (.catalog c) [.catalog c] ↔
      c.Short ∧ CountWidth.two.Admits policy.limits c.packs.length := by
  cases r with
  | r729 =>
    have hiff := fun limits => Catalog.fits_iff limits hplain.templateVersion
    constructor
    · intro h
      obtain ⟨c', hread, hps⟩ := (cleanly_known shield .catalog c rfl (by decide) rfl).mp h
      obtain rfl : c = c' := by simpa [Revision.toLatest] using hps
      exact (hiff _).mp (Layout.fits_of_read hread)
    · intro h
      have hfree := (hiff false).mpr ⟨h.1, h.2.1, nofun⟩
      exact (cleanly_iff shield .catalog c rfl (by decide) rfl hfree).mpr ⟨rfl, (hiff _).mpr h⟩
  | r712 =>
    have hiff := fun limits => hplain.legacy_fits_iff limits
    constructor
    · intro h
      obtain ⟨c', hread, hps⟩ := (cleanly_known shield .legacyCatalog (Revision.catalogOfLatest c)
        rfl (by decide) rfl).mp h
      have hlatest : Revision.catalogToLatest c' = c := by
        simpa [Revision.toLatest, eq_comm] using hps
      obtain ⟨hbehaviour, htexture⟩ := hplain.texturePacks_eq hlatest
      have hfits := (LegacyCatalog.fits_iff _ hbehaviour).mp (Layout.fits_of_read hread)
      rw [htexture] at hfits
      exact hfits.symm
    · intro h
      have hfree := (hiff false).mpr ⟨h.1, h.2.1, nofun⟩
      refine (cleanly_iff shield .legacyCatalog (Revision.catalogOfLatest c) rfl (by decide) rfl
        hfree).mpr ⟨?_, (hiff _).mpr h⟩
      show _ = [Packet.catalog _]
      rw [hplain.catalogToLatest_catalogOfLatest]

/-! ### The load order -/

/-- Are all texts of the load order short enough for their lengths to be written? -/
def PackStack.Short (s : PackStack) : Prop :=
  s.gameVersion.utf8ByteSize < 2 ^ 32 ∧ ∀ e ∈ s.packs, ∀ t ∈ e.texts, t.utf8ByteSize < 2 ^ 32

theorem PackStack.fits_iff {s : PackStack} (hexperiments : s.experiments = []) :
    PackStack.layout.Fits limits s ↔
      s.Short ∧ CountWidth.varying.Admits limits s.packs.length := by
  simp [PackStack.layout, Layout.Fits, Scalar.Fits, StackEntry.fits_iff, PackStack.Short,
    hexperiments, Bytes.length_ofText, UInt32.size, CountWidth.admits_zero]
  tauto

theorem PackStack.legacy_fits_iff {s : PackStack} (hexperiments : s.experiments = []) :
    LegacyPackStack.layout.Fits limits (Revision.stackOfLatest s) ↔
      s.Short ∧ CountWidth.varying.Admits limits s.packs.length := by
  simp [LegacyPackStack.layout, Revision.stackOfLatest, Layout.Fits, Scalar.Fits,
    StackEntry.fits_iff, PackStack.Short, hexperiments, Bytes.length_ofText, UInt32.size,
    CountWidth.admits_zero]
  tauto

/-- **The load order is decoded cleanly** exactly if the limits admit its list. -/
theorem cleanly_stack_iff {s : PackStack} (heditor : s.includeEditorPacks = false)
    (hexperiments : s.experiments = []) (hshort : s.Short)
    (hcount : s.packs.length ≤ CountWidth.varying.most) (shield : Int32) :
    Cleanly r policy shield (.stack s) ps ↔
      ps = [.stack s] ∧ CountWidth.varying.Admits policy.limits s.packs.length := by
  cases r with
  | r729 =>
    have hiff := fun limits => PackStack.fits_iff limits hexperiments
    rw [cleanly_iff shield .stack s rfl (by decide) rfl ((hiff false).mpr ⟨hshort, hcount, nofun⟩)]
    exact and_congr_right fun _ => (hiff _).trans (and_iff_right hshort)
  | r712 =>
    have hiff := fun limits => PackStack.legacy_fits_iff limits hexperiments
    have hlatest : Revision.stackToLatest (Revision.stackOfLatest s) = s := by
      obtain ⟨required, packs, version, experiments, toggled, editor⟩ := s
      obtain rfl : editor = false := heditor
      rfl
    rw [cleanly_iff shield .legacyStack (Revision.stackOfLatest s) rfl (by decide) rfl
      ((hiff false).mpr ⟨hshort, hcount, nofun⟩)]
    show ps = [Packet.stack _] ∧ _ ↔ _
    rw [hlatest]
    exact and_congr_right fun _ => (hiff _).trans (and_iff_right hshort)

end

/-! ### The packs on offer -/

namespace Offer

/-- The load order repeats texts of the catalog; the others are short. -/
theorem short_stack {o : Offer} {required : Bool} (h : (o.catalog required).Short) :
    o.stack.Short := by
  have hversion : Revision.latest.gameVersion.utf8ByteSize < 2 ^ 32 := by decide
  refine ⟨hversion, ?_⟩
  intro e he t ht
  obtain ⟨id, hid, rfl⟩ := List.mem_map.mp he
  have hversion : id.version.utf8ByteSize < 2 ^ 32 := by
    rcases List.mem_append.mp hid with hid | hid
    · obtain ⟨p, hp, rfl⟩ := List.mem_map.mp hid
      exact h (entry p) (List.mem_map_of_mem hp) _ List.mem_cons_self
    · obtain rfl := List.mem_singleton.mp hid
      decide
  simp only [StackEntry.texts, stackEntry, List.mem_cons, List.not_mem_nil, or_false] at ht
  rcases ht with rfl | rfl | rfl
  · rw [Uuid.size_text]
    decide
  · exact hversion
  · decide

theorem length_stack_le {o : Offer} {limits : Bool}
    (h : CountWidth.two.Admits limits o.packs.length) :
    o.stack.packs.length ≤ CountWidth.varying.most := by
  have hle := h.1
  rw [length_stack]
  simp only [CountWidth.most] at hle ⊢
  omega

/-- Of the numbers that the catalog may have, only the largest is too large for the load order. -/
theorem admits_stack_iff {o : Offer} {limits : Bool}
    (h : CountWidth.two.Admits limits o.packs.length) :
    CountWidth.varying.Admits limits o.stack.packs.length ↔
      ¬ (limits = true ∧ o.packs.length = CountWidth.countLimit) := by
  have hle := length_stack_le h
  rw [length_stack] at hle ⊢
  constructor
  · rintro ⟨-, hlimit⟩ ⟨hlimits, heq⟩
    have := hlimit hlimits
    omega
  · intro hother
    refine ⟨hle, fun hlimits => ?_⟩
    have hcatalog := h.2 hlimits
    have hne : o.packs.length ≠ CountWidth.countLimit := fun heq => hother ⟨hlimits, heq⟩
    omega

/-- **What limits cut short.**  A client that has decoded the catalog of an offer cleanly, as the
catalog that was sent, decodes the load order cleanly too, under either revision and whatever its
policy, unless it has limits on and exactly as many packs are on offer as they admit: then the load
order, with one pack more, is never decoded.  As long as the length of every text can be written,
nothing but the catalog that was sent can be decoded cleanly of it. -/
theorem limits_cut_short (packs : List Pack) (chunkSize : UInt32) (required : Bool) (r : Revision)
    (policy : Policy) (shield : Int32) :
    let o := ofPacks packs chunkSize
    let decodes := Cleanly r policy shield
    let boundary := policy.limits = true ∧ o.packs.length = CountWidth.countLimit
    (decodes (.catalog (o.catalog required)) [.catalog (o.catalog required)] →
        (¬ boundary → decodes (.stack o.stack) [.stack o.stack]) ∧
          (boundary → ∀ ps, ¬ decodes (.stack o.stack) ps)) ∧
      ((o.catalog required).Short → ∀ ps, decodes (.catalog (o.catalog required)) ps →
        ps = [.catalog (o.catalog required)]) := by
  intro o decodes boundary
  have hplain := o.catalog_plain required
  refine ⟨fun h => ?_, fun hshort ps h => (eq_of_cleanly_catalog hplain hshort h).1⟩
  obtain ⟨hshort, hadmits⟩ := (cleanly_catalog_iff hplain shield).mp h
  rw [length_catalog] at hadmits
  have hstack : ∀ ps, decodes (.stack o.stack) ps ↔
      ps = [.stack o.stack] ∧ CountWidth.varying.Admits policy.limits o.stack.packs.length :=
    fun ps => cleanly_stack_iff rfl rfl (short_stack hshort) (length_stack_le hadmits) shield
  constructor
  · intro hinside
    exact (hstack _).mpr ⟨rfl, (admits_stack_iff hadmits).mpr hinside⟩
  · intro hboundary ps h
    exact (admits_stack_iff hadmits).mp ((hstack ps).mp h).2 hboundary

/-- So many copies of one pack. -/
def exampleCopies (n : Nat) : List Pack :=
  List.replicate n (Archive.toPack { id := ⟨⟨0, 1⟩, "1.0.0"⟩, data := [1, 2, 3] })

theorem packs_exampleCopies (n : Nat) : (ofPacks (exampleCopies n) 16).packs = exampleCopies n :=
  List.filter_replicate_of_pos rfl

/-- A client that has limits on decodes the catalog of up to 1024 copies. -/
theorem cleanly_exampleCopies {n : Nat} (hn : n ≤ CountWidth.countLimit) (r : Revision) :
    Cleanly r { limits := true } 0 (.catalog ((ofPacks (exampleCopies n) 16).catalog false))
      [.catalog ((ofPacks (exampleCopies n) 16).catalog false)] := by
  refine (cleanly_catalog_iff (catalog_plain _ _) 0).mpr ⟨?_, ?_⟩
  · intro e he t ht
    rw [catalog, packs_exampleCopies] at he
    obtain ⟨p, hp, rfl⟩ := List.mem_map.mp he
    obtain rfl := List.eq_of_mem_replicate hp
    have hall : ∀ t ∈ (entry (Archive.toPack { id := ⟨⟨0, 1⟩, "1.0.0"⟩, data := [1, 2, 3] })).texts,
        t.utf8ByteSize < 2 ^ 32 := by decide
    exact hall t ht
  · rw [length_catalog, packs_exampleCopies, exampleCopies, List.length_replicate]
    exact ⟨Nat.le_trans hn (by decide), fun _ => hn⟩

/-- Two packs are far from the boundary, so that both lists are decoded. -/
theorem limits_cut_short_exampleCopies :
    let o := ofPacks (exampleCopies 2) 16
    Cleanly .r712 { limits := true } 0 (.catalog (o.catalog false)) [.catalog (o.catalog false)] ∧
      Cleanly .r712 { limits := true } 0 (.stack o.stack) [.stack o.stack] := by
  intro o
  have hcatalog := cleanly_exampleCopies (show 2 ≤ CountWidth.countLimit by decide) .r712
  have hfew : o.packs.length ≠ CountWidth.countLimit := by
    rw [packs_exampleCopies]
    decide
  exact ⟨hcatalog, ((limits_cut_short (exampleCopies 2) 16 false .r712 { limits := true } 0).1
    hcatalog).1 fun hboundary => hfew hboundary.2⟩

/-- At the boundary the catalog is decoded cleanly, and the load order is not. -/
theorem boundary_stack_refused :
    let o := ofPacks (exampleCopies 1024) 16
    Cleanly .r729 { limits := true } 0 (.catalog (o.catalog false)) [.catalog (o.catalog false)] ∧
      ¬ ∃ ps, Cleanly .r729 { limits := true } 0 (.stack o.stack) ps := by
  intro o
  have hcatalog := cleanly_exampleCopies (Nat.le_refl CountWidth.countLimit) .r729
  refine ⟨hcatalog, ?_⟩
  rintro ⟨ps, hstack⟩
  obtain ⟨hshort, hadmits⟩ := (cleanly_catalog_iff (catalog_plain _ _) 0).mp hcatalog
  rw [length_catalog] at hadmits
  have hlength : o.packs.length = CountWidth.countLimit := by
    rw [packs_exampleCopies, exampleCopies, List.length_replicate]
    rfl
  have hlist := ((cleanly_stack_iff rfl rfl (short_stack hshort) (length_stack_le hadmits) 0).mp
    hstack).2
  exact (admits_stack_iff hadmits).mp hlist ⟨rfl, hlength⟩

end Offer

end PackExchange
