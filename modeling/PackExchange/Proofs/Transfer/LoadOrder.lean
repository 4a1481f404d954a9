import PackExchange.Proofs.Transfer.Accepted
import PackExchange.Proofs.Transfer.Balance

/-!
# Which load orders a client accepts

A server lists in the load order every pack on offer, by identifier and version.  A client asks for
at most one pack of an identifier, whatever its version.  So a load order is accepted from a client
that has got all it asked for unless the server offers two versions of one pack.

* `Course.Satisfied` — a client that has got all it asked for;
* `Course.loadOrder_accepted` — when such a client accepts the load order of the server;
* `Course.two_versions_refused` — two versions of one pack make it refuse.
-/

namespace PackExchange

namespace Course

/-- Has the client got every pack that it asked for? -/
def Satisfied (rules : FetchRules) (k : Catalog) (c : Course) : Prop :=
  ∀ w ∈ (Selection.ofCatalog rules.filter k.packs).wanted, ∃ p ∈ c.fetch.resolved, p.id = w.id

variable {rules : FetchRules} {k : Catalog} {c : Course}

/-- Wherever a course comes to after a catalog, the catalog is kept to. -/
theorem Reachable.ongoing (h : Reachable rules c) (hcatalog : Handled.catalogs c.handled = [k]) :
    c.Ongoing rules k := by
  rcases Course.invariant h with hfresh | ⟨k', hongoing⟩
  · rw [hfresh.catalogs] at hcatalog
    cases hcatalog
  · rw [hongoing.catalogs, List.singleton_inj] at hcatalog
    exact hcatalog ▸ hongoing

/-- A resolved pack is one that was asked for, if packs keep the identity they were announced
with. -/
theorem Ongoing.asked_of_resolved (h : c.Ongoing rules k)
    (hkeeps : ∀ id data p, rules.unpack id data = .ok p → p.id = id) {p : Pack}
    (hp : p ∈ c.fetch.resolved) :
    ∃ w ∈ (Selection.ofCatalog rules.filter k.packs).wanted, w.id = p.id := by
  obtain ⟨places, hbalance⟩ := h.balanced
  obtain ⟨got, missing, hperm, -, hgot⟩ := hbalance.resolved_or_missing
  obtain ⟨n, hn⟩ := List.getElem?_of_mem hp
  obtain ⟨hlt, rfl⟩ := List.getElem?_eq_some_iff.mp hn
  have hlt' : n < got.length := by
    rw [hgot.length_eq]
    exact hlt
  obtain ⟨e, he, data, q, hq, hpq⟩ := hgot.get hlt' hlt
  have hplace : got[n] ∈ places := hperm.subset (List.mem_append_left _ (List.getElem_mem hlt'))
  have hwanted := (hbalance.mem_places _).mp hplace
  refine ⟨e.wanted, Selection.mem_wanted_ofCatalog.mpr ⟨_, e, hwanted, he, rfl⟩, ?_⟩
  rw [List.get_eq_getElem] at hpq
  rw [hpq]
  exact (hkeeps _ _ _ hq).symm

/-- **When a client that has got all it asked for accepts the load order.**  It does if the packs
on offer that share an identifier share the version too.  In general, if packs keep the identity
they were announced with, it does if and only if it asked for no other version of a pack on offer,
those apart that every client has or that its filter turned down. -/
theorem loadOrder_accepted {packs : List Pack} {chunkSize : UInt32} {required : Bool}
    (h : Reachable rules c)
    (hcatalog : Handled.catalogs c.handled = [(Offer.ofPacks packs chunkSize).catalog required])
    (hsatisfied : c.Satisfied rules ((Offer.ofPacks packs chunkSize).catalog required)) :
    ((∀ p ∈ (Offer.ofPacks packs chunkSize).packs, ∀ q ∈ (Offer.ofPacks packs chunkSize).packs,
        p.id.uuid = q.id.uuid → p.id = q.id) →
      ∃ reply, c.fetch.takeStack (Offer.ofPacks packs chunkSize).stack = .ok reply) ∧
    ((∀ id data p, rules.unpack id data = .ok p → p.id = id) →
      ((∃ reply, c.fetch.takeStack (Offer.ofPacks packs chunkSize).stack = .ok reply) ↔
        ∀ p ∈ (Offer.ofPacks packs chunkSize).packs, p.id.isExempted = false →
          p.id ∉ c.fetch.ignored →
          ∀ w ∈ (Selection.ofCatalog rules.filter
              ((Offer.ofPacks packs chunkSize).catalog required).packs).wanted,
            w.id.uuid = p.id.uuid → w.id = p.id)) := by
  have hongoing := h.ongoing hcatalog
  generalize ho : Offer.ofPacks packs chunkSize = o at hcatalog hsatisfied hongoing ⊢
  have hobtained : ∀ p ∈ o.packs, p.id.isExempted = true ∨ p.id ∈ c.fetch.ignored ∨
      ∃ w ∈ (Selection.ofCatalog rules.filter (o.catalog required).packs).wanted,
        w.id.uuid = p.id.uuid := by
    intro p hp
    have hentry : Offer.entry p ∈ (o.catalog required).packs := List.mem_map_of_mem hp
    rw [hongoing.ignored]
    exact Selection.obtained hentry
  rw [Fetch.takeStack_ok_iff]
  refine ⟨?_, fun hkeeps => ⟨?_, ?_⟩⟩
  · intro hversions p hp
    refine (hobtained p hp).imp_right (Or.imp_right ?_)
    rintro ⟨w, hw, huuid⟩
    obtain ⟨i, e, -, he, rfl⟩ := Selection.mem_wanted_ofCatalog.mp hw
    obtain ⟨q, hq, rfl⟩ := List.mem_map.mp (List.mem_of_getElem? he)
    obtain ⟨r, hr, hid⟩ := hsatisfied _ hw
    have hsame : q.id = p.id := hversions q hq p hp huuid
    exact ⟨r, hr, hid.trans hsame⟩
  · intro haccepted p hp hexempted hignored w hw huuid
    rcases haccepted p hp with htrue | hmem | ⟨r, hr, hid⟩
    · rw [hexempted] at htrue
      cases htrue
    · exact absurd hmem hignored
    · obtain ⟨v, hv, hvr⟩ := hongoing.asked_of_resolved hkeeps hr
      have hsame : v.id.uuid = w.id.uuid := by rw [hvr, hid, huuid]
      have heq : v = w := List.inj_on_of_nodup_map (Selection.nodup_wanted _ _) hv hw hsame
      rw [← heq, hvr, hid]
  · intro hnone p hp
    by_cases hexempted : p.id.isExempted = true
    · exact Or.inl hexempted
    · by_cases hignored : p.id ∈ c.fetch.ignored
      · exact Or.inr (Or.inl hignored)
      · obtain ⟨w, hw, huuid⟩ := ((hobtained p hp).resolve_left hexempted).resolve_left hignored
        rw [Bool.not_eq_true] at hexempted
        obtain ⟨r, hr, hid⟩ := hsatisfied w hw
        exact Or.inr (Or.inr ⟨r, hr, hid.trans (hnone p hp hexempted hignored w hw huuid)⟩)

/-- The packs of an example: two of two bytes that share an identifier. -/
def examplePacks (version : String) : List Pack :=
  ["1.0.0", version].map fun version =>
    Archive.toPack { id := ⟨⟨0, 1⟩, version⟩, data := [7, 8] }

/-- A course in which a client gets all it asks for of the example packs, in one chunk. -/
def obtainingCourse (version : String) : Course :=
  let name := "00000000-0000-0000-0000-000000000001"
  let c := (start {}).handle (.networkSettings {})
  let c := c.handle (.catalog ((Offer.ofPacks (examplePacks version) 2).catalog true))
  let c := c.handle (.packData { uuid := name, chunkSize := 2, size := 2 })
  let c := c.work 0 false
  let c := c.handle (.chunkData { uuid := name, data := [7, 8] })
  let c := c.work 0 false
  c.work 0 false

theorem reachable_obtainingCourse {version : String}
    (h : version = "1.0.0" ∨ version = "2.0.0") : Reachable {} (obtainingCourse version) := by
  rcases h with rfl | rfl
  all_goals
    refine Relation.ReflTransGen.tail ?_ (.work _ 0 false)
    refine Relation.ReflTransGen.tail ?_ (.work _ 0 false)
    refine Reachable.pass ?_ rfl (by decide +kernel)
    refine Relation.ReflTransGen.tail ?_ (.work _ 0 false)
    refine Reachable.pass ?_ rfl (by decide +kernel)
    refine Reachable.pass ?_ rfl (by decide +kernel)
    exact Reachable.pass .refl rfl (by decide +kernel)

theorem satisfied_obtainingCourse {version : String}
    (h : version = "1.0.0" ∨ version = "2.0.0") :
    (obtainingCourse version).Satisfied {}
      ((Offer.ofPacks (examplePacks version) 2).catalog true) := by
  show ∀ w ∈ _, _
  rcases h with rfl | rfl <;> decide +kernel

/-- A pack offered twice is no obstacle: the client takes it once and accepts the load order. -/
theorem loadOrder_accepted_exampleCourse :
    (∃ reply, (obtainingCourse "1.0.0").fetch.takeStack
      (Offer.ofPacks (examplePacks "1.0.0") 2).stack = .ok reply) ∧
    ∀ p ∈ (Offer.ofPacks (examplePacks "1.0.0") 2).packs, p.id.isExempted = false →
      p.id ∉ (obtainingCourse "1.0.0").fetch.ignored →
      ∀ w ∈ (Selection.ofCatalog none
          ((Offer.ofPacks (examplePacks "1.0.0") 2).catalog true).packs).wanted,
        w.id.uuid = p.id.uuid → w.id = p.id := by
  obtain ⟨haccepts, hexactly⟩ := loadOrder_accepted (reachable_obtainingCourse (Or.inl rfl)) rfl
    (satisfied_obtainingCourse (Or.inl rfl))
  have hversions : ∀ p ∈ (Offer.ofPacks (examplePacks "1.0.0") 2).packs,
      ∀ q ∈ (Offer.ofPacks (examplePacks "1.0.0") 2).packs,
      p.id.uuid = q.id.uuid → p.id = q.id := by
    decide +kernel
  have hkeeps : ∀ id data p, Archive.unpack id data = .ok p → p.id = id := by
    intro id data p hp
    rw [Archive.unpack] at hp
    split at hp
    · cases hp
    · cases hp
      rfl
  exact ⟨haccepts hversions, (hexactly hkeeps).mp (haccepts hversions)⟩

/-- **Two versions of one pack on offer make a client that has got all it asked for refuse the load
order**: it is offered both, takes the first, and misses the second in the load order. -/
theorem two_versions_refused :
    Reachable {} (obtainingCourse "2.0.0") ∧
      Handled.catalogs (obtainingCourse "2.0.0").handled =
        [(Offer.ofPacks (examplePacks "2.0.0") 2).catalog true] ∧
      (obtainingCourse "2.0.0").Satisfied {}
        ((Offer.ofPacks (examplePacks "2.0.0") 2).catalog true) ∧
      (obtainingCourse "2.0.0").fetch.takeStack
          (Offer.ofPacks (examplePacks "2.0.0") 2).stack =
        .error (.missingStackEntry "00000000-0000-0000-0000-000000000001" "2.0.0") := by
  refine ⟨reachable_obtainingCourse (Or.inr rfl), rfl, satisfied_obtainingCourse (Or.inr rfl), ?_⟩
  have hmissing : (Offer.ofPacks (examplePacks "2.0.0") 2).stack.packs.find?
      (!(obtainingCourse "2.0.0").fetch.holds ·) =
        some (Offer.stackEntry ⟨⟨0, 1⟩, "2.0.0"⟩) := by
    decide +kernel
  have huuid : (⟨0, 1⟩ : Uuid).text = "00000000-0000-0000-0000-000000000001" := by
    decide +kernel
  rw [Fetch.takeStack, hmissing, ← huuid]
  rfl

end Course

end PackExchange
