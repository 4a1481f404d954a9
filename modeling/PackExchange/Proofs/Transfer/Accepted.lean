import Mathlib.Data.List.Nodup
import PackExchange.Proofs.Pack.Token
import PackExchange.Proofs.Transfer.Catalog
import PackExchange.Transfer.Fetch
import PackExchange.Transfer.Offer

/-!
# The packs that a client takes of an offer

A client that is offered packs with identifiers of their own wants each of them, unless every client
has the pack or the filter turns it down.  Once it has those it wants, it accepts the load order.

* `Offer.accepted` — the packs on offer that a client takes;
* `Offer.wanted_catalog` — they are what it wants of the catalog;
* `Fetch.takeStack_ok_iff` — when a load order is accepted;
* `Fetch.takeStack_offered` — with the packs it takes a client accepts it.
-/

namespace PackExchange

/-- What a client keeps of a pack that it wants. -/
def Pack.wanted (p : Pack) : Wanted := ⟨p.id, p.size, p.contentKey⟩

namespace Offer

/-- Does a client take the pack at a place of the catalog? -/
def takes (filter : Option DownloadFilter) (total : Nat) (place : Pack × Nat) : Bool :=
  !place.1.id.isExempted && DownloadFilter.passes filter place.1.id place.2 total

/-- The packs on offer that a client takes: those that not every client has, and that the filter
lets pass. -/
def accepted (o : Offer) (filter : Option DownloadFilter) : List Pack :=
  (o.packs.zipIdx.filter (takes filter o.packs.length)).map (·.1)

theorem wanted_entry (p : Pack) : (entry p).wanted = p.wanted := by
  have hkey : (entry p).contentKey = p.contentKey := by
    show (if p.encrypted then p.contentKey else "") = p.contentKey
    split
    · rfl
    · next h =>
      rw [Pack.encrypted, bne_iff_ne, ne_eq, not_not] at h
      exact h.symm
  rw [CatalogEntry.wanted, hkey]
  rfl

/-- The loop over the catalog of packs with identifiers of their own. -/
theorem wanted_collect (filter : Option DownloadFilter) (total : Nat) (ps : List Pack) (i : Nat)
    (s : Selection) (hdistinct : (ps.map (·.id.uuid)).Nodup)
    (hfresh : ∀ w ∈ s.wanted, ∀ p ∈ ps, w.id.uuid ≠ p.id.uuid) :
    (Selection.collect filter total i (ps.map entry) s).wanted =
      (((ps.zipIdx i).filter (takes filter total)).map (·.1.wanted)).reverse ++ s.wanted := by
  induction ps generalizing i s with
  | nil => rfl
  | cons p ps ih =>
    obtain ⟨hp, hps⟩ := List.nodup_cons.mp hdistinct
    have hfresh' : ∀ w ∈ s.wanted, ∀ q ∈ ps, w.id.uuid ≠ q.id.uuid :=
      fun w hw q hq => hfresh w hw q (List.mem_cons_of_mem p hq)
    have hnone : s.wanted.any (·.id.uuid == (entry p).uuid) = false := by
      rw [Selection.any_uuid_eq_false_iff]
      exact fun w hw => hfresh w hw p List.mem_cons_self
    have hid : (entry p).id = p.id := rfl
    rw [List.map_cons, Selection.collect, Selection.step, List.zipIdx_cons]
    simp only [Selection.judge_eq, hnone, Bool.false_eq_true, if_false, hid]
    cases hexempted : p.id.isExempted with
    | true =>
      have htakes : takes filter total (p, i) = false := by rw [takes, hexempted]; rfl
      rw [List.filter_cons_of_neg (Bool.not_eq_true _ ▸ htakes)]
      exact ih (i + 1) _ hps hfresh'
    | false =>
      cases hpasses : DownloadFilter.passes filter p.id i total with
      | false =>
        have htakes : takes filter total (p, i) = false := by
          rw [takes, hexempted, hpasses]
          rfl
        rw [List.filter_cons_of_neg (Bool.not_eq_true _ ▸ htakes)]
        exact ih (i + 1) _ hps hfresh'
      | true =>
        have htakes : takes filter total (p, i) = true := by
          rw [takes, hexempted, hpasses]
          rfl
        rw [List.filter_cons_of_pos htakes, List.map_cons, List.reverse_cons, List.append_assoc]
        refine (ih (i + 1) _ hps ?_).trans ?_
        · intro w hw q hq heq
          rcases List.mem_cons.mp hw with rfl | hw
          · exact hp (List.mem_map.mpr ⟨q, hq, heq.symm⟩)
          · exact hfresh' w hw q hq heq
        · show _ ++ (entry p).wanted :: s.wanted = _
          rw [wanted_entry]
          rfl

/-- **A client wants of the catalog what it takes of the offer.** -/
theorem wanted_catalog (o : Offer) (filter : Option DownloadFilter)
    (hdistinct : (o.packs.map (·.id.uuid)).Nodup) :
    (Selection.ofCatalog filter (o.packs.map entry)).wanted =
      (o.accepted filter).map Pack.wanted := by
  have hcollect := wanted_collect filter o.packs.length o.packs 0
    { remaining := o.packs.length } hdistinct
    fun _ hw => nomatch hw
  rw [Selection.ofCatalog, List.length_map]
  simp only [hcollect, List.append_nil, List.reverse_reverse, accepted, List.map_map]
  rfl

/-! ### The load order -/

theorem mem_packs_of_accepted {o : Offer} {filter : Option DownloadFilter} {p : Pack}
    (hp : p ∈ o.accepted filter) : p ∈ o.packs := by
  obtain ⟨⟨q, i⟩, hq, rfl⟩ := List.mem_map.mp hp
  obtain ⟨hmem, -⟩ := List.mem_filter.mp hq
  exact (List.mem_zipIdx' hmem).2 ▸ List.getElem_mem _

theorem mem_accepted_or (o : Offer) (filter : Option DownloadFilter)
    (hdistinct : (o.packs.map (·.id.uuid)).Nodup) {p : Pack} (hp : p ∈ o.packs) :
    p.id.isExempted = true ∨
      p.id ∈ (Selection.ofCatalog filter (o.packs.map entry)).ignored ∨ p ∈ o.accepted filter := by
  have hentry : entry p ∈ o.packs.map entry := List.mem_map_of_mem hp
  refine (Selection.obtained hentry).imp_right (Or.imp_right ?_)
  rw [wanted_catalog o filter hdistinct]
  rintro ⟨w, hw, huuid⟩
  obtain ⟨q, hq, rfl⟩ := List.mem_map.mp hw
  have hsame : q = p := List.inj_on_of_nodup_map hdistinct (mem_packs_of_accepted hq) hp huuid
  exact hsame ▸ hq

end Offer

theorem Fetch.holds_stackEntry (f : Fetch) (id : PackId) :
    f.holds (Offer.stackEntry id) =
      (id.isExempted || f.ignored.contains id || f.resolved.any (·.id == id)) := by
  simp only [holds, Offer.stackEntry, PackId.uuidOf?_text]

/-- Nothing in the load order is missed if and only if every pack on offer is one that every client
has, that the filter turned down, or that was resolved. -/
theorem Fetch.find?_stack_eq_none_iff (f : Fetch) (o : Offer) :
    o.stack.packs.find? (!f.holds ·) = none ↔
      ∀ p ∈ o.packs, p.id.isExempted = true ∨ p.id ∈ f.ignored ∨ ∃ q ∈ f.resolved, q.id = p.id := by
  have hholds : ∀ id : PackId, f.holds (Offer.stackEntry id) = true ↔
      id.isExempted = true ∨ id ∈ f.ignored ∨ ∃ q ∈ f.resolved, q.id = id := by
    intro id
    rw [holds_stackEntry, Bool.or_eq_true, Bool.or_eq_true, List.contains_iff_mem,
      List.any_eq_true, or_assoc]
    simp only [beq_iff_eq]
  simp only [← hholds]
  rw [List.find?_eq_none]
  constructor
  · intro hnone p hp
    have hmem : Offer.stackEntry p.id ∈ o.stack.packs :=
      List.mem_map_of_mem (List.mem_append_left _ (List.mem_map_of_mem hp))
    simpa using hnone _ hmem
  · intro hpacks e he
    obtain ⟨id, hid, rfl⟩ := List.mem_map.mp he
    rcases List.mem_append.mp hid with hid | hid
    · obtain ⟨p, hp, rfl⟩ := List.mem_map.mp hid
      simp [hpacks p hp]
    · have hexempted : id.isExempted = true := List.contains_iff_mem.mpr hid
      simp [(hholds id).mpr (Or.inl hexempted)]

/-- **When a load order is accepted.** -/
theorem Fetch.takeStack_ok_iff (f : Fetch) (o : Offer) :
    (∃ reply, f.takeStack o.stack = .ok reply) ↔
      ∀ p ∈ o.packs, p.id.isExempted = true ∨ p.id ∈ f.ignored ∨ ∃ q ∈ f.resolved, q.id = p.id := by
  rw [← find?_stack_eq_none_iff, takeStack]
  cases o.stack.packs.find? (!f.holds ·) with
  | none => simp
  | some e => simp

/-- **A client with the packs it takes accepts the load order.** -/
theorem Fetch.takeStack_offered {f : Fetch} {o : Offer} {filter : Option DownloadFilter}
    (hdistinct : (o.packs.map (·.id.uuid)).Nodup)
    (hignored : f.ignored = (Selection.ofCatalog filter (o.packs.map Offer.entry)).ignored)
    (hresolved : ∀ p ∈ o.accepted filter, ∃ q ∈ f.resolved, q.id = p.id) :
    f.takeStack o.stack =
      .ok ({ f with stage := .done }, [.clientResponse (.plain .completed)]) := by
  have hnone : o.stack.packs.find? (!f.holds ·) = none := by
    rw [find?_stack_eq_none_iff, hignored]
    intro p hp
    exact (o.mem_accepted_or filter hdistinct hp).imp_right (Or.imp_right (hresolved p))
  rw [takeStack, hnone]

end PackExchange
