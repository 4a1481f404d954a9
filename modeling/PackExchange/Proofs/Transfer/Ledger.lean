import Mathlib.Data.List.Perm.Subperm
import PackExchange.Proofs.Transfer.Effects

/-!
# The lists of a client's side

From the catalog on, every wanted pack waits to be announced, is being downloaded, is resolved or
was given up, and the client counts how many are not resolved.

* `Fetch.Origins` — every resolved pack comes from a download of its own;
* `Fetch.Ledger` — how the lists belong together, with the count;
* `Fetch.Ledger.replace`, `drop`, `announce`, `deliver` — what steps make of them;
* `Fetch.Ledger.split` — every wanted pack is either resolved or missing.
-/

namespace PackExchange

namespace Fetch

/-- The downloads that the resolved packs come from. -/
structure Origins (f : Fetch) (ks : List Nat) : Prop where
  nodup : ks.Nodup
  yields : List.Forall₂
    (fun k p => ∃ d, f.downloads[k]? = some d ∧ d.worker = .ended ∧ d.Yields f.rules.unpack p)
    ks f.resolved

/-- How the lists of a client's side belong together, once it has chosen from the catalog. -/
structure Ledger (ws : List Wanted) (f : Fetch) : Prop where
  /-- No pack is waited for twice. -/
  distinct : (f.wanted.map (·.id.uuid) ++ f.downloads.map (·.id.uuid)).Nodup
  wanted : ∀ w ∈ f.wanted, w ∈ ws
  downloads : ∀ d ∈ f.downloads, ∃ w ∈ ws, w.id = d.id ∧ w.contentKey = d.contentKey
  origins : ∃ ks, f.Origins ks
  count : f.remaining + f.resolved.length = ws.length
  stage : f.stage = .downloading ∧ f.remaining ≠ 0 ∨
    (f.stage = .awaitingStack ∨ f.stage = .done) ∧ f.remaining = 0

theorem Ledger.separate {ws : List Wanted} {f : Fetch} (h : f.Ledger ws) : Separate f.downloads :=
  separate_of_nodup (List.nodup_append.mp h.distinct).2.1

/-! ### One step -/

/-- Resolved packs keep their downloads as long as each download only moves on. -/
theorem Origins.of_leads {f f' : Fetch} {ks : List Nat} (h : f.Origins ks)
    (hrules : f'.rules = f.rules) (hresolved : f'.resolved = f.resolved)
    (hleads : ∀ (k : Nat) (d : Download), f.downloads[k]? = some d →
      ∃ d', f'.downloads[k]? = some d' ∧ d.Leads d') : f'.Origins ks := by
  refine ⟨h.nodup, ?_⟩
  rw [hresolved, hrules]
  refine h.yields.imp ?_
  rintro k p ⟨d, hk, hended, hyields⟩
  obtain ⟨d', hk', hlead⟩ := hleads k d hk
  exact ⟨d', hk', (hlead.ended hended).1, hyields.of_leads hlead hended⟩

/-- What stands at a place after one element has changed. -/
theorem getElem?_set_or {α : Type} {xs : List α} {k j : Nat} {x y : α}
    (h : (xs.set k x)[j]? = some y) : (j = k ∧ y = x) ∨ (j ≠ k ∧ xs[j]? = some y) := by
  by_cases hjk : j = k
  · subst hjk
    have hlt := (List.getElem?_eq_some_iff.mp h).1
    rw [List.length_set] at hlt
    rw [List.getElem?_set_self hlt, Option.some.injEq] at h
    exact Or.inl ⟨rfl, h.symm⟩
  · rw [List.getElem?_set_ne (Ne.symm hjk)] at h
    exact Or.inr ⟨hjk, h⟩

theorem mem_set_or {α : Type} {xs : List α} {k : Nat} {x y : α} (h : y ∈ xs.set k x) :
    y = x ∨ ∃ j, j ≠ k ∧ xs[j]? = some y := by
  obtain ⟨j, hj⟩ := List.mem_iff_getElem?.mp h
  rcases getElem?_set_or hj with ⟨-, hx⟩ | hother
  · exact Or.inl hx
  · exact Or.inr ⟨j, hother⟩

theorem leads_replace {f : Fetch} {k : Nat} {d d' : Download} (hk : f.downloads[k]? = some d)
    (hlead : d.Leads d') (j : Nat) (e : Download) (hj : f.downloads[j]? = some e) :
    ∃ e', (f.replace k d').downloads[j]? = some e' ∧ e.Leads e' := by
  by_cases hjk : k = j
  · subst hjk
    rw [hk] at hj
    cases hj
    exact ⟨d', List.getElem?_set_self (List.getElem?_eq_some_iff.mp hk).1, hlead⟩
  · exact ⟨e, by rw [← hj]; exact List.getElem?_set_ne hjk, Download.Leads.refl e⟩

theorem map_uuid_replace {f : Fetch} {k : Nat} {d d' : Download}
    (hk : f.downloads[k]? = some d) (hid : d'.id = d.id) :
    (f.replace k d').downloads.map (·.id.uuid) = f.downloads.map (·.id.uuid) := by
  obtain ⟨hlt, rfl⟩ := List.getElem?_eq_some_iff.mp hk
  show (f.downloads.set k d').map (·.id.uuid) = _
  rw [List.map_set, hid]
  have hlt' : k < (f.downloads.map (·.id.uuid)).length := by rw [List.length_map]; exact hlt
  have hget : f.downloads[k].id.uuid = (f.downloads.map (·.id.uuid))[k] := by
    rw [List.getElem_map]
  rw [hget, List.set_getElem_self hlt']

/-- Another state of one download changes nothing that is counted. -/
theorem Ledger.replace {ws : List Wanted} {f : Fetch} (h : f.Ledger ws) {k : Nat}
    {d d' : Download} (hk : f.downloads[k]? = some d) (hlead : d.Leads d') :
    (f.replace k d').Ledger ws := by
  obtain ⟨ks, horigins⟩ := h.origins
  refine ⟨?_, h.wanted, ?_, ⟨ks, ?_⟩, h.count, h.stage⟩
  · rw [map_uuid_replace hk hlead.id]
    exact h.distinct
  · intro e he
    rcases List.mem_or_eq_of_mem_set he with he | rfl
    · exact h.downloads e he
    · rw [hlead.id, hlead.contentKey]
      exact h.downloads d (List.mem_of_getElem? hk)
  · exact horigins.of_leads rfl rfl (leads_replace hk hlead)

/-- A pack that was announced is no longer waited for to be announced. -/
theorem Ledger.drop {ws : List Wanted} {f : Fetch} (h : f.Ledger ws) (uuid : Uuid) :
    ({ f with wanted := f.wanted.filter (·.id.uuid != uuid) } : Fetch).Ledger ws := by
  refine ⟨?_, ?_, h.downloads, ?_, h.count, h.stage⟩
  · refine h.distinct.sublist (List.Sublist.append_right ?_ _)
    exact (List.filter_sublist).map _
  · intro w hw
    exact h.wanted w (List.mem_of_mem_filter hw)
  · obtain ⟨ks, horigins⟩ := h.origins
    exact ⟨ks, horigins.nodup, horigins.yields⟩

/-- The announced pack becomes a download. -/
theorem Ledger.announce {ws : List Wanted} {f : Fetch} (h : f.Ledger ws) {w : Wanted}
    (hw : w ∈ f.wanted) (a : PackData) :
    ({ f with
        wanted := f.wanted.filter (·.id.uuid != w.id.uuid)
        downloads := f.downloads ++ [Download.announced w.id w.contentKey a] } : Fetch).Ledger
      ws := by
  have hdrop := h.drop w.id.uuid
  obtain ⟨ks, horigins⟩ := h.origins
  refine ⟨?_, hdrop.wanted, ?_, ⟨ks, ?_⟩, h.count, h.stage⟩
  · have hfresh : w.id.uuid ∉ f.downloads.map (·.id.uuid) := by
      intro hmem
      exact (List.nodup_append.mp h.distinct).2.2 _ (List.mem_map_of_mem hw) _ hmem rfl
    have hgone : w.id.uuid ∉ (f.wanted.filter (·.id.uuid != w.id.uuid)).map (·.id.uuid) := by
      rw [List.mem_map]
      rintro ⟨v, hv, hvw⟩
      have hne := (List.mem_filter.mp hv).2
      rw [bne_iff_ne] at hne
      exact hne hvw
    rw [List.map_append, ← List.append_assoc]
    refine List.nodup_append.mpr ⟨hdrop.distinct, List.nodup_singleton _, ?_⟩
    intro u hu v hv
    rw [List.map_cons, List.map_nil, List.mem_singleton] at hv
    subst hv
    intro heq
    subst heq
    exact (List.mem_append.mp hu).elim hgone hfresh
  · intro d hd
    rcases List.mem_append.mp hd with hd | hd
    · exact h.downloads d hd
    · rw [List.mem_singleton] at hd
      subst hd
      exact ⟨w, h.wanted w hw, rfl, rfl⟩
  · refine horigins.of_leads rfl rfl ?_
    intro k d hk
    refine ⟨d, ?_, Download.Leads.refl d⟩
    rw [List.getElem?_append_left (List.getElem?_eq_some_iff.mp hk).1, hk]

/-- There are at most as many downloads as wanted packs. -/
theorem Ledger.length_downloads_le {ws : List Wanted} {f : Fetch} (h : f.Ledger ws) :
    f.downloads.length ≤ ws.length := by
  have hnodup : (f.downloads.map (·.id.uuid)).Nodup := (List.nodup_append.mp h.distinct).2.1
  have hsubset : f.downloads.map (·.id.uuid) ⊆ ws.map (·.id.uuid) := by
    intro uuid hmem
    obtain ⟨d, hd, rfl⟩ := List.mem_map.mp hmem
    obtain ⟨w, hw, hid, -⟩ := h.downloads d hd
    rw [← hid]
    exact List.mem_map_of_mem hw
  have hlength := (List.Nodup.subperm hnodup hsubset).length_le
  rwa [List.length_map, List.length_map] at hlength

/-- Of two lists that are related element by element, each element of the first is related to one. -/
theorem exists_of_forall₂ {α β : Type} {R : α → β → Prop} {xs : List α} {ys : List β}
    (h : List.Forall₂ R xs ys) : ∀ x ∈ xs, ∃ y, R x y :=
  ((List.forall₂_and_left xs ys).mp (h.imp fun _ y hxy => ⟨⟨y, hxy⟩, hxy⟩)).1

theorem Origins.lt_length {f : Fetch} {ks : List Nat} (h : f.Origins ks) {k : Nat} (hk : k ∈ ks) :
    ∃ d, f.downloads[k]? = some d ∧ d.worker = .ended := by
  obtain ⟨p, d, hd, hended, -⟩ := exists_of_forall₂ h.yields k hk
  exact ⟨d, hd, hended⟩

/-- A download that has not ended is not among those of the resolved packs, so not every pack is
resolved. -/
theorem Ledger.remaining_ne_zero {ws : List Wanted} {f : Fetch} (h : f.Ledger ws) {k : Nat}
    {d : Download} (hk : f.downloads[k]? = some d) (hworker : d.worker ≠ .ended) :
    f.remaining ≠ 0 := by
  obtain ⟨ks, horigins⟩ := h.origins
  have hfresh : k ∉ ks := by
    intro hmem
    obtain ⟨e, he, hended⟩ := horigins.lt_length hmem
    rw [hk] at he
    cases he
    exact hworker hended
  have hsubset : k :: ks ⊆ List.range f.downloads.length := by
    intro j hj
    rw [List.mem_range]
    rcases List.mem_cons.mp hj with rfl | hj
    · exact (List.getElem?_eq_some_iff.mp hk).1
    · obtain ⟨e, he, -⟩ := horigins.lt_length hj
      exact (List.getElem?_eq_some_iff.mp he).1
  have hnodup : (k :: ks).Nodup := List.nodup_cons.mpr ⟨hfresh, horigins.nodup⟩
  have hlength := (List.Nodup.subperm hnodup hsubset).length_le
  have hresolved := horigins.yields.length_eq
  have hmost := h.length_downloads_le
  have hcount := h.count
  rw [List.length_cons, List.length_range] at hlength
  omega

/-- A finished download becomes the origin of its pack. -/
theorem Origins.deliver {f f' : Fetch} {ks : List Nat} (h : f.Origins ks) {k : Nat} {d : Download}
    (hk : f.downloads[k]? = some d) (hworker : d.worker ≠ .ended) {p : Pack}
    (hyields : d.Yields f.rules.unpack p) (hrules : f'.rules = f.rules)
    (hdownloads : f'.downloads = (f.replace k { d with worker := .ended }).downloads)
    (hresolved : f'.resolved = f.resolved ++ [p]) : f'.Origins (ks ++ [k]) := by
  have hmoved : (f.replace k { d with worker := .ended }).Origins ks :=
    h.of_leads rfl rfl (leads_replace hk (Download.Woken.quits hworker).leads)
  refine ⟨List.nodup_append.mpr ⟨h.nodup, List.nodup_singleton k, ?_⟩, ?_⟩
  · intro j hj k' hk' heq
    rw [List.mem_singleton] at hk'
    subst hk' heq
    obtain ⟨e, he, hended⟩ := h.lt_length hj
    rw [hk] at he
    cases he
    exact hworker hended
  · rw [hresolved, hrules, hdownloads]
    refine List.rel_append hmoved.yields (List.Forall₂.cons ⟨{ d with worker := .ended }, ?_⟩ .nil)
    have hself := List.getElem?_set_self (a := { d with worker := .ended })
      (List.getElem?_eq_some_iff.mp hk).1
    exact ⟨hself, rfl, hyields.hash, hyields.size, hyields.unpacked⟩

/-- A finished download resolves its pack and is counted off. -/
theorem Ledger.deliver {ws : List Wanted} {f : Fetch} (h : f.Ledger ws) {k : Nat}
    {d : Download} (hk : f.downloads[k]? = some d) (hworker : d.worker ≠ .ended) {p : Pack}
    (hyields : d.Yields f.rules.unpack p) :
    ({ f.replace k { d with worker := .ended } with
        resolved := f.resolved ++ [p]
        remaining := f.remaining - 1
        stage := if f.remaining = 1 then .awaitingStack else f.stage } : Fetch).Ledger ws := by
  have hne := h.remaining_ne_zero hk hworker
  have hreplaced := h.replace hk (Download.Woken.quits hworker).leads
  obtain ⟨ks, horigins⟩ := h.origins
  refine ⟨hreplaced.distinct, h.wanted, hreplaced.downloads,
    ⟨ks ++ [k], horigins.deliver hk hworker hyields rfl rfl rfl⟩, ?_, ?_⟩
  · have hcount := h.count
    show f.remaining - 1 + (f.resolved ++ [p]).length = ws.length
    rw [List.length_append, List.length_singleton]
    omega
  · rcases h.stage with ⟨hstage, -⟩ | ⟨-, hzero⟩
    · by_cases hone : f.remaining = 1
      · right
        exact ⟨Or.inl (if_pos hone), by show f.remaining - 1 = 0; omega⟩
      · left
        exact ⟨(if_neg hone).trans hstage, by show f.remaining - 1 ≠ 0; omega⟩
    · exact absurd hzero hne

/-- **Every wanted pack is either resolved or missing**, in terms of any list of places that the
wanted packs stand at, and of the downloads that the resolved packs come from. -/
theorem Ledger.split {ws : List Wanted} {f : Fetch} (h : f.Ledger ws) {ks : List Nat}
    (horigins : f.Origins ks) {places : List Nat} {g : Nat → Wanted} (hplaces : ws = places.map g) :
    ∃ got missing : List Nat, (got ++ missing).Perm places ∧ missing.length = f.remaining ∧
      List.Forall₂ (fun i p => ∃ k ∈ ks, ∃ d, f.downloads[k]? = some d ∧ d.worker = .ended ∧
        d.Yields f.rules.unpack p ∧ (g i).id = d.id ∧ (g i).contentKey = d.contentKey)
        got f.resolved := by
  have hplace : ∀ k : Nat, ∃ i, ∀ d : Download, f.downloads[k]? = some d →
      i ∈ places ∧ (g i).id = d.id ∧ (g i).contentKey = d.contentKey := by
    intro k
    cases hk : f.downloads[k]? with
    | none => exact ⟨0, nofun⟩
    | some d =>
      obtain ⟨w, hw, hid, hkey⟩ := h.downloads d (List.mem_of_getElem? hk)
      rw [hplaces] at hw
      obtain ⟨i, hi, rfl⟩ := List.mem_map.mp hw
      refine ⟨i, ?_⟩
      intro e he
      cases he
      exact ⟨hi, hid, hkey⟩
  choose place hplace using hplace
  have hnodup : (ks.map place).Nodup := by
    refine horigins.nodup.map_on ?_
    intro j hj k hk heq
    obtain ⟨d, hd, -⟩ := horigins.lt_length hj
    obtain ⟨e, he, -⟩ := horigins.lt_length hk
    have hid : d.id.uuid = e.id.uuid := by
      rw [← (hplace j d hd).2.1, ← (hplace k e he).2.1, heq]
    exact place_unique (List.nodup_append.mp h.distinct).2.1 hd he hid
  have hsubset : ks.map place ⊆ places := by
    intro i hi
    obtain ⟨k, hk, rfl⟩ := List.mem_map.mp hi
    obtain ⟨d, hd, -⟩ := horigins.lt_length hk
    exact (hplace k d hd).1
  obtain ⟨got, hgot, hsublist⟩ := List.Nodup.subperm hnodup hsubset
  obtain ⟨missing, hmissing⟩ := hsublist.exists_perm_append
  have hperm : (ks.map place ++ missing).Perm places :=
    (hgot.symm.append_right missing).trans hmissing.symm
  refine ⟨ks.map place, missing, hperm, ?_, ?_⟩
  · have hcount := h.count
    have hlength := hperm.length_eq
    have hresolved := horigins.yields.length_eq
    rw [hplaces, List.length_map] at hcount
    rw [List.length_append, List.length_map] at hlength
    omega
  · rw [List.forall₂_map_left_iff]
    refine (List.forall₂_and_left _ _).mpr ⟨fun k hk => hk, horigins.yields⟩ |>.imp ?_
    rintro k p ⟨hk, d, hd, hended, hyields⟩
    exact ⟨k, hk, d, hd, hended, hyields, (hplace k d hd).2⟩

end Fetch

end PackExchange
