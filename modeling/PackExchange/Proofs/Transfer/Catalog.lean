import Mathlib.Data.List.Pairwise
import PackExchange.Transfer.Selection

/-!
# Which entries of a catalog are wanted

Going through a catalog is a loop over four lists.  This file says without the loop which entries
it chooses.

* `IsWanted`, `IsRejected` — the places of a catalog that a client wants, and those that its filter
  turns down;
* `Repeats`, `Verdict.Holds` — when a verdict is the one on an entry;
* `Selection.Upto` — what the loop has found so far, with `Upto.step` and `Upto.collect`;
* `Selection.wanted_ofCatalog` — the chosen entries are those at the wanted places, in order;
* `Selection.mem_ignored_ofCatalog` — the ignored packs are those at the rejected places;
* `Selection.nodup_wanted` — no two of the chosen packs share an identifier;
* `Selection.obtained` — what becomes of an entry.
-/

namespace PackExchange

/-- Does a filter let a pack pass?  Where there is no filter, every pack passes. -/
def DownloadFilter.passes (filter : Option DownloadFilter) (id : PackId) (index total : Nat) :
    Bool :=
  match filter with
  | none => true
  | some accepts => accepts id index total

/-- What a client keeps of an entry that it wants. -/
def CatalogEntry.wanted (e : CatalogEntry) : Wanted := ⟨e.id, e.size, e.contentKey⟩

/-- Does the client want the entry at a place?  It does unless every client has the pack, an
earlier wanted entry has the same identifier, or the filter turns the pack down. -/
def IsWanted (filter : Option DownloadFilter) (entries : List CatalogEntry) (i : Nat) : Prop :=
  ∃ e, entries[i]? = some e ∧ e.id.isExempted = false ∧
    (∀ j, j < i → IsWanted filter entries j → ∀ e', entries[j]? = some e' → e'.uuid ≠ e.uuid) ∧
    DownloadFilter.passes filter e.id i entries.length = true
termination_by i

/-- Does the filter turn the entry at a place down?  It is asked unless every client has the pack
or an earlier wanted entry has the same identifier. -/
def IsRejected (filter : Option DownloadFilter) (entries : List CatalogEntry) (i : Nat)
    (id : PackId) : Prop :=
  ∃ e, entries[i]? = some e ∧ e.id = id ∧ e.id.isExempted = false ∧
    (∀ j, j < i → IsWanted filter entries j → ∀ e', entries[j]? = some e' → e'.uuid ≠ e.uuid) ∧
    DownloadFilter.passes filter e.id i entries.length = false

theorem IsWanted.exists_entry {filter : Option DownloadFilter} {entries : List CatalogEntry}
    {i : Nat} (h : IsWanted filter entries i) : ∃ e, entries[i]? = some e := by
  rw [IsWanted] at h
  obtain ⟨e, he, -⟩ := h
  exact ⟨e, he⟩

theorem IsWanted.lt_length {filter : Option DownloadFilter} {entries : List CatalogEntry} {i : Nat}
    (h : IsWanted filter entries i) : i < entries.length := by
  obtain ⟨e, he⟩ := h.exists_entry
  exact (List.getElem?_eq_some_iff.mp he).1

theorem IsRejected.lt_length {filter : Option DownloadFilter} {entries : List CatalogEntry}
    {i : Nat} {id : PackId} (h : IsRejected filter entries i id) : i < entries.length := by
  obtain ⟨e, he, -⟩ := h
  exact (List.getElem?_eq_some_iff.mp he).1

/-- The entry at a place, read with a default. -/
theorem Catalog.getD_eq {entries : List CatalogEntry} {i : Nat} {e : CatalogEntry}
    (h : entries[i]? = some e) : entries.getD i default = e := by
  rw [List.getD_eq_getElem?_getD, h, Option.getD_some]

/-! ### The verdict on one entry -/

/-- Is a pack with this identifier wanted already, by an entry before this place? -/
def Repeats (filter : Option DownloadFilter) (entries : List CatalogEntry) (i : Nat) (uuid : Uuid) :
    Prop :=
  ∃ j, j < i ∧ IsWanted filter entries j ∧ ∃ e, entries[j]? = some e ∧ e.uuid = uuid

theorem not_repeats_iff {filter : Option DownloadFilter} {entries : List CatalogEntry} {i : Nat}
    {uuid : Uuid} : ¬ Repeats filter entries i uuid ↔
      ∀ j, j < i → IsWanted filter entries j → ∀ e, entries[j]? = some e → e.uuid ≠ uuid := by
  constructor
  · exact fun hno j hj hwanted e he huuid => hno ⟨j, hj, hwanted, e, he, huuid⟩
  · rintro hfresh ⟨j, hj, hwanted, e, he, huuid⟩
    exact hfresh j hj hwanted e he huuid

namespace Verdict

/-- When is this the verdict on the entry at a place? -/
def Holds (filter : Option DownloadFilter) (entries : List CatalogEntry) (i : Nat)
    (e : CatalogEntry) : Verdict → Prop
  | .duplicate => Repeats filter entries i e.uuid
  | .exempted => ¬ Repeats filter entries i e.uuid ∧ e.id.isExempted = true
  | .rejected => ¬ Repeats filter entries i e.uuid ∧ e.id.isExempted = false ∧
      DownloadFilter.passes filter e.id i entries.length = false
  | .wanted => ¬ Repeats filter entries i e.uuid ∧ e.id.isExempted = false ∧
      DownloadFilter.passes filter e.id i entries.length = true

variable {filter : Option DownloadFilter} {entries : List CatalogEntry} {i : Nat} {e : CatalogEntry}

theorem holds_wanted_iff (he : entries[i]? = some e) :
    Verdict.wanted.Holds filter entries i e ↔ IsWanted filter entries i := by
  rw [Holds, not_repeats_iff, IsWanted]
  constructor
  · rintro ⟨hfresh, hexempted, hpasses⟩
    exact ⟨e, he, hexempted, hfresh, hpasses⟩
  · rintro ⟨e', he', hexempted, hfresh, hpasses⟩
    rw [he] at he'
    cases he'
    exact ⟨hfresh, hexempted, hpasses⟩

theorem holds_rejected_iff (he : entries[i]? = some e) :
    Verdict.rejected.Holds filter entries i e ↔ IsRejected filter entries i e.id := by
  rw [Holds, not_repeats_iff, IsRejected]
  constructor
  · rintro ⟨hfresh, hexempted, hpasses⟩
    exact ⟨e, he, rfl, hexempted, hfresh, hpasses⟩
  · rintro ⟨e', he', -, hexempted, hfresh, hpasses⟩
    rw [he] at he'
    cases he'
    exact ⟨hfresh, hexempted, hpasses⟩

end Verdict

namespace Selection

theorem judge_eq (filter : Option DownloadFilter) (total : Nat) (wanted : List Wanted)
    (index : Nat) (e : CatalogEntry) :
    judge filter total wanted index e =
      if wanted.any (·.id.uuid == e.uuid) then .duplicate
      else if e.id.isExempted then .exempted
      else if DownloadFilter.passes filter e.id index total then .wanted
      else .rejected := by
  cases filter <;> rfl

theorem any_uuid_eq_false_iff {wanted : List Wanted} {uuid : Uuid} :
    wanted.any (·.id.uuid == uuid) = false ↔ ∀ w ∈ wanted, w.id.uuid ≠ uuid := by
  simp

/-! ### The loop -/

/-- What the loop has found before a place: the wanted places, latest first, with their entries,
and the packs that the filter turned down. -/
structure Upto (filter : Option DownloadFilter) (entries : List CatalogEntry) (i : Nat)
    (places : List Nat) (s : Selection) : Prop where
  descending : places.Pairwise (· > ·)
  mem_places : ∀ j, j ∈ places ↔ j < i ∧ IsWanted filter entries j
  wanted : s.wanted = places.map fun j => (entries.getD j default).wanted
  mem_ignored : ∀ id, id ∈ s.ignored ↔ ∃ j, j < i ∧ IsRejected filter entries j id

theorem Upto.repeats_iff {filter : Option DownloadFilter} {entries : List CatalogEntry} {i : Nat}
    {places : List Nat} {s : Selection} (h : Upto filter entries i places s) (uuid : Uuid) :
    s.wanted.any (·.id.uuid == uuid) = true ↔ Repeats filter entries i uuid := by
  rw [← not_iff_not, Bool.not_eq_true, any_uuid_eq_false_iff, not_repeats_iff, h.wanted,
    List.forall_mem_map]
  constructor
  · intro hfresh j hj hwanted e he
    have hplace := hfresh j ((h.mem_places j).mpr ⟨hj, hwanted⟩)
    rw [Catalog.getD_eq he] at hplace
    exact hplace
  · intro hfresh j hplace
    obtain ⟨hj, hwanted⟩ := (h.mem_places j).mp hplace
    obtain ⟨e, he⟩ := hwanted.exists_entry
    rw [Catalog.getD_eq he]
    exact hfresh j hj hwanted e he

/-- The verdict is the one that holds. -/
theorem Upto.judge_eq_iff {filter : Option DownloadFilter} {entries : List CatalogEntry} {i : Nat}
    {places : List Nat} {s : Selection} {e : CatalogEntry} (h : Upto filter entries i places s)
    (v : Verdict) :
    judge filter entries.length s.wanted i e = v ↔ v.Holds filter entries i e := by
  rw [judge_eq]
  cases v <;> simp only [Verdict.Holds, ← h.repeats_iff] <;>
    cases s.wanted.any (·.id.uuid == e.uuid) <;> cases e.id.isExempted <;>
    cases DownloadFilter.passes filter e.id i entries.length <;> decide

/-- Moving on by one place, when the lists have grown as the verdict says. -/
theorem Upto.next {filter : Option DownloadFilter} {entries : List CatalogEntry} {i : Nat}
    {places places' : List Nat} {s s' : Selection} (h : Upto filter entries i places s)
    (hplaces : places' = places ∧ ¬ IsWanted filter entries i ∧ s'.wanted = s.wanted ∨
      places' = i :: places ∧ IsWanted filter entries i ∧
        s'.wanted = (entries.getD i default).wanted :: s.wanted)
    (hignored : ∀ id, id ∈ s'.ignored ↔ id ∈ s.ignored ∨ IsRejected filter entries i id) :
    Upto filter entries (i + 1) places' s' := by
  have hsplit : ∀ (P : Nat → Prop) (j : Nat), j < i + 1 ∧ P j ↔ j < i ∧ P j ∨ j = i ∧ P i := by
    intro P j
    rw [Nat.lt_succ_iff_lt_or_eq, or_and_right]
    exact or_congr_right ⟨fun ⟨hj, hp⟩ => ⟨hj, hj ▸ hp⟩, fun ⟨hj, hp⟩ => ⟨hj, hj ▸ hp⟩⟩
  have hmem : ∀ id, id ∈ s'.ignored ↔ ∃ j, j < i + 1 ∧ IsRejected filter entries j id := by
    intro id
    rw [hignored id, h.mem_ignored id]
    constructor
    · rintro (⟨j, hj, hr⟩ | hr)
      · exact ⟨j, Nat.lt_succ_of_lt hj, hr⟩
      · exact ⟨i, Nat.lt_succ_self i, hr⟩
    · rintro ⟨j, hj, hr⟩
      rcases (hsplit (fun j => IsRejected filter entries j id) j).mp ⟨hj, hr⟩ with h' | ⟨-, hr'⟩
      · exact Or.inl ⟨j, h'⟩
      · exact Or.inr hr'
  rcases hplaces with ⟨rfl, hnot, hwanted⟩ | ⟨rfl, hyes, hwanted⟩
  · refine ⟨h.descending, fun j => ?_, by rw [hwanted, h.wanted], hmem⟩
    rw [hsplit (IsWanted filter entries) j, h.mem_places j]
    exact ⟨Or.inl, fun hj => hj.resolve_right fun hi => hnot hi.2⟩
  · refine ⟨?_, fun j => ?_, by rw [hwanted, h.wanted, List.map_cons], hmem⟩
    · exact List.pairwise_cons.mpr ⟨fun j hj => ((h.mem_places j).mp hj).1, h.descending⟩
    · rw [List.mem_cons, hsplit (IsWanted filter entries) j, h.mem_places j, or_comm]
      exact or_congr_right ⟨fun hj => ⟨hj, hyes⟩, And.left⟩

/-- One round of the loop. -/
theorem Upto.step {filter : Option DownloadFilter} {entries : List CatalogEntry} {i : Nat}
    {places : List Nat} {s : Selection} {e : CatalogEntry} (h : Upto filter entries i places s)
    (he : entries[i]? = some e) :
    ∃ places', Upto filter entries (i + 1) places'
      (Selection.step filter entries.length i e s) := by
  have hwanted := (h.judge_eq_iff .wanted).trans (Verdict.holds_wanted_iff he)
  have hrejected := (h.judge_eq_iff .rejected).trans (Verdict.holds_rejected_iff he)
  have honly : ∀ id, IsRejected filter entries i id → id = e.id := by
    rintro id ⟨e', he', rfl, -⟩
    rw [he] at he'
    cases he'
    rfl
  have hquiet : judge filter entries.length s.wanted i e ≠ .rejected →
      ∀ id, id ∈ s.ignored ↔ id ∈ s.ignored ∨ IsRejected filter entries i id := by
    intro hne id
    refine ⟨Or.inl, fun hid => hid.resolve_right fun hr => hne (hrejected.mpr ?_)⟩
    exact honly id hr ▸ hr
  rw [Selection.step]
  cases hverdict : judge filter entries.length s.wanted i e with
  | duplicate | exempted =>
    rw [hverdict] at hwanted hquiet
    refine ⟨places, h.next (Or.inl ⟨rfl, fun hw => ?_, rfl⟩) (hquiet (by decide))⟩
    exact absurd (hwanted.mpr hw) (by decide)
  | rejected =>
    rw [hverdict] at hwanted hrejected
    refine ⟨places, h.next (Or.inl ⟨rfl, fun hw => ?_, rfl⟩) fun id => ?_⟩
    · exact absurd (hwanted.mpr hw) (by decide)
    · rw [List.mem_cons, or_comm]
      exact or_congr_right ⟨fun hid => hid ▸ hrejected.mp rfl, honly id⟩
  | wanted =>
    rw [hverdict] at hwanted hquiet
    refine ⟨i :: places, h.next (Or.inr ⟨rfl, hwanted.mp rfl, ?_⟩) (hquiet (by decide))⟩
    rw [Catalog.getD_eq he]
    rfl

theorem getElem?_of_drop_cons {entries rest : List CatalogEntry} {i : Nat} {e : CatalogEntry}
    (h : entries.drop i = e :: rest) : entries[i]? = some e ∧ entries.drop (i + 1) = rest := by
  refine ⟨?_, ?_⟩
  · rw [← List.head?_drop, h, List.head?_cons]
  · rw [← List.tail_drop, h, List.tail_cons]

/-- The whole loop, from any place on. -/
theorem Upto.collect {filter : Option DownloadFilter} {entries : List CatalogEntry} :
    ∀ (rest : List CatalogEntry) {i : Nat} {places : List Nat} {s : Selection},
      Upto filter entries i places s → entries.drop i = rest →
      ∃ places', Upto filter entries entries.length places'
        (Selection.collect filter entries.length i rest s) := by
  intro rest
  induction rest with
  | nil =>
    intro i places s h hrest
    have hlength : entries.length ≤ i := List.drop_eq_nil_iff.mp hrest
    have hend : ∀ (P : Nat → Prop), (∀ j, P j → j < entries.length) →
        ∀ j, j < i ∧ P j ↔ j < entries.length ∧ P j := fun P hP j =>
      ⟨fun hj => ⟨hP j hj.2, hj.2⟩, fun hj => ⟨Nat.lt_of_lt_of_le hj.1 hlength, hj.2⟩⟩
    refine ⟨places, h.descending, fun j => ?_, h.wanted, fun id => ?_⟩
    · rw [h.mem_places j]
      exact hend _ (fun _ => IsWanted.lt_length) j
    · show id ∈ s.ignored ↔ _
      rw [h.mem_ignored id]
      exact exists_congr (hend (IsRejected filter entries · id) fun _ => IsRejected.lt_length)
  | cons e rest ih =>
    intro i places s h hrest
    obtain ⟨he, hdrop⟩ := getElem?_of_drop_cons hrest
    obtain ⟨places', h'⟩ := h.step he
    exact ih h' hdrop

theorem upto_start (filter : Option DownloadFilter) (entries : List CatalogEntry) :
    Upto filter entries 0 [] { remaining := entries.length } := by
  refine ⟨List.Pairwise.nil, fun j => ?_, rfl, fun id => ?_⟩
  · exact ⟨fun hj => (nomatch hj), fun hj => absurd hj.1 (Nat.not_lt_zero j)⟩
  · exact ⟨fun hid => (nomatch hid), fun ⟨j, hj, _⟩ => absurd hj (Nat.not_lt_zero j)⟩

/-- What the loop has found in the end. -/
theorem upto_collect (filter : Option DownloadFilter) (entries : List CatalogEntry) :
    ∃ places, Upto filter entries entries.length places
      (collect filter entries.length 0 entries { remaining := entries.length }) :=
  Upto.collect entries (upto_start filter entries) List.drop_zero

theorem remaining_collect (filter : Option DownloadFilter) (total : Nat)
    (entries : List CatalogEntry) (i : Nat) {s : Selection}
    (h : s.remaining = s.wanted.length + entries.length) :
    (collect filter total i entries s).remaining = (collect filter total i entries s).wanted.length := by
  induction entries generalizing i s with
  | nil => exact h
  | cons e entries ih =>
    rw [List.length_cons] at h
    refine ih (i + 1) ?_
    rw [step]
    cases judge filter total s.wanted i e with
    | duplicate | exempted | rejected =>
      show s.remaining - 1 = s.wanted.length + entries.length
      omega
    | wanted =>
      show s.remaining = s.wanted.length + 1 + entries.length
      omega

/-- The count that is left are the chosen entries. -/
theorem remaining_ofCatalog (filter : Option DownloadFilter) (entries : List CatalogEntry) :
    (ofCatalog filter entries).remaining = (ofCatalog filter entries).wanted.length := by
  rw [ofCatalog]
  exact (remaining_collect filter _ entries 0 (Nat.zero_add _).symm).trans List.length_reverse.symm

/-- **The chosen entries are those at the wanted places**, in the order of the catalog. -/
theorem wanted_ofCatalog (filter : Option DownloadFilter) (entries : List CatalogEntry) :
    ∃ places : List Nat, places.Pairwise (· < ·) ∧
      (∀ j, j ∈ places ↔ IsWanted filter entries j) ∧
      (ofCatalog filter entries).wanted = places.map fun j => (entries.getD j default).wanted := by
  obtain ⟨places, h⟩ := upto_collect filter entries
  refine ⟨places.reverse, List.pairwise_reverse.mpr h.descending, fun j => ?_, ?_⟩
  · rw [List.mem_reverse, h.mem_places j]
    exact ⟨And.right, fun hj => ⟨hj.lt_length, hj⟩⟩
  · rw [ofCatalog, List.map_reverse, ← h.wanted]

/-- **The ignored packs are those that the filter turned down.** -/
theorem mem_ignored_ofCatalog (filter : Option DownloadFilter) (entries : List CatalogEntry)
    (id : PackId) :
    id ∈ (ofCatalog filter entries).ignored ↔ ∃ j, IsRejected filter entries j id := by
  obtain ⟨places, h⟩ := upto_collect filter entries
  rw [ofCatalog, List.mem_reverse, h.mem_ignored id]
  exact exists_congr fun j => ⟨And.right, fun hj => ⟨hj.lt_length, hj⟩⟩

/-- No two of the chosen packs share an identifier. -/
theorem nodup_wanted (filter : Option DownloadFilter) (entries : List CatalogEntry) :
    ((ofCatalog filter entries).wanted.map (·.id.uuid)).Nodup := by
  obtain ⟨places, hascending, hplaces, hwanted⟩ := wanted_ofCatalog filter entries
  rw [hwanted, List.map_map]
  refine List.pairwise_map.mpr (hascending.imp_of_mem ?_)
  intro i j hi hj hlt
  have hwi := (hplaces i).mp hi
  have hwj := (hplaces j).mp hj
  obtain ⟨e, he⟩ := hwi.exists_entry
  rw [IsWanted] at hwj
  obtain ⟨e', he', -, hfresh, -⟩ := hwj
  simp only [Function.comp_apply, Catalog.getD_eq he, Catalog.getD_eq he']
  exact hfresh i hlt hwi e he

/-- What is wanted are the entries at the wanted places. -/
theorem mem_wanted_ofCatalog {filter : Option DownloadFilter} {entries : List CatalogEntry}
    {w : Wanted} :
    w ∈ (ofCatalog filter entries).wanted ↔
      ∃ i e, IsWanted filter entries i ∧ entries[i]? = some e ∧ w = e.wanted := by
  obtain ⟨places, -, hplaces, hwanted⟩ := wanted_ofCatalog filter entries
  rw [hwanted, List.mem_map]
  constructor
  · rintro ⟨i, hi, rfl⟩
    have hplace := (hplaces i).mp hi
    obtain ⟨e, he⟩ := hplace.exists_entry
    exact ⟨i, e, hplace, he, by rw [Catalog.getD_eq he]⟩
  · rintro ⟨i, e, hplace, he, rfl⟩
    exact ⟨i, (hplaces i).mpr hplace, by rw [Catalog.getD_eq he]⟩

/-- **Every entry is dealt with**: every client has the pack, the filter turned it down, or a pack
with its identifier is wanted. -/
theorem obtained {filter : Option DownloadFilter} {entries : List CatalogEntry} {e : CatalogEntry}
    (he : e ∈ entries) :
    e.id.isExempted = true ∨ e.id ∈ (ofCatalog filter entries).ignored ∨
      ∃ w ∈ (ofCatalog filter entries).wanted, w.id.uuid = e.uuid := by
  obtain ⟨i, hi⟩ := List.getElem?_of_mem he
  by_cases hrepeats : Repeats filter entries i e.uuid
  · obtain ⟨j, -, hwanted, e', he', huuid⟩ := hrepeats
    exact Or.inr (Or.inr ⟨e'.wanted, mem_wanted_ofCatalog.mpr ⟨j, e', hwanted, he', rfl⟩, huuid⟩)
  cases hexempted : e.id.isExempted with
  | true => exact Or.inl rfl
  | false =>
    right
    cases hpasses : DownloadFilter.passes filter e.id i entries.length with
    | false =>
      left
      rw [mem_ignored_ofCatalog]
      exact ⟨i, (Verdict.holds_rejected_iff hi).mp ⟨hrepeats, hexempted, hpasses⟩⟩
    | true =>
      right
      have hwanted := (Verdict.holds_wanted_iff hi).mp ⟨hrepeats, hexempted, hpasses⟩
      exact ⟨e.wanted, mem_wanted_ofCatalog.mpr ⟨i, e, hwanted, hi, rfl⟩, rfl⟩

end Selection

end PackExchange
