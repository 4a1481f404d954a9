import PackExchange.Proofs.Transfer.Effects

/-!
# Every entry of a catalog gets one verdict

The loop over a catalog keeps a count, the wanted packs, the ignored ones and the calls of the filter in
step.  This file says what each of them is in terms of the verdicts alone, and the verdicts without the
loop.

* `Judged` — one verdict for each entry, the one that holds, with `Judged.unique`;
* `Selection.verdicts` — the verdicts from left to right, and `judged_verdicts`;
* `Selection.having` — the entries with some verdicts, and what the loop makes of them, in `collected`;
* `Fetch.Answers` — a client that answers as the verdicts say;
* `Fetch.takeCatalog_answers` — so every catalog is answered.
-/

namespace PackExchange

/-! ### The verdicts on a catalog -/

/-- Is the filter asked before this verdict? -/
def Verdict.consults : Verdict → Bool
  | .duplicate | .exempted => false
  | .rejected | .wanted => true

/-- One verdict for each entry: the one that holds. -/
structure Judged (filter : Option DownloadFilter) (entries : List CatalogEntry)
    (verdicts : List Verdict) : Prop where
  length : verdicts.length = entries.length
  holds : ∀ {i e}, entries[i]? = some e → ∀ v : Verdict,
    verdicts[i]? = some v ↔ v.Holds filter entries i e
  /-- What an entry may repeat are the entries with this verdict. -/
  wanted : ∀ {i}, verdicts[i]? = some .wanted ↔ IsWanted filter entries i

namespace Selection

variable {filter : Option DownloadFilter} {entries : List CatalogEntry} {i : Nat} {places : List Nat}
  {s : Selection} {e : CatalogEntry}

/-- The verdicts on the rest of a catalog. -/
def verdicts (filter : Option DownloadFilter) (total : Nat) :
    Nat → List CatalogEntry → Selection → List Verdict
  | _, [], _ => []
  | i, e :: entries, s =>
    judge filter total s.wanted i e :: verdicts filter total (i + 1) entries (step filter total i e s)

theorem length_verdicts (filter : Option DownloadFilter) (total i : Nat) (entries : List CatalogEntry)
    (s : Selection) : (verdicts filter total i entries s).length = entries.length := by
  induction entries generalizing i s with
  | nil => rfl
  | cons e entries ih => rw [verdicts, List.length_cons, List.length_cons, ih]

/-- The verdicts hold, from any place on. -/
theorem Upto.verdicts (rest : List CatalogEntry) (h : Upto filter entries i places s)
    (hrest : entries.drop i = rest) {k : Nat} (he : entries[i + k]? = some e) (v : Verdict) :
    (Selection.verdicts filter entries.length i rest s)[k]? = some v ↔
      v.Holds filter entries (i + k) e := by
  induction rest generalizing i places s k with
  | nil =>
    have hlength : entries.length ≤ i := List.drop_eq_nil_iff.mp hrest
    have hlt := (List.getElem?_eq_some_iff.mp he).1
    omega
  | cons e' rest ih =>
    obtain ⟨he', hdrop⟩ := getElem?_of_drop_cons hrest
    cases k with
    | zero =>
      rw [Nat.add_zero, he'] at he
      cases he
      rw [Selection.verdicts, List.getElem?_cons_zero, Option.some_inj]
      exact h.judge_eq_iff v
    | succ k =>
      obtain ⟨places', h'⟩ := h.step he'
      have hplace : i + (k + 1) = i + 1 + k := by omega
      rw [hplace] at he ⊢
      rw [Selection.verdicts, List.getElem?_cons_succ]
      exact ih h' hdrop he

/-- The entries with some verdicts, in order and each with its place; the first place is given. -/
def having (p : Verdict → Bool) (i : Nat) (entries : List CatalogEntry) (vs : List Verdict) :
    List (CatalogEntry × Nat) :=
  (((entries.zipIdx i).zip vs).filter (p ·.2)).map (·.1)

theorem having_cons (p : Verdict → Bool) (i : Nat) (e : CatalogEntry) (entries : List CatalogEntry)
    (v : Verdict) (vs : List Verdict) :
    having p i (e :: entries) (v :: vs) =
      if p v then (e, i) :: having p (i + 1) entries vs else having p (i + 1) entries vs := by
  rw [having, List.zipIdx_cons, List.zip_cons_cons, List.filter_cons]
  split <;> rfl

/-- The calls of the filter: one for each entry that it is asked about, with the place of the entry and the
length of the catalog. -/
def calls (filter : Option DownloadFilter) (total i : Nat) (entries : List CatalogEntry)
    (vs : List Verdict) : List Consultation :=
  if filter.isSome then (having Verdict.consults i entries vs).map fun x => ⟨x.1.id, x.2, total⟩ else []

/-- What the loop adds to its lists, by the verdicts. -/
structure Collected (filter : Option DownloadFilter) (total i : Nat) (entries : List CatalogEntry)
    (s s' : Selection) (vs : List Verdict) : Prop where
  wanted : s'.wanted = ((having (· == .wanted) i entries vs).map (·.1.wanted)).reverse ++ s.wanted
  ignored : s'.ignored = ((having (· == .rejected) i entries vs).map (·.1.id)).reverse ++ s.ignored
  consulted : s'.consulted = (calls filter total i entries vs).reverse ++ s.consulted

theorem collected (filter : Option DownloadFilter) (total i : Nat) (entries : List CatalogEntry)
    (s : Selection) :
    Collected filter total i entries s (collect filter total i entries s)
      (Selection.verdicts filter total i entries s) := by
  induction entries generalizing i s with
  | nil =>
    refine ⟨rfl, rfl, ?_⟩
    rw [calls]
    split <;> rfl
  | cons e entries ih =>
    obtain ⟨hwanted, hignored, hconsulted⟩ := ih (i + 1) (step filter total i e s)
    rw [collect, Selection.verdicts]
    refine ⟨?_, ?_, ?_⟩
    · rw [hwanted, having_cons, step]
      cases judge filter total s.wanted i e <;> simp [CatalogEntry.wanted]
    · rw [hignored, having_cons, step]
      cases judge filter total s.wanted i e <;> simp
    · rw [hconsulted, calls, calls, having_cons, step]
      cases judge filter total s.wanted i e <;> cases filter <;>
        simp [consultations, Verdict.consults]

theorem length_having (p : Verdict → Bool) (i : Nat) {entries : List CatalogEntry} {vs : List Verdict}
    (h : vs.length = entries.length) : (having p i entries vs).length = vs.countP p := by
  have hsnd : ((entries.zipIdx i).zip vs).map (·.2) = vs := by
    refine List.map_snd_zip ?_
    rw [List.length_zipIdx]
    exact Nat.le_of_eq h
  rw [having, List.length_map, ← List.countP_eq_length_filter, ← Function.comp_def, ← List.countP_map,
    hsnd]

/-- The verdicts on a whole catalog hold. -/
theorem judged_verdicts (filter : Option DownloadFilter) (entries : List CatalogEntry) :
    Judged filter entries
      (verdicts filter entries.length 0 entries { remaining := entries.length }) := by
  have hlength := length_verdicts filter entries.length 0 entries { remaining := entries.length }
  have hholds : ∀ {i e}, entries[i]? = some e → ∀ v : Verdict,
      (verdicts filter entries.length 0 entries { remaining := entries.length })[i]? = some v ↔
        v.Holds filter entries i e := by
    intro i e he v
    have hverdicts := (upto_start filter entries).verdicts entries List.drop_zero (k := i) (e := e)
    rw [Nat.zero_add] at hverdicts
    exact hverdicts he v
  refine ⟨hlength, hholds, fun {i} => ?_⟩
  constructor
  · intro hi
    have hlt := (List.getElem?_eq_some_iff.mp hi).1
    rw [hlength] at hlt
    have he := List.getElem?_eq_getElem hlt
    exact (Verdict.holds_wanted_iff he).mp ((hholds he _).mp hi)
  · intro hwanted
    obtain ⟨e, he⟩ := hwanted.exists_entry
    exact (hholds he _).mpr ((Verdict.holds_wanted_iff he).mpr hwanted)

end Selection

/-- There is no other list of verdicts that hold. -/
theorem Judged.unique {filter : Option DownloadFilter} {entries : List CatalogEntry}
    {vs vs' : List Verdict} (h : Judged filter entries vs) (h' : Judged filter entries vs') :
    vs' = vs := by
  refine List.ext_getElem? fun i => ?_
  cases he : entries[i]? with
  | none =>
    have hend := List.getElem?_eq_none_iff.mp he
    rw [List.getElem?_eq_none (h'.length ▸ hend), List.getElem?_eq_none (h.length ▸ hend)]
  | some e =>
    refine Option.ext fun v => ?_
    rw [h'.holds he, h.holds he]

/-- What a client chooses from a catalog, by the verdicts. -/
theorem Selection.ofCatalog_eq {filter : Option DownloadFilter} {entries : List CatalogEntry}
    {vs : List Verdict} (h : Judged filter entries vs) :
    Selection.ofCatalog filter entries =
      { remaining := vs.count .wanted
        wanted := (having (· == .wanted) 0 entries vs).map (·.1.wanted)
        ignored := (having (· == .rejected) 0 entries vs).map (·.1.id)
        consulted := calls filter entries.length 0 entries vs } := by
  have hcollected := collected filter entries.length 0 entries { remaining := entries.length }
  rw [h.unique (judged_verdicts filter entries)] at hcollected
  have hwanted : (ofCatalog filter entries).wanted =
      (having (· == .wanted) 0 entries vs).map (·.1.wanted) := by
    rw [ofCatalog, hcollected.wanted, List.append_nil, List.reverse_reverse]
  have hremaining : (ofCatalog filter entries).remaining = vs.count .wanted := by
    rw [remaining_ofCatalog, hwanted, List.length_map, length_having _ 0 h.length]
    rfl
  have hignored : (ofCatalog filter entries).ignored =
      (having (· == .rejected) 0 entries vs).map (·.1.id) := by
    rw [ofCatalog, hcollected.ignored, List.append_nil, List.reverse_reverse]
  have hconsulted : (ofCatalog filter entries).consulted =
      calls filter entries.length 0 entries vs := by
    rw [ofCatalog, hcollected.consulted, List.append_nil, List.reverse_reverse]
  rw [← hremaining, ← hwanted, ← hignored, ← hconsulted]

/-! ### The answer to a catalog -/

/-- Does a client answer a catalog as the verdicts say?  It then wants the packs of the wanted entries and
waits for as many, no two with one identifier; it ignores the rejected ones; it has asked the filter
once for each entry that needs it; and it has sent the tokens of what it wants, if that is anything. -/
structure Fetch.Answers (before : Fetch) (c : Catalog) (vs : List Verdict) (f : Fetch)
    (sent : List Packet) : Prop where
  wanted : f.wanted = (Selection.having (· == .wanted) 0 c.packs vs).map (·.1.wanted)
  distinct : (f.wanted.map (·.id.uuid)).Nodup
  remaining : f.remaining = vs.count .wanted
  ignored : f.ignored = (Selection.having (· == .rejected) 0 c.packs vs).map (·.1.id)
  consulted : f.consulted =
    before.consulted ++ Selection.calls before.rules.filter c.packs.length 0 c.packs vs
  nothing : Verdict.wanted ∉ vs →
    f.stage = .awaitingStack ∧ sent = [.clientResponse (.plain .allPacksDownloaded)]
  something : Verdict.wanted ∈ vs → f.stage = .downloading ∧ sent = [.clientResponse
    ⟨Answer.sendPacks.code, (Selection.having (· == .wanted) 0 c.packs vs).map (·.1.id.token)⟩]

/-- **Every entry of a catalog gets one verdict, and the client answers accordingly.**  Whatever the
catalog and the filter are, there is one list of verdicts that hold for its entries, from left to right:
an entry repeats a wanted one, else every client has the pack, else the filter turns it down, else it is
wanted. -/
theorem Fetch.takeCatalog_answers (f : Fetch) (c : Catalog) :
    ∃ vs, (∀ vs', Judged f.rules.filter c.packs vs' ↔ vs' = vs) ∧
      f.Answers c vs (f.takeCatalog c).1 (f.takeCatalog c).2 := by
  have hjudged := Selection.judged_verdicts f.rules.filter c.packs
  refine ⟨_, fun vs' => ⟨hjudged.unique, fun h => h ▸ hjudged⟩, ?_⟩
  generalize Selection.verdicts f.rules.filter c.packs.length 0 c.packs _ = vs at hjudged
  have hdistinct := Selection.nodup_wanted f.rules.filter c.packs
  have hcount := Selection.remaining_ofCatalog f.rules.filter c.packs
  rw [Selection.ofCatalog_eq hjudged] at hdistinct hcount
  have hnone : (Selection.having (· == .wanted) 0 c.packs vs).map (·.1.wanted) = [] ↔
      Verdict.wanted ∉ vs := by
    rw [← List.length_eq_zero_iff, ← hcount, List.count_eq_zero]
  rw [Fetch.takeCatalog_eq, Selection.ofCatalog_eq hjudged]
  refine ⟨rfl, hdistinct, hcount.symm, rfl, rfl, fun h => ?_, fun h => ?_⟩
  · simp only [if_pos (hnone.mpr h), and_self]
  · simp only [if_neg (mt hnone.mp (not_not.mpr h)), List.map_map, true_and]
    rfl

/-- An entry may repeat what was turned down, but not what is wanted; and what repeats a wanted pack is a
duplicate even if every client has it. -/
example :
    Selection.ofCatalog (some fun _ index _ => index != 0)
        [{ uuid := ⟨0, 1⟩ }, { uuid := ⟨0, 1⟩, version := "2" }, { uuid := ⟨0, 1⟩, version := "3" },
          { uuid := ⟨0x0fba4063dba14281, 0x9b89ff9390653530⟩, version := "2.0.0" },
          { uuid := ⟨0x0fba4063dba14281, 0x9b89ff9390653530⟩, version := "1.0.0" }] =
      { remaining := 2
        wanted := [⟨⟨⟨0, 1⟩, "2"⟩, 0, ""⟩,
          ⟨⟨⟨0x0fba4063dba14281, 0x9b89ff9390653530⟩, "2.0.0"⟩, 0, ""⟩]
        ignored := [⟨⟨0, 1⟩, ""⟩]
        consulted := [⟨⟨⟨0, 1⟩, ""⟩, 0, 5⟩, ⟨⟨⟨0, 1⟩, "2"⟩, 1, 5⟩,
          ⟨⟨⟨0x0fba4063dba14281, 0x9b89ff9390653530⟩, "2.0.0"⟩, 3, 5⟩] } := by
  decide

end PackExchange
