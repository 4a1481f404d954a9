import PackExchange.Proofs.Transfer.Catalog
import PackExchange.Proofs.Transfer.Course
import PackExchange.Proofs.Transfer.Ledger

/-!
# The count of missing packs

Before the catalog nothing happens.  From then on every wanted pack is either resolved or missing,
and the client counts the missing ones, whatever the server sends and whenever the workers run.

* `Wanted.Yields` — the packs that an entry of the catalog may be resolved to;
* `Course.Fresh`, `Course.Ongoing` — the invariant, before and after the catalog;
* `Course.Fresh.step`, `Course.Ongoing.step` — what one step makes of it;
* `Course.invariant` — it holds wherever courses come to;
* `Course.balance` — what it says about the count, the answers sent and the stage.
-/

namespace PackExchange

/-- The packs that a wanted entry may be resolved to: whatever is made of some bytes under the
entry's identity, with the entry's content key. -/
def Wanted.Yields (unpack : PackId → Bytes → Except UnpackError Pack) (w : Wanted) (p : Pack) :
    Prop :=
  ∃ data q, unpack w.id data = .ok q ∧ p = { q with contentKey := w.contentKey }

/-- How many packets give an answer. -/
def Answer.count (a : Answer) (ps : List Packet) : Nat :=
  ps.countP fun p =>
    match p with
    | .clientResponse r => r.response == a.code
    | _ => false

/-- The place of a stage in the order a client goes through. -/
def ClientStage.rank (s : ClientStage) : Nat := ClientStage.all.idxOf s

/-! ### The invariant -/

/-- Is the packet one that does not belong to the transfer? -/
def Packet.preliminary : Packet → Bool
  | .disconnect _ | .networkSettings _ | .playStatus _ => true
  | _ => false

theorem Fetch.take_preliminary (f : Fetch) {p : Packet} (hp : p.preliminary = true) :
    f.take p = (f, [], none) ∨ f.take p = (f.takeSettings, [], none) := by
  cases p with
  | unknown id bytes => exact Or.inl rfl
  | known kind body =>
    cases kind with
    | networkSettings => exact Or.inr rfl
    | disconnect | playStatus => exact Or.inl rfl
    | _ => exact absurd hp Bool.false_ne_true

theorem Handled.catalogs_append (hs : List Handled) (h : Handled) :
    Handled.catalogs (hs ++ [h]) = Handled.catalogs hs ++ Handled.catalogs [h] :=
  List.filterMap_append

theorem Handled.catalogs_singleton {h : Handled} (hne : h.packet.kind? ≠ some .catalog) :
    Handled.catalogs [h] = [] := by
  obtain ⟨p, e⟩ := h
  cases p with
  | unknown id bytes => rfl
  | known kind body =>
    cases kind with
    | catalog => exact absurd rfl hne
    | _ => rfl

theorem Answer.count_append (a : Answer) (ps qs : List Packet) :
    a.count (ps ++ qs) = a.count ps + a.count qs :=
  List.countP_append

namespace Course

/-- A course before its catalog: nothing has been chosen and nothing sent. -/
structure Fresh (rules : FetchRules) (c : Course) : Prop where
  sameRules : c.fetch.rules = rules
  stage : c.fetch.stage = .awaitingNetworkSettings ∨ c.fetch.stage = .awaitingCatalog
  held : ∀ p, c.held = some p → p.preliminary = true ∨ ∃ k, p = .catalog k
  handled : ∀ h ∈ c.handled, h.packet.preliminary = true
  wanted : c.fetch.wanted = []
  downloads : c.fetch.downloads = []
  resolved : c.fetch.resolved = []
  sent : c.sent = []

/-- A course after its catalog. -/
structure Ongoing (rules : FetchRules) (k : Catalog) (c : Course) : Prop where
  sameRules : c.fetch.rules = rules
  catalogs : Handled.catalogs c.handled = [k]
  held_catalog : ∀ k', c.held ≠ some (.catalog k')
  held_stack : ∀ s, c.held = some (.stack s) → c.fetch.stage = .awaitingStack
  ignored : c.fetch.ignored = (Selection.ofCatalog rules.filter k.packs).ignored
  ledger : c.fetch.Ledger (Selection.ofCatalog rules.filter k.packs).wanted
  finished : Answer.allPacksDownloaded.count c.sent = if c.fetch.remaining = 0 then 1 else 0
  asked : Answer.sendPacks.count c.sent =
    if (Selection.ofCatalog rules.filter k.packs).wanted = [] then 0 else 1

variable {rules : FetchRules} {k : Catalog} {c c' : Course}

theorem Fresh.catalogs (h : c.Fresh rules) : Handled.catalogs c.handled = [] := by
  rw [Handled.catalogs, List.filterMap_eq_nil_iff]
  intro x hx
  have hpreliminary := h.handled x hx
  obtain ⟨p, e⟩ := x
  cases p with
  | unknown id bytes => rfl
  | known kind body =>
    cases kind with
    | catalog => exact absurd hpreliminary Bool.false_ne_true
    | _ => rfl

/-! ### Before the catalog -/

theorem fresh_start (rules : FetchRules) : (start rules).Fresh rules :=
  ⟨rfl, Or.inl rfl, (fun _ hp => nomatch hp), (fun _ hx => nomatch hx), rfl, rfl, rfl, rfl⟩

/-- The catalog settles what is wanted. -/
theorem Fresh.handle_catalog (h : c.Fresh rules) (k : Catalog) :
    (c.handle (.catalog k)).Ongoing rules k := by
  have hselection : Selection.ofCatalog c.fetch.rules.filter k.packs =
      Selection.ofCatalog rules.filter k.packs := by rw [h.sameRules]
  have hfetch : (c.handle (.catalog k)).fetch = (c.fetch.takeCatalog k).1 := rfl
  have hsent : (c.handle (.catalog k)).sent = (c.fetch.takeCatalog k).2 := by
    show c.sent ++ (c.fetch.takeCatalog k).2 = _
    rw [h.sent, List.nil_append]
  have hhandled : (c.handle (.catalog k)).handled = c.handled ++ [⟨.catalog k, none⟩] := rfl
  simp only [Fetch.takeCatalog_eq, hselection] at hfetch hsent
  refine ⟨?_, ?_, (fun _ hp => nomatch hp), (fun _ hp => nomatch hp), ?_,
    ⟨?_, ?_, ?_, ⟨[], ?_⟩, ?_, ?_⟩, ?_, ?_⟩
  · rw [hfetch]
    exact h.sameRules
  · rw [hhandled, Handled.catalogs_append, h.catalogs]
    rfl
  · rw [hfetch]
  · rw [hfetch]
    simp only [h.downloads, List.map_nil, List.append_nil]
    exact Selection.nodup_wanted rules.filter k.packs
  · rw [hfetch]
    exact fun w hw => hw
  · rw [hfetch]
    simp only [h.downloads, List.map_nil]
    exact nofun
  · rw [hfetch]
    refine ⟨List.nodup_nil, ?_⟩
    simp only [h.resolved]
    exact List.Forall₂.nil
  · rw [hfetch]
    simp only [h.resolved, List.length_nil, Nat.add_zero]
  · rw [hfetch]
    by_cases hnone : (Selection.ofCatalog rules.filter k.packs).wanted = []
    · right
      exact ⟨Or.inl (if_pos hnone), List.length_eq_zero_iff.mpr hnone⟩
    · left
      exact ⟨if_neg hnone, fun hzero => hnone (List.length_eq_zero_iff.mp hzero)⟩
  · rw [hfetch, hsent]
    simp only [List.length_eq_zero_iff]
    by_cases hnone : (Selection.ofCatalog rules.filter k.packs).wanted = []
    · rw [if_pos hnone, if_pos hnone]
      rfl
    · rw [if_neg hnone, if_neg hnone]
      rfl
  · rw [hsent]
    by_cases hnone : (Selection.ofCatalog rules.filter k.packs).wanted = []
    · rw [if_pos hnone, if_pos hnone]
      rfl
    · rw [if_neg hnone, if_neg hnone]
      rfl

/-- It starts no download. -/
theorem Fresh.downloads_catalog (h : c.Fresh rules) (k : Catalog) :
    (c.handle (.catalog k)).fetch.downloads = [] := by
  show (c.fetch.takeCatalog k).1.downloads = []
  rw [Fetch.takeCatalog_eq]
  show c.fetch.downloads.map _ = []
  rw [h.downloads, List.map_nil]

theorem Fresh.resolved_catalog (h : c.Fresh rules) (k : Catalog) :
    (c.handle (.catalog k)).fetch.resolved = [] := by
  show (c.fetch.takeCatalog k).1.resolved = []
  rw [Fetch.takeCatalog_eq]
  exact h.resolved

theorem preliminary_or_catalog_of_admits {stage : ClientStage} {p : Packet}
    (hstage : stage = .awaitingNetworkSettings ∨ stage = .awaitingCatalog)
    (hadmits : stage.admits p = true) : p.preliminary = true ∨ ∃ k, p = .catalog k := by
  cases p with
  | unknown id bytes => exact absurd hadmits Bool.false_ne_true
  | known kind body =>
    cases kind with
    | catalog => exact Or.inr ⟨body, rfl⟩
    | disconnect | networkSettings | playStatus => exact Or.inl rfl
    | _ => rcases hstage with rfl | rfl <;> exact absurd hadmits Bool.false_ne_true

theorem Fresh.handle_preliminary (h : c.Fresh rules) {p : Packet} (hp : p.preliminary = true) :
    (c.handle p).Fresh rules ∧ c.fetch.stage.rank ≤ (c.handle p).fetch.stage.rank := by
  have hhandled : ∀ e, ∀ x ∈ c.handled ++ [⟨p, e⟩], x.packet.preliminary = true := by
    intro e x hx
    rcases List.mem_append.mp hx with hx | hx
    · exact h.handled x hx
    · rw [List.mem_singleton] at hx
      rw [hx]
      exact hp
  have hheld : ∀ q : Packet, none = some q → q.preliminary = true ∨ ∃ k, q = .catalog k :=
    fun _ hq => nomatch hq
  have hsent : c.sent ++ [] = [] := by rw [List.append_nil, h.sent]
  rcases c.fetch.take_preliminary hp with htake | htake
  · rw [Course.handle, htake]
    exact ⟨⟨h.sameRules, h.stage, hheld, hhandled none, h.wanted, h.downloads, h.resolved, hsent⟩,
      Nat.le_refl _⟩
  · rw [Course.handle, htake]
    rcases h.stage with hstage | hstage
    · have hsettings : c.fetch.takeSettings = { c.fetch with stage := .awaitingCatalog } :=
        if_pos hstage
      rw [hsettings]
      refine ⟨⟨h.sameRules, Or.inr rfl, hheld, hhandled none, h.wanted, h.downloads, h.resolved,
        hsent⟩, ?_⟩
      rw [hstage]
      show ClientStage.awaitingNetworkSettings.rank ≤ ClientStage.awaitingCatalog.rank
      decide
    · have hsettings : c.fetch.takeSettings = c.fetch := by
        rw [Fetch.takeSettings, hstage]
        rfl
      rw [hsettings]
      exact ⟨⟨h.sameRules, h.stage, hheld, hhandled none, h.wanted, h.downloads, h.resolved,
        hsent⟩, Nat.le_refl _⟩

theorem Fresh.work_eq (h : c.Fresh rules) (i : Nat) (slotFirst : Bool) :
    c.work i slotFirst = c := by
  have hwork : c.fetch.work i slotFirst = (c.fetch, []) := by
    simp only [Fetch.work, h.downloads, List.getElem?_nil]
  rw [work, hwork, List.append_nil]

/-- One step from before the catalog. -/
theorem Fresh.step (h : c.Fresh rules) (hstep : Step c c') :
    (c'.Fresh rules ∨ ∃ k, c'.Ongoing rules k) ∧ c.fetch.stage.rank ≤ c'.fetch.stage.rank := by
  cases hstep with
  | @hold p hheld hadmits =>
    refine ⟨Or.inl ?_, Nat.le_refl _⟩
    refine ⟨h.sameRules, h.stage, ?_, h.handled, h.wanted, h.downloads, h.resolved, h.sent⟩
    intro q hq
    cases hq
    exact preliminary_or_catalog_of_admits h.stage hadmits
  | @handle p hheld =>
    rcases h.held p hheld with hp | ⟨k, rfl⟩
    · exact ⟨Or.inl (h.handle_preliminary hp).1, (h.handle_preliminary hp).2⟩
    · have hongoing := h.handle_catalog k
      refine ⟨Or.inr ⟨k, hongoing⟩, ?_⟩
      have hbefore : c.fetch.stage.rank ≤ 1 := by
        rcases h.stage with hstage | hstage <;> rw [hstage] <;> decide
      have hafter : 1 ≤ (c.handle (.catalog k)).fetch.stage.rank := by
        rcases hongoing.ledger.stage with ⟨hstage, -⟩ | ⟨hstage | hstage, -⟩ <;>
          rw [hstage] <;> decide
      exact Nat.le_trans hbefore hafter
  | work i slotFirst =>
    rw [h.work_eq]
    exact ⟨Or.inl h, Nat.le_refl _⟩
  | cancel =>
    refine ⟨Or.inl ?_, Nat.le_refl _⟩
    exact ⟨h.sameRules, h.stage, h.held, h.handled, h.wanted, h.downloads, h.resolved, h.sent⟩

/-! ### After the catalog -/

/-- What leaves the count alone. -/
theorem Ongoing.update (h : c.Ongoing rules k) (hrules : c'.fetch.rules = c.fetch.rules)
    (hcatalogs : Handled.catalogs c'.handled = Handled.catalogs c.handled)
    (hheld : c'.held = none ∨ c'.held = c.held ∧ c'.fetch.stage = c.fetch.stage)
    (hignored : c'.fetch.ignored = c.fetch.ignored)
    (hremaining : c'.fetch.remaining = c.fetch.remaining)
    (hsent : ∀ a : Answer, a ≠ .completed → a.count c'.sent = a.count c.sent)
    (hledger : c'.fetch.Ledger (Selection.ofCatalog rules.filter k.packs).wanted) :
    c'.Ongoing rules k := by
  refine ⟨hrules.trans h.sameRules, hcatalogs.trans h.catalogs, ?_, ?_, hignored.trans h.ignored,
    hledger, ?_, ?_⟩
  · intro k' hk'
    rcases hheld with hnone | ⟨hsame, -⟩
    · rw [hnone] at hk'
      cases hk'
    · exact h.held_catalog k' (hsame ▸ hk')
  · intro s hs
    rcases hheld with hnone | ⟨hsame, hstage⟩
    · rw [hnone] at hs
      cases hs
    · rw [hstage]
      exact h.held_stack s (hsame ▸ hs)
  · rw [hsent _ (by decide), hremaining]
    exact h.finished
  · rw [hsent _ (by decide)]
    exact h.asked

theorem Ongoing.remaining_eq_zero (h : c.Ongoing rules k)
    (hstage : c.fetch.stage = .awaitingStack) : c.fetch.remaining = 0 := by
  rcases h.ledger.stage with ⟨hdownloading, -⟩ | ⟨-, hzero⟩
  · rw [hdownloading] at hstage
    cases hstage
  · exact hzero

theorem Ongoing.work (h : c.Ongoing rules k) (i : Nat) (slotFirst : Bool) :
    (c.work i slotFirst).Ongoing rules k ∧
      c.fetch.stage.rank ≤ (c.work i slotFirst).fetch.stage.rank := by
  have hworked := c.fetch.worked_work i slotFirst
  rw [Course.work]
  revert hworked
  generalize c.fetch.work i slotFirst = r
  intro hworked
  cases hworked with
  | idle =>
    refine ⟨h.update rfl rfl (Or.inr ⟨rfl, rfl⟩) rfl rfl ?_ h.ledger, Nat.le_refl _⟩
    intro a _
    rw [List.append_nil]
  | quits hk hworker =>
    have hledger := h.ledger.replace hk (Download.Woken.quits hworker).leads
    refine ⟨h.update rfl rfl (Or.inr ⟨rfl, rfl⟩) rfl rfl ?_ hledger, Nat.le_refl _⟩
    intro a _
    rw [List.append_nil]
  | asks hk hworker hmore =>
    have hledger := h.ledger.replace hk (Download.Woken.asks hworker hmore).leads
    refine ⟨h.update rfl rfl (Or.inr ⟨rfl, rfl⟩) rfl rfl ?_ hledger, Nat.le_refl _⟩
    intro a _
    rw [Answer.count_append]
    rfl
  | takes hk hworker hslot =>
    have hledger := h.ledger.replace hk (Download.Woken.takes hworker hslot).leads
    refine ⟨h.update rfl rfl (Or.inr ⟨rfl, rfl⟩) rfl rfl ?_ hledger, Nat.le_refl _⟩
    intro a _
    rw [List.append_nil]
  | @delivers j d i p hk hworker hlast hyields =>
    have hne : d.worker ≠ .ended := by rw [hworker]; exact nofun
    have hmissing := h.ledger.remaining_ne_zero hk hne
    have hledger := h.ledger.deliver hk hne hyields
    rw [Fetch.countOff_eq (f := { c.fetch.replace j { d with worker := .ended } with
      resolved := c.fetch.resolved ++ [p] }) hmissing]
    have hfinished := h.finished
    rw [if_neg hmissing] at hfinished
    refine ⟨⟨h.sameRules, h.catalogs, h.held_catalog, ?_, h.ignored, hledger, ?_, ?_⟩, ?_⟩
    · intro s hs
      exact absurd (h.remaining_eq_zero (h.held_stack s hs)) hmissing
    · show Answer.count _ (c.sent ++ if c.fetch.remaining = 1 then _ else _) =
        if c.fetch.remaining - 1 = 0 then 1 else 0
      rw [Answer.count_append, hfinished]
      by_cases hone : c.fetch.remaining = 1
      · rw [if_pos hone, if_pos (by omega)]
        rfl
      · rw [if_neg hone, if_neg (by omega)]
        rfl
    · show Answer.count _ (c.sent ++ if c.fetch.remaining = 1 then _ else _) = _
      rw [Answer.count_append, h.asked]
      by_cases hone : c.fetch.remaining = 1
      · rw [if_pos hone]
        rfl
      · rw [if_neg hone]
        rfl
    · have hstage : c.fetch.stage = .downloading := by
        rcases h.ledger.stage with ⟨hstage, -⟩ | ⟨-, hzero⟩
        · exact hstage
        · exact absurd hzero hmissing
      show c.fetch.stage.rank ≤
        ClientStage.rank (if c.fetch.remaining = 1 then .awaitingStack else c.fetch.stage)
      rw [hstage]
      by_cases hone : c.fetch.remaining = 1
      · rw [if_pos hone]
        decide
      · refine Nat.le_of_eq ?_
        rw [if_neg hone]

theorem Ongoing.handle_announcement (h : c.Ongoing rules k) (a : PackData) :
    (c.handle (.packData a)).Ongoing rules k ∧
      c.fetch.stage.rank ≤ (c.handle (.packData a)).fetch.stage.rank := by
  have hannounced := c.fetch.announced_takeAnnouncement a
  rw [Course.handle, Fetch.take]
  revert hannounced
  generalize c.fetch.takeAnnouncement a = r
  intro hannounced
  have hcatalogs : ∀ e, Handled.catalogs (c.handled ++ [⟨.packData a, e⟩]) =
      Handled.catalogs c.handled := by
    intro e
    rw [Handled.catalogs_append, Handled.catalogs_singleton, List.append_nil]
    exact nofun
  have hsent : ∀ a : Answer, a ≠ .completed → a.count (c.sent ++ []) = a.count c.sent := by
    intro a _
    rw [List.append_nil]
  cases hannounced with
  | refused e =>
    exact ⟨h.update rfl (hcatalogs _) (Or.inl rfl) rfl rfl hsent h.ledger, Nat.le_refl _⟩
  | spoiled hw huuid e =>
    exact ⟨h.update rfl (hcatalogs _) (Or.inl rfl) rfl rfl hsent (h.ledger.drop _), Nat.le_refl _⟩
  | started hw huuid hchunk hsize =>
    exact ⟨h.update rfl (hcatalogs _) (Or.inl rfl) rfl rfl hsent (h.ledger.announce hw a),
      Nat.le_refl _⟩

theorem Ongoing.handle_chunk (h : c.Ongoing rules k) (d : ChunkData) :
    (c.handle (.chunkData d)).Ongoing rules k ∧
      c.fetch.stage.rank ≤ (c.handle (.chunkData d)).fetch.stage.rank := by
  have hreceived := Fetch.received_takeChunk h.ledger.separate d
  rw [Course.handle, Fetch.take]
  revert hreceived
  generalize c.fetch.takeChunk d = r
  intro hreceived
  have hcatalogs : ∀ e, Handled.catalogs (c.handled ++ [⟨.chunkData d, e⟩]) =
      Handled.catalogs c.handled := by
    intro e
    rw [Handled.catalogs_append, Handled.catalogs_singleton, List.append_nil]
    exact nofun
  have hsent : ∀ a : Answer, a ≠ .completed → a.count (c.sent ++ []) = a.count c.sent := by
    intro a _
    rw [List.append_nil]
  cases hreceived with
  | refused e =>
    exact ⟨h.update rfl (hcatalogs _) (Or.inl rfl) rfl rfl hsent h.ledger, Nat.le_refl _⟩
  | closed hk huuid haccepting e =>
    have hledger := h.ledger.replace hk (Download.leads_close _)
    exact ⟨h.update rfl (hcatalogs _) (Or.inl rfl) rfl rfl hsent hledger, Nat.le_refl _⟩
  | stored hk huuid haccepting hfault =>
    have hledger := h.ledger.replace hk (Download.leads_put _ d)
    exact ⟨h.update rfl (hcatalogs _) (Or.inl rfl) rfl rfl hsent hledger, Nat.le_refl _⟩

theorem Ongoing.handle_stack (h : c.Ongoing rules k) {s : PackStack}
    (hheld : c.held = some (.stack s)) :
    (c.handle (.stack s)).Ongoing rules k ∧
      c.fetch.stage.rank ≤ (c.handle (.stack s)).fetch.stage.rank := by
  have hcatalogs : ∀ e, Handled.catalogs (c.handled ++ [⟨.stack s, e⟩]) =
      Handled.catalogs c.handled := by
    intro e
    rw [Handled.catalogs_append, Handled.catalogs_singleton, List.append_nil]
    exact nofun
  rw [Course.handle, Fetch.take]
  cases hstack : c.fetch.takeStack s with
  | error e =>
    refine ⟨h.update rfl (hcatalogs _) (Or.inl rfl) rfl rfl ?_ h.ledger, Nat.le_refl _⟩
    intro a _
    rw [List.append_nil]
  | ok r =>
    rw [Fetch.takeStack] at hstack
    split at hstack
    · cases hstack
    · cases hstack
      refine ⟨h.update rfl (hcatalogs _) (Or.inl rfl) rfl rfl ?_ ?_, ?_⟩
      · intro a ha
        rw [Answer.count_append]
        cases a <;> first | exact absurd rfl ha | rfl
      · obtain ⟨hdistinct, hwanted, hdownloads, ⟨ks, horigins⟩, hcount, -⟩ := h.ledger
        refine ⟨hdistinct, hwanted, hdownloads, ⟨ks, horigins.nodup, horigins.yields⟩, hcount, ?_⟩
        exact Or.inr ⟨Or.inr rfl, h.remaining_eq_zero (h.held_stack s hheld)⟩
      · show c.fetch.stage.rank ≤ ClientStage.done.rank
        cases c.fetch.stage <;> decide

/-- Settings that come again change nothing. -/
theorem Ongoing.takeSettings_eq (h : c.Ongoing rules k) : c.fetch.takeSettings = c.fetch := by
  rw [Fetch.takeSettings]
  rcases h.ledger.stage with ⟨hstage, -⟩ | ⟨hstage | hstage, -⟩ <;> rw [hstage] <;> rfl

theorem Ongoing.handle (h : c.Ongoing rules k) {p : Packet} (hheld : c.held = some p) :
    (c.handle p).Ongoing rules k ∧ c.fetch.stage.rank ≤ (c.handle p).fetch.stage.rank := by
  have hquiet : c.fetch.take p = (c.fetch, [], none) → p.kind? ≠ some .catalog →
      (c.handle p).Ongoing rules k ∧ c.fetch.stage.rank ≤ (c.handle p).fetch.stage.rank := by
    intro htake hne
    rw [Course.handle, htake]
    refine ⟨h.update rfl ?_ (Or.inl rfl) rfl rfl ?_ h.ledger, Nat.le_refl _⟩
    · show Handled.catalogs (c.handled ++ [_]) = _
      rw [Handled.catalogs_append, Handled.catalogs_singleton hne, List.append_nil]
    · intro a _
      rw [List.append_nil]
  cases p with
  | unknown id bytes => exact hquiet rfl nofun
  | known kind body =>
    cases kind with
    | catalog => exact absurd hheld (h.held_catalog body)
    | packData => exact h.handle_announcement body
    | chunkData => exact h.handle_chunk body
    | stack => exact h.handle_stack hheld
    | networkSettings =>
      refine hquiet ?_ nofun
      rw [Fetch.take, h.takeSettings_eq]
    | _ => exact hquiet rfl nofun

/-- One step from after the catalog. -/
theorem Ongoing.step (h : c.Ongoing rules k) (hstep : Step c c') :
    c'.Ongoing rules k ∧ c.fetch.stage.rank ≤ c'.fetch.stage.rank := by
  cases hstep with
  | @hold p hheld hadmits =>
    refine ⟨⟨h.sameRules, h.catalogs, ?_, ?_, h.ignored, h.ledger, h.finished, h.asked⟩,
      Nat.le_refl _⟩
    · intro k' hk'
      cases hk'
      rcases h.ledger.stage with ⟨hstage, -⟩ | ⟨hstage | hstage, -⟩ <;>
        rw [hstage] at hadmits <;> exact absurd hadmits Bool.false_ne_true
    · intro s hs
      cases hs
      rcases h.ledger.stage with ⟨hstage, -⟩ | ⟨hstage | hstage, -⟩
      · rw [hstage] at hadmits
        exact absurd hadmits Bool.false_ne_true
      · exact hstage
      · rw [hstage] at hadmits
        exact absurd hadmits Bool.false_ne_true
  | handle hheld => exact h.handle hheld
  | work i slotFirst => exact h.work i slotFirst
  | cancel =>
    obtain ⟨hdistinct, hwanted, hdownloads, ⟨ks, horigins⟩, hcount, hstage⟩ := h.ledger
    refine ⟨h.update rfl rfl (Or.inr ⟨rfl, rfl⟩) rfl rfl (fun _ _ => rfl) ?_, Nat.le_refl _⟩
    exact ⟨hdistinct, hwanted, hdownloads, ⟨ks, horigins.nodup, horigins.yields⟩, hcount, hstage⟩

/-- Wherever courses come to, there was no catalog yet, or one that is kept to. -/
theorem invariant (h : Reachable rules c) : c.Fresh rules ∨ ∃ k, c.Ongoing rules k := by
  refine h.invariant (P := fun c => c.Fresh rules ∨ ∃ k, c.Ongoing rules k) ?_ ?_
  · exact Or.inl (fresh_start rules)
  intro c c' hc hstep
  rcases hc with hfresh | ⟨k, hongoing⟩
  · exact (hfresh.step hstep).1
  · exact Or.inr ⟨k, (hongoing.step hstep).1⟩

/-! ### What the count says -/

/-- How the count of missing packs stands after a catalog.  The places are those of the wanted
entries; each is the place of a resolved pack or of a missing one. -/
structure Balance (rules : FetchRules) (k : Catalog) (places : List Nat) (c : Course) : Prop where
  ascending : places.Pairwise (· < ·)
  mem_places : ∀ i, i ∈ places ↔ IsWanted rules.filter k.packs i
  count : c.fetch.remaining + c.fetch.resolved.length = places.length
  resolved_or_missing : ∃ got missing : List Nat, (got ++ missing).Perm places ∧
    missing.length = c.fetch.remaining ∧
    List.Forall₂ (fun i p => ∃ e, k.packs[i]? = some e ∧ e.wanted.Yields rules.unpack p)
      got c.fetch.resolved
  /-- It is said once that all packs are there, and only when none is missing. -/
  finished : Answer.allPacksDownloaded.count c.sent = if c.fetch.remaining = 0 then 1 else 0
  /-- Packs are asked for once, unless none is wanted. -/
  asked : Answer.sendPacks.count c.sent = if places = [] then 0 else 1

/-- The entries of the catalog that the resolved packs stand for, and the downloads that they come
from. -/
theorem Ongoing.resolved (h : c.Ongoing rules k) {ks : List Nat} (horigins : c.fetch.Origins ks)
    {places : List Nat} (hplaces : ∀ i ∈ places, IsWanted rules.filter k.packs i)
    (hwanted : (Selection.ofCatalog rules.filter k.packs).wanted =
      places.map fun i => (k.packs.getD i default).wanted) :
    ∃ got missing : List Nat, (got ++ missing).Perm places ∧
      missing.length = c.fetch.remaining ∧
      List.Forall₂ (fun i p => ∃ e, k.packs[i]? = some e ∧ e.wanted.Yields rules.unpack p ∧
        ∃ j ∈ ks, ∃ d, c.fetch.downloads[j]? = some d ∧ e.id = d.id) got c.fetch.resolved := by
  obtain ⟨got, missing, hperm, hmissing, hgot⟩ := h.ledger.split horigins hwanted
  refine ⟨got, missing, hperm, hmissing, ?_⟩
  have hentry : ∀ i ∈ got, ∃ e, k.packs[i]? = some e := fun i hi =>
    (hplaces i (hperm.subset (List.mem_append_left missing hi))).exists_entry
  refine (List.forall₂_and_left _ _).mpr ⟨hentry, hgot⟩ |>.imp ?_
  rintro i p ⟨⟨e, he⟩, j, hj, d, hd, -, ⟨-, -, q, hq, rfl⟩, hid, hkey⟩
  rw [Catalog.getD_eq he] at hid hkey
  refine ⟨e, he, ⟨d.data, q, ?_, ?_⟩, j, hj, d, hd, hid⟩
  · rw [hid, ← h.sameRules]
    exact hq
  · rw [hkey]

theorem Ongoing.balanced (h : c.Ongoing rules k) : ∃ places, Balance rules k places c := by
  obtain ⟨places, hascending, hmem, hwanted⟩ := Selection.wanted_ofCatalog rules.filter k.packs
  obtain ⟨ks, horigins⟩ := h.ledger.origins
  refine ⟨places, hascending, hmem, ?_, ?_, h.finished, ?_⟩
  · rw [h.ledger.count, hwanted, List.length_map]
  · obtain ⟨got, missing, hperm, hmissing, hgot⟩ :=
      h.resolved horigins (fun i => (hmem i).mp) hwanted
    refine ⟨got, missing, hperm, hmissing, hgot.imp ?_⟩
    rintro i p ⟨e, he, hyields, -⟩
    exact ⟨e, he, hyields⟩
  · rw [h.asked, hwanted]
    simp only [List.map_eq_nil_iff]

/-- **The count of missing packs.**  Wherever a course comes to, either it has handled no catalog
and sent nothing, or it has handled one and the count is in balance; and the stage only moves
forward. -/
theorem balance (h : Reachable rules c) :
    ((Handled.catalogs c.handled = [] ∧ c.sent = []) ∨
      ∃ k places, Handled.catalogs c.handled = [k] ∧ Balance rules k places c) ∧
    ∀ c', Step c c' → c.fetch.stage.rank ≤ c'.fetch.stage.rank := by
  rcases invariant h with hfresh | ⟨k, hongoing⟩
  · refine ⟨Or.inl ⟨hfresh.catalogs, hfresh.sent⟩, ?_⟩
    intro c' hstep
    exact (hfresh.step hstep).2
  · obtain ⟨places, hbalance⟩ := hongoing.balanced
    refine ⟨Or.inr ⟨k, places, hongoing.catalogs, hbalance⟩, ?_⟩
    intro c' hstep
    exact (hongoing.step hstep).2

/-- A course in which one of two wanted packs arrives, its only chunk twice. -/
def exampleCourse : Course :=
  let name := "00000000-0000-0000-0000-000000000001"
  let entries : List CatalogEntry :=
    [{ uuid := ⟨0, 1⟩, version := "1.0.0", size := 2 }, { uuid := ⟨0, 2⟩, size := 9 }]
  let c := (start {}).handle (.networkSettings {})
  let c := c.handle (.catalog { packs := entries })
  let c := c.handle (.packData { uuid := name, chunkSize := 2, size := 2 })
  let c := c.work 0 false
  let c := c.handle (.chunkData { uuid := name, data := [7, 8] })
  let c := c.work 0 false
  let c := c.handle (.chunkData { uuid := name, data := [7, 8] })
  c.work 0 false

/-- There one pack is still missing, and the count says so. -/
theorem balance_exampleCourse :
    exampleCourse.fetch.remaining = 1 ∧ exampleCourse.fetch.resolved.length = 1 ∧
      ∃ k places, Handled.catalogs exampleCourse.handled = [k] ∧
        Balance {} k places exampleCourse := by
  have hreachable : Reachable {} exampleCourse := by
    refine Relation.ReflTransGen.tail ?_ (.work _ 0 false)
    refine Reachable.pass ?_ rfl (by decide +kernel)
    refine Relation.ReflTransGen.tail ?_ (.work _ 0 false)
    refine Reachable.pass ?_ rfl (by decide +kernel)
    refine Relation.ReflTransGen.tail ?_ (.work _ 0 false)
    refine Reachable.pass ?_ rfl (by decide +kernel)
    refine Reachable.pass ?_ rfl (by decide +kernel)
    exact Reachable.pass .refl rfl (by decide +kernel)
  refine ⟨by decide +kernel, by decide +kernel, ?_⟩
  have hcatalogs : Handled.catalogs exampleCourse.handled ≠ [] := by decide +kernel
  exact (balance hreachable).1.resolve_left fun h => hcatalogs h.1

end Course

end PackExchange
