import PackExchange.Proofs.Session.Hearing
import PackExchange.Proofs.Session.Terms

/-!
# The phases of two sessions

A server and a client agree on a revision and on compression, and then exchange packs.  Each packet
that one of them sends is what the other expects.

* `Join.handle_emitted`, `Serve.react_of_take` — packets of the exchange in either session;
* `Phase` — where the two sessions can stand;
* `Phase.take_down`, `Phase.take_up`, `Phase.work` — what either side makes of the next packet, and
  what a worker does;
* `Phase.busy` — the exchange does not stall.
-/

namespace PackExchange

/-! ### Packets of the exchange -/

/-- A client's session follows the client's side of the exchange. -/
theorem Join.handle_emitted {o : Offer} {p : Packet} (hp : o.Emits p) {j : Join} {f' : Fetch}
    {sent : List Packet} (htake : j.fetch.take p = (f', sent, none)) :
    j.handle p = .proceed { j with fetch := f' } (sent.map .queued) := by
  cases hp with
  | packData a =>
    simp only [Fetch.take, Prod.mk.injEq] at htake
    obtain ⟨rfl, rfl, hnone⟩ := htake
    simp only [handle, follow, hnone]
    rfl
  | chunkData c =>
    simp only [Fetch.take, Prod.mk.injEq] at htake
    obtain ⟨rfl, rfl, hnone⟩ := htake
    simp only [handle, follow, hnone]
    rfl
  | stack =>
    cases hstack : j.fetch.takeStack o.stack with
    | error e =>
      simp only [Fetch.take, hstack, Prod.mk.injEq] at htake
      cases htake.2.2
    | ok r =>
      simp only [Fetch.take, hstack, Prod.mk.injEq] at htake
      obtain ⟨rfl, rfl, -⟩ := htake
      simp only [handle, hstack]

/-- A server's session follows the server's side of the exchange. -/
theorem Serve.react_of_take {base : Offer} {p : Packet} (hp : base.Elicits p) {s : Serve}
    {r : Revision} {o o' : Offer} {sent : List Packet} (hexchange : s.exchange = some (r, o))
    (hadmits : o.stage.admits p = true) (htake : o.take p = .ok (o', sent)) :
    s.react r p = .proceed { s with exchange := some (r, o') } (sent.map .queued) := by
  cases hp with
  | chunkRequest q =>
    have hserve : o.serveChunk q = .ok (o', sent) := htake
    simp only [react, hexchange, if_pos hadmits, hserve, follow]
  | @clientResponse q _ =>
    cases hrespond : o.respond q with
    | error e =>
      simp only [Offer.take, hrespond] at htake
      cases htake
    | ok result =>
      simp only [Offer.take, hrespond, Except.ok.injEq, Prod.mk.injEq] at htake
      obtain ⟨rfl, rfl⟩ := htake
      simp only [react, hexchange, if_pos hadmits, hrespond, follow, Turn.andThen, Turn.proceed,
        spawn]
      cases hlogged : result.1.loggedIn with
      | true =>
        simp only [if_true, List.map_append]
        rfl
      | false =>
        simp only [Bool.false_eq_true, if_false, List.append_nil]

/-! ### Phases -/

/-- What the server tells a client in answer to its request. -/
def Terms.settings (t : Terms) : Packet := .networkSettings t.serve.networkSettings

/-- The catalog of the server. -/
def Terms.catalog (t : Terms) : Packet := .catalog (t.offer.catalog t.server.required)

/-- The packs that the client turns down. -/
def Terms.ignored (t : Terms) : List PackId :=
  (Selection.ofCatalog t.filter (t.offer.packs.map Offer.entry)).ignored

/-- Where the two sessions can stand: what the server has agreed to, the client's side, the packets
on their way to the client and to the server, and whether the server and the client read compressed
batches. -/
inductive Phase (t : Terms) (content : Pack → Bytes) :
    Option (Revision × Offer) → Fetch → List Packet → List Packet → Bool → Bool → Prop
  /-- The client has asked for settings. -/
  | asking :
      Phase t content none t.join.fetch [] [.settingsRequest ⟨t.revision.number⟩] false false
  /-- The server has answered. -/
  | answered :
      Phase t content (some (t.revision, t.offer.idle .awaitingResponse)) t.join.fetch
        [t.settings, .playStatus .loginSuccess, t.catalog] [] true false
  /-- The client compresses, too. -/
  | agreed :
      Phase t content (some (t.revision, t.offer.idle .awaitingResponse)) t.join.fetch.takeSettings
        [.playStatus .loginSuccess, t.catalog] [] true true
  /-- The client is logged in. -/
  | welcome :
      Phase t content (some (t.revision, t.offer.idle .awaitingResponse)) t.join.fetch.takeSettings
        [t.catalog] [] true true
  /-- Packs are exchanged. -/
  | talking {o : Offer} {f : Fetch} {down up : List Packet}
      (h : Dialog content t.filter t.offer o f down up) (hignored : f.ignored = t.ignored) :
      Phase t content (some (t.revision, o)) f down up true true

namespace Phase

variable {t : Terms} {content : Pack → Bytes} {ex : Option (Revision × Offer)} {f : Fetch}
  {down up : List Packet} {serving joining : Bool}

/-- The client takes what comes next. -/
theorem take_down {p : Packet} (h : Phase t content ex f (p :: down) up serving joining)
    (hfair : t.Fair content) (hstage : f.stage ≠ .done) :
    f.stage.admits p = true ∧ ∃ f' os ps, ({ t.join with fetch := f } : Join).handle p =
        .proceed { t.join with fetch := f' } os ∧
      Queue t.Upward joining os ps (if os.any Outgoing.compresses then true else joining) ∧
      Phase t content ex f' down (up ++ ps) serving
        (if os.any Outgoing.compresses then true else joining) := by
  cases h with
  | answered =>
    exact ⟨rfl, _, _, [], rfl, .compress _ (.nil true), .agreed⟩
  | agreed =>
    exact ⟨rfl, _, _, [], rfl, .nil true, .welcome⟩
  | welcome =>
    have hgathering := Gathering.of_catalog content (o := t.offer)
      (f := t.join.fetch.takeSettings) t.server.required hfair.offer.distinct rfl rfl rfl rfl
    cases hcatalog : t.join.fetch.takeSettings.takeCatalog (t.offer.catalog t.server.required) with
    | mk f' sent =>
      rw [hcatalog] at hgathering
      obtain ⟨hgathering, hignored, hsent⟩ := hgathering
      have hdialog := Dialog.of_catalog hgathering
      rw [← hsent] at hdialog
      refine ⟨rfl, f', sent.map .queued, sent, ?_, ?_, ?_⟩
      · simp only [Join.handle, Terms.catalog, hcatalog]
      · rw [ite_self]
        exact .queued fun p hp => hfair.upward_elicited (hdialog.elicits_up p hp)
      · rw [ite_self]
        exact .talking hdialog hignored
  | talking hdialog hignored =>
    obtain ⟨hadmits, hemits, f', sent, htake, hignored', hdialog'⟩ :=
      hdialog.take_down hfair.offer hstage hignored
    refine ⟨hadmits, f', _, sent, Join.handle_emitted hemits htake, ?_, ?_⟩
    · rw [ite_self]
      refine .queued fun p hp => hfair.upward_elicited ?_
      exact hdialog'.elicits_up p (List.mem_append_right _ hp)
    · rw [ite_self]
      exact .talking hdialog' (hignored'.trans hignored)

/-- The server takes what comes next. -/
theorem take_up {p : Packet} (h : Phase t content ex f down (p :: up) serving joining)
    (hfair : t.Fair content) {raw : Bytes} (hraw : OpensAlways t.server.policy raw p) :
    ∃ ex' os ps, ({ t.serve with exchange := ex } : Serve).take raw =
        .proceed { t.serve with exchange := some ex' } os ∧
      Queue t.Downward serving os ps (if os.any Outgoing.compresses then true else serving) ∧
      Phase t content (some ex') f (down ++ ps) up
        (if os.any Outgoing.compresses then true else serving) joining := by
  cases h with
  | asking =>
    have hopen : openRaw .latest t.server.policy raw =
        .ok [.settingsRequest ⟨t.revision.number⟩] := hraw _
    have hnumber : Revision.ofNumber? t.revision.number = some t.revision := by
      cases t.revision <;> rfl
    refine ⟨(t.revision, t.offer.idle .awaitingResponse),
      [.direct t.settings, .compress t.server.compressionThreshold,
        .queued (.playStatus .loginSuccess), .queued t.catalog], _, ?_, ?_, .answered⟩
    · rw [Serve.take_of_open (s := { t.serve with exchange := none }) hopen]
      show t.serve.agree ⟨t.revision.number⟩ = _
      simp only [Serve.agree, hnumber]
      rfl
    · refine .packet (t.downward_networkSettings _) rfl (.compress _ ?_)
      refine .packet (t.downward_playStatus _) rfl ?_
      exact .packet (hfair.downward_catalog _) rfl (.nil true)
  | @talking o _ _ _ hdialog hignored =>
    obtain ⟨hadmits, o', sent, htake, hdialog'⟩ := hdialog.take_up hfair.offer
    have hopen : openRaw t.revision t.server.policy raw = .ok [p] := hraw _
    have hreact := Serve.react_of_take (hdialog.elicits_up p List.mem_cons_self)
      (s := { t.serve with exchange := some (t.revision, o) }) rfl hadmits htake
    refine ⟨(t.revision, o'), sent.map .queued, sent, ?_, ?_, ?_⟩
    · rw [Serve.take_of_open (s := { t.serve with exchange := some (t.revision, o) }) hopen]
      show Turn.all (Serve.react t.revision) _ [p] = _
      simp only [Turn.all, hreact, Turn.andThen, Turn.proceed, List.append_nil]
    · rw [ite_self]
      refine .queued fun q hq => ?_
      rcases hdialog'.emits_down q (List.mem_append_right _ hq) with hemits | rfl
      · exact hfair.downward_emitted hemits
      · exact ⟨t.downward_playStatus _, rfl⟩
    · rw [ite_self]
      exact .talking hdialog' hignored

/-- What a worker with something to do does. -/
theorem work (h : Phase t content ex f down up serving joining) (hfair : t.Fair content) {k : Nat}
    {d : Download} (hk : f.downloads[k]? = some d) (hawake : d.awake f.cancelled = true)
    (slotFirst : Bool) :
    ∃ f' sent, f.work k slotFirst = (f', sent) ∧ f'.stage ≠ .done ∧
      Queue t.Upward joining (sent.map .queued) sent
        (if (sent.map Outgoing.queued).any Outgoing.compresses then true else joining) ∧
      Phase t content ex f' down (up ++ sent) serving
        (if (sent.map Outgoing.queued).any Outgoing.compresses then true else joining) := by
  cases h with
  | talking hdialog hignored =>
    obtain ⟨f', sent, hwork, hignored', hstage, hdialog'⟩ :=
      hdialog.work hfair.offer hk hawake slotFirst
    refine ⟨f', sent, hwork, hstage, ?_, ?_⟩
    · rw [ite_self]
      refine .queued fun p hp => hfair.upward_elicited ?_
      exact hdialog'.elicits_up p (List.mem_append_right _ hp)
    · rw [ite_self]
      exact .talking hdialog' (hignored'.trans hignored)
  | _ => cases hk

/-! ### What packets are written with -/

/-- A server that has agreed to a revision writes packets of that revision. -/
theorem revision_eq (h : Phase t content ex f down up serving joining) (hagreed : ex ≠ none) :
    ({ t.serve with exchange := ex } : Serve).revision = t.revision := by
  cases h with
  | asking => exact absurd rfl hagreed
  | _ => rfl

/-- The client reads the next packet with the compression it was written with. -/
theorem joining_eq (h : Phase t content ex f down up serving joining) (hfair : t.Fair content) :
    ∀ p ∈ down.head?, joining = !p.greeting := by
  intro p hp
  cases h with
  | talking hdialog hignored =>
    rcases hdialog.emits_down p (List.mem_of_mem_head? hp) with hemits | rfl
    · rw [(hfair.downward_emitted hemits).2]
      rfl
    · rfl
  | _ => cases hp <;> rfl

/-- So does the server. -/
theorem serving_eq (h : Phase t content ex f down up serving joining) (hfair : t.Fair content) :
    ∀ p ∈ up.head?, serving = !p.greeting := by
  intro p hp
  cases h with
  | talking hdialog hignored =>
    rw [(hfair.upward_elicited (hdialog.elicits_up p (List.mem_of_mem_head? hp))).2]
    rfl
  | _ => cases hp <;> rfl

/-! ### The end -/

/-- The exchange does not stall. -/
theorem busy (h : Phase t content ex f [] [] serving joining) :
    ∃ (k : Nat) (d : Download), f.downloads[k]? = some d ∧ d.awake f.cancelled = true := by
  cases h with
  | talking hdialog hignored => exact hdialog.awake

/-- A client that is done has the packs that it takes. -/
theorem resolved_perm (h : Phase t content ex f down up serving joining) (hdone : f.stage = .done) :
    f.resolved.Perm ((t.offer.accepted t.filter).map fun p => p.copy (content p)) := by
  cases h with
  | talking hdialog hignored => exact hdialog.resolved_perm hdone
  | _ => cases hdone

/-- A server that has heard the last of such a client knows that it is done. -/
theorem loggedIn (h : Phase t content ex f down [] serving joining) (hdone : f.stage = .done) :
    ({ t.serve with exchange := ex } : Serve).loggedIn = true := by
  cases h with
  | talking hdialog hignored => exact hdialog.loggedIn hdone
  | _ => cases hdone

end Phase

end PackExchange
