import PackExchange.Proofs.Session.Language
import PackExchange.Proofs.Session.Moves

/-!
# Packets that are passed over

Under a lenient policy a side takes no notice of bytes that are no packet, and of a packet that its
stage does not admit.  A session that is sent such bytes is the session that is not sent them, at
every later moment and to the end.

* `Stray` — such bytes, with `Stray.opens`;
* `Serve.take_stray` and `Serve.hear_stray` — a server passes over them;
* `Joining.run_stray` — so does a client, whatever its workers do meanwhile;
* `strays_change_nothing` — both, anywhere in a session.
-/

namespace PackExchange

/-- Bytes that are no packet of a revision, or hold none that is admitted. -/
inductive Stray (revision : Revision) (policy : Policy) (admits : Packet → Bool) (raw : Bytes) :
    Prop
  /-- They do not begin with a header. -/
  | headless {e : HeaderError} (hparse : RawPacket.parse raw = .error e)
  | malformed {p : RawPacket} {e : DecodeError} (hparse : RawPacket.parse raw = .ok p)
      (hdecode : p.decode revision policy = .error e)
  /-- The revision has no packet of this id. -/
  | unlisted {p : RawPacket} (hparse : RawPacket.parse raw = .ok p)
      (hkind : revision.kind? p.header.packetId = none)
  /-- The latest revision has nothing for this packet. -/
  | dropped {p : RawPacket} {d : Decoded} (hparse : RawPacket.parse raw = .ok p)
      (hdecode : p.decode revision policy = .ok d) (hpackets : d.packets = [])
  | unwanted {p : RawPacket} {d : Decoded} (hparse : RawPacket.parse raw = .ok p)
      (hdecode : p.decode revision policy = .ok d) (hrefused : ∀ q ∈ d.packets, admits q = false)

/-- Such bytes are read, under a lenient policy, as packets that are unknown or not admitted. -/
theorem Stray.opens {r : Revision} {policy : Policy} {admits : Packet → Bool} {raw : Bytes}
    (h : Stray r policy admits raw) (hlenient : policy.Lenient) :
    ∃ ps, openRaw r policy raw = .ok ps ∧ ∀ q ∈ ps, q.kind? = none ∨ admits q = false := by
  cases h with
  | headless hparse => exact ⟨[], by rw [openRaw, hparse], nofun⟩
  | malformed hparse hdecode =>
    refine ⟨[], ?_, nofun⟩
    simp only [openRaw, hparse, hdecode, hlenient.disconnects_eq]
    rfl
  | unlisted hparse hkind =>
    rename_i p
    have hdecode : p.decode r policy =
        .ok ⟨r.toLatest (.unknown p.header.packetId p.payload), none⟩ := by
      rw [RawPacket.decode, hkind]
      exact if_neg (Bool.eq_false_iff.mp hlenient.unknown)
    refine ⟨r.toLatest (.unknown p.header.packetId p.payload), ?_, ?_⟩
    · simp only [openRaw, hparse, hdecode]
    intro q hq
    cases r <;> exact Or.inl (by rw [List.mem_singleton.mp hq]; rfl)
  | dropped hparse hdecode hpackets =>
    refine ⟨[], ?_, nofun⟩
    simp only [openRaw, hparse, hdecode, hpackets]
  | unwanted hparse hdecode hrefused =>
    rename_i p d
    refine ⟨d.packets, ?_, ?_⟩
    · simp only [openRaw, hparse, hdecode]
    exact fun q hq => Or.inr (hrefused q hq)

/-! ### Servers -/

/-- Reactions that do nothing do nothing together. -/
theorem Turn.all_idle {σ ρ : Type} {react : σ → Packet → Turn σ ρ} {side : σ} {ps : List Packet}
    (h : ∀ p ∈ ps, react side p = { side }) : all react side ps = { side } := by
  induction ps with
  | nil => rfl
  | cons p ps ih =>
    rw [all, h p List.mem_cons_self, pure_andThen]
    exact ih fun q hq => h q (List.mem_cons_of_mem p hq)

namespace Serve

/-- The stage that a session is in. -/
def stage (s : Serve) : ServerStage := (s.exchange.map (·.2.stage)).getD .awaitingRequest

/-- A server does nothing about a packet that its stage does not admit, nor about an unknown one,
even where the stage admits it. -/
theorem react_refused {s : Serve} {p : Packet} (h : p.kind? = none ∨ s.stage.admits p = false)
    (revision : Revision) : s.react revision p = { side := s } := by
  rw [react]
  split
  · rfl
  · next o hexchange =>
    rcases h with hkind | hrefused
    · cases p with
      | unknown id bytes => split <;> rfl
      | known kind body => cases hkind
    · have hstage : s.stage = o.stage := by rw [stage, hexchange]; rfl
      rw [hstage] at hrefused
      rw [hrefused]
      rfl

theorem negotiate_refused {s : Serve} {ps : List Packet}
    (h : ∀ p ∈ ps, p.kind? = none ∨ ServerStage.awaitingRequest.admits p = false) :
    s.negotiate ps = { side := s } := by
  have hfind : ps.find? ServerStage.awaitingRequest.admits = none := by
    rw [List.find?_eq_none]
    intro p hp hadmits
    rcases h p hp with hkind | hrefused
    · rw [ServerStage.admits, hkind] at hadmits
      cases hadmits
    · rw [hrefused] at hadmits
      cases hadmits
  rw [negotiate, hfind]

/-- **A server takes no notice of strays.** -/
theorem take_stray {s : Serve} {raw : Bytes} (hlenient : s.settings.policy.Lenient)
    (h : Stray s.revision s.settings.policy s.stage.admits raw) : s.take raw = { side := s } := by
  obtain ⟨ps, hopen, hps⟩ := h.opens hlenient
  rw [take_of_open hopen]
  cases hexchange : s.exchange with
  | none =>
    have hstage : s.stage = .awaitingRequest := by rw [stage, hexchange]; rfl
    rw [hstage] at hps
    exact negotiate_refused hps
  | some exchange => exact Turn.all_idle fun p hp => react_refused (hps p hp) _

theorem hear_stray {s : Serve} (hlenient : s.settings.policy.Lenient) {before : List Bytes}
    {raw : Bytes}
    (h : (role.hear s before).ending = none →
      Stray (role.hear s before).side.revision s.settings.policy
        (role.hear s before).side.stage.admits raw) (after : List Bytes) :
    role.hear s (before ++ raw :: after) = role.hear s (before ++ after) := by
  rw [Role.hear_append, Role.hear_append]
  cases hending : (role.hear s before).ending with
  | some e => rw [Turn.andThen_of_ended hending, Turn.andThen_of_ended hending]
  | none =>
    obtain ⟨hsettings, -, -⟩ := s.hear_keeps before
    have hstray := h hending
    rw [← hsettings] at hlenient hstray
    rw [Turn.andThen_of_going hending, Turn.andThen_of_going hending, hear_cons,
      take_stray hlenient hstray, Turn.pure_andThen]

end Serve

/-! ### Clients -/

/-- No stage of a client admits an unknown packet. -/
theorem ClientStage.admits_unknown (stage : ClientStage) {p : Packet} (h : p.kind? = none) :
    stage.admits p = false := by
  rw [admits, h]

namespace Joining

/-- The receive loop skips packets that are not admitted, one after another. -/
theorem run_skips {j : Joining} (hresult : j.result = none) {ps : List Packet}
    (hps : ∀ p ∈ ps, j.join.fetch.stage.admits p = false) :
    (j.placed (.looking ps)).run (List.replicate ps.length .proceed) =
      some (j.placed (.looking [])) := by
  induction ps with
  | nil => rfl
  | cons p ps ih =>
    have hcan : (j.placed (.looking (p :: ps))).can .proceed = true := by
      show (j.result.isNone && true) = true
      rw [hresult]
      rfl
    have hskip : (j.placed (.looking (p :: ps))).after .proceed = j.placed (.looking ps) := by
      simp only [after, proceed, placed, hps p List.mem_cons_self]
      rfl
    rw [List.length_cons, List.replicate_succ, run_cons_of_can hcan, hskip]
    exact ih fun q hq => hps q (List.mem_cons_of_mem p hq)

/-- **A client takes no notice of strays**, whatever its workers do between the read and the look at
what was read. -/
theorem run_stray {i j : Joining} {raw : Bytes} {meanwhile : List Move}
    (hlenient : i.join.settings.policy.Lenient) (hcan : i.can (.take raw) = true)
    (hbeside : ∀ m ∈ meanwhile, m.beside = true) (hrun : i.run meanwhile = some j)
    (h : Stray i.join.revision i.join.settings.policy j.join.fetch.stage.admits raw) :
    ∃ n, i.run (.take raw :: meanwhile ++ List.replicate n .proceed) = some j := by
  obtain ⟨ps, hopen, hps⟩ := h.opens hlenient
  have htake : i.after (.take raw) = i.placed (.looking ps) := by
    simp only [after, take, hopen]
    rfl
  obtain ⟨hplaced, hposition, hresult⟩ := run_placed hbeside hrun (.looking ps)
  obtain ⟨hgoing, hidle⟩ := Bool.and_eq_true_iff.mp hcan
  have hlooking := Position.eq_of_idle hidle
  have hskips := run_skips (hresult.trans (Option.isNone_iff_eq_none.mp hgoing)) fun p hp =>
    (hps p hp).elim (ClientStage.admits_unknown _) id
  refine ⟨ps.length, ?_⟩
  rw [List.cons_append, run_cons_of_can hcan, htake, run_append_of_run hplaced, hskips]
  show some { j with position := _ } = some j
  rw [← hlooking, ← hposition]

end Joining

/-! ### Both sides -/

/-- **Strays change nothing**, under a lenient policy.  A server that is sent one, after any raw
packets, comes to the same session as one that is not: it does the same about all later raw packets
and ends in the same way.  So does a client, in every session and under every schedule, whatever its
workers do between the moment at which its receive loop reads the stray and that at which the loop
looks at it: from there on each series of moves leads to the same session, with the same packets
handled and the same packets sent. -/
theorem strays_change_nothing (settings : SessionSettings) (hlenient : settings.policy.Lenient)
    (raw : Bytes) :
    (∀ (packs : List Pack) (before : List Bytes),
        let s : Serve := { settings, packs }
        let t := Serve.role.hear s before
        (t.ending = none → Stray t.side.revision settings.policy t.side.stage.admits raw) →
          ∀ after, Serve.role.hear s (before ++ raw :: after) = Serve.role.hear s (before ++ after) ∧
            ∀ e, Serve.role.hearOut s (before ++ raw :: after) e =
              Serve.role.hearOut s (before ++ after) e) ∧
      ∀ (revision : Revision) (fetch : Fetch) (before meanwhile : List Joining.Move)
        (i j : Joining),
        let start := Joining.start { settings, revision, fetch }
        start.run before = some i → i.can (.take raw) = true →
          (∀ m ∈ meanwhile, m.beside = true) → i.run meanwhile = some j →
          Stray revision settings.policy j.join.fetch.stage.admits raw →
            ∃ n, ∀ after,
              start.run (before ++ (.take raw :: meanwhile ++ List.replicate n .proceed) ++ after) =
                start.run (before ++ meanwhile ++ after) := by
  refine ⟨?_, ?_⟩
  · intro packs before s t h after
    have hhear := Serve.hear_stray (s := s) hlenient h after
    refine ⟨hhear, ?_⟩
    intro e
    rw [Role.hearOut, Role.hearOut, hhear]
  · intro revision fetch before meanwhile i j start hbefore hcan hbeside hrun h
    obtain ⟨hsettings, hrevision⟩ := Joining.run_keeps hbefore
    have hlenient' : i.join.settings.policy.Lenient := by rwa [hsettings]
    obtain ⟨n, hn⟩ := Joining.run_stray hlenient' hcan hbeside hrun (by rwa [hsettings, hrevision])
    refine ⟨n, ?_⟩
    intro after
    have hsame : start.run (before ++ (.take raw :: meanwhile ++ List.replicate n .proceed)) =
        start.run (before ++ meanwhile) := by
      rw [Joining.run_append_of_run hbefore, Joining.run_append_of_run hbefore, hn, hrun]
    rw [Joining.run_append, hsame, ← Joining.run_append]

/-- A clock comparison: the older revision has such packets, and drops them. -/
def exampleTick : Bytes := (Packet.tickSync {}).toBytes 0

/-- A client of the latest revision reads the settings, a catalog and the announcement of a pack. -/
def exampleMoves : List Joining.Move :=
  [.networkSettings {}, Joining.exampleCatalog, Joining.exampleAnnouncement].flatMap fun p =>
    [.take (p.toBytes 0), .proceed, .proceed, .proceed]

/-- A server that is about to send chunks takes no notice of a clock comparison, nor does a client
whose worker asks for its first chunk just then. -/
theorem strays_change_nothing_exampleTick :
    let s : Serve :=
      { settings := { chunkSize := 3 }, packs := Offer.exampleArchives.map (·.toPack) }
    let start := Joining.start { settings := { chunkSize := 3 }, revision := .latest, fetch := {} }
    Serve.role.hear s (Serve.exampleRaws.take 2 ++ exampleTick :: Serve.exampleRaws.drop 2) =
        Serve.role.hear s Serve.exampleRaws ∧
      ∃ n j, start.run (exampleMoves ++ [.take exampleTick, .work 0 false] ++
          List.replicate n .proceed) = some j ∧
        j.handled.length = 3 ∧ j.endpoint.outbox.getLast? =
          some (.queued (.chunkRequest ⟨"00000000-0000-0000-0000-000000000001", 0⟩)) := by
  intro s start
  have hparse : RawPacket.parse exampleTick = .ok ⟨{ packetId := 0x17 }, exampleTick.drop 1⟩ := by
    decide +kernel
  have hrevision : (Serve.role.hear s (Serve.exampleRaws.take 2)).side.revision = .r712 := by
    decide +kernel
  have hdropped : Stray .r712 s.settings.policy
      (Serve.role.hear s (Serve.exampleRaws.take 2)).side.stage.admits exampleTick :=
    .dropped hparse (d := ⟨[], none⟩) (by decide +kernel) rfl
  have hruns : ((start.run exampleMoves).any fun i => i.can (.take exampleTick) &&
      (i.run [.work 0 false]).any fun j => j.handled.length == 3 && j.endpoint.outbox.getLast? ==
        some (.queued (.chunkRequest ⟨"00000000-0000-0000-0000-000000000001", 0⟩))) = true := by
    decide +kernel
  obtain ⟨i, hbefore, hi⟩ := (Option.any_eq_true _ _).mp hruns
  obtain ⟨hcan, hi⟩ := Bool.and_eq_true_iff.mp hi
  obtain ⟨j, hrun, hj⟩ := (Option.any_eq_true _ _).mp hi
  obtain ⟨hhandled, hlast⟩ := Bool.and_eq_true_iff.mp hj
  obtain ⟨hserve, hjoin⟩ := strays_change_nothing { chunkSize := 3 } ⟨rfl, rfl⟩ exampleTick
  refine ⟨?_, ?_⟩
  · refine (hserve s.packs (Serve.exampleRaws.take 2) (fun _ => ?_) _).1
    rw [hrevision]
    exact hdropped
  · obtain ⟨n, hn⟩ := hjoin .latest {} exampleMoves [.work 0 false] i j hbefore hcan
      (by decide) hrun (.unlisted hparse (by decide +kernel))
    refine ⟨n, j, ?_, eq_of_beq hhandled, eq_of_beq hlast⟩
    have hsame := hn []
    rw [List.append_nil, List.append_nil, Joining.run_append_of_run hbefore [.work 0 false],
      hrun] at hsame
    rw [List.append_assoc]
    exact hsame

end PackExchange
