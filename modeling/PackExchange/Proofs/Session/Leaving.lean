import PackExchange.Proofs.Session.Running
import PackExchange.Proofs.Session.Strays

/-!
# Packets that end a session

A disconnect ends the session of whichever side reads it, and a client that refuses the packs ends
the session of the server.  Whatever comes after such a packet is not looked at.

* `Role.hearUntil_finish`, `Role.hearUntil_passed` — what a side makes of raw packets one of which
  ends its session, or is passed over;
* `Joining.Leaving` — a client's session once it has read a disconnect, with `Leaving.move` and
  `Leaving.run`;
* `Serve.Agreed` — the stages of a server that has agreed on a revision;
* `disconnect_ends`, `refusal_ends` — what either packet comes to, after whatever was read before.

A server that has not agreed on a revision passes over a disconnect, and one that is serving chunks
passes over a refusal.
-/

namespace PackExchange

/-! ### A raw packet among others -/

namespace Role

variable {σ ρ : Type} {role : Role σ ρ} {s side : σ} {before : List Bytes} {raw : Bytes}

theorem hearUntil_cons (role : Role σ ρ) (side : σ) (raw : Bytes) (raws : List Bytes)
    (lost : Option SessionError) :
    role.hearUntil side (raw :: raws) lost =
      (role.take side raw).andThen fun side => role.hearUntil side raws lost := by
  rw [← List.singleton_append, hearUntil_append, hear_singleton]

/-- **A raw packet that ends a session is the last one**, whatever follows it. -/
theorem hearUntil_finish {result : Except SessionError ρ}
    (hgoing : (role.hear s before).ending = none)
    (htake : role.take (role.hear s before).side raw = .finish side [] result)
    (after : List Bytes) (lost : Option SessionError) :
    role.hearUntil s (before ++ raw :: after) lost =
      { side := side
        outgoing := (role.hear s before).outgoing
        ending := some { result := result } } := by
  have hlast : role.hearUntil (role.hear s before).side (raw :: after) lost =
      .finish side [] result := by
    rw [hearUntil_cons, htake]
    exact Turn.andThen_of_ended rfl _
  rw [hearUntil_append, Turn.andThen_of_going hgoing, hlast]
  simp only [Turn.finish, List.append_nil]

/-- One that is passed over might as well not have been read. -/
theorem hearUntil_passed (hgoing : (role.hear s before).ending = none)
    (htake : role.take (role.hear s before).side raw = { side := (role.hear s before).side })
    (after : List Bytes) (lost : Option SessionError) :
    role.hearUntil s (before ++ raw :: after) lost = role.hearUntil s (before ++ after) lost := by
  rw [hearUntil_append, hearUntil_append, Turn.andThen_of_going hgoing,
    Turn.andThen_of_going hgoing, hearUntil_cons, htake, Turn.pure_andThen]

end Role

/-! ### Clients -/

/-- Every stage of a client admits a disconnect. -/
theorem ClientStage.admits_disconnect (stage : ClientStage) (d : Disconnect) :
    stage.admits (.disconnect d) = true := rfl

namespace Joining

/-- Does the receive loop turn to the stream? -/
def Move.reads : Move → Bool
  | take _ | lose _ => true
  | _ => false

/-- Does the session go on by itself? -/
def Move.acts : Move → Bool
  | cancel => false
  | _ => true

/-- A client's session once it has read a disconnect, with what was handled before and how many steps
the receive loop still takes. -/
inductive Leaving (handled : List Handled) (d : Disconnect) (j : Joining) : Nat → Prop
  | read (hresult : j.result = none) (hposition : j.position = .looking [.disconnect d])
      (hhandled : j.handled = handled) : Leaving handled d j 2
  | held (hresult : j.result = none) (hposition : j.position = .holding (.disconnect d) [])
      (hhandled : j.handled = handled) : Leaving handled d j 1
  | left (hresult : j.result = some (.error (.disconnected d.message)))
      (hhandled : j.handled = handled ++ [⟨.disconnect d, none⟩]) : Leaving handled d j 0

variable {handled : List Handled} {d : Disconnect} {j j' : Joining} {n : Nat}

/-- What goes on beside the receive loop does not hold it up. -/
theorem Leaving.beside (h : Leaving handled d j n) (hresult : j'.result = j.result)
    (hposition : j'.position = j.position) (hhandled : j'.handled = j.handled) :
    Leaving handled d j' n := by
  cases h with
  | read hresult' hposition' hhandled' =>
    exact .read (hresult.trans hresult') (hposition.trans hposition') (hhandled.trans hhandled')
  | held hresult' hposition' hhandled' =>
    exact .held (hresult.trans hresult') (hposition.trans hposition') (hhandled.trans hhandled')
  | left hresult' hhandled' => exact .left (hresult.trans hresult') (hhandled.trans hhandled')

/-- The receive loop does not turn to the stream again. -/
theorem Leaving.idle (h : Leaving handled d j n) : (j.result.isNone && j.position.idle) = false := by
  cases h with
  | read hresult hposition _ | held hresult hposition _ =>
    rw [hresult, hposition]
    rfl
  | left hresult _ =>
    rw [hresult]
    rfl

/-- Its next step takes it further. -/
theorem Leaving.proceed (h : Leaving handled d j n) (hcan : j.can .proceed = true) :
    ∃ m, n = m + 1 ∧ Leaving handled d j.proceed m ∧ j.proceed.join = j.join := by
  cases h with
  | read hresult hposition hhandled =>
    refine ⟨1, rfl, ?_⟩
    simp only [Joining.proceed, hposition, ClientStage.admits_disconnect, if_true]
    exact ⟨.held hresult rfl hhandled, trivial⟩
  | held hresult hposition hhandled =>
    refine ⟨0, rfl, ?_⟩
    rw [Joining.proceed, hposition]
    refine ⟨.left rfl ?_, rfl⟩
    show j.handled ++ _ = _
    rw [hhandled]
    rfl
  | left hresult hhandled =>
    rw [can, hresult] at hcan
    cases hcan

/-- **After a disconnect every move but a cancellation is one of a few steps**, and none turns to the
stream. -/
theorem Leaving.move (h : Leaving handled d j n) {m : Move} (hcan : j.can m = true) :
    m.reads = false ∧ ∃ n', Leaving handled d (j.after m) n' ∧
      m.acts.toNat + (n' + (j.after m).join.fetch.stepsLeft) ≤ n + j.join.fetch.stepsLeft := by
  cases m with
  | take raw | lose e =>
    rw [can, h.idle] at hcan
    cases hcan
  | proceed =>
    obtain ⟨n', rfl, hleaving, hjoin⟩ := h.proceed hcan
    refine ⟨rfl, n', hleaving, ?_⟩
    rw [after, hjoin]
    show 1 + _ ≤ _
    omega
  | work k slotFirst =>
    refine ⟨rfl, n, h.beside rfl rfl rfl, ?_⟩
    obtain ⟨-, hawake⟩ := Bool.and_eq_true_iff.mp hcan
    obtain ⟨e, hk, hawake⟩ := (Option.any_eq_true _ _).mp hawake
    have hfewer := Fetch.stepsLeft_work hk hawake slotFirst
    show 1 + (n + (j.join.fetch.work k slotFirst).1.stepsLeft) ≤ _
    omega
  | cancel =>
    refine ⟨rfl, n, h.beside rfl rfl rfl, ?_⟩
    show 0 + (n + j.join.fetch.stepsLeft) ≤ _
    omega

/-- **So every series of moves comes to an end**, but for cancellations. -/
theorem Leaving.run (h : Leaving handled d j n) {ms : List Move} (hrun : j.run ms = some j') :
    (∀ m ∈ ms, m.reads = false) ∧ ∃ n', Leaving handled d j' n' ∧
      ms.countP Move.acts + (n' + j'.join.fetch.stepsLeft) ≤ n + j.join.fetch.stepsLeft := by
  induction ms generalizing j n with
  | nil =>
    cases hrun
    exact ⟨nofun, n, h, by rw [List.countP_nil, Nat.zero_add]⟩
  | cons m ms ih =>
    obtain ⟨hcan, hrun⟩ := run_cons_eq_some.mp hrun
    obtain ⟨hreads, n', h', hfewer⟩ := h.move hcan
    obtain ⟨hreads', n'', h'', hfewer'⟩ := ih h' hrun
    refine ⟨List.forall_mem_cons.mpr ⟨hreads, hreads'⟩, n'', h'', ?_⟩
    have hcount : (m :: ms).countP Move.acts = m.acts.toNat + ms.countP Move.acts := by
      rw [List.countP_cons, Nat.add_comm]
      cases m.acts <;> rfl
    rw [hcount]
    omega

/-- A client that has read a disconnect is about to leave. -/
theorem leaving_take {raw : Bytes} (hcan : j.can (.take raw) = true)
    (hopen : openRaw j.join.revision j.join.settings.policy raw = .ok [.disconnect d]) :
    Leaving j.handled d (j.after (.take raw)) 2 ∧ (j.after (.take raw)).join = j.join := by
  obtain ⟨hgoing, -⟩ := Bool.and_eq_true_iff.mp hcan
  have htake : j.after (.take raw) = j.placed (.looking [.disconnect d]) := by
    simp only [after, take, hopen]
    rfl
  rw [htake]
  exact ⟨.read (Option.isNone_iff_eq_none.mp hgoing) rfl rfl, rfl⟩

/-- It has not left yet, and its receive loop may go on, or it has left. -/
theorem Leaving.cases (h : Leaving handled d j n) :
    (j.result = none ∧ j.handled = handled ∧ j.can .proceed = true) ∨
      (j.result = some (.error (.disconnected d.message)) ∧
        j.handled = handled ++ [⟨.disconnect d, none⟩]) := by
  cases h with
  | read hresult hposition hhandled | held hresult hposition hhandled =>
    refine Or.inl ⟨hresult, hhandled, ?_⟩
    rw [can, hresult, hposition]
    rfl
  | left hresult hhandled => exact Or.inr ⟨hresult, hhandled⟩

end Joining

/-! ### Servers -/

theorem Offer.respond_refusal {r : ClientResponse} (h : Answer.ofCode? r.response = some .refused)
    (o : Offer) : o.respond r = .error .refused := by
  rw [respond, h]

/-- Every stage of a server admits a disconnect. -/
theorem ServerStage.admits_disconnect (stage : ServerStage) (d : Disconnect) :
    stage.admits (.disconnect d) = true := rfl

/-- A refusal is admitted in every stage but two. -/
theorem ServerStage.admits_response {stage : ServerStage} (hrequest : stage ≠ .awaitingRequest)
    (hserving : stage ≠ .servingChunks) (r : ClientResponse) :
    stage.admits (.clientResponse r) = true := by
  cases stage with
  | awaitingRequest => exact absurd rfl hrequest
  | servingChunks => exact absurd rfl hserving
  | awaitingResponse | awaitingCompletion | loggedIn => rfl

namespace Serve

/-- Once a revision is agreed on, a disconnect is handled in every stage. -/
theorem take_disconnect {s : Serve} {raw : Bytes} {d : Disconnect}
    (hagreed : s.exchange.isSome = true)
    (hopen : openRaw s.revision s.settings.policy raw = .ok [.disconnect d]) :
    s.take raw = .finish s [] (.ok ()) := by
  obtain ⟨⟨revision, o⟩, hexchange⟩ := Option.isSome_iff_exists.mp hagreed
  rw [take_of_singleton hopen, if_pos hagreed, react, hexchange]
  simp only [ServerStage.admits_disconnect, if_true]

/-- Before, it is dropped. -/
theorem take_disconnect_unagreed {s : Serve} {raw : Bytes} {d : Disconnect}
    (hexchange : s.exchange = none)
    (hopen : openRaw s.revision s.settings.policy raw = .ok [.disconnect d]) :
    s.take raw = { side := s } := by
  rw [take_of_singleton hopen, hexchange]
  rfl

/-- A server that has agreed on a revision waits for no request for settings. -/
def Agreed (s : Serve) : Prop :=
  ∀ exchange, s.exchange = some exchange → exchange.2.stage ≠ .awaitingRequest

theorem agreed_of_fresh {s : Serve} (h : s.exchange = none) : s.Agreed := by
  intro exchange hexchange
  rw [h] at hexchange
  cases hexchange

theorem agreed_on {revision : Revision} {o : Offer} (s : Serve)
    (h : o.stage ≠ .awaitingRequest) : (s.on revision o).Agreed := by
  intro exchange hexchange
  cases hexchange
  exact h

theorem stage_serveNext_ne (o : Offer) (ps : List Pack) :
    (o.serveNext ps).1.stage ≠ .awaitingRequest := by
  cases ps <;> exact nofun

theorem Took.agreed_side {s : Serve} {raw : Bytes} {t : Turn Serve Unit} (h : s.Took raw t)
    (hs : s.Agreed) : t.side.Agreed := by
  cases h with
  | ignored | unreadable _ | refused _ _ _ | left _ _ | failed _ _ => exact hs
  | agreed _ _ _ => exact agreed_on s nofun
  | answered _ _ hresponded =>
    cases hresponded with
    | asked _ _ _ => exact agreed_on s (stage_serveNext_ne _ _)
    | downloaded _ _ | completed _ _ => exact agreed_on s nofun
  | served hexchange _ hserve =>
    obtain ⟨t, c, -, -, -, hgiven⟩ := Offer.given_of_serveChunk hserve
    cases hgiven with
    | last _ => exact agreed_on s (stage_serveNext_ne _ _)
    | inner _ _ => exact agreed_on s (hs _ hexchange)

theorem Agreed.hear {s : Serve} (hs : s.Agreed) (raws : List Bytes) :
    (role.hear s raws).side.Agreed := by
  induction raws generalizing s with
  | nil => exact hs
  | cons raw raws ih =>
    have hfirst := (s.took raw).agreed_side hs
    rw [hear_cons]
    cases hending : (s.take raw).ending with
    | some e =>
      rw [Turn.andThen_of_ended hending]
      exact hfirst
    | none =>
      rw [Turn.andThen_of_going hending]
      exact ih hfirst

/-- A server that admits a refusal ends over it. -/
theorem take_refusal {s : Serve} {raw : Bytes} {r : ClientResponse} {revision : Revision} {o : Offer}
    (hexchange : s.exchange = some (revision, o))
    (hopen : openRaw s.revision s.settings.policy raw = .ok [.clientResponse r])
    (hanswer : Answer.ofCode? r.response = some .refused)
    (hadmits : o.stage.admits (.clientResponse r) = true) :
    s.take raw = .finish s [] (.error (.transfer .refused)) := by
  rw [take_of_singleton hopen, hexchange, Option.isSome_some, if_pos rfl, react, hexchange]
  simp only [hadmits, Offer.respond_refusal hanswer, if_true]
  rfl

/-- One that serves chunks passes over it. -/
theorem take_response_serving {s : Serve} {raw : Bytes} {r : ClientResponse} {revision : Revision}
    {o : Offer} (hexchange : s.exchange = some (revision, o)) (hstage : o.stage = .servingChunks)
    (hopen : openRaw s.revision s.settings.policy raw = .ok [.clientResponse r]) :
    s.take raw = { side := s } := by
  rw [take_of_singleton hopen, hexchange, Option.isSome_some, if_pos rfl, react, hexchange]
  simp only [hstage]
  rfl

end Serve

/-! ### Both sides -/

/-- A raw packet that holds a packet holds nothing else. -/
theorem openRaw_of_mem {r : Revision} {policy : Policy} {raw : Bytes} {ps : List Packet} {p : Packet}
    (hopen : openRaw r policy raw = .ok ps) (hp : p ∈ ps) : openRaw r policy raw = .ok [p] := by
  rcases openRaw_eq_ok hopen with rfl | ⟨q, rfl⟩
  · cases hp
  · rw [List.mem_singleton.mp hp]
    exact hopen

/-- **A disconnect ends a session.**  A server that has agreed on a revision and reads one ends well at
once, with nothing more sent, whatever it has read before, whatever follows and however reading
fails.  One that has not agreed on a revision goes on as if it had not been sent.

A client that reads one leaves, in every session and under every schedule.  Its receive loop does not
turn to the stream again, whatever its workers do, and it handles nothing but the disconnect, over
which the session fails.  Until then the loop may always go on, and but for cancellations there are
only a few steps left: two of the loop, and four of each worker. -/
theorem disconnect_ends (settings : SessionSettings) (raw : Bytes) (d : Disconnect) :
    (∀ (packs : List Pack) (before after : List Bytes) (lost : Option SessionError)
        (ps : List Packet),
        let s : Serve := { settings, packs }
        let t := Serve.role.hear s before
        t.ending = none → openRaw t.side.revision settings.policy raw = .ok ps →
          .disconnect d ∈ ps →
          (t.side.exchange.isSome = true →
            Serve.role.hearUntil s (before ++ raw :: after) lost =
              { t with ending := some { result := .ok () } }) ∧
          (t.side.exchange = none →
            Serve.role.hearUntil s (before ++ raw :: after) lost =
              Serve.role.hearUntil s (before ++ after) lost)) ∧
      ∀ (revision : Revision) (fetch : Fetch) (before ms : List Joining.Move) (i j : Joining)
        (ps : List Packet),
        (Joining.start { settings, revision, fetch }).run before = some i →
        i.can (.take raw) = true → openRaw revision settings.policy raw = .ok ps →
        .disconnect d ∈ ps → (i.after (.take raw)).run ms = some j →
          (∀ m ∈ ms, m.reads = false) ∧
          ((j.result = none ∧ j.handled = i.handled ∧ j.can .proceed = true) ∨
            (j.result = some (.error (.disconnected d.message)) ∧
              j.handled = i.handled ++ [⟨.disconnect d, none⟩])) ∧
          ms.countP Joining.Move.acts ≤ 2 + 4 * i.join.fetch.downloads.length := by
  constructor
  · intro packs before after lost ps s t hgoing hopen hd
    obtain ⟨hsettings, -, -⟩ := s.hear_keeps before
    have hone : openRaw t.side.revision t.side.settings.policy raw = .ok [.disconnect d] := by
      rw [hsettings]
      exact openRaw_of_mem hopen hd
    constructor
    · intro hagreed
      exact Role.hearUntil_finish hgoing (Serve.take_disconnect hagreed hone) after lost
    · intro hexchange
      exact Role.hearUntil_passed hgoing (Serve.take_disconnect_unagreed hexchange hone) after lost
  · intro revision fetch before ms i j ps hbefore hcan hopen hd hrun
    obtain ⟨hsettings, hrevision⟩ := Joining.run_keeps hbefore
    have hone : openRaw i.join.revision i.join.settings.policy raw = .ok [.disconnect d] := by
      rw [hsettings, hrevision]
      exact openRaw_of_mem hopen hd
    obtain ⟨hleaving, hjoin⟩ := Joining.leaving_take hcan hone
    obtain ⟨hreads, n, hleft, hfew⟩ := hleaving.run hrun
    refine ⟨hreads, hleft.cases, ?_⟩
    have hsteps := i.join.fetch.stepsLeft_le
    rw [hjoin] at hfew
    omega

/-- A disconnect with a message. -/
def exampleDisconnect : Bytes := (Packet.disconnect { reason := 1, message := "leaving" }).toBytes 0

/-- A server that is about to send chunks ends over it, and so does a client whose worker asks for
its first chunk just then. -/
theorem disconnect_ends_exampleDisconnect :
    let s : Serve :=
      { settings := { chunkSize := 3 }, packs := Offer.exampleArchives.map (·.toPack) }
    let start := Joining.start { settings := { chunkSize := 3 }, revision := .latest, fetch := {} }
    Serve.role.hearUntil s
        (Serve.exampleRaws.take 2 ++ exampleDisconnect :: Serve.exampleRaws.drop 2) none =
        { Serve.role.hear s (Serve.exampleRaws.take 2) with
          ending := some { result := .ok () } } ∧
      ∃ i j, start.run exampleMoves = some i ∧
        (i.after (.take exampleDisconnect)).run [.work 0 false, .proceed, .proceed] = some j ∧
        j.result = some (.error (.disconnected "leaving")) ∧
        j.handled = i.handled ++ [⟨.disconnect { reason := 1, message := "leaving" }, none⟩] := by
  intro s start
  obtain ⟨hserve, hjoin⟩ := disconnect_ends { chunkSize := 3 } exampleDisconnect
    { reason := 1, message := "leaving" }
  have hruns : ((start.run exampleMoves).any fun i => i.can (.take exampleDisconnect) &&
      ((i.after (.take exampleDisconnect)).run [.work 0 false, .proceed, .proceed]).any
        (·.result.isSome)) = true := by
    decide +kernel
  obtain ⟨i, hbefore, hi⟩ := (Option.any_eq_true _ _).mp hruns
  obtain ⟨hcan, hi⟩ := Bool.and_eq_true_iff.mp hi
  obtain ⟨j, hrun, hj⟩ := (Option.any_eq_true _ _).mp hi
  constructor
  · refine (hserve s.packs (Serve.exampleRaws.take 2) (Serve.exampleRaws.drop 2) none
      [.disconnect { reason := 1, message := "leaving" }] ?_ ?_ (List.mem_singleton_self _)).1 ?_
    · exact Option.isNone_iff_eq_none.mp (by decide +kernel)
    · decide +kernel
    · decide +kernel
  · obtain ⟨-, hcases, -⟩ := hjoin .latest {} exampleMoves [.work 0 false, .proceed, .proceed] i j
      [.disconnect { reason := 1, message := "leaving" }] hbefore hcan (by decide +kernel)
      (List.mem_singleton_self _) hrun
    rcases hcases with ⟨hnone, -⟩ | ⟨hresult, hhandled⟩
    · rw [hnone] at hj
      cases hj
    · exact ⟨i, j, hbefore, hrun, hresult, hhandled⟩

/-- **A server that waits for the request for settings is not stopped by a disconnect**: it answers
the request that follows. -/
theorem disconnect_unagreed_answered :
    let s : Serve := { settings := {}, packs := [] }
    let request := (Packet.settingsRequest ⟨729⟩).toBytes 0
    openRaw s.revision s.settings.policy exampleDisconnect =
        .ok [.disconnect { reason := 1, message := "leaving" }] ∧
      (Serve.role.hear s [exampleDisconnect, request]).ending.isNone = true ∧
      (Serve.role.hear s [exampleDisconnect, request]).outgoing = s.welcome := by
  decide +kernel

/-- **A refusal ends the session of a server**, in every stage that a server comes to once it has
agreed on a revision, but while it serves chunks: nothing more is sent, and the session fails with the
refusal, whatever was read before, whatever follows and however reading fails.  A server that serves
chunks goes on as if it had not been refused. -/
theorem refusal_ends (settings : SessionSettings) (packs : List Pack) (before after : List Bytes)
    (raw : Bytes) (r : ClientResponse) (lost : Option SessionError) (revision : Revision) (o : Offer)
    (ps : List Packet) :
    let s : Serve := { settings, packs }
    let t := Serve.role.hear s before
    t.ending = none → t.side.exchange = some (revision, o) →
      openRaw revision settings.policy raw = .ok ps → .clientResponse r ∈ ps →
      Answer.ofCode? r.response = some .refused →
        (o.stage ≠ .servingChunks →
          Serve.role.hearUntil s (before ++ raw :: after) lost =
            { t with ending := some { result := .error (.transfer .refused) } }) ∧
        (o.stage = .servingChunks →
          Serve.role.hearUntil s (before ++ raw :: after) lost =
            Serve.role.hearUntil s (before ++ after) lost) := by
  intro s t hgoing hexchange hopen hr hanswer
  obtain ⟨hsettings, -, -⟩ := s.hear_keeps before
  have hrevision : t.side.revision = revision := by
    rw [Serve.revision, hexchange]
    rfl
  have hone : openRaw t.side.revision t.side.settings.policy raw = .ok [.clientResponse r] := by
    rw [hrevision, hsettings]
    exact openRaw_of_mem hopen hr
  constructor
  · intro hserving
    have hagreed : s.Agreed := Serve.agreed_of_fresh rfl
    have hadmits := ServerStage.admits_response (hagreed.hear before _ hexchange) hserving r
    exact Role.hearUntil_finish hgoing (Serve.take_refusal hexchange hone hanswer hadmits) after lost
  · intro hserving
    exact Role.hearUntil_passed hgoing (Serve.take_response_serving hexchange hserving hone) after
      lost

/-- A refusal of the packs. -/
def exampleRefusal : Bytes := (Packet.clientResponse (.plain .refused)).toBytes 0

/-- A server that has sent its catalog ends over it, and the requests that follow are not looked
at. -/
theorem refusal_ends_exampleRefusal :
    let s : Serve :=
      { settings := { chunkSize := 3 }, packs := Offer.exampleArchives.map (·.toPack) }
    Serve.role.hearUntil s
        (Serve.exampleRaws.take 1 ++ exampleRefusal :: Serve.exampleRaws.drop 1) none =
      { Serve.role.hear s (Serve.exampleRaws.take 1) with
        ending := some { result := .error (.transfer .refused) } } := by
  intro s
  refine (refusal_ends s.settings s.packs (Serve.exampleRaws.take 1) (Serve.exampleRaws.drop 1)
    exampleRefusal (.plain .refused) none .r712 (s.offer.start s.settings.required).1
    [.clientResponse (.plain .refused)] ?_ ?_ ?_ (List.mem_singleton_self _) ?_).1 ?_
  · exact Option.isNone_iff_eq_none.mp (by decide +kernel)
  · rfl
  · decide +kernel
  · decide +kernel
  · exact nofun

/-- **A server that serves chunks is not stopped by a refusal**: it sends the chunk that is asked for
next. -/
theorem refusal_serving_answered :
    let s : Serve :=
      { settings := { chunkSize := 3 }, packs := Offer.exampleArchives.map (·.toPack) }
    let refused := Serve.exampleRaws.take 2 ++ [exampleRefusal]
    let request := Serve.exampleRaws.drop 2 |>.take 1
    openRaw .r712 s.settings.policy exampleRefusal = .ok [.clientResponse (.plain .refused)] ∧
      (Serve.role.hear s refused).ending.isNone = true ∧
      (Serve.role.hear s (refused ++ request)).ending.isNone = true ∧
      ((Serve.role.hear s (refused ++ request)).sent.drop
        (Serve.role.hear s refused).sent.length).any (·.kind? == some .chunkData) = true := by
  decide +kernel

end PackExchange
