import PackExchange.Proofs.Session.Leaving

/-!
# How a server's session ends

A server's session ends well or fails.  Which of the two depends on what ended it and, where reading
failed, on whether the client had completed the exchange before.

* `Serve.Stop`, `Serve.Stops` — what ends a session, and when a raw packet does;
* `Serve.take_of_stops`, `Serve.exists_stops` — it ends over such a raw packet and over no other;
* `Serve.Stopped` — what ended the session of a server that has read some raw packets, with
  `Serve.hearUntil_of_stopped` and `Serve.exists_stopped`;
* `Serve.Completed`, `Serve.loggedIn_iff` — when the client has completed the exchange;
* `Session.Event`, `Session.undergoAll` — what may happen to a server that runs;
* `Session.History` — what such a server has read, with `History.reacted` and `History.undergoAll`;
* `Serve.outcome` — the result of a session.
-/

namespace PackExchange

/-- A request for a chunk that is not served ends the session. -/
theorem Offer.isFatal_of_serveChunk {o : Offer} {r : ChunkRequest} {e : TransferError}
    (h : o.serveChunk r = .error e) : e.isFatal = true := by
  cases hserving : o.serving with
  | none =>
    rw [serveChunk_idle hserving] at h
    cases h
    rfl
  | some s =>
    simp only [serveChunk, hserving] at h
    split at h
    · cases h
      rfl
    split at h
    · cases h
      rfl
    split at h
    · cases h
      rfl
    split at h <;> cases h

/-- A reaction after which another goes on has gone on itself. -/
theorem Turn.going_of_andThen {σ ρ : Type} {t : Turn σ ρ} {next : σ → Turn σ ρ}
    (h : (t.andThen next).ending = none) : t.ending = none := by
  cases hending : t.ending with
  | none => rfl
  | some e =>
    rw [andThen_of_ended hending, hending] at h
    cases h

namespace Serve

/-! ### One raw packet -/

/-- What ends a session. -/
inductive Stop where
  /-- The client has asked for settings and speaks no known revision. -/
  | unsupported (r : SettingsRequest)
  /-- The client has left. -/
  | left (d : Disconnect)
  /-- The client has broken the exchange off, or a pack cannot be read. -/
  | failed (e : TransferError)
  /-- Nothing more can be read. -/
  | lost (e : SessionError)

/-- What is written at the end. -/
def Stop.outgoing : Stop → List Outgoing
  | unsupported r => [.direct (.playStatus (failedLogin r.protocol))]
  | _ => []

/-- How a session ends. -/
def Stop.ending (s : Serve) : Stop → Ending Unit
  | unsupported _ | left _ => { result := .ok () }
  | failed e => { result := .error (.transfer e) }
  | lost e => s.lose e

/-- Does a raw packet end a session? -/
inductive Stops (s : Serve) (raw : Bytes) : Stop → Prop
  | unsupported {r : SettingsRequest} (hexchange : s.exchange = none)
      (hopen : openRaw s.revision s.settings.policy raw = .ok [.settingsRequest r])
      (hnumber : Revision.ofNumber? r.protocol = none) : Stops s raw (.unsupported r)
  | left {d : Disconnect} (hagreed : s.exchange.isSome = true)
      (hopen : openRaw s.revision s.settings.policy raw = .ok [.disconnect d]) :
      Stops s raw (.left d)
  | answer {r : ClientResponse} {revision : Revision} {o : Offer} {e : TransferError}
      (hexchange : s.exchange = some (revision, o))
      (hopen : openRaw s.revision s.settings.policy raw = .ok [.clientResponse r])
      (hadmits : o.stage.admits (.clientResponse r) = true) (herror : o.respond r = .error e) :
      Stops s raw (.failed e)
  | request {r : ChunkRequest} {revision : Revision} {o : Offer} {e : TransferError}
      (hexchange : s.exchange = some (revision, o))
      (hopen : openRaw s.revision s.settings.policy raw = .ok [.chunkRequest r])
      (hadmits : o.stage.admits (.chunkRequest r) = true) (herror : o.serveChunk r = .error e) :
      Stops s raw (.failed e)
  /-- The policy ends the session over bytes that cannot be read. -/
  | unreadable {e : SessionError}
      (hopen : openRaw s.revision s.settings.policy raw = .error e) : Stops s raw (.lost e)

variable {s : Serve} {raw : Bytes} {stop : Stop}

theorem Stops.isFatal {e : TransferError} (h : s.Stops raw (.failed e)) : e.isFatal = true := by
  cases h with
  | answer _ _ _ herror => exact Offer.isFatal_of_respond herror
  | request _ _ _ herror => exact Offer.isFatal_of_serveChunk herror

/-- **A session ends over a raw packet that ends it.** -/
theorem take_of_stops (h : s.Stops raw stop) :
    s.take raw = { side := s, outgoing := stop.outgoing, ending := some (stop.ending s) } := by
  cases h with
  | unsupported hexchange hopen hnumber =>
    rw [take_of_singleton hopen, hexchange]
    show s.agree _ = _
    rw [agree, hnumber]
    rfl
  | left hagreed hopen => exact take_disconnect hagreed hopen
  | answer hexchange hopen hadmits herror =>
    rw [take_of_singleton hopen, hexchange, Option.isSome_some, if_pos rfl, react, hexchange]
    simp only [hadmits, herror, follow, Offer.isFatal_of_respond herror, if_true]
    rfl
  | request hexchange hopen hadmits herror =>
    rw [take_of_singleton hopen, hexchange, Option.isSome_some, if_pos rfl, react, hexchange]
    simp only [hadmits, herror, follow, Offer.isFatal_of_serveChunk herror, if_true]
    rfl
  | unreadable hopen =>
    rw [take, hopen]
    rfl

/-- What ended the session of a server, and the raw packets that it had read before. -/
inductive Stopped (s : Serve) (raws : List Bytes) (lost : Option SessionError) :
    List Bytes → Stop → Prop
  | read {before after : List Bytes} {raw : Bytes} {stop : Stop}
      (hraws : raws = before ++ raw :: after) (hgoing : (role.hear s before).ending = none)
      (hstops : (role.hear s before).side.Stops raw stop) : Stopped s raws lost before stop
  | lost {e : SessionError} (hgoing : (role.hear s raws).ending = none) (hlost : lost = some e) :
      Stopped s raws lost raws (.lost e)

variable {raws before : List Bytes} {lost : Option SessionError}

theorem Stopped.going (h : s.Stopped raws lost before stop) :
    (role.hear s before).ending = none := by
  cases h with
  | read _ hgoing _ | lost hgoing _ => exact hgoing

/-- **A session ends as what stopped it ends it**, with nothing more sent than a client of an
unknown revision is told. -/
theorem hearUntil_of_stopped (h : s.Stopped raws lost before stop) :
    role.hearUntil s raws lost =
      { side := (role.hear s before).side
        outgoing := (role.hear s before).outgoing ++ stop.outgoing
        ending := some (stop.ending (role.hear s before).side) } := by
  cases h with
  | read hraws hgoing hstops =>
    have hlast : role.take (role.hear s before).side _ = _ := take_of_stops hstops
    rw [hraws, Role.hearUntil_append, Turn.andThen_of_going hgoing, Role.hearUntil_cons, hlast,
      Turn.andThen_of_ended rfl]
  | lost hgoing hlost =>
    rw [hlost, Role.hearUntil, Role.hearOut, Turn.andThen_of_going hgoing]
    rfl

/-- What stops a session after its first raw packet stops it. -/
theorem Stopped.cons {first : Bytes} (hfirst : (s.take first).ending = none)
    (h : (s.take first).side.Stopped raws lost before stop) :
    s.Stopped (first :: raws) lost (first :: before) stop := by
  have hafter : ∀ raws, (role.hear s (first :: raws)).ending =
        (role.hear (s.take first).side raws).ending ∧
      (role.hear s (first :: raws)).side = (role.hear (s.take first).side raws).side := by
    intro raws
    rw [hear_cons, Turn.andThen_of_going hfirst]
    exact ⟨rfl, rfl⟩
  cases h with
  | read hraws hgoing hstops =>
    refine .read (congrArg (first :: ·) hraws) ((hafter before).1.trans hgoing) ?_
    rw [(hafter before).2]
    exact hstops
  | lost hgoing hlost => exact .lost ((hafter raws).1.trans hgoing) hlost

/-- Does the client complete the exchange with a raw packet? -/
def Completes (s : Serve) (raw : Bytes) : Prop :=
  ∃ revision o r, s.exchange = some (revision, o) ∧ o.stage = .awaitingCompletion ∧
    openRaw s.revision s.settings.policy raw = .ok [.clientResponse r] ∧
    Answer.ofCode? r.response = some .completed

/-- Has it, with one of some raw packets? -/
def Completed (s : Serve) (raws : List Bytes) : Prop :=
  ∃ before raw after, raws = before ++ raw :: after ∧ (role.hear s before).side.Completes raw

/-- A client that completes the exchange is logged in. -/
theorem Completes.loggedIn (h : s.Completes raw) : (s.take raw).side.loggedIn = true := by
  obtain ⟨revision, o, r, hexchange, hstage, hopen, hanswer⟩ := h
  rw [take_of_singleton hopen, hexchange, Option.isSome_some, if_pos rfl, react, hexchange]
  have hadmits : o.stage.admits (.clientResponse r) = true := by
    rw [hstage]
    rfl
  have hrespond : o.respond r = .ok ({ o with stage := .loggedIn }, []) := by
    simp only [Offer.respond, hstage, hanswer]
  simp only [hadmits, hrespond, follow, Turn.proceed, Turn.andThen_of_going, if_true]
  rfl

theorem loggedIn_eq {revision : Revision} {o : Offer} (h : s.exchange = some (revision, o)) :
    s.loggedIn = o.loggedIn := by
  rw [Serve.loggedIn, h]

/-- **There is no other way to become logged in.** -/
theorem Took.of_loggedIn {t : Turn Serve Unit} (h : s.Took raw t)
    (hlogged : t.side.loggedIn = true) : s.loggedIn = true ∨ s.Completes raw := by
  cases h with
  | ignored | unreadable _ | refused _ _ _ | left _ _ | failed _ _ => exact Or.inl hlogged
  | agreed _ _ _ => cases hlogged
  | @answered r revision o o' sent hexchange hopen hresponded =>
    have hlogged' : o'.loggedIn = true := hlogged
    cases hresponded with
    | asked _ _ _ =>
      rw [Offer.loggedIn_serveNext] at hlogged'
      cases hlogged'
    | downloaded _ _ => cases hlogged'
    | completed hstage hanswer => exact Or.inr ⟨_, _, _, hexchange, hstage, hopen, hanswer⟩
  | @served r revision o o' sent hexchange _ hserve =>
    have hlogged' : o'.loggedIn = true := hlogged
    obtain ⟨t, c, -, -, -, hgiven⟩ := Offer.given_of_serveChunk hserve
    cases hgiven with
    | last _ =>
      rw [Offer.loggedIn_serveNext] at hlogged'
      cases hlogged'
    | inner _ _ => exact Or.inl ((loggedIn_eq hexchange).trans hlogged')

/-- Once a client is logged in, nothing that is read changes anything. -/
theorem Took.side_eq {t : Turn Serve Unit} (h : s.Took raw t) (hlogged : s.loggedIn = true)
    (hserving : s.serving = none) : t.side = s := by
  cases h with
  | ignored | unreadable _ | refused _ _ _ | left _ _ | failed _ _ => rfl
  | agreed hexchange _ _ =>
    rw [Serve.loggedIn, hexchange] at hlogged
    cases hlogged
  | answered hexchange _ hresponded =>
    rw [loggedIn_eq hexchange, Offer.loggedIn, beq_iff_eq] at hlogged
    cases hresponded with
    | asked hstage _ _ | downloaded hstage _ | completed hstage _ =>
      rw [hstage] at hlogged
      cases hlogged
  | served hexchange _ hserve =>
    obtain ⟨t, c, hsome, -⟩ := Offer.given_of_serveChunk hserve
    rw [serving, hexchange, Option.bind_some, hsome] at hserving
    cases hserving

theorem side_hear (hlogged : s.loggedIn = true) (hserving : s.serving = none) (raws : List Bytes) :
    (role.hear s raws).side = s := by
  induction raws with
  | nil => rfl
  | cons raw raws ih =>
    have hside := (s.took raw).side_eq hlogged hserving
    rw [hear_cons]
    cases hending : (s.take raw).ending with
    | some e => rw [Turn.andThen_of_ended hending, hside]
    | none => rw [Turn.andThen_of_going hending, hside, ih]

/-- No pack is being served then. -/
theorem Spoke.idle {s' : Serve} {w : List Packet} (h : s.Spoke s' w) (hfresh : s.exchange = none)
    (hlogged : s'.loggedIn = true) : s'.serving = none := by
  cases h with
  | silent =>
    rw [Serve.loggedIn, hfresh] at hlogged
    cases hlogged
  | resting _ _ _ => rfl
  | serving _ _ _ _ _ _ => cases hlogged

theorem completed_of_loggedIn (hlogged : (role.hear s raws).side.loggedIn = true) :
    s.loggedIn = true ∨ s.Completed raws := by
  induction raws generalizing s with
  | nil => exact Or.inl hlogged
  | cons raw raws ih =>
    rw [hear_cons] at hlogged
    have hfirst : (s.take raw).side.loggedIn = true →
        s.loggedIn = true ∨ s.Completed (raw :: raws) := fun h =>
      ((s.took raw).of_loggedIn h).imp_right fun hcompletes => ⟨[], raw, raws, rfl, hcompletes⟩
    cases hending : (s.take raw).ending with
    | some e =>
      rw [Turn.andThen_of_ended hending] at hlogged
      exact hfirst hlogged
    | none =>
      rw [Turn.andThen_of_going hending] at hlogged
      rcases ih hlogged with hlogged | ⟨before, later, after, rfl, hcompletes⟩
      · exact hfirst hlogged
      · refine Or.inr ⟨raw :: before, later, after, rfl, ?_⟩
        rw [hear_cons, Turn.andThen_of_going hending]
        exact hcompletes

/-- **A client is logged in if and only if it has completed the exchange.** -/
theorem loggedIn_iff (hfresh : s.exchange = none) (hgoing : (role.hear s raws).ending = none) :
    (role.hear s raws).side.loggedIn = true ↔ s.Completed raws := by
  constructor
  · intro hlogged
    refine (completed_of_loggedIn hlogged).resolve_left ?_
    rw [Serve.loggedIn, hfresh]
    exact nofun
  · rintro ⟨before, raw, after, rfl, hcompletes⟩
    have hbefore := Turn.going_of_andThen (by rwa [Role.hear_append] at hgoing)
    rw [Role.hear_append, Turn.andThen_of_going hbefore] at hgoing ⊢
    have hraw := Turn.going_of_andThen (by rwa [hear_cons] at hgoing)
    obtain ⟨hspoke, -⟩ := (Spoke.silent (s := s)).hear hfresh before
    obtain ⟨hspoke, -⟩ := (hspoke hbefore).take hfresh raw
    have hlogged := hcompletes.loggedIn
    show (role.hear (role.hear s before).side (raw :: after)).side.loggedIn = true
    have hidle := (hspoke hraw).idle hfresh hlogged
    rw [hear_cons, Turn.andThen_of_going hraw, side_hear hlogged hidle]
    exact hlogged

end Serve

/-! ### Running servers -/

/-- The raw packet that an attempt to read gives. -/
def FrameReader.Outcome.raws : FrameReader.Outcome → List Bytes
  | .packet raw => [raw]
  | _ => []

/-- Why it fails. -/
def FrameReader.Outcome.lost : FrameReader.Outcome → Option SessionError
  | .failed cause => some (.framing cause)
  | .ended => some .closed
  | _ => none

theorem Role.heed_eq_hearUntil {σ ρ : Type} (role : Role σ ρ) (side : σ)
    (o : FrameReader.Outcome) : role.heed side o = role.hearUntil side o.raws o.lost := by
  cases o with
  | packet raw => exact (role.hear_singleton side raw).symm
  | waiting | failed cause | ended => rfl

namespace Session

/-- What may happen to a session that can write. -/
inductive Event where
  | arrive (bs : Bytes)
  | close
  | cancel
  | run
  | drain

/-- The history of a server: the raw packets that it has read off its connection, and why it can
read no more. -/
inductive History (start : Session Serve Unit) :
    List Bytes → Option SessionError → Session Serve Unit → Prop
  | start : History start [] none start
  | read {raws : List Bytes} {s : Session Serve Unit} {o : FrameReader.Outcome} {c : Connection}
      (h : History start raws none s) (hresult : s.result = none)
      (hread : s.connection.read = (o, c)) :
      History start (raws ++ o.raws) o.lost
        (({ s with connection := c } : Session Serve Unit).carryOut Serve.role
          (Serve.role.heed s.side o))
  | cancelled {raws : List Bytes} {s : Session Serve Unit} (h : History start raws none s)
      (hresult : s.result = none) : History start raws (some .cancelled) (s.cancel Serve.role)
  | streamed {raws : List Bytes} {lost : Option SessionError} {s : Session Serve Unit}
      (h : History start raws lost s) (i : Inbound) :
      History start raws lost { s with connection := { s.connection with inbound := i } }
  | drained {raws : List Bytes} {lost : Option SessionError} {s : Session Serve Unit}
      (h : History start raws lost s) : History start raws lost s.drain.2

variable {start s : Session Serve Unit} {raws : List Bytes} {lost : Option SessionError}

/-- **A server has come to what the reactions to its history come to.** -/
theorem History.reacted (h : start.History raws lost s) (hstart : start.Writes) :
    start.Reacted (Serve.role.hearUntil start.side raws lost) s := by
  -- one that goes on has gone on over all that it has heard
  have hgoing : ∀ {raws s}, start.Reacted (Serve.role.hearUntil start.side raws none) s →
      s.result = none → (Serve.role.hear start.side raws).ending = none := by
    intro raws s hreacted hresult
    rw [hreacted.result] at hresult
    exact Option.map_eq_none_iff.mp hresult
  induction h with
  | start =>
    exact ⟨rfl, hstart.going, ⟨[], (List.append_nil _).symm⟩, fun _ => hstart, fun _ => rfl⟩
  | @read raws s o c _ hresult hread ih =>
    have hending := hgoing ih hresult
    have hnext := (ih.writes hending).heeds hread
    rw [Role.heed_eq_hearUntil] at hnext ⊢
    exact ih.hears hending hnext
  | @cancelled raws s _ hresult ih =>
    have hending := hgoing ih hresult
    have hnext := ih.hears hending (ih.writes hending).cancel
    rw [List.append_nil] at hnext
    exact hnext
  | streamed _ i ih => exact ih.of_stream i
  | drained _ ih => exact ih.drain

/-- One that goes on has not failed to read. -/
theorem History.lost_eq_none (h : start.History raws lost s) (hstart : start.Writes)
    (hresult : s.result = none) : lost = none := by
  rw [(h.reacted hstart).result] at hresult
  exact Role.hearUntil_going (Option.map_eq_none_iff.mp hresult)

theorem History.pump (h : start.History raws lost s) (hstart : start.Writes) (fuel : Nat) :
    ∃ raws lost, start.History raws lost (s.pump Serve.role fuel) := by
  induction fuel generalizing s raws lost with
  | zero => exact ⟨raws, lost, h⟩
  | succ fuel ih =>
    by_cases hresult : s.result = none
    · obtain rfl := h.lost_eq_none hstart hresult
      cases hread : s.connection.read with
      | mk o c =>
        have hread' := h.read hresult hread
        rcases pump_succ Serve.role hresult hread fuel with heq | heq <;> rw [heq]
        · exact ⟨_, _, hread'⟩
        · exact ih hread'
    · rw [pump_of_ended hresult]
      exact ⟨raws, lost, h⟩

end Session

namespace Serve

variable {s : Serve} {raws before : List Bytes} {lost : Option SessionError} {stop : Stop}

/-- The result of a session is that of what stopped it. -/
theorem Stopped.result {session : Session Serve Unit} (h : s.Stopped raws lost before stop)
    (hreacted : (Session.begin role s []).Reacted (role.hearUntil s raws lost) session) :
    session.result = some (stop.ending (role.hear s before).side).result := by
  rw [hreacted.result, hearUntil_of_stopped h]
  rfl

/-- A server that can read no more ends well if the client has completed the exchange. -/
theorem Stopped.lose {e : SessionError} (h : s.Stopped raws lost before (.lost e))
    (hfresh : s.exchange = none) :
    (s.Completed before → ((role.hear s before).side.lose e).result = .ok ()) ∧
      (¬ s.Completed before → ((role.hear s before).side.lose e).result = .error e) := by
  rw [← loggedIn_iff hfresh h.going, Serve.lose]
  exact ⟨fun hlogged => if_pos hlogged, fun hnot => if_neg hnot⟩

end Serve

end PackExchange
