import PackExchange.Proofs.Session.Phase
import PackExchange.Proofs.Session.Schedule

/-!
# Sessions that complete

Whatever order the receive loops, the writers and the download workers go on in, and whatever
compresses their batches, a server and a client that meet stay in step with each other.  Neither of
them fails, and neither waits for ever: when nothing can happen any more, both have come to a good
end.

* `Meeting.Coherent` — the two sessions stand where a phase says, and what is on its way between
  them is what the phase says;
* `Coherent.serve`, `join`, `serverWrites`, `clientWrites`, `serverCloses`, `clientCloses` — every
  step keeps them so, the client's in a lemma for each kind;
* `Coherent.client_result_ne`, `server_result_ne` — they have ended when they are stuck;
* `Coherent.results` — how they can end;
* `Meeting.completes` — the whole.
-/

namespace PackExchange

namespace Meeting

/-- Are the two sessions in step with each other? -/
structure Coherent (z : Bytes → Bytes) (t : Terms) (content : Pack → Bytes)
    (ex : Option (Revision × Offer)) (f : Fetch) (down up : List Packet) (x : Meeting) : Prop where
  server : x.server.serve = { t.serve with exchange := ex }
  client : x.client.join = { t.join with fetch := f }
  phase : Phase t content ex f (x.client.position.packets ++ down) up
    x.server.endpoint.reader.compressed x.client.endpoint.reader.compressed
  wire : Wire z (Opens t.revision t.client.policy) t.Downward (OpensAlways t.server.policy) t.Upward
    x.server.endpoint x.client.endpoint down up
  quiet : ex = none → x.server.endpoint.outbox = []
  serving : x.server.result = none ∨
    (x.server.result = some (.ok ()) ∧ x.client.result ≠ none)
  joining : (x.client.result = none ∧ (f.stage = .done → ∃ ps, x.client.position = .checking ps)) ∨
    (x.client.result = some (.ok f.resolved) ∧ f.stage = .done)
  serverOpen : x.server.result = none → x.server.endpoint.writer.closed = false
  clientOpen : x.client.result = none → x.client.endpoint.writer.closed = false

/-- Both sides at the start are in step. -/
theorem coherent_start (z : Bytes → Bytes) (t : Terms) (content : Pack → Bytes) :
    (start t.serve t.join).Coherent z t content none t.join.fetch []
      [.settingsRequest ⟨t.revision.number⟩] := by
  refine ⟨rfl, rfl, .asking, ⟨⟨rfl, ?_, rfl, fun _ => rfl⟩, ⟨rfl, ?_, rfl, nofun⟩⟩, fun _ => rfl,
    Or.inl rfl, Or.inl ⟨rfl, nofun⟩, fun _ => rfl, fun _ => rfl⟩
  · exact ⟨[], [], [], rfl, rfl, .nil, .nil false⟩
  · refine ⟨[], [], _, rfl, rfl, .nil, ?_⟩
    exact .packet (t.upward_settingsRequest _) rfl (.nil false)

namespace Coherent

variable {z : Bytes → Bytes} {t : Terms} {content : Pack → Bytes}
  {ex : Option (Revision × Offer)} {f : Fetch} {down up : List Packet} {x : Meeting}

/-! ### The server's steps -/

theorem serve (h : x.Coherent z t content ex f down up) (hexpands : Expands z)
    (hfair : t.Fair content) {s : Attending} (hinner : Attending.Inner x.server s) :
    ∃ ex' down' up', Coherent z t content ex' f down' up' { x with server := s } := by
  cases hinner with
  | @read o e hresult hread =>
    obtain ⟨hwriter, houtbox, hcompressed, -⟩ := hread.keeps
    have hopen : e.writer.closed = false := by rw [hwriter, h.serverOpen hresult]
    have hquiet : ex = none → e.outbox = [] := fun hnone => houtbox.trans (h.quiet hnone)
    rcases h.wire.symm.read hexpands (h.phase.serving_eq hfair) hread with ⟨rfl, hwire⟩ |
      ⟨raw, p, rest, rfl, rfl, hraw, hwire⟩ | ⟨rfl, rfl, hclosed, hwire⟩
    · refine ⟨ex, down, up, h.server, h.client, ?_, hwire.symm, hquiet, h.serving, h.joining,
        fun _ => hopen, h.clientOpen⟩
      show Phase t content ex f _ up e.reader.compressed _
      rw [hcompressed]
      exact h.phase
    · obtain ⟨ex', os, ps, hturn, hqueue, hphase⟩ := h.phase.take_up hfair hraw
      have hreact : ({ x.server with endpoint := e } : Attending).react (.packet raw) =
          { serve := { t.serve with exchange := some ex' }, endpoint := e.post os } := by
        show Attending.carryOut _ (x.server.serve.take raw) = _
        rw [h.server, hturn]
        rfl
      rw [hreact]
      rw [← hcompressed] at hqueue hphase
      refine ⟨some ex', down ++ ps, rest, rfl, h.client, ?_, hwire.symm.post hqueue hopen, nofun,
        Or.inl rfl, h.joining, fun _ => hopen, h.clientOpen⟩
      show Phase t content (some ex') f _ rest (e.post os).reader.compressed _
      rw [e.compressed_post, ← List.append_assoc]
      exact hphase
    · -- Only a client that has ended hangs up, and it ends when it is done.
      have hended : x.client.result ≠ none := by
        intro hnone
        rw [h.clientOpen hnone] at hclosed
        cases hclosed
      have hdone : f.stage = .done := by
        rcases h.joining with ⟨hnone, -⟩ | ⟨-, hdone⟩
        · exact absurd hnone hended
        · exact hdone
      have hloggedIn := h.phase.loggedIn hdone
      refine ⟨ex, down, [], h.server, h.client, ?_, hwire.symm, hquiet, Or.inr ⟨?_, hended⟩,
        h.joining, nofun, h.clientOpen⟩
      · show Phase t content ex f _ [] e.reader.compressed _
        rw [hcompressed]
        exact h.phase
      · show some (x.server.serve.lose .closed).result = _
        rw [h.server, Serve.lose, hloggedIn]
        rfl

/-! ### The client's steps -/

/-- While the client goes on the server does, too. -/
theorem server_of_client (h : x.Coherent z t content ex f down up)
    (hresult : x.client.result = none) : x.server.result = none := by
  rcases h.serving with hnone | ⟨-, hsome⟩
  · exact hnone
  · exact absurd hresult hsome

/-- A client that goes on is not done, unless it is about to see that. -/
theorem stage_ne (h : x.Coherent z t content ex f down up) (hresult : x.client.result = none)
    (hposition : ∀ ps, x.client.position ≠ .checking ps) : f.stage ≠ .done := by
  intro hdone
  rcases h.joining with ⟨-, hchecking⟩ | ⟨hsome, -⟩
  · obtain ⟨ps, hps⟩ := hchecking hdone
    exact hposition ps hps
  · rw [hresult] at hsome
    cases hsome

/-- The client reads the next packet on its way. -/
theorem clientReads (h : x.Coherent z t content ex f down up) (hexpands : Expands z)
    (hfair : t.Fair content) {o : FrameReader.Outcome} {e : Endpoint}
    (hresult : x.client.result = none) (hposition : x.client.position = .looking [])
    (hread : x.client.endpoint.Read o e) :
    ∃ down', Coherent z t content ex f down' up
      { x with client := ({ x.client with endpoint := e } : Joining).react o } := by
  have hphase := h.phase
  obtain ⟨hwriter, -, hcompressed, -⟩ := hread.keeps
  have hopen : e.writer.closed = false := by rw [hwriter, h.clientOpen hresult]
  have hserver := h.server_of_client hresult
  have hstage : f.stage ≠ .done := h.stage_ne hresult (by rw [hposition]; exact nofun)
  rw [hposition] at hphase
  rcases h.wire.read hexpands (hphase.joining_eq hfair) hread with ⟨rfl, hwire⟩ |
    ⟨raw, p, rest, rfl, rfl, hraw, hwire⟩ | ⟨rfl, rfl, hclosed, -⟩
  · refine ⟨down, h.server, h.client, ?_, hwire, h.quiet, h.serving, h.joining, h.serverOpen,
      fun _ => hopen⟩
    show Phase t content ex f _ up _ e.reader.compressed
    rw [hcompressed]
    exact h.phase
  · have hpackets : openRaw x.client.join.revision x.client.join.settings.policy raw =
        .ok [p] := by
      rw [h.client]
      exact hraw
    simp only [Joining.react, Joining.take, hpackets]
    refine ⟨rest, h.server, h.client, ?_, hwire, h.quiet, Or.inl hserver,
      Or.inl ⟨hresult, fun hdone => absurd hdone hstage⟩, h.serverOpen, fun _ => hopen⟩
    show Phase t content ex f (p :: rest) up _ e.reader.compressed
    rw [hcompressed]
    exact hphase
  · -- The stream does not end before the server has.
    rw [h.serverOpen hserver] at hclosed
    cases hclosed

/-- The client handles the packet that it holds. -/
theorem clientHandles (h : x.Coherent z t content ex f down up) (hfair : t.Fair content)
    {p : Packet} {ps : List Packet} (hresult : x.client.result = none)
    (hposition : x.client.position = .holding p ps) :
    ∃ f' up', Coherent z t content ex f' down up' { x with client := x.client.handle p ps } := by
  have hphase := h.phase
  have hopen := h.clientOpen hresult
  have hserver := h.server_of_client hresult
  have hstage : f.stage ≠ .done := h.stage_ne hresult (by rw [hposition]; exact nofun)
  rw [hposition] at hphase
  obtain ⟨-, f', os, sent, hturn, hqueue, hphase'⟩ := hphase.take_down hfair hstage
  have hhandle : x.client.handle p ps =
      { join := { t.join with fetch := f' }
        endpoint := x.client.endpoint.post os
        position := .checking ps
        handled := x.client.handled ++ [⟨p, (x.client.join.fetch.take p).2.2⟩] } := by
    simp only [Joining.handle, h.client, hturn]
    rfl
  rw [hhandle]
  refine ⟨f', up ++ sent, h.server, rfl, ?_, (h.wire.symm.post hqueue hopen).symm, h.quiet,
    Or.inl hserver, Or.inl ⟨rfl, fun _ => ⟨ps, rfl⟩⟩, h.serverOpen, fun _ => hopen⟩
  show Phase t content ex f' (ps ++ down) _ _ (x.client.endpoint.post os).reader.compressed
  rw [Endpoint.compressed_post]
  exact hphase'

/-- The client ends as soon as the load order is satisfied. -/
theorem clientChecks (h : x.Coherent z t content ex f down up) {ps : List Packet}
    (hresult : x.client.result = none) (hposition : x.client.position = .checking ps) :
    Coherent z t content ex f down up { x with client := x.client.check ps } := by
  have hphase := h.phase
  have hserver := h.server_of_client hresult
  rw [hposition] at hphase
  refine ⟨h.server, h.client, hphase, h.wire, h.quiet, Or.inl hserver, ?_, h.serverOpen,
    fun _ => h.clientOpen hresult⟩
  have hresult' : (x.client.check ps).result =
      if f.stage = .done then some (.ok f.resolved) else none := by
    show x.client.join.conclude.ending.map Ending.result = _
    rw [Join.conclude, h.client]
    split <;> rfl
  rw [hresult']
  by_cases hdone : f.stage = .done
  · rw [if_pos hdone]
    exact Or.inr ⟨rfl, hdone⟩
  · rw [if_neg hdone]
    exact Or.inl ⟨rfl, fun hdone' => absurd hdone' hdone⟩

/-- A download worker takes a step. -/
theorem clientWorks (h : x.Coherent z t content ex f down up) (hfair : t.Fair content) {k : Nat}
    {d : Download} (slotFirst : Bool) (hresult : x.client.result = none)
    (hk : x.client.join.fetch.downloads[k]? = some d)
    (hawake : d.awake x.client.join.fetch.cancelled = true) :
    ∃ f' up', Coherent z t content ex f' down up'
      { x with client := x.client.work k slotFirst } := by
  have hopen := h.clientOpen hresult
  have hserver := h.server_of_client hresult
  rw [h.client] at hk hawake
  obtain ⟨f', sent, hwork, hstage, hqueue, hphase⟩ := h.phase.work hfair hk hawake slotFirst
  have hworked : x.client.work k slotFirst =
      { x.client with
        join := { t.join with fetch := f' }
        endpoint := x.client.endpoint.post (sent.map .queued) } := by
    simp only [Joining.work, h.client, hwork]
  rw [hworked]
  refine ⟨f', up ++ sent, h.server, rfl, ?_, (h.wire.symm.post hqueue hopen).symm, h.quiet,
    Or.inl hserver, Or.inl ⟨hresult, fun hdone => absurd hdone hstage⟩, h.serverOpen,
    fun _ => hopen⟩
  show Phase t content ex f' _ _ _ (x.client.endpoint.post _).reader.compressed
  rw [Endpoint.compressed_post]
  exact hphase

/-- Every step of the client keeps the two sessions in step. -/
theorem join (h : x.Coherent z t content ex f down up) (hexpands : Expands z)
    (hfair : t.Fair content) {j : Joining} (hinner : Joining.Inner x.client j) :
    ∃ ex' f' down' up', Coherent z t content ex' f' down' up' { x with client := j } := by
  cases hinner with
  | read hresult hposition hread =>
    obtain ⟨down', hcoherent⟩ := h.clientReads hexpands hfair hresult hposition hread
    exact ⟨_, _, _, _, hcoherent⟩
  | @skip p ps hresult hposition hadmits =>
    -- Nothing that the server sends is turned down.
    have hstage : f.stage ≠ .done := h.stage_ne hresult (by rw [hposition]; exact nofun)
    have hphase := h.phase
    rw [hposition] at hphase
    have hyes := (hphase.take_down hfair hstage).1
    have hno : f.stage.admits p = false := by
      rw [h.client] at hadmits
      exact hadmits
    rw [hyes] at hno
    cases hno
  | @hold p ps hresult hposition hadmits =>
    have hstage : f.stage ≠ .done := h.stage_ne hresult (by rw [hposition]; exact nofun)
    have hphase := h.phase
    rw [hposition] at hphase
    exact ⟨ex, f, down, up, h.server, h.client, hphase, h.wire, h.quiet, h.serving,
      Or.inl ⟨hresult, fun hdone => absurd hdone hstage⟩, h.serverOpen, h.clientOpen⟩
  | handle hresult hposition =>
    obtain ⟨f', up', hcoherent⟩ := h.clientHandles hfair hresult hposition
    exact ⟨_, _, _, _, hcoherent⟩
  | check hresult hposition => exact ⟨_, _, _, _, h.clientChecks hresult hposition⟩
  | work slotFirst hresult hk hawake =>
    obtain ⟨f', up', hcoherent⟩ := h.clientWorks hfair slotFirst hresult hk hawake
    exact ⟨_, _, _, _, hcoherent⟩

/-! ### Writing and closing -/

theorem serverWrites (h : x.Coherent z t content ex f down up)
    (houtbox : x.server.endpoint.outbox ≠ []) (hfits : ∀ b ∈ x.serverFlush.1, b.Fits z) :
    Coherent z t content ex f down up
      { server := { x.server with endpoint := x.serverFlush.2 }
        client := { x.client with endpoint := x.client.endpoint.receive z x.serverFlush.1 }
        log := x.log ++ x.serverFlush.1 } := by
  have hagreed : ex ≠ none := fun hnone => houtbox (h.quiet hnone)
  have hflush : x.serverFlush =
      x.server.endpoint.flush t.server.policy.shield t.revision := by
    rw [serverFlush, h.server, h.phase.revision_eq hagreed]
    rfl
  rw [hflush] at hfits ⊢
  obtain ⟨hreader, -, hclosed⟩ :=
    x.server.endpoint.flush_keeps t.server.policy.shield t.revision
  refine ⟨h.server, h.client, ?_, h.wire.flush (fun _ _ hsends => hsends) hfits,
    fun hnone => absurd hnone hagreed, h.serving, h.joining, ?_, h.clientOpen⟩
  · simp only [hreader]
    exact h.phase
  · intro hresult
    exact hclosed.trans (h.serverOpen hresult)

theorem clientWrites (h : x.Coherent z t content ex f down up)
    (hfits : ∀ b ∈ x.clientFlush.1, b.Fits z) :
    Coherent z t content ex f down up
      { server := { x.server with endpoint := x.server.endpoint.receive z x.clientFlush.1 }
        client := { x.client with endpoint := x.clientFlush.2 }
        log := x.log ++ x.clientFlush.1 } := by
  have hflush : x.clientFlush =
      x.client.endpoint.flush t.client.policy.shield t.revision := by
    rw [clientFlush, h.client]
    rfl
  rw [hflush] at hfits ⊢
  obtain ⟨hreader, -, hclosed⟩ :=
    x.client.endpoint.flush_keeps t.client.policy.shield t.revision
  refine ⟨h.server, h.client, ?_, (h.wire.symm.flush (fun _ _ hsends => hsends) hfits).symm,
    h.quiet, h.serving, h.joining, h.serverOpen, ?_⟩
  · simp only [hreader]
    exact h.phase
  · intro hresult
    exact hclosed.trans (h.clientOpen hresult)

theorem serverCloses (h : x.Coherent z t content ex f down up) (hresult : x.server.result ≠ none)
    (houtbox : x.server.endpoint.outbox = []) :
    Coherent z t content ex f down up
      { x with
        server := { x.server with endpoint := x.server.endpoint.shutdown }
        client := { x.client with endpoint := x.client.endpoint.hangUp } } :=
  ⟨h.server, h.client, h.phase, h.wire.close houtbox, h.quiet, h.serving, h.joining,
    fun hnone => absurd hnone hresult, h.clientOpen⟩

theorem clientCloses (h : x.Coherent z t content ex f down up) (hresult : x.client.result ≠ none)
    (houtbox : x.client.endpoint.outbox = []) :
    Coherent z t content ex f down up
      { x with
        server := { x.server with endpoint := x.server.endpoint.hangUp }
        client := { x.client with endpoint := x.client.endpoint.shutdown } } :=
  ⟨h.server, h.client, h.phase, (h.wire.symm.close houtbox).symm, h.quiet, h.serving, h.joining,
    h.serverOpen, fun hnone => absurd hnone hresult⟩

/-- **Every step keeps the two sessions in step**, as long as what is written fits. -/
theorem step (h : x.Coherent z t content ex f down up) (hexpands : Expands z)
    (hfair : t.Fair content) {x' : Meeting} (hstep : Step z x x') (hfits : ∀ b ∈ x'.log, b.Fits z) :
    ∃ ex' f' down' up', x'.Coherent z t content ex' f' down' up' := by
  cases hstep with
  | serve hinner =>
    obtain ⟨ex', down', up', h'⟩ := h.serve hexpands hfair hinner
    exact ⟨ex', f, down', up', h'⟩
  | join hinner => exact h.join hexpands hfair hinner
  | serverWrites houtbox =>
    exact ⟨ex, f, down, up,
      h.serverWrites houtbox fun b hb => hfits b (List.mem_append_right _ hb)⟩
  | clientWrites houtbox =>
    exact ⟨ex, f, down, up, h.clientWrites fun b hb => hfits b (List.mem_append_right _ hb)⟩
  | serverCloses hresult houtbox _ => exact ⟨ex, f, down, up, h.serverCloses hresult houtbox⟩
  | clientCloses hresult houtbox _ => exact ⟨ex, f, down, up, h.clientCloses hresult houtbox⟩

/-! ### The end -/

/-- Nothing waits to be written when nothing can happen. -/
theorem outbox_eq_nil (hstuck : x.Stuck z) :
    x.server.endpoint.outbox = [] ∧ x.client.endpoint.outbox = [] := by
  refine ⟨?_, ?_⟩
  · by_contra hne
    exact hstuck _ (.serverWrites hne)
  · by_contra hne
    exact hstuck _ (.clientWrites hne)

/-- A client that waits for a packet is sent one, or has a worker with something to do. -/
theorem not_stuck_of_looking (h : x.Coherent z t content ex f down up) (hexpands : Expands z)
    (hfair : t.Fair content) (hresult : x.client.result = none)
    (hposition : x.client.position = .looking []) : ¬ x.Stuck z := by
  intro hstuck
  have hserver := h.server_of_client hresult
  have hfetch : x.client.join.fetch = f := by rw [h.client]
  obtain ⟨hserverOutbox, hclientOutbox⟩ := outbox_eq_nil hstuck
  have hphase := h.phase
  rw [hposition] at hphase
  by_cases hdown : down = []
  · by_cases hup : up = []
    · subst hdown hup
      obtain ⟨k, d, hk, hawake⟩ := hphase.busy
      rw [← hfetch] at hk hawake
      exact hstuck _ (.join (.work false hresult hk hawake))
    · rcases h.wire.back.progress hexpands (hphase.serving_eq hfair) (Or.inl hup) with
        hne | ⟨o, e, hread⟩
      · exact hne hclientOutbox
      · exact hstuck _ (.serve (.read hserver hread))
  · rcases h.wire.out.progress hexpands (hphase.joining_eq hfair) (Or.inl hdown) with
      hne | ⟨o, e, hread⟩
    · exact hne hserverOutbox
    · exact hstuck _ (.join (.read hresult hposition hread))

theorem client_result_ne (h : x.Coherent z t content ex f down up) (hexpands : Expands z)
    (hfair : t.Fair content) (hstuck : x.Stuck z) : x.client.result ≠ none := by
  intro hresult
  cases hposition : x.client.position with
  | looking ps =>
    cases ps with
    | nil => exact h.not_stuck_of_looking hexpands hfair hresult hposition hstuck
    | cons p ps =>
      cases hadmits : x.client.join.fetch.stage.admits p with
      | true => exact hstuck _ (.join (.hold hresult hposition hadmits))
      | false => exact hstuck _ (.join (.skip hresult hposition hadmits))
  | holding p ps => exact hstuck _ (.join (.handle hresult hposition))
  | checking ps => exact hstuck _ (.join (.check hresult hposition))

theorem server_result_ne (h : x.Coherent z t content ex f down up) (hexpands : Expands z)
    (hfair : t.Fair content) (hstuck : x.Stuck z) : x.server.result ≠ none := by
  intro hresult
  obtain ⟨-, houtbox⟩ := outbox_eq_nil hstuck
  have hclosed : x.client.endpoint.writer.closed = true := by
    by_contra hopen
    exact hstuck _ (.clientCloses (h.client_result_ne hexpands hfair hstuck) houtbox
      (Bool.of_not_eq_true hopen))
  rcases h.wire.back.progress hexpands (h.phase.serving_eq hfair) (Or.inr hclosed) with
    hne | ⟨o, e, hread⟩
  · exact hne houtbox
  · exact hstuck _ (.serve (.read hresult hread))

/-- How the two sessions can end: well, and the client with a copy of each pack that is accepted. -/
theorem results (h : x.Coherent z t content ex f down up) :
    (x.server.result = none ∨ x.server.result = some (.ok ())) ∧
      (x.client.result = none ∨ ∃ got, x.client.result = some (.ok got) ∧
        got.Perm ((t.offer.accepted t.filter).map fun p => p.copy (content p))) := by
  constructor
  · rcases h.serving with hnone | ⟨hok, -⟩
    · exact Or.inl hnone
    · exact Or.inr hok
  · rcases h.joining with ⟨hnone, -⟩ | ⟨hok, hdone⟩
    · exact Or.inl hnone
    · exact Or.inr ⟨f.resolved, hok, h.phase.resolved_perm hdone⟩

end Coherent

/-- Wherever a meeting comes to, the two sessions are in step. -/
theorem Reachable.coherent {z : Bytes → Bytes} (hexpands : Expands z) {t : Terms}
    {content : Pack → Bytes} (hfair : t.Fair content) {x : Meeting}
    (h : Reachable z t.serve t.join x) (hfits : ∀ b ∈ x.log, b.Fits z) :
    ∃ ex f down up, x.Coherent z t content ex f down up := by
  induction h with
  | refl => exact ⟨_, _, _, _, coherent_start z t content⟩
  | tail _ hstep ih =>
    obtain ⟨ex, f, down, up, hcoherent⟩ := ih fun b hb => hfits b (hstep.log_subset hb)
    exact hcoherent.step hexpands hfair hstep hfits

/-- **A server and a client that meet come to a good end.**  Whatever the receive loops, the writers
and the download workers do first, and whatever compresses the batches, neither session fails; and
when nothing can happen any more both have ended, the client with a copy of each pack on offer that
is not empty, that not every client has and that the filter lets pass. -/
theorem completes {z : Bytes → Bytes} (hexpands : Expands z) {t : Terms} {content : Pack → Bytes}
    (hfair : t.Fair content) {x : Meeting} (h : Reachable z t.serve t.join x)
    (hfits : ∀ b ∈ x.log, b.Fits z) :
    (∀ e, x.server.result ≠ some (.error e)) ∧ (∀ e, x.client.result ≠ some (.error e)) ∧
      (x.Stuck z → x.server.result = some (.ok ()) ∧
        ∃ got, x.client.result = some (.ok got) ∧
          got.Perm ((t.offer.accepted t.filter).map fun p => p.copy (content p))) := by
  obtain ⟨ex, f, down, up, hcoherent⟩ := h.coherent hexpands hfair hfits
  obtain ⟨hserver, hclient⟩ := hcoherent.results
  refine ⟨?_, ?_, ?_⟩
  · intro e he
    rw [he] at hserver
    simp at hserver
  · intro e he
    rw [he] at hclient
    simp at hclient
  · intro hstuck
    exact ⟨hserver.resolve_left (hcoherent.server_result_ne hexpands hfair hstuck),
      hclient.resolve_left (hcoherent.client_result_ne hexpands hfair hstuck)⟩

/-- The bytes of the one pack of a server. -/
def exampleContent : Bytes := [7, 8, 9]

/-- This server and a client of the older revision. -/
def exampleTerms : Terms :=
  { server := { chunkSize := 2 }
    client := {}
    revision := .r712
    filter := some fun _ index total => index + 1 == total
    packs := [Archive.toPack { id := ⟨⟨0, 1⟩, "1.0.0"⟩, data := exampleContent }] }

theorem exampleTerms_fair : exampleTerms.Fair fun _ => exampleContent := by
  refine ⟨by decide, ?_, ?_, by decide, by decide⟩
  · intro p hp
    rw [List.mem_singleton.mp hp]
    exact Pack.holds_toPack _ (by decide)
  · intro p hp
    rw [List.mem_singleton.mp hp]
    decide

/-- Their meeting, after as many steps as it takes. -/
def exampleMeeting : Meeting :=
  run Batch.compressor 100 (start exampleTerms.serve exampleTerms.join)

/-- This meeting comes to a good end. -/
theorem completes_exampleMeeting :
    exampleMeeting.Stuck Batch.compressor ∧ exampleMeeting.server.result = some (.ok ()) ∧
      ∃ got, exampleMeeting.client.result = some (.ok got) ∧
        got.Perm ((exampleTerms.offer.accepted exampleTerms.filter).map
          fun p => p.copy exampleContent) := by
  have hreachable :
      Reachable Batch.compressor exampleTerms.serve exampleTerms.join exampleMeeting :=
    reachable_run 100 .refl
  obtain ⟨hfits, hnext⟩ : (∀ b ∈ exampleMeeting.log, b.Fits Batch.compressor) ∧
      (exampleMeeting.next? Batch.compressor).isNone = true := by
    unfold Batched.Fits
    decide +kernel
  have hstuck : exampleMeeting.Stuck Batch.compressor :=
    stuck_of_next? (Option.isNone_iff_eq_none.mp hnext)
  obtain ⟨-, -, hend⟩ := completes expands_deflate exampleTerms_fair hreachable hfits
  exact ⟨hstuck, hend hstuck⟩

end Meeting

end PackExchange
