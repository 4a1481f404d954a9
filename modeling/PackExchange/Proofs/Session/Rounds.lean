import PackExchange.Proofs.Session.Completion
import PackExchange.Proofs.Session.Mirror
import PackExchange.Proofs.Session.Turns
import PackExchange.Session.Exchange

/-!
# The rounds of an exchange

An exchange that runs round by round takes the steps of a meeting in one of their many orders.  So
what holds wherever meetings come to holds for it.

* `Exchange.Mirrors` — an exchange and a meeting that stand at the same point;
* `Mirrors.serverTurn`, `clientTurn` — a turn of either side, and the end of one that ends;
* `Mirrors.serverRun`, `clientRun` — a run up to the next wait;
* `Exchange.reachable_pump` — rounds are steps of a meeting;
* `Exchange.pump_result` — how the rounds can end.
-/

namespace PackExchange

open Batch (compressor)
open Relation (ReflTransGen)

namespace Exchange

/-- Does an exchange stand where a meeting stands?  What one session has written the other end has
received already, and it has heard of the end of a session that has ended. -/
structure Mirrors (x : Exchange) (m : Meeting) : Prop where
  serve : m.server.serve = x.server.side
  join : x.client.result = none →
    m.client.join = x.client.side ∧ m.client.position = .looking []
  serverResult : m.server.result = x.server.result
  clientResult : m.client.result = x.client.result
  server : m.server.endpoint.Mirrors x.server x.client.undelivered
  client : m.client.endpoint.Mirrors x.client x.server.undelivered
  serverEnd : x.server.result ≠ none → m.client.endpoint.inbound.closed = true
  clientEnd : x.client.result ≠ none → m.server.endpoint.inbound.closed = true

namespace Mirrors

variable {x : Exchange} {m : Meeting}

/-! ### Turns -/

/-- **A turn of the server.** -/
theorem serverTurn (h : x.Mirrors m) (hresult : x.server.result = none) (turn : Turn Serve Unit)
    (hreader : turn.outgoing.any Outgoing.compresses = false ∨
      m.server.endpoint.reader = x.server.connection.reader) :
    ∃ m', ReflTransGen (Meeting.Step compressor) { m with server := m.server.carryOut turn } m' ∧
      Mirrors { x with server := x.server.carryOut Serve.role turn } m' := by
  have hcarries := h.server.carries Serve.role hresult turn hreader
  have hreceives := h.client.receive ((m.server.endpoint.post turn.outgoing).flushAll
    (Serve.role.shield turn.side) (Serve.role.revision turn.side)).1
  rw [← hcarries.undelivered] at hreceives
  obtain ⟨log, hflush⟩ :=
    Meeting.serverFlushes compressor { m with server := m.server.carryOut turn }
  by_cases hending : turn.ending = none
  · refine ⟨_, hflush, (hcarries.going hending).symm, h.join, hcarries.result.symm,
      h.clientResult, hcarries.mirrors, hreceives, fun hsome => ?_, h.clientEnd⟩
    rw [hcarries.result, hending] at hsome
    exact absurd rfl hsome
  · -- The side has ended, so it hangs up when everything is written.
    have hsome : turn.ending.map (·.result) ≠ none := by
      rw [Ne, Option.map_eq_none_iff]
      exact hending
    have hclose := hflush.tail (.serverCloses hsome rfl hcarries.unclosed)
    refine ⟨_, hclose, (hcarries.ended hending).symm, h.join, hcarries.result.symm,
      h.clientResult, ?_, hreceives.hangUp, fun _ => rfl, h.clientEnd⟩
    refine Endpoint.mirrors_of_ended rfl ?_
    rw [hcarries.result]
    exact hsome

/-- **A turn of the client**, after the steps it takes. -/
theorem clientTurn (h : x.Mirrors m) (hresult : x.client.result = none)
    {turn : Turn Join (List Pack)} {j : Joining} (hj : j.CarriedOut m.client.endpoint turn)
    (hposition : turn.ending = none → j.position = .looking [])
    (hreader : turn.outgoing.any Outgoing.compresses = false ∨
      m.client.endpoint.reader = x.client.connection.reader) :
    ∃ m', ReflTransGen (Meeting.Step compressor) { m with client := j } m' ∧
      Mirrors { x with client := x.client.carryOut Join.role turn } m' := by
  obtain ⟨join, endpoint, position, handled, result⟩ := j
  obtain ⟨rfl, rfl, rfl⟩ := hj
  have hcarries := h.client.carries Join.role hresult turn hreader
  have hreceives := h.server.receive ((m.client.endpoint.post turn.outgoing).flushAll
    (Join.role.shield turn.side) (Join.role.revision turn.side)).1
  rw [← hcarries.undelivered] at hreceives
  obtain ⟨log, hflush⟩ := Meeting.clientFlushes compressor { m with
    client := ⟨turn.side, m.client.endpoint.post turn.outgoing, position, handled,
      turn.ending.map (·.result)⟩ }
  by_cases hending : turn.ending = none
  · refine ⟨_, hflush, h.serve, fun _ => ⟨(hcarries.going hending).symm, hposition hending⟩,
      h.serverResult, hcarries.result.symm, hreceives, hcarries.mirrors, h.serverEnd,
      fun hsome => ?_⟩
    rw [hcarries.result, hending] at hsome
    exact absurd rfl hsome
  · have hsome : turn.ending.map (·.result) ≠ none := by
      rw [Ne, Option.map_eq_none_iff]
      exact hending
    have hclose := hflush.tail (.clientCloses hsome rfl hcarries.unclosed)
    refine ⟨_, hclose, h.serve, fun hnone => ?_, h.serverResult, hcarries.result.symm,
      hreceives.hangUp, ?_, h.serverEnd, fun _ => rfl⟩
    · rw [hcarries.result] at hnone
      exact absurd hnone hsome
    · refine Endpoint.mirrors_of_ended rfl ?_
      rw [hcarries.result]
      exact hsome

/-! ### Runs -/

/-- **What the server reads, and what it makes of it.** -/
theorem serverHeeds (h : x.Mirrors m) (hresult : x.server.result = none)
    (hdelivered : x.client.undelivered = []) {o : FrameReader.Outcome} {c : Connection}
    (hread : x.server.connection.read = (o, c)) :
    ∃ m', ReflTransGen (Meeting.Step compressor) m m' ∧
      Mirrors { x with
        server := ({ x.server with connection := c } : Session Serve Unit).carryOut Serve.role
          (Serve.role.heed x.server.side o) } m' := by
  have hgoing := h.serverResult.trans hresult
  have hserver := h.server
  rw [hdelivered] at hserver
  obtain ⟨e, hwaits, hend⟩ := hserver.reads hresult hread
  have hsteps := Meeting.serverWaits compressor hgoing hwaits
  rcases hend with ⟨rfl, hclosed, hmirrors⟩ | ⟨e', hlast, hexact, hclosed, hmirrors⟩
  · rw [← hdelivered] at hmirrors
    exact ⟨_, hsteps, h.serve, h.join, h.serverResult, h.clientResult, hmirrors, h.client,
      h.serverEnd, fun hsome => hclosed.trans (h.clientEnd hsome)⟩
  · rw [← hdelivered] at hmirrors
    have hread' : Mirrors { x with server := { x.server with connection := c } }
        { m with server := { m.server with endpoint := e' } } :=
      ⟨h.serve, h.join, h.serverResult, h.clientResult, hmirrors, h.client, h.serverEnd,
        fun hsome => hclosed.trans (h.clientEnd hsome)⟩
    have hstep := hsteps.tail
      (.serve (.read (s := { m.server with endpoint := e }) hgoing hlast))
    obtain ⟨m', hturn, hmirrors'⟩ := hread'.serverTurn hresult
      (Serve.role.heed m.server.serve o) (Or.inr hexact)
    rw [Attending.react_eq (s := { m.server with endpoint := e' }) hgoing] at hstep
    rw [← h.serve]
    exact ⟨m', hstep.trans hturn, hmirrors'⟩

/-- The server reacts to all that has arrived. -/
theorem serverPump (fuel : Nat) (h : x.Mirrors m) (hdelivered : x.client.undelivered = []) :
    ∃ m', ReflTransGen (Meeting.Step compressor) m m' ∧
      Mirrors { x with server := x.server.pump Serve.role fuel } m' := by
  induction fuel generalizing x m with
  | zero => exact ⟨m, .refl, h⟩
  | succ fuel ih =>
    by_cases hresult : x.server.result = none
    · cases hread : x.server.connection.read with
      | mk o c =>
        obtain ⟨m₁, hsteps, hmirrors⟩ := h.serverHeeds hresult hdelivered hread
        rcases Session.pump_succ Serve.role hresult hread fuel with heq | heq <;>
          rw [heq]
        · exact ⟨m₁, hsteps, hmirrors⟩
        · obtain ⟨m', hmore, hmirrors'⟩ := ih hmirrors hdelivered
          exact ⟨m', hsteps.trans hmore, hmirrors'⟩
    · rw [Session.pump_of_ended hresult]
      exact ⟨m, .refl, h⟩

/-- **What the client reads, and what it makes of it.** -/
theorem clientHeeds (h : x.Mirrors m) (hresult : x.client.result = none)
    (hdelivered : x.server.undelivered = []) {o : FrameReader.Outcome} {c : Connection}
    (hread : x.client.connection.read = (o, c)) :
    ∃ m', ReflTransGen (Meeting.Step compressor) m m' ∧
      Mirrors { x with
        client := ({ x.client with connection := c } : Session Join (List Pack)).carryOut Join.role
          (Join.role.heed x.client.side o) } m' := by
  have hgoing := h.clientResult.trans hresult
  obtain ⟨hjoin, hposition⟩ := h.join hresult
  have hclient := h.client
  rw [hdelivered] at hclient
  obtain ⟨e, hwaits, hend⟩ := hclient.reads hresult hread
  have hsteps := Meeting.clientWaits compressor hgoing hposition hwaits
  rcases hend with ⟨rfl, hclosed, hmirrors⟩ | ⟨e', hlast, hexact, hclosed, hmirrors⟩
  · rw [← hdelivered] at hmirrors
    exact ⟨_, hsteps, h.serve, h.join, h.serverResult, h.clientResult, h.server, hmirrors,
      fun hsome => hclosed.trans (h.serverEnd hsome), h.clientEnd⟩
  · rw [← hdelivered] at hmirrors
    have hread' : Mirrors { x with client := { x.client with connection := c } }
        { m with client := { m.client with endpoint := e' } } :=
      ⟨h.serve, h.join, h.serverResult, h.clientResult, h.server, hmirrors,
        fun hsome => hclosed.trans (h.serverEnd hsome), h.clientEnd⟩
    have hstep := hsteps.tail
      (.join (.read (j := { m.client with endpoint := e }) hgoing hposition hlast))
    obtain ⟨j, hgoes, hcarried, hlooking⟩ :=
      Joining.heeds (j := { m.client with endpoint := e' }) hgoing hposition o
    obtain ⟨m', hturn, hmirrors'⟩ := hread'.clientTurn hresult hcarried hlooking (Or.inr hexact)
    rw [← hjoin]
    exact ⟨m', (hstep.trans (Meeting.clientGoes compressor hgoes)).trans hturn, hmirrors'⟩

/-- The client reacts to all that has arrived. -/
theorem clientPump (fuel : Nat) (h : x.Mirrors m) (hdelivered : x.server.undelivered = []) :
    ∃ m', ReflTransGen (Meeting.Step compressor) m m' ∧
      Mirrors { x with client := x.client.pump Join.role fuel } m' := by
  induction fuel generalizing x m with
  | zero => exact ⟨m, .refl, h⟩
  | succ fuel ih =>
    by_cases hresult : x.client.result = none
    · cases hread : x.client.connection.read with
      | mk o c =>
        obtain ⟨m₁, hsteps, hmirrors⟩ := h.clientHeeds hresult hdelivered hread
        rcases Session.pump_succ Join.role hresult hread fuel with heq | heq <;>
          rw [heq]
        · exact ⟨m₁, hsteps, hmirrors⟩
        · obtain ⟨m', hmore, hmirrors'⟩ := ih hmirrors hdelivered
          exact ⟨m', hsteps.trans hmore, hmirrors'⟩
    · rw [Session.pump_of_ended hresult]
      exact ⟨m, .refl, h⟩

/-- **A run of the server**, up to the next wait. -/
theorem serverRun (h : x.Mirrors m) (hdelivered : x.client.undelivered = []) :
    ∃ m', ReflTransGen (Meeting.Step compressor) m m' ∧
      Mirrors { x with server := x.server.run Serve.role } m' := by
  obtain ⟨m', hsteps, hmirrors⟩ :=
    h.serverPump (Session.packetBound x.server.connection + 1) hdelivered
  refine ⟨m', hsteps, ?_⟩
  -- Nothing goes on beside reading.
  have hsettle : ∀ s : Session Serve Unit, s.settle Serve.role = s := by
    intro s
    rw [Session.settle]
    split <;> rfl
  rw [Session.run, hsettle]
  exact hmirrors

/-- The workers of the client run until nothing is left for them to do. -/
theorem clientSettles (h : x.Mirrors m) :
    ∃ m', ReflTransGen (Meeting.Step compressor) m m' ∧
      Mirrors { x with client := x.client.settle Join.role } m' := by
  by_cases hresult : x.client.result = none
  · have hdone : x.client.done = false := by rw [Session.done, hresult]; rfl
    obtain ⟨hjoin, hposition⟩ := h.join hresult
    obtain ⟨j, hworks, hcarried, hlooking⟩ := Joining.works
      ((List.range x.client.side.fetch.downloads.length).flatMap fun k => [k, k, k, k])
      (h.clientResult.trans hresult)
    have hquiet : ∀ ps : List Packet, (ps.map Outgoing.queued).any Outgoing.compresses = false := by
      intro ps
      rw [List.any_map, List.any_eq_false]
      exact fun _ _ => Bool.false_ne_true
    rw [hjoin] at hcarried
    obtain ⟨m', hturn, hmirrors⟩ := h.clientTurn hresult hcarried
      (fun _ => hlooking.trans hposition) (Or.inl (hquiet _))
    refine ⟨m', (Meeting.clientGoes compressor hworks).trans hturn, ?_⟩
    rw [Session.settle, hdone]
    exact hmirrors
  · rw [Session.settle_of_ended hresult]
    exact ⟨m, .refl, h⟩

/-- **A run of the client**, up to the next wait. -/
theorem clientRun (h : x.Mirrors m) (hdelivered : x.server.undelivered = []) :
    ∃ m', ReflTransGen (Meeting.Step compressor) m m' ∧
      Mirrors { x with client := x.client.run Join.role } m' := by
  obtain ⟨m₁, hpump, hmirrors⟩ :=
    h.clientPump (Session.packetBound x.client.connection + 1) hdelivered
  obtain ⟨m', hsettle, hmirrors'⟩ := hmirrors.clientSettles
  rw [Session.run]
  exact ⟨m', hpump.trans hsettle, hmirrors'⟩

/-! ### Rounds -/

/-- What the client has written is delivered. -/
theorem deliverUp (h : x.Mirrors m) :
    Mirrors { x with
      client := (deliver x.client x.server).1
      server := (deliver x.client x.server).2 } m := by
  have hclient : m.client.endpoint.Mirrors (deliver x.client x.server).1 x.server.undelivered :=
    h.client.of_connection rfl rfl rfl
  have hserver := h.server.arrive
  show Mirrors { x with
    client := { x.client with written := [] }
    server := if x.client.done then (x.server.arrive x.client.undelivered).close
      else x.server.arrive x.client.undelivered } m
  split
  · next hdone =>
    have hclosed := h.clientEnd (Option.isSome_iff_ne_none.mp hdone)
    exact ⟨h.serve, h.join, h.serverResult, h.clientResult, hserver.close hclosed, hclient,
      h.serverEnd, h.clientEnd⟩
  · exact ⟨h.serve, h.join, h.serverResult, h.clientResult, hserver, hclient, h.serverEnd,
      h.clientEnd⟩

/-- What the server has written is delivered. -/
theorem deliverDown (h : x.Mirrors m) :
    Mirrors { x with
      server := (deliver x.server x.client).1
      client := (deliver x.server x.client).2 } m := by
  have hserver : m.server.endpoint.Mirrors (deliver x.server x.client).1 x.client.undelivered :=
    h.server.of_connection rfl rfl rfl
  have hclient := h.client.arrive
  show Mirrors { x with
    server := { x.server with written := [] }
    client := if x.server.done then (x.client.arrive x.server.undelivered).close
      else x.client.arrive x.server.undelivered } m
  split
  · next hdone =>
    have hclosed := h.serverEnd (Option.isSome_iff_ne_none.mp hdone)
    exact ⟨h.serve, h.join, h.serverResult, h.clientResult, hserver, hclient.close hclosed,
      h.serverEnd, h.clientEnd⟩
  · exact ⟨h.serve, h.join, h.serverResult, h.clientResult, hserver, hclient, h.serverEnd,
      h.clientEnd⟩

/-- **A round is some steps of a meeting.** -/
theorem round (h : x.Mirrors m) :
    ∃ m', ReflTransGen (Meeting.Step compressor) m m' ∧ x.round.2.Mirrors m' := by
  obtain ⟨m₁, hfirst, hmirrors⟩ := h.deliverUp.serverRun rfl
  obtain ⟨m₂, hsecond, hmirrors'⟩ := hmirrors.deliverDown.clientRun rfl
  exact ⟨m₂, hfirst.trans hsecond, hmirrors'⟩

/-- So are rounds in a row. -/
theorem pump (fuel : Nat) (h : x.Mirrors m) :
    ∃ m', ReflTransGen (Meeting.Step compressor) m m' ∧ (x.pump fuel).Mirrors m' := by
  induction fuel generalizing x m with
  | zero => exact ⟨m, .refl, h⟩
  | succ fuel ih =>
    obtain ⟨m₁, hsteps, hmirrors⟩ := h.round
    rw [Exchange.pump]
    cases hround : x.round with
    | mk moved x₁ =>
      rw [hround] at hmirrors
      cases moved with
      | true =>
        obtain ⟨m', hmore, hmirrors'⟩ := ih hmirrors
        exact ⟨m', hsteps.trans hmore, hmirrors'⟩
      | false => exact ⟨m₁, hsteps, hmirrors⟩

end Mirrors

/-- At the start of an exchange the client writes the request for settings, which is a step of the
meeting already. -/
theorem mirrors_begin (serve : Serve) (join : Join) :
    ∃ m, Meeting.Reachable compressor serve join m ∧ (begin serve join).Mirrors m := by
  have hserver : Endpoint.Mirrors ({} : Endpoint) ({ side := serve } : Session Serve Unit) [] :=
    ⟨rfl, fun _ => ⟨rfl, rfl, rfl, rfl⟩, fun _ => rfl, fun _ => ⟨Or.inl rfl, rfl, id⟩⟩
  have hclient : Endpoint.Mirrors ({} : Endpoint)
      ({ side := join } : Session Join (List Pack)) [] :=
    ⟨rfl, fun _ => ⟨rfl, rfl, rfl, rfl⟩, fun _ => rfl, fun _ => ⟨Or.inl rfl, rfl, id⟩⟩
  have hsilent : Mirrors ⟨{ side := serve }, { side := join }, false⟩
      { server := { serve }, client := { join } } :=
    ⟨rfl, fun _ => ⟨rfl, rfl⟩, rfl, rfl, hserver, hclient, nofun, nofun⟩
  exact hsilent.clientTurn (j := .start join) rfl (Joining.carriedOut_start join) (fun _ => rfl)
    (Or.inl rfl)

/-- **The rounds of an exchange are steps of a meeting.** -/
theorem reachable_pump (serve : Serve) (join : Join) (fuel : Nat) :
    ∃ m, Meeting.Reachable compressor serve join m ∧ ((begin serve join).pump fuel).Mirrors m := by
  obtain ⟨m₀, hreachable, hbegin⟩ := mirrors_begin serve join
  obtain ⟨m, hsteps, hmirrors⟩ := hbegin.pump fuel
  exact ⟨m, hreachable.trans hsteps, hmirrors⟩

/-- **However many rounds an exchange runs, neither session fails.**  A session that has ended has
come to a good end, and the client has a copy of each pack that is accepted. -/
theorem pump_result {t : Terms} {content : Pack → Bytes} (hfair : t.Fair content)
    (hfits : ∀ m, Meeting.Reachable compressor t.serve t.join m →
      ∀ b ∈ m.log, b.Fits compressor) (fuel : Nat) :
    let x := (begin t.serve t.join).pump fuel
    (x.server.result = none ∨ x.server.result = some (.ok ())) ∧
      (x.client.result = none ∨ ∃ got, x.client.result = some (.ok got) ∧
        got.Perm ((t.offer.accepted t.filter).map fun p => p.copy (content p))) := by
  obtain ⟨m, hreachable, hmirrors⟩ := reachable_pump t.serve t.join fuel
  obtain ⟨ex, f, down, up, hcoherent⟩ :=
    hreachable.coherent expands_deflate hfair (hfits m hreachable)
  obtain ⟨hserver, hclient⟩ := hcoherent.results
  rw [hmirrors.serverResult] at hserver
  rw [hmirrors.clientResult] at hclient
  exact ⟨hserver, hclient⟩

end Exchange

end PackExchange
