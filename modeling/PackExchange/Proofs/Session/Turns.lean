import PackExchange.Proofs.Session.Meeting
import PackExchange.Proofs.Session.Performing

/-!
# Whole turns

A session that runs on its own takes a whole turn at once: it handles all packets of a batch, or
lets all workers run, and all it has to say is written before anything else happens.  Here such a
turn is taken apart into the steps of a meeting.

* `Joining.CarriedOut` — what a client is after a turn;
* `Joining.looks` — handling packets in a row;
* `Joining.works` — letting workers run in a row;
* `Meeting.serverFlushes`, `clientFlushes` — writing all that waits;
* `Meeting.serverHangsUp`, `clientHangsUp` — the end of a side that has ended.
-/

namespace PackExchange

open Relation (ReflTransGen)

namespace Endpoint

theorem post_nil (e : Endpoint) : e.post [] = e := by
  show { e with outbox := e.outbox ++ [] } = e
  rw [List.append_nil]

/-- Telling the reader twice is telling it once. -/
theorem post_post (e : Endpoint) (os os' : List Outgoing) :
    (e.post os).post os' = e.post (os ++ os') := by
  simp only [post, List.any_append, List.append_assoc]
  cases os.any Outgoing.compresses <;> cases os'.any Outgoing.compresses <;> rfl

theorem receive_nil (z : Bytes → Bytes) (e : Endpoint) : e.receive z [] = e := by
  show { e with inbound := { e.inbound with arrived := e.inbound.arrived ++ [] } } = e
  rw [List.append_nil]

theorem receive_receive (z : Bytes → Bytes) (e : Endpoint) (bs bs' : List Batched) :
    (e.receive z bs).receive z bs' = e.receive z (bs ++ bs') := by
  simp only [receive, Inbound.push, List.flatMap_append, List.append_assoc]

end Endpoint

/-! ### The client's turns -/

/-- A worker that has nothing to do does nothing. -/
theorem Fetch.work_of_asleep {f : Fetch} {k : Nat}
    (h : ∀ d, f.downloads[k]? = some d → d.awake f.cancelled = false) (slotFirst : Bool) :
    f.work k slotFirst = (f, []) := by
  rw [work]
  split
  · rfl
  · next d hk =>
    have hwake : d.wake f.cancelled slotFirst = (d, .nothing) := by
      have hasleep := h d hk
      rw [Download.awake] at hasleep
      rw [Download.wake]
      cases hworker : d.worker with
      | ended => rfl
      | ready index =>
        rw [hworker] at hasleep
        cases hasleep
      | waiting index =>
        rw [hworker] at hasleep
        simp only [Bool.or_eq_false_iff, Bool.not_eq_false'] at hasleep
        obtain ⟨⟨hcancelled, hslot⟩, haccepting⟩ := hasleep
        rw [Option.isSome_eq_false_iff, Option.isNone_iff_eq_none] at hslot
        simp only [hcancelled, hslot, haccepting]
        rfl
    obtain ⟨hlt, hget⟩ := List.getElem?_eq_some_iff.mp hk
    rw [hwake, ← hget]
    simp only [List.set_getElem_self]

namespace Joining

/-- Has a client carried out a turn since it had this end? -/
structure CarriedOut (j : Joining) (e : Endpoint) (turn : Turn Join (List Pack)) : Prop where
  join : j.join = turn.side
  endpoint : j.endpoint = e.post turn.outgoing
  result : j.result = turn.ending.map (·.result)

/-- One turn after another, as long as the session goes on. -/
theorem CarriedOut.andThen {j j' : Joining} {e : Endpoint} {turn : Turn Join (List Pack)}
    {next : Join → Turn Join (List Pack)} (h : j.CarriedOut e turn) (hending : turn.ending = none)
    (h' : j'.CarriedOut j.endpoint (next j.join)) : j'.CarriedOut e (turn.andThen next) := by
  rw [Turn.andThen, hending, ← h.join]
  refine ⟨h'.join, ?_, h'.result⟩
  rw [h'.endpoint, h.endpoint, Endpoint.post_post]

/-- A turn that ends the session is the last one. -/
theorem CarriedOut.andThen_of_ended {j : Joining} {e : Endpoint} {turn : Turn Join (List Pack)}
    {next : Join → Turn Join (List Pack)} (h : j.CarriedOut e turn) (hending : turn.ending ≠ none) :
    j.CarriedOut e (turn.andThen next) := by
  rw [Turn.andThen]
  split
  · exact h
  · next hnone => exact absurd hnone hending

/-- At the start a client asks for settings. -/
theorem carriedOut_start (join : Join) :
    (start join).CarriedOut {} (.proceed join join.opening) := ⟨rfl, rfl, rfl⟩

theorem carriedOut_handle (j : Joining) (p : Packet) (ps : List Packet) :
    (j.handle p ps).CarriedOut j.endpoint (j.join.handle p) := ⟨rfl, rfl, rfl⟩

theorem carriedOut_check (j : Joining) (ps : List Packet) :
    (j.check ps).CarriedOut j.endpoint j.join.conclude := by
  have hconclude : j.join.conclude.side = j.join ∧ j.join.conclude.outgoing = [] := by
    rw [Join.conclude]
    split <;> exact ⟨rfl, rfl⟩
  refine ⟨hconclude.1.symm, ?_, rfl⟩
  rw [hconclude.2, Endpoint.post_nil]
  rfl

/-- An admitted packet is handled in three steps. -/
theorem reacts {j : Joining} {p : Packet} {ps : List Packet} (hresult : j.result = none)
    (hposition : j.position = .looking (p :: ps)) :
    ∃ j', ReflTransGen Inner j j' ∧ j'.CarriedOut j.endpoint (j.join.react p) ∧
      ((j.join.react p).ending = none → j'.position = .looking ps) := by
  rw [Join.react]
  split
  · next hadmits =>
    have hhold := ReflTransGen.single (Inner.hold hresult hposition hadmits)
    have hhandle := hhold.tail (.handle hresult rfl)
    have hhandled := carriedOut_handle { j with position := .holding p ps } p ps
    by_cases hending : (j.join.handle p).ending = none
    · have hnone : (handle { j with position := .holding p ps } p ps).result = none := by
        rw [hhandled.result, hending]
        rfl
      exact ⟨_, hhandle.tail (.check hnone rfl), hhandled.andThen hending (carriedOut_check _ ps),
        fun _ => rfl⟩
    · refine ⟨_, hhandle, hhandled.andThen_of_ended hending, fun hnone => ?_⟩
      rw [Turn.andThen] at hnone
      split at hnone
      · next hsome =>
        rw [hsome] at hnone
        cases hnone
      · next hnone' => exact absurd hnone' hending
  · next hrefused =>
    refine ⟨_, .single (.skip hresult hposition (Bool.of_not_eq_true hrefused)), ?_, fun _ => rfl⟩
    exact ⟨rfl, (Endpoint.post_nil _).symm, hresult⟩

/-- **Packets in a row are handled one after another.** -/
theorem looks {j : Joining} {ps : List Packet} (hresult : j.result = none)
    (hposition : j.position = .looking ps) :
    ∃ j', ReflTransGen Inner j j' ∧ j'.CarriedOut j.endpoint (.all Join.react j.join ps) ∧
      ((Turn.all Join.react j.join ps).ending = none → j'.position = .looking []) := by
  induction ps generalizing j with
  | nil => exact ⟨j, .refl, ⟨rfl, (Endpoint.post_nil _).symm, hresult⟩, fun _ => hposition⟩
  | cons p ps ih =>
    obtain ⟨j₁, hsteps, hcarried, hlooking⟩ := reacts hresult hposition
    rw [Turn.all]
    by_cases hending : (j.join.react p).ending = none
    · have hnone : j₁.result = none := by
        rw [hcarried.result, hending]
        rfl
      obtain ⟨j', hmore, hcarried', hdone⟩ := ih hnone (hlooking hending)
      refine ⟨j', hsteps.trans hmore, hcarried.andThen hending hcarried', fun hall => ?_⟩
      rw [Turn.andThen, hending, ← hcarried.join] at hall
      exact hdone hall
    · refine ⟨j₁, hsteps, hcarried.andThen_of_ended hending, fun hall => ?_⟩
      rw [Turn.andThen] at hall
      split at hall
      · next hsome =>
        rw [hsome] at hall
        cases hall
      · next hnone => exact absurd hnone hending

/-- What the client makes of an attempt to read, in as many steps as it takes. -/
theorem heeds {j : Joining} (hresult : j.result = none) (hposition : j.position = .looking [])
    (o : FrameReader.Outcome) :
    ∃ j', ReflTransGen Inner (j.react o) j' ∧
      j'.CarriedOut j.endpoint (Join.role.heed j.join o) ∧
      ((Join.role.heed j.join o).ending = none → j'.position = .looking []) := by
  cases o with
  | waiting => exact ⟨j, .refl, ⟨rfl, (Endpoint.post_nil _).symm, hresult⟩, fun _ => hposition⟩
  | failed cause => exact ⟨_, .refl, ⟨rfl, (Endpoint.post_nil _).symm, rfl⟩, fun he => by cases he⟩
  | ended => exact ⟨_, .refl, ⟨rfl, (Endpoint.post_nil _).symm, rfl⟩, fun he => by cases he⟩
  | packet raw =>
    show ∃ j', ReflTransGen Inner (j.take raw) j' ∧ j'.CarriedOut j.endpoint (j.join.take raw) ∧
      ((j.join.take raw).ending = none → j'.position = .looking [])
    rw [take, Join.take]
    cases openRaw j.join.revision j.join.settings.policy raw with
    | error e => exact ⟨_, .refl, ⟨rfl, (Endpoint.post_nil _).symm, rfl⟩, fun he => by cases he⟩
    | ok ps => exact looks (j := { j with position := .looking ps }) hresult rfl

/-- **Workers in a row take their steps one after another.** -/
theorem works {j : Joining} (ks : List Nat) (hresult : j.result = none) :
    ∃ j', ReflTransGen Inner j j' ∧
      j'.CarriedOut j.endpoint
        (.proceed { j.join with fetch := (j.join.fetch.workAll ks).1 }
          ((j.join.fetch.workAll ks).2.map .queued)) ∧
      j'.position = j.position := by
  induction ks generalizing j with
  | nil => exact ⟨j, .refl, ⟨rfl, (Endpoint.post_nil _).symm, hresult⟩, rfl⟩
  | cons k ks ih =>
    rw [Fetch.workAll]
    by_cases hasleep : ∀ d, j.join.fetch.downloads[k]? = some d →
        d.awake j.join.fetch.cancelled = false
    · rw [Fetch.work_of_asleep hasleep]
      exact ih hresult
    · push Not at hasleep
      obtain ⟨d, hk, hawake⟩ := hasleep
      obtain ⟨j', hsteps, hcarried, hposition⟩ := ih (j := j.work k false) hresult
      refine ⟨j', .head (.work false hresult hk (Bool.of_not_eq_false hawake)) hsteps,
        ⟨hcarried.join, ?_, hcarried.result⟩, hposition⟩
      rw [hcarried.endpoint, work, Endpoint.post_post]
      simp only [Turn.proceed, List.map_append]

end Joining

/-- What the server makes of an attempt to read. -/
theorem Attending.react_eq {s : Attending} (hresult : s.result = none)
    (o : FrameReader.Outcome) : s.react o = s.carryOut (Serve.role.heed s.serve o) := by
  cases o with
  | packet raw => rfl
  | waiting =>
    rw [carryOut, Role.heed, Endpoint.post_nil]
    show s = { s with result := none }
    rw [← hresult]
  | failed cause | ended =>
    rw [carryOut, Role.heed, Endpoint.post_nil]
    rfl

/-! ### Both sides -/

namespace Meeting

variable (z : Bytes → Bytes)

/-- The server takes up pieces of the stream. -/
theorem serverWaits {x : Meeting} (hresult : x.server.result = none) {e : Endpoint}
    (h : ReflTransGen Endpoint.Waits x.server.endpoint e) :
    ReflTransGen (Step z) x { x with server := { x.server with endpoint := e } } := by
  induction h with
  | refl => exact .refl
  | @tail e _ _ hread ih =>
    exact ih.tail (.serve (.read (s := { x.server with endpoint := e }) hresult hread))

/-- So does the client, when it has nothing else to look at. -/
theorem clientWaits {x : Meeting} (hresult : x.client.result = none)
    (hposition : x.client.position = .looking []) {e : Endpoint}
    (h : ReflTransGen Endpoint.Waits x.client.endpoint e) :
    ReflTransGen (Step z) x { x with client := { x.client with endpoint := e } } := by
  induction h with
  | refl => exact .refl
  | @tail e _ _ hread ih =>
    exact ih.tail (.join (.read (j := { x.client with endpoint := e }) hresult hposition hread))

/-- What the client does by itself happens in the meeting. -/
theorem clientGoes {x : Meeting} {j : Joining} (h : ReflTransGen Joining.Inner x.client j) :
    ReflTransGen (Step z) x { x with client := j } := by
  induction h with
  | refl => exact .refl
  | tail _ hinner ih => exact ih.tail (.join hinner)

/-- The server writes all that waits in its outbox. -/
theorem serverFlushes (x : Meeting) :
    ∃ log, ReflTransGen (Step z) x
      { server := { x.server with
          endpoint := (x.server.endpoint.flushAll x.server.serve.settings.policy.shield
            x.server.serve.revision).2 }
        client := { x.client with
          endpoint := x.client.endpoint.receive z
            (x.server.endpoint.flushAll x.server.serve.settings.policy.shield
              x.server.serve.revision).1 }
        log } := by
  obtain ⟨⟨serve, ⟨⟨reader, inbound, writer⟩, outbox⟩, result⟩, client, log⟩ := x
  induction outbox generalizing writer client log with
  | nil =>
    refine ⟨log, ?_⟩
    simp only [Endpoint.flushAll, FrameWriter.carryAll, Endpoint.receive_nil]
    exact .refl
  | cons o os ih =>
    obtain ⟨log', hsteps⟩ := ih
      { client with
        endpoint := client.endpoint.receive z
          (writer.carryOut serve.settings.policy.shield serve.revision o).1 }
      _ (writer.carryOut serve.settings.policy.shield serve.revision o).2
    refine ⟨log', .head (.serverWrites (List.cons_ne_nil o os)) ?_⟩
    simp only [Endpoint.receive_receive] at hsteps
    exact hsteps

/-- So does the client. -/
theorem clientFlushes (x : Meeting) :
    ∃ log, ReflTransGen (Step z) x
      { server := { x.server with
          endpoint := x.server.endpoint.receive z
            (x.client.endpoint.flushAll x.client.join.settings.policy.shield
              x.client.join.revision).1 }
        client := { x.client with
          endpoint := (x.client.endpoint.flushAll x.client.join.settings.policy.shield
            x.client.join.revision).2 }
        log } := by
  obtain ⟨server, ⟨join, ⟨⟨reader, inbound, writer⟩, outbox⟩, position, handled, result⟩, log⟩ := x
  induction outbox generalizing writer server log with
  | nil =>
    refine ⟨log, ?_⟩
    simp only [Endpoint.flushAll, FrameWriter.carryAll, Endpoint.receive_nil]
    exact .refl
  | cons o os ih =>
    obtain ⟨log', hsteps⟩ := ih
      { server with
        endpoint := server.endpoint.receive z
          (writer.carryOut join.settings.policy.shield join.revision o).1 }
      _ (writer.carryOut join.settings.policy.shield join.revision o).2
    refine ⟨log', .head (.clientWrites (List.cons_ne_nil o os)) ?_⟩
    simp only [Endpoint.receive_receive] at hsteps
    exact hsteps

end Meeting

end PackExchange
