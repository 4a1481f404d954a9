import PackExchange.Proofs.Session.Meeting

/-!
# One order of steps

Of all that may happen next one step is chosen: the server goes on as long as it can, then the
client, then the writers.  A meeting can be run in this order, and stops only when nothing can
happen in any order.

* `Endpoint.read?`, `Attending.inner?`, `Joining.inner?` — the next step of a reader and of either
  session;
* `Meeting.next?` and `Meeting.run` — the next step of a meeting, and several steps;
* `Meeting.step_of_next?`, `Meeting.stuck_of_next?` — a chosen step may happen, and when none is
  chosen none may.
-/

namespace PackExchange

/-! ### Reading -/

namespace Endpoint

/-- What the reading side does next, if it takes up all that has arrived. -/
def read? (e : Endpoint) : Option (FrameReader.Outcome × Endpoint) :=
  match e.reader.next with
  | (.waiting, r) =>
    if e.inbound.arrived = [] then
      if e.inbound.closed then some (.ended, { e with reader := r }) else none
    else
      let n := e.inbound.arrived.length
      some (.waiting,
        { e with
          reader := r.feed (e.inbound.arrived.take n)
          inbound := { e.inbound with arrived := e.inbound.arrived.drop n } })
  | (.packet raw, r) => some (.packet raw, { e with reader := r })
  | (.failed cause, r) => some (.failed cause, { e with reader := r })
  | (.ended, _) => none

theorem read_of_read? {e e' : Endpoint} {o : FrameReader.Outcome} (h : e.read? = some (o, e')) :
    e.Read o e' := by
  rw [read?] at h
  split at h
  · next r hnext =>
    split at h
    · next harrived =>
      split at h
      · next hclosed =>
        cases h
        exact .ended hnext harrived hclosed
      · cases h
    · next harrived =>
      cases h
      exact .more hnext (List.length_pos_iff.mpr harrived) (Nat.le_refl _)
  · next raw r hnext =>
    cases h
    exact .packet hnext
  · next cause r hnext =>
    cases h
    exact .failed hnext
  · cases h

theorem not_read_of_read? {e : Endpoint} (h : e.read? = none) (o : FrameReader.Outcome)
    (e' : Endpoint) : ¬ e.Read o e' := by
  intro hread
  rw [read?] at h
  cases hread with
  | more hnext hn hmost =>
    rw [hnext] at h
    simp only at h
    split at h
    · next harrived =>
      rw [harrived, List.length_nil] at hmost
      omega
    · cases h
  | packet hnext | failed hnext =>
    rw [hnext] at h
    cases h
  | ended hnext harrived hclosed =>
    rw [hnext] at h
    simp only [if_pos harrived, if_pos hclosed] at h
    cases h

end Endpoint

/-! ### The two sessions -/

namespace Attending

/-- The next step of the server's session. -/
def inner? (s : Attending) : Option Attending :=
  if s.result.isNone then s.endpoint.read?.map fun (o, e) => { s with endpoint := e }.react o
  else none

theorem inner_of_inner? {s s' : Attending} (h : s.inner? = some s') : Inner s s' := by
  rw [inner?] at h
  split at h
  · next hresult =>
    obtain ⟨⟨o, e⟩, hread, rfl⟩ := Option.map_eq_some_iff.mp h
    exact .read (Option.isNone_iff_eq_none.mp hresult) (Endpoint.read_of_read? hread)
  · cases h

theorem not_inner_of_inner? {s : Attending} (h : s.inner? = none) (s' : Attending) :
    ¬ Inner s s' := by
  intro hinner
  cases hinner with
  | read hresult hread =>
    rw [inner?, if_pos (Option.isNone_iff_eq_none.mpr hresult), Option.map_eq_none_iff] at h
    exact Endpoint.not_read_of_read? h _ _ hread

end Attending

namespace Joining

/-- The next step of the client's session.  The workers go on when the receive loop waits. -/
def inner? (j : Joining) : Option Joining :=
  if j.result.isNone then
    match j.position with
    | .looking (p :: ps) =>
      if j.join.fetch.stage.admits p then some { j with position := .holding p ps }
      else some { j with position := .looking ps }
    | .holding p ps => some (j.handle p ps)
    | .checking ps => some (j.check ps)
    | .looking [] =>
      match j.endpoint.read? with
      | some (o, e) => some ({ j with endpoint := e }.react o)
      | none =>
        (j.join.fetch.downloads.findIdx? (·.awake j.join.fetch.cancelled)).map (j.work · false)
  else none

theorem inner_of_inner? {j j' : Joining} (h : j.inner? = some j') : Inner j j' := by
  rw [inner?] at h
  split at h
  · next hresult =>
    have hresult' : j.result = none := Option.isNone_iff_eq_none.mp hresult
    split at h
    · next p ps hposition =>
      split at h
      · next hadmits =>
        cases h
        exact .hold hresult' hposition hadmits
      · next hadmits =>
        cases h
        exact .skip hresult' hposition (Bool.of_not_eq_true hadmits)
    · next p ps hposition =>
      cases h
      exact .handle hresult' hposition
    · next ps hposition =>
      cases h
      exact .check hresult' hposition
    · next hposition =>
      split at h
      · next o e hread =>
        cases h
        exact .read hresult' hposition (Endpoint.read_of_read? hread)
      · obtain ⟨k, hk, rfl⟩ := Option.map_eq_some_iff.mp h
        obtain ⟨hlt, hawake, -⟩ := List.findIdx?_eq_some_iff_getElem.mp hk
        exact .work false hresult' (List.getElem?_eq_getElem hlt) hawake
  · cases h

theorem not_inner_of_inner? {j : Joining} (h : j.inner? = none) (j' : Joining) : ¬ Inner j j' := by
  intro hinner
  cases hinner with
  | read hresult hposition hread =>
    cases hread? : j.endpoint.read? with
    | none => exact Endpoint.not_read_of_read? hread? _ _ hread
    | some r =>
      simp only [inner?, hresult, Option.isNone_none, if_true, hposition, hread?] at h
      cases h
  | skip hresult hposition hadmits =>
    simp only [inner?, hresult, Option.isNone_none, if_true, hposition, hadmits] at h
    cases h
  | hold hresult hposition hadmits =>
    simp only [inner?, hresult, Option.isNone_none, if_true, hposition, hadmits] at h
    cases h
  | handle hresult hposition | check hresult hposition =>
    simp only [inner?, hresult, Option.isNone_none, if_true, hposition] at h
    cases h
  | @work k d slotFirst hresult hk hawake =>
    simp only [inner?, hresult, Option.isNone_none, if_true] at h
    split at h
    · split at h <;> cases h
    · cases h
    · cases h
    · split at h
      · cases h
      · rw [Option.map_eq_none_iff, List.findIdx?_eq_none_iff] at h
        rw [h d (List.mem_of_getElem? hk)] at hawake
        cases hawake

end Joining

/-! ### Both sides -/

namespace Meeting

/-- The next step of a meeting. -/
def next? (z : Bytes → Bytes) (x : Meeting) : Option Meeting :=
  match x.server.inner?, x.client.inner? with
  | some s, _ => some { x with server := s }
  | none, some j => some { x with client := j }
  | none, none =>
    if x.server.endpoint.outbox ≠ [] then
      some
        { server := { x.server with endpoint := x.serverFlush.2 }
          client := { x.client with endpoint := x.client.endpoint.receive z x.serverFlush.1 }
          log := x.log ++ x.serverFlush.1 }
    else if x.client.endpoint.outbox ≠ [] then
      some
        { server := { x.server with endpoint := x.server.endpoint.receive z x.clientFlush.1 }
          client := { x.client with endpoint := x.clientFlush.2 }
          log := x.log ++ x.clientFlush.1 }
    else if x.server.result.isSome ∧ x.server.endpoint.writer.closed = false then
      some
        { x with
          server := { x.server with endpoint := x.server.endpoint.shutdown }
          client := { x.client with endpoint := x.client.endpoint.hangUp } }
    else if x.client.result.isSome ∧ x.client.endpoint.writer.closed = false then
      some
        { x with
          server := { x.server with endpoint := x.server.endpoint.hangUp }
          client := { x.client with endpoint := x.client.endpoint.shutdown } }
    else none

variable {z : Bytes → Bytes}

theorem step_of_next? {x x' : Meeting} (h : x.next? z = some x') : Step z x x' := by
  rw [next?] at h
  split at h
  · next hserver =>
    cases h
    exact .serve (Attending.inner_of_inner? hserver)
  · next hclient =>
    cases h
    exact .join (Joining.inner_of_inner? hclient)
  · split at h
    · next houtbox =>
      cases h
      exact .serverWrites houtbox
    · next hserverOutbox =>
      split at h
      · next houtbox =>
        cases h
        exact .clientWrites houtbox
      · next hclientOutbox =>
        split at h
        · next hclose =>
          cases h
          exact .serverCloses (Option.isSome_iff_ne_none.mp hclose.1)
            (Decidable.of_not_not hserverOutbox) hclose.2
        · split at h
          · next hclose =>
            cases h
            exact .clientCloses (Option.isSome_iff_ne_none.mp hclose.1)
              (Decidable.of_not_not hclientOutbox) hclose.2
          · cases h

/-- **The order of steps ends only where every other order does.** -/
theorem stuck_of_next? {x : Meeting} (h : x.next? z = none) : x.Stuck z := by
  intro x' hstep
  rw [next?] at h
  split at h
  · cases h
  · cases h
  · next hserver hclient =>
    split at h
    · cases h
    · next hserverOutbox =>
      split at h
      · cases h
      · next hclientOutbox =>
        split at h
        · cases h
        · next hserverCloses =>
          split at h
          · cases h
          · next hclientCloses =>
            cases hstep with
            | serve hinner => exact Attending.not_inner_of_inner? hserver _ hinner
            | join hinner => exact Joining.not_inner_of_inner? hclient _ hinner
            | serverWrites houtbox => exact hserverOutbox houtbox
            | clientWrites houtbox => exact hclientOutbox houtbox
            | serverCloses hresult _ hopen =>
              exact hserverCloses ⟨Option.isSome_iff_ne_none.mpr hresult, hopen⟩
            | clientCloses hresult _ hopen =>
              exact hclientCloses ⟨Option.isSome_iff_ne_none.mpr hresult, hopen⟩

/-- Several steps of a meeting, fewer if nothing can happen any more. -/
def run (z : Bytes → Bytes) : Nat → Meeting → Meeting
  | 0, x => x
  | n + 1, x =>
    match x.next? z with
    | some x' => run z n x'
    | none => x

theorem reachable_run {serve : Serve} {join : Join} (n : Nat) {x : Meeting}
    (h : Reachable z serve join x) : Reachable z serve join (run z n x) := by
  induction n generalizing x with
  | zero => exact h
  | succ n ih =>
    rw [run]
    split
    · next x' hnext => exact ih (h.tail (step_of_next? hnext))
    · exact h

end Meeting

end PackExchange
