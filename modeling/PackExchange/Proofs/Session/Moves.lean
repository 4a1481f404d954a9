import PackExchange.Proofs.Session.JoinSafety

/-!
# A client's session as a series of moves

What a client's session does depends on the stream only through the raw packets that the reader hands
over, and on the schedule only through the order of the workers' steps.  A series of moves says both,
and it decides where the session comes to.

* `Joining.Move` and `Joining.move` — what may happen next, and the session afterwards;
* `Joining.run` — a series of moves, with `run_keeps`;
* `Joining.Reachable.exists_run` — no session comes anywhere else;
* `Joining.run_placed` — what goes on beside the receive loop does not depend on what the loop is
  doing.

Nothing that is sent leaves the outbox, so that it tells all of it in order.
-/

namespace PackExchange

namespace Joining

/-- What may happen next in a client's session. -/
inductive Move where
  /-- The receive loop is handed a raw packet. -/
  | take (raw : Bytes)
  /-- The receive loop is told that it can read nothing more. -/
  | lose (e : SessionError)
  /-- The receive loop goes on with the packets that it was handed. -/
  | proceed
  /-- The worker of one download takes a step. -/
  | work (k : Nat) (slotFirst : Bool)
  /-- The session is told to stop. -/
  | cancel

/-- Does a move leave the receive loop alone? -/
def Move.beside : Move → Bool
  | work .. | cancel => true
  | _ => false

/-- May a move happen? -/
def can (j : Joining) : Move → Bool
  | .take _ | .lose _ => j.result.isNone && j.position.idle
  | .proceed => j.result.isNone && !j.position.idle
  | .work k _ =>
    j.result.isNone && j.join.fetch.downloads[k]?.any (·.awake j.join.fetch.cancelled)
  | .cancel => true

/-- The next step of the receive loop, as long as it need not read. -/
def proceed (j : Joining) : Joining :=
  match j.position with
  | .looking [] => j
  | .looking (p :: ps) =>
    { j with position := if j.join.fetch.stage.admits p then .holding p ps else .looking ps }
  | .holding p ps => j.handle p ps
  | .checking ps => j.check ps

/-- The session after a move. -/
def after (j : Joining) : Move → Joining
  | .take raw => j.take raw
  | .lose e => { j with result := some (j.join.lose e).result }
  | .proceed => j.proceed
  | .work k slotFirst => j.work k slotFirst
  | .cancel => { j with join := { j.join with fetch := j.join.fetch.cancel } }

/-- The session after a move, if it may happen. -/
def move (j : Joining) (m : Move) : Option Joining := if j.can m then some (j.after m) else none

/-- The session after a series of moves, if they may happen. -/
def run (j : Joining) (ms : List Move) : Option Joining := ms.foldlM move j

theorem run_cons (j : Joining) (m : Move) (ms : List Move) :
    j.run (m :: ms) = (j.move m).bind (·.run ms) := List.foldlM_cons

theorem run_append (j : Joining) (ms ms' : List Move) :
    j.run (ms ++ ms') = (j.run ms).bind (·.run ms') := List.foldlM_append

theorem run_cons_of_can {j : Joining} {m : Move} (h : j.can m = true) (ms : List Move) :
    j.run (m :: ms) = (j.after m).run ms := by
  rw [run_cons, move, if_pos h]
  rfl

theorem run_cons_eq_some {i j : Joining} {m : Move} {ms : List Move} :
    i.run (m :: ms) = some j ↔ i.can m = true ∧ (i.after m).run ms = some j := by
  constructor
  · intro h
    have hcan : i.can m = true := by
      by_contra hcan
      rw [run_cons, move, if_neg hcan] at h
      cases h
    rw [run_cons_of_can hcan] at h
    exact ⟨hcan, h⟩
  · rintro ⟨hcan, h⟩
    rw [run_cons_of_can hcan]
    exact h

theorem run_append_of_run {i j : Joining} {ms : List Move} (h : i.run ms = some j)
    (ms' : List Move) : i.run (ms ++ ms') = j.run ms' := by
  rw [run_append, h]
  rfl

/-! ### Sessions are series of moves -/

/-- The same session with another connection. -/
def through (j : Joining) (e : Endpoint) : Joining := { j with endpoint := e }

/-- A move that may happen is a series of moves. -/
theorem exists_run_of_can {i j : Joining} {m : Move} {e : Endpoint} (hcan : i.can m = true)
    (hafter : i.after m = j.through e) : ∃ ms e', i.run ms = some (j.through e') := by
  refine ⟨[m], e, ?_⟩
  rw [run_cons_of_can hcan, hafter]
  rfl

/-- Whatever a session does by itself is a move or only takes up a piece of the stream, whatever the
connection. -/
theorem Inner.exists_run {j j' : Joining} (h : Inner j j') (e : Endpoint) :
    ∃ ms e', (j.through e).run ms = some (j'.through e') := by
  have hproceed : ∀ {i : Joining} (e' : Endpoint), j.result = none → j.position.idle = false →
      (j.through e).proceed = i.through e' →
        ∃ ms e', (j.through e).run ms = some (i.through e') := by
    intro i e' hresult hidle hafter
    refine exists_run_of_can (m := .proceed) ?_ hafter
    simp only [can, through, hresult, hidle]
    rfl
  cases h with
  | read hresult hposition hread =>
    have hreads : (j.result.isNone && j.position.idle) = true := by rw [hresult, hposition]; rfl
    cases hread with
    | more hnext hn hmost => exact ⟨[], e, rfl⟩
    | packet hnext =>
      rename_i raw
      refine exists_run_of_can (m := .take raw) (e := e) hreads ?_
      show ({ j with endpoint := e } : Joining).take raw = _
      simp only [react, take, through]
      split <;> rfl
    | failed hnext =>
      rename_i cause
      exact exists_run_of_can (m := .lose (.framing cause)) (e := e) hreads rfl
    | ended hnext harrived hclosed =>
      exact exists_run_of_can (m := .lose .closed) (e := e) hreads rfl
  | skip hresult hposition hadmits | hold hresult hposition hadmits =>
    refine hproceed e hresult (by rw [hposition]; rfl) ?_
    simp only [proceed, through, hposition, hadmits]
    rfl
  | handle hresult hposition =>
    rename_i p ps
    refine hproceed ((j.through e).handle p ps).endpoint hresult (by rw [hposition]; rfl) ?_
    simp only [proceed, through, hposition]
    rfl
  | check hresult hposition =>
    refine hproceed e hresult (by rw [hposition]; rfl) ?_
    simp only [proceed, through, hposition]
    rfl
  | work slotFirst hresult hk hawake =>
    rename_i k d
    refine exists_run_of_can (m := .work k slotFirst) ?_ rfl
    simp only [can, through, hresult, hk]
    exact hawake

/-- So is whatever may happen to it. -/
theorem Step.exists_run {j j' : Joining} (h : Step j j') (e : Endpoint) :
    ∃ ms e', (j.through e).run ms = some (j'.through e') := by
  cases h with
  | inner h => exact h.exists_run e
  | arrive bs | hangUp | write w os => exact ⟨[], e, rfl⟩
  | cancel => exact exists_run_of_can (m := .cancel) (e := e) rfl rfl
  | stop hresult hposition hcancelled =>
    refine exists_run_of_can (m := .lose .cancelled) (e := e) ?_ rfl
    simp only [can, through, hresult, hposition]
    rfl

/-- **Every session is a series of moves**, but for what is on the stream. -/
theorem Reachable.exists_run {join : Join} {j : Joining} (h : Reachable join j) :
    ∃ ms e, (start join).run ms = some (j.through e) := by
  induction h with
  | refl => exact ⟨[], (start join).endpoint, rfl⟩
  | tail _ hstep ih =>
    obtain ⟨ms, e, hrun⟩ := ih
    obtain ⟨ms', e', hrun'⟩ := hstep.exists_run e
    exact ⟨ms ++ ms', e', (run_append_of_run hrun ms').trans hrun'⟩

/-! ### What moves keep -/

/-- Nothing but the exchange of packs changes. -/
theorem after_keeps (j : Joining) (m : Move) :
    (j.after m).join.settings = j.join.settings ∧
      (j.after m).join.revision = j.join.revision := by
  cases m with
  | take raw =>
    simp only [after, take]
    split <;> exact ⟨rfl, rfl⟩
  | proceed =>
    simp only [after, proceed]
    split
    · exact ⟨rfl, rfl⟩
    · exact ⟨rfl, rfl⟩
    · next p ps _ =>
      show (j.join.handle p).side.settings = _ ∧ (j.join.handle p).side.revision = _
      rw [(j.join.handle_eq p).1]
      exact ⟨rfl, rfl⟩
    · exact ⟨rfl, rfl⟩
  | lose e | work k slotFirst | cancel => exact ⟨rfl, rfl⟩

theorem run_keeps {i j : Joining} {ms : List Move} (h : i.run ms = some j) :
    j.join.settings = i.join.settings ∧ j.join.revision = i.join.revision := by
  induction ms generalizing i with
  | nil =>
    cases h
    exact ⟨rfl, rfl⟩
  | cons m ms ih =>
    obtain ⟨hsettings, hrevision⟩ := ih (run_cons_eq_some.mp h).2
    obtain ⟨hsettings', hrevision'⟩ := i.after_keeps m
    exact ⟨hsettings.trans hsettings', hrevision.trans hrevision'⟩

/-! ### Beside the receive loop -/

/-- The same session with its receive loop somewhere else. -/
def placed (j : Joining) (p : Position) : Joining := { j with position := p }

/-- **What goes on beside the receive loop does not depend on where it is**, nor does it move it or
end the session. -/
theorem run_placed {i j : Joining} {ms : List Move} (hms : ∀ m ∈ ms, m.beside = true)
    (h : i.run ms = some j) (p : Position) :
    (i.placed p).run ms = some (j.placed p) ∧ j.position = i.position ∧ j.result = i.result := by
  induction ms generalizing i with
  | nil =>
    cases h
    exact ⟨rfl, rfl, rfl⟩
  | cons m ms ih =>
    obtain ⟨hcan, h⟩ := run_cons_eq_some.mp h
    obtain ⟨hrun, hposition, hresult⟩ := ih (fun m' hm' => hms m' (List.mem_cons_of_mem m hm')) h
    have hbeside := hms m List.mem_cons_self
    cases m with
    | work k slotFirst =>
      refine ⟨?_, hposition, hresult⟩
      rw [run_cons_of_can (show (i.placed p).can (.work k slotFirst) = true from hcan)]
      exact hrun
    | cancel =>
      refine ⟨?_, hposition, hresult⟩
      rw [run_cons_of_can rfl]
      exact hrun
    | take raw | lose e | proceed => cases hbeside

end Joining

end PackExchange
