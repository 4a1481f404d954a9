import Mathlib.Logic.Relation
import PackExchange.Proofs.Session.Link
import PackExchange.Session.Basic

/-!
# Reading and writing at once

A session that runs on its own reads as much as it has to for one packet, and writes whatever it has
to write on the spot.  Both are the same as many small steps of an end whose reader and writer go on
beside each other.

* `Endpoint.Stands` — an end whose reader stands where a reader does that has looked at what it
  holds;
* `Endpoint.reads` — reading for one packet, step by step;
* `Endpoint.flushAll` — what the writer makes of a whole outbox;
* `Session.performAll_eq` — a session writes just that;
* `Session.carried_carryOut` — what it has become by a turn;
* `Role.heed` and `Session.pump_succ` — a session that runs takes one turn after another.
-/

namespace PackExchange

open Batch (compressor)

/-! ### Reading -/

/-- What a reader takes up at once is some of what has arrived. -/
theorem FrameReader.exists_appetite (r : FrameReader) {arrived : Bytes} (h : arrived ≠ []) :
    ∃ n, 0 < n ∧ n ≤ arrived.length ∧ arrived.take n = arrived.take r.appetite ∧
      arrived.drop n = arrived.drop r.appetite := by
  have happetite := r.appetite_pos
  have hlength := List.length_pos_iff.mpr h
  by_cases hle : r.appetite ≤ arrived.length
  · exact ⟨r.appetite, happetite, hle, rfl, rfl⟩
  · refine ⟨arrived.length, hlength, Nat.le_refl _, ?_, ?_⟩
    · rw [List.take_length, List.take_of_length_le (by omega)]
    · rw [List.drop_length, List.drop_of_length_le (by omega)]

namespace Endpoint

/-- Does an end stand where a reader stands?  The reader may have looked at what it holds, and
dropped what it cannot read, when the end has not done so yet. -/
structure Stands (e : Endpoint) (r : FrameReader) (i : Inbound) : Prop where
  reader : e.reader = r ∨ e.reader.next = (.waiting, r)
  arrived : e.inbound.arrived = i.arrived
  closed : i.closed = true → e.inbound.closed = true

theorem Stands.next_eq {e : Endpoint} {r : FrameReader} {i : Inbound} (h : e.Stands r i) :
    e.reader.next = r.next := by
  rcases h.reader with rfl | hwaiting
  · rfl
  · rw [hwaiting, FrameReader.next_of_waiting hwaiting]

/-- One step of an end that only takes up a piece of the stream. -/
def Waits (e e' : Endpoint) : Prop := e.Read .waiting e'

/-- **Reading for a packet is a series of small steps**: some that take up pieces of the stream, and
at the end one with the outcome, unless that is to wait. -/
theorem reads {fuel : Nat} {e : Endpoint} {r r' : FrameReader} {i i' : Inbound}
    {o : FrameReader.Outcome} (h : e.Stands r i)
    (hreceive : FrameReader.receiveOf fuel r i = (o, r', i')) :
    ∃ e', Relation.ReflTransGen Waits e e' ∧
      ((o = .waiting ∧ e'.Stands r' i') ∨
        ∃ e'', e'.Read o e'' ∧ e''.reader = r' ∧ e''.Stands r' i') := by
  induction fuel generalizing e r i with
  | zero =>
    cases hreceive
    exact ⟨e, .refl, Or.inl ⟨rfl, h⟩⟩
  | succ fuel ih =>
    have hnext := h.next_eq
    rw [FrameReader.receiveOf] at hreceive
    split at hreceive
    · next r₁ hwaiting =>
      rw [hwaiting] at hnext
      split at hreceive
      · next hempty =>
        rw [List.isEmpty_iff] at hempty
        cases hclosed : i.closed with
        | true =>
          rw [hclosed, if_pos rfl] at hreceive
          cases hreceive
          refine ⟨e, .refl, Or.inr ⟨{ e with reader := r' }, ?_, rfl,
            ⟨Or.inl rfl, h.arrived, h.closed⟩⟩⟩
          exact .ended hnext (h.arrived.trans hempty) (h.closed hclosed)
        | false =>
          rw [hclosed, if_neg Bool.false_ne_true] at hreceive
          cases hreceive
          exact ⟨e, .refl, Or.inl ⟨rfl, ⟨Or.inr hnext, h.arrived, h.closed⟩⟩⟩
      · next hsome =>
        rw [← h.arrived] at hsome hreceive
        obtain ⟨n, hn, hmost, htake, hdrop⟩ :=
          FrameReader.exists_appetite r₁ (fun hnil => hsome (List.isEmpty_iff.mpr hnil))
        have hread : Waits e { e with
            reader := r₁.feed (e.inbound.arrived.take r₁.appetite)
            inbound := { e.inbound with arrived := e.inbound.arrived.drop r₁.appetite } } := by
          rw [← htake, ← hdrop]
          exact .more hnext hn hmost
        have hstands : Stands { e with
            reader := r₁.feed (e.inbound.arrived.take r₁.appetite)
            inbound := { e.inbound with arrived := e.inbound.arrived.drop r₁.appetite } }
            (r₁.feed (e.inbound.arrived.take r₁.appetite))
            { i with arrived := e.inbound.arrived.drop r₁.appetite } :=
          ⟨Or.inl rfl, rfl, h.closed⟩
        obtain ⟨e', hsteps, hend⟩ := ih hstands hreceive
        exact ⟨e', .head hread hsteps, hend⟩
    · next o₁ r₁ hother hlook =>
      cases hreceive
      rw [hlook] at hnext
      refine ⟨e, .refl, Or.inr ⟨{ e with reader := r' }, ?_, rfl,
        ⟨Or.inl rfl, h.arrived, h.closed⟩⟩⟩
      cases o with
      | packet raw => exact .packet hnext
      | waiting => exact (hother rfl).elim
      | failed cause => exact .failed hnext
      | ended => exact absurd hnext (FrameReader.nextOf_ne_ended _ _ _)

end Endpoint

/-! ### Writing -/

/-- What the writer makes of a whole outbox. -/
def FrameWriter.carryAll (shield : Int32) (revision : Revision) :
    FrameWriter → List Outgoing → List Batched × FrameWriter
  | w, [] => ([], w)
  | w, o :: os =>
    let (bs, w) := w.carryOut shield revision o
    let (more, w) := carryAll shield revision w os
    (bs ++ more, w)

/-- Nothing but the threshold changes. -/
theorem FrameWriter.carryAll_keeps (shield : Int32) (revision : Revision) (w : FrameWriter)
    (os : List Outgoing) :
    (w.carryAll shield revision os).2.broken = w.broken ∧
      (w.carryAll shield revision os).2.closed = w.closed := by
  induction os generalizing w with
  | nil => exact ⟨rfl, rfl⟩
  | cons o os ih =>
    rw [carryAll]
    have hrest := ih (w.carryOut shield revision o).2
    cases o <;> exact hrest

/-- The writer takes all entries out of the outbox. -/
def Endpoint.flushAll (shield : Int32) (revision : Revision) (e : Endpoint) :
    List Batched × Endpoint :=
  let (bs, w) := e.writer.carryAll shield revision e.outbox
  (bs, { e with writer := w, outbox := [] })

/-- The frame of a batch, as a session notes it down. -/
def Batched.written (b : Batched) : Written := ⟨b.threshold.isSome, b.frame compressor⟩

namespace Session

variable {σ ρ : Type} {role : Role σ ρ} {s : Session σ ρ}

/-- What has been written and not been delivered. -/
def undelivered (s : Session σ ρ) : Bytes := s.written.reverse.flatMap (·.frame)

/-- Can a session write? -/
structure Writes (s : Session σ ρ) : Prop where
  going : s.result = none
  loud : s.mute = false
  whole : s.connection.writer.broken = false
  unclosed : s.connection.writer.closed = false

theorem write?_eq (h : s.Writes) (p : Packet) :
    s.write? role p = some { s with
      written := (Batched.written
        ⟨s.connection.writer.threshold, p.toBytes (role.shield s.side)⟩) :: s.written } := by
  rw [write?, Connection.write, FrameWriter.write, h.whole]
  rfl

theorem writeAll_eq (h : s.Writes) (ps : List Packet) :
    s.writeAll role ps = { s with
      written := (ps.map fun p => Batched.written
        ⟨s.connection.writer.threshold, p.toBytes (role.shield s.side)⟩).reverse ++
          s.written } := by
  induction ps generalizing s with
  | nil => rfl
  | cons p ps ih =>
    rw [writeAll, write?_eq h]
    simp only [List.map_cons, List.reverse_cons, List.append_assoc, List.singleton_append]
    exact ih ⟨h.going, h.loud, h.whole, h.unclosed⟩

theorem perform_eq (h : s.Writes) (o : Outgoing) :
    perform role s o = { s with
      connection := { s.connection with
        reader := if o.compresses then s.connection.reader.compress else s.connection.reader
        writer := (s.connection.writer.carryOut (role.shield s.side) (role.revision s.side) o).2 }
      written :=
        ((s.connection.writer.carryOut (role.shield s.side) (role.revision s.side) o).1.map
          Batched.written).reverse ++ s.written } := by
  have hdone : s.done = false := by rw [done, h.going]; rfl
  cases o with
  | direct p =>
    simp only [perform, hdone, write?_eq h]
    rfl
  | queued p =>
    simp only [perform, hdone, h.loud, writeAll_eq h, FrameWriter.carryOut, List.map_map]
    rfl
  | compress threshold =>
    simp only [perform, hdone]
    rfl

/-- **A session writes at once what a writer makes of an outbox.** -/
theorem performAll_eq (h : s.Writes) (os : List Outgoing) :
    performAll role s os = { s with
      connection := { s.connection with
        reader :=
          if os.any Outgoing.compresses then s.connection.reader.compress else s.connection.reader
        writer :=
          (s.connection.writer.carryAll (role.shield s.side) (role.revision s.side) os).2 }
      written :=
        ((s.connection.writer.carryAll (role.shield s.side) (role.revision s.side) os).1.map
          Batched.written).reverse ++ s.written } := by
  induction os generalizing s with
  | nil => rfl
  | cons o os ih =>
    have hwhole : (s.connection.writer.carryOut (role.shield s.side) (role.revision s.side)
        o).2.broken = false := by
      cases o <;> exact h.whole
    have hunclosed : (s.connection.writer.carryOut (role.shield s.side) (role.revision s.side)
        o).2.closed = false := by
      cases o <;> exact h.unclosed
    have hreader : ∀ (first rest : Bool) (r : FrameReader),
        (if rest then (if first then r.compress else r).compress
          else if first then r.compress else r) = if first || rest then r.compress else r := by
      intro first rest r
      cases first <;> cases rest <;> rfl
    rw [performAll, List.foldl_cons, perform_eq h]
    show performAll role _ os = _
    rw [ih]
    · simp only [FrameWriter.carryAll, List.any_cons, List.map_append, List.reverse_append,
        List.append_assoc, hreader]
      rfl
    · exact ⟨h.going, h.loud, hwhole, hunclosed⟩

theorem undelivered_performAll (h : s.Writes) (os : List Outgoing) :
    (performAll role s os).undelivered = s.undelivered ++
      (s.connection.writer.carryAll (role.shield s.side) (role.revision s.side) os).1.flatMap
        (Batched.frame compressor) := by
  rw [performAll_eq h, undelivered, undelivered, List.reverse_append, List.reverse_reverse,
    List.flatMap_append, List.flatMap_map]
  rfl

/-- What is performed changes neither the side nor the result. -/
theorem performAll_keeps (role : Role σ ρ) (h : s.Writes) (os : List Outgoing) :
    (performAll role s os).side = s.side ∧ (performAll role s os).result = s.result := by
  rw [performAll_eq h]
  exact ⟨rfl, rfl⟩

end Session

/-! ### Running -/

/-- What a side makes of an attempt to read. -/
def Role.heed {σ ρ : Type} (role : Role σ ρ) (side : σ) : FrameReader.Outcome → Turn σ ρ
  | .waiting => { side }
  | .packet raw => role.take side raw
  | .failed cause => { side, ending := some (role.lose side (.framing cause)) }
  | .ended => { side, ending := some (role.lose side .closed) }

namespace Session

variable {σ ρ : Type} {role : Role σ ρ} {s : Session σ ρ}

/-- A session that goes on can end. -/
theorem finish_keeps (role : Role σ ρ) (h : s.result = none) (e : Ending ρ) :
    (s.finish role e).result = some e.result ∧ (s.finish role e).side = role.cancel s.side ∧
      (s.finish role e).undelivered = s.undelivered := by
  have hdone : s.done = false := by rw [done, h]; rfl
  simp only [finish, hdone]
  exact ⟨rfl, rfl, rfl⟩

/-- What a session that can write has become by a turn. -/
structure Carried (role : Role σ ρ) (t : Turn σ ρ) (s s' : Session σ ρ) : Prop where
  undelivered : s'.undelivered = s.undelivered ++
    (s.connection.writer.carryAll (role.shield t.side) (role.revision t.side)
      t.outgoing).1.flatMap (Batched.frame compressor)
  result : s'.result = t.ending.map (·.result)
  going : t.ending = none → s'.side = t.side
  ended : t.ending ≠ none → s'.side = role.cancel t.side
  writes : t.ending = none → s'.Writes
  writer : t.ending = none → s'.connection.writer =
    (s.connection.writer.carryAll (role.shield t.side) (role.revision t.side) t.outgoing).2

/-- **A session that can write carries out a turn.** -/
theorem carried_carryOut (role : Role σ ρ) (h : s.Writes) (t : Turn σ ρ) :
    Carried role t s (s.carryOut role t) := by
  have hside : ({ s with side := t.side } : Session σ ρ).Writes :=
    ⟨h.going, h.loud, h.whole, h.unclosed⟩
  obtain ⟨hkept, hresult⟩ := performAll_keeps role hside t.outgoing
  have hundelivered : (performAll role { s with side := t.side } t.outgoing).undelivered = _ :=
    undelivered_performAll hside t.outgoing
  have hgoing := hresult.trans h.going
  rw [carryOut]
  cases hending : t.ending with
  | none =>
    obtain ⟨hbroken, hclosed⟩ := s.connection.writer.carryAll_keeps (role.shield t.side)
      (role.revision t.side) t.outgoing
    refine ⟨hundelivered, ?_, fun _ => hkept, fun hsome => absurd hending hsome, fun _ => ?_,
      fun _ => ?_⟩
    · rw [hending]
      exact hgoing
    · rw [performAll_eq hside]
      exact ⟨h.going, h.loud, hbroken.trans h.whole, hclosed.trans h.unclosed⟩
    · rw [performAll_eq hside]
  | some e =>
    obtain ⟨hended, hcancelled, hwritten⟩ := finish_keeps role hgoing e
    have hsome : t.ending ≠ none := by rw [hending]; exact Option.some_ne_none e
    refine ⟨hwritten.trans hundelivered, ?_, fun hnone => absurd hnone hsome, fun _ => ?_,
      fun hnone => absurd hnone hsome, fun hnone => absurd hnone hsome⟩
    · rw [hending]
      exact hended
    · exact hcancelled.trans (congrArg role.cancel hkept)

theorem pump_of_ended (h : s.result ≠ none) (fuel : Nat) : s.pump role fuel = s := by
  cases fuel with
  | zero => rfl
  | succ fuel =>
    rw [pump]
    exact if_pos (Option.isSome_iff_ne_none.mpr h)

theorem settle_of_ended (h : s.result ≠ none) : s.settle role = s :=
  if_pos (Option.isSome_iff_ne_none.mpr h)

/-- A session that reacts to packets takes one turn after another. -/
theorem pump_succ (role : Role σ ρ) (h : s.result = none) {o : FrameReader.Outcome}
    {c : Connection} (hread : s.connection.read = (o, c)) (fuel : Nat) :
    s.pump role (fuel + 1) =
        ({ s with connection := c } : Session σ ρ).carryOut role (role.heed s.side o) ∨
      s.pump role (fuel + 1) =
        (({ s with connection := c } : Session σ ρ).carryOut role (role.heed s.side o)).pump role
          fuel := by
  have hdone : s.done = false := by rw [done, h]; rfl
  rw [pump, hdone, if_neg Bool.false_ne_true, hread]
  cases o with
  | packet raw =>
    right
    show pump role fuel (react role { s with connection := c } raw) = _
    rw [react]
    exact congrArg _ (if_neg (Bool.eq_false_iff.mp hdone))
  | waiting | failed cause | ended => exact Or.inl rfl

end Session

end PackExchange
