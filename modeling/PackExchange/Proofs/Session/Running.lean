import PackExchange.Proofs.Session.Hearing
import PackExchange.Proofs.Session.Performing
import PackExchange.Session.Exchange

/-!
# What a running server has heard

A server that runs reads raw packets off its connection, reacts to each of them and writes at once.
So whatever it has come to, it is what the reactions to some raw packets in a row come to, and what
it has written is what the writer makes of them.

* `Role.hearUntil` — raw packets in a row, after which more may or may not be read;
* `Session.Reacted` — what a turn makes of a server that can write, with `reacted_carryOut` and
  `Reacted.andThen`;
* `Session.Heard` — a server that has come to what raw packets come to;
* `Session.Heard.run` — a server that runs stays such a server;
* `Exchange.heard_run` — so does the server of an exchange.
-/

namespace PackExchange

open Batch (compressor)

/-- The reactions to raw packets in a row, and to the failure of reading more of them. -/
def Role.hearUntil {σ ρ : Type} (role : Role σ ρ) (side : σ) (raws : List Bytes) :
    Option SessionError → Turn σ ρ
  | none => role.hear side raws
  | some e => role.hearOut side raws e

theorem Role.side_hearUntil {σ ρ : Type} (role : Role σ ρ) (side : σ) (raws : List Bytes)
    (lost : Option SessionError) :
    (role.hearUntil side raws lost).side = (role.hear side raws).side := by
  cases lost with
  | none => rfl
  | some e =>
    rw [hearUntil, hearOut]
    cases hending : (role.hear side raws).ending with
    | none => rw [Turn.andThen_of_going hending]
    | some ending => rw [Turn.andThen_of_ended hending]

/-- A side that can read nothing more ends. -/
theorem Role.hearUntil_going {σ ρ : Type} {role : Role σ ρ} {side : σ} {raws : List Bytes}
    {lost : Option SessionError} (h : (role.hearUntil side raws lost).ending = none) :
    lost = none := by
  cases lost with
  | none => rfl
  | some e =>
    rw [hearUntil, hearOut] at h
    cases hending : (role.hear side raws).ending with
    | none =>
      rw [Turn.andThen_of_going hending] at h
      cases h
    | some ending =>
      rw [Turn.andThen_of_ended hending, hending] at h
      cases h

/-- An attempt to read gives one raw packet, or none, or the failure to read any. -/
theorem Role.heed_eq {σ ρ : Type} (role : Role σ ρ) (side : σ) (o : FrameReader.Outcome) :
    ∃ raws lost, role.heed side o = role.hearUntil side raws lost := by
  cases o with
  | waiting => exact ⟨[], none, rfl⟩
  | packet raw => exact ⟨[raw], none, (role.hear_singleton side raw).symm⟩
  | failed cause => exact ⟨[], some (.framing cause), rfl⟩
  | ended => exact ⟨[], some .closed, rfl⟩

/-- What comes after raw packets comes after the reactions to them. -/
theorem Role.hearUntil_append {σ ρ : Type} (role : Role σ ρ) (side : σ) (raws raws' : List Bytes)
    (lost : Option SessionError) :
    role.hearUntil side (raws ++ raws') lost =
      (role.hear side raws).andThen fun side => role.hearUntil side raws' lost := by
  cases lost with
  | none => exact role.hear_append side raws raws'
  | some e => rw [hearUntil, hearOut, hear_append, Turn.andThen_assoc]; rfl

namespace FrameWriter

theorem carryAll_append (shield : Int32) (revision : Revision) (w : FrameWriter)
    (os os' : List Outgoing) :
    w.carryAll shield revision (os ++ os') =
      ((w.carryAll shield revision os).1 ++
          ((w.carryAll shield revision os).2.carryAll shield revision os').1,
        ((w.carryAll shield revision os).2.carryAll shield revision os').2) := by
  induction os generalizing w with
  | nil => rfl
  | cons o os ih =>
    simp only [List.cons_append, carryAll, ih, List.append_assoc]

end FrameWriter

/-- A server that has not agreed on a revision, and goes on, has sent nothing. -/
theorem Serve.Took.outgoing_nil {s : Serve} {raw : Bytes} {t : Turn Serve Unit} (h : s.Took raw t)
    (hending : t.ending = none) (hnone : t.side.exchange = none) : t.outgoing = [] := by
  cases h with
  | ignored => rfl
  | agreed _ _ _ | answered _ _ _ | served _ _ _ => cases hnone
  | unreadable _ | refused _ _ _ | left _ _ | failed _ _ => cases hending

/-- Nor has one that goes on after several raw packets. -/
theorem Serve.hear_outgoing_nil {s : Serve} {raws : List Bytes}
    (hending : (role.hear s raws).ending = none)
    (hnone : (role.hear s raws).side.exchange = none) : (role.hear s raws).outgoing = [] := by
  induction raws generalizing s with
  | nil => rfl
  | cons raw raws ih =>
    rw [hear_cons] at hending hnone ⊢
    cases hfirst : (s.take raw).ending with
    | some e =>
      rw [Turn.andThen_of_ended hfirst, hfirst] at hending
      cases hending
    | none =>
      rw [Turn.andThen_of_going hfirst] at hending hnone ⊢
      have hunagreed : (s.take raw).side.exchange = none := by
        by_contra hsome
        have hkept := ((s.take raw).side.hear_keeps raws).2.2 (Option.isSome_iff_ne_none.mpr hsome)
        exact Option.isSome_iff_ne_none.mp hkept.1 hnone
      show (s.take raw).outgoing ++ (role.hear (s.take raw).side raws).outgoing = []
      rw [(s.took raw).outgoing_nil hfirst hunagreed, ih hending hnone]
      rfl

/-- What a writer makes of the deeds of a server. -/
def Serve.carried (s : Serve) (w : FrameWriter) (os : List Outgoing) : List Batched × FrameWriter :=
  w.carryAll s.settings.policy.shield s.revision os

namespace Session

/-- Has a server come to another by this turn?  Some of what was written may have been delivered. -/
structure Reacted (s : Session Serve Unit) (t : Turn Serve Unit) (s' : Session Serve Unit) :
    Prop where
  side : s'.side = t.side
  result : s'.result = t.ending.map (·.result)
  undelivered : ∃ delivered, delivered ++ s'.undelivered =
    s.undelivered ++
      (t.side.carried s.connection.writer t.outgoing).1.flatMap (Batched.frame compressor)
  writes : t.ending = none → s'.Writes
  writer : t.ending = none → s'.connection.writer = (t.side.carried s.connection.writer t.outgoing).2

theorem reacted_carryOut {s : Session Serve Unit} (h : s.Writes) (t : Turn Serve Unit) :
    s.Reacted t (s.carryOut Serve.role t) := by
  have hcarried := carried_carryOut Serve.role h t
  -- a server has nothing to cancel, so that its side is the same if it ends
  have hside : (s.carryOut Serve.role t).side = t.side := by
    by_cases hending : t.ending = none
    · exact hcarried.going hending
    · exact hcarried.ended hending
  exact ⟨hside, hcarried.result, ⟨[], hcarried.undelivered⟩, hcarried.writes, hcarried.writer⟩

/-- One turn after another. -/
theorem Reacted.andThen {s s₁ s₂ : Session Serve Unit} {t : Turn Serve Unit}
    {next : Serve → Turn Serve Unit} (h : s.Reacted t s₁) (hending : t.ending = none)
    (hnext : s₁.Reacted (next t.side) s₂)
    (hsame : (next t.side).side.carried s.connection.writer t.outgoing =
      t.side.carried s.connection.writer t.outgoing) : s.Reacted (t.andThen next) s₂ := by
  have hcarried : (next t.side).side.carried s.connection.writer
      (t.outgoing ++ (next t.side).outgoing) =
        ((t.side.carried s.connection.writer t.outgoing).1 ++
            ((next t.side).side.carried s₁.connection.writer (next t.side).outgoing).1,
          ((next t.side).side.carried s₁.connection.writer (next t.side).outgoing).2) := by
    rw [h.writer hending, ← hsame]
    exact FrameWriter.carryAll_append _ _ _ _ _
  rw [Turn.andThen_of_going hending]
  obtain ⟨delivered, hdelivered⟩ := h.undelivered
  obtain ⟨delivered', hdelivered'⟩ := hnext.undelivered
  refine ⟨hnext.side, hnext.result, ⟨delivered ++ delivered', ?_⟩, hnext.writes, ?_⟩
  · rw [hcarried, List.append_assoc, hdelivered', ← List.append_assoc, hdelivered,
      List.append_assoc, List.flatMap_append]
  · rw [hcarried]
    exact hnext.writer

/-- Has a server come from another to what the reactions to some raw packets come to? -/
def Heard (s s' : Session Serve Unit) : Prop :=
  ∃ raws lost, s.Reacted (Serve.role.hearUntil s.side raws lost) s'

/-- One that can write has heard nothing yet. -/
theorem Heard.refl {s : Session Serve Unit} (h : s.Writes) : s.Heard s :=
  ⟨[], none, rfl, h.going, ⟨[], (List.append_nil _).symm⟩, fun _ => h, fun _ => rfl⟩

/-- A server that goes on has reacted to raw packets and has not failed to read. -/
theorem Heard.going {s s' : Session Serve Unit} (h : s.Heard s') (hresult : s'.result = none) :
    s'.Writes ∧ ∃ raws, (Serve.role.hear s.side raws).ending = none ∧
      s.Reacted (Serve.role.hear s.side raws) s' := by
  obtain ⟨raws, lost, hreacted⟩ := h
  have hending : (Serve.role.hearUntil s.side raws lost).ending = none := by
    rw [hreacted.result] at hresult
    exact Option.map_eq_none_iff.mp hresult
  obtain rfl := Role.hearUntil_going hending
  exact ⟨hreacted.writes hending, raws, hending, hreacted⟩

/-- What is heard later is heard after what was heard before. -/
theorem Reacted.hears {s s₁ s₂ : Session Serve Unit} {before : List Bytes}
    (h : s.Reacted (Serve.role.hear s.side before) s₁)
    (hending : (Serve.role.hear s.side before).ending = none) {raws : List Bytes}
    {lost : Option SessionError} (hnext : s₁.Reacted (Serve.role.hearUntil s₁.side raws lost) s₂) :
    s.Reacted (Serve.role.hearUntil s.side (before ++ raws) lost) s₂ := by
  rw [Role.hearUntil_append]
  rw [h.side] at hnext
  refine h.andThen hending hnext ?_
  obtain ⟨hsettings, -, hrevision⟩ :=
    (Serve.role.hear s.side before).side.hear_keeps raws
  rw [Serve.carried, Serve.carried, Role.side_hearUntil, hsettings]
  -- what was sent before a revision was agreed on is nothing, so that the revision is the same
  cases hexchange : (Serve.role.hear s.side before).side.exchange with
  | none =>
    rw [Serve.hear_outgoing_nil hending hexchange]
    rfl
  | some exchange => rw [(hrevision (by rw [hexchange]; rfl)).2]

/-- **What a server does next it does after all it has heard.** -/
theorem Heard.andThen {s s₁ s₂ : Session Serve Unit} (h : s.Heard s₁) (hresult : s₁.result = none)
    (raws : List Bytes) (lost : Option SessionError)
    (hnext : s₁.Reacted (Serve.role.hearUntil s₁.side raws lost) s₂) : s.Heard s₂ := by
  obtain ⟨-, before, hending, hreacted⟩ := h.going hresult
  exact ⟨before ++ raws, lost, hreacted.hears hending hnext⟩

/-- A server that can write reacts to what it reads. -/
theorem Writes.heeds {s : Session Serve Unit} (h : s.Writes) {o : FrameReader.Outcome}
    {c : Connection} (hread : s.connection.read = (o, c)) :
    s.Reacted (Serve.role.heed s.side o) (({ s with connection := c } : Session Serve Unit).carryOut
      Serve.role (Serve.role.heed s.side o)) := by
  have hwriter : c.writer = s.connection.writer := by
    rw [Connection.read] at hread
    cases hread
    rfl
  have hread' : ({ s with connection := c } : Session Serve Unit).Writes :=
    ⟨h.going, h.loud, by rw [hwriter]; exact h.whole, by rw [hwriter]; exact h.unclosed⟩
  obtain ⟨hside, hended, hundelivered, hwrites, hwriter'⟩ :=
    reacted_carryOut hread' (Serve.role.heed s.side o)
  rw [hwriter] at hundelivered hwriter'
  exact ⟨hside, hended, hundelivered, hwrites, hwriter'⟩

/-- **A server that reads hears.** -/
theorem Heard.heeds {s s' : Session Serve Unit} (h : s.Heard s') (hresult : s'.result = none)
    {o : FrameReader.Outcome} {c : Connection} (hread : s'.connection.read = (o, c)) :
    s.Heard (({ s' with connection := c } : Session Serve Unit).carryOut Serve.role
      (Serve.role.heed s'.side o)) := by
  have hreacted := (h.going hresult).1.heeds hread
  obtain ⟨raws, lost, heq⟩ := Serve.role.heed_eq s'.side o
  exact h.andThen hresult raws lost (heq ▸ hreacted)

theorem Heard.pump {s s' : Session Serve Unit} (h : s.Heard s') (fuel : Nat) :
    s.Heard (s'.pump Serve.role fuel) := by
  induction fuel generalizing s' with
  | zero => exact h
  | succ fuel ih =>
    by_cases hresult : s'.result = none
    · cases hread : s'.connection.read with
      | mk o c =>
        have hheeds := h.heeds hresult hread
        rcases pump_succ Serve.role hresult hread fuel with heq | heq <;> rw [heq]
        · exact hheeds
        · exact ih hheeds
    · rw [pump_of_ended hresult]
      exact h

/-- A server does nothing beside reading. -/
theorem settle_server (s : Session Serve Unit) : s.settle Serve.role = s := by
  rw [settle]
  split <;> rfl

/-- **A server that runs has heard raw packets in a row**: it has come to what the reactions to them
come to, has ended as they end, and has written what they send. -/
theorem Heard.run {s s' : Session Serve Unit} (h : s.Heard s') : s.Heard (s'.run Serve.role) := by
  rw [Session.run, settle_server]
  exact h.pump _

/-- What merely arrives changes nothing. -/
theorem Reacted.of_stream {s s' : Session Serve Unit} {t : Turn Serve Unit} (h : s.Reacted t s')
    (i : Inbound) : s.Reacted t { s' with connection := { s'.connection with inbound := i } } := by
  obtain ⟨hside, hresult, hundelivered, hwrites, hwriter⟩ := h
  refine ⟨hside, hresult, hundelivered, fun hending => ?_, hwriter⟩
  obtain ⟨hgoing, hloud, hwhole, hunclosed⟩ := hwrites hending
  exact ⟨hgoing, hloud, hwhole, hunclosed⟩

/-- Nor does what is delivered. -/
theorem Reacted.drain {s s' : Session Serve Unit} {t : Turn Serve Unit} (h : s.Reacted t s') :
    s.Reacted t s'.drain.2 := by
  obtain ⟨hside, hresult, ⟨delivered, hdelivered⟩, hwrites, hwriter⟩ := h
  refine ⟨hside, hresult, ⟨delivered ++ s'.undelivered, ?_⟩, fun hending => ?_, hwriter⟩
  · rw [← hdelivered]
    exact List.append_nil _
  · obtain ⟨hgoing, hloud, hwhole, hunclosed⟩ := hwrites hending
    exact ⟨hgoing, hloud, hwhole, hunclosed⟩

theorem Heard.of_stream {s s' : Session Serve Unit} (h : s.Heard s') (i : Inbound) :
    s.Heard { s' with connection := { s'.connection with inbound := i } } :=
  h.imp fun _ h => h.imp fun _ h => h.of_stream i

theorem Heard.drain {s s' : Session Serve Unit} (h : s.Heard s') : s.Heard s'.drain.2 :=
  h.imp fun _ h => h.imp fun _ h => h.drain

/-- A server that can write and is told to stop fails to read. -/
theorem Writes.cancel {s : Session Serve Unit} (h : s.Writes) :
    s.Reacted (Serve.role.hearUntil s.side [] (some .cancelled)) (s.cancel Serve.role) := by
  have hcancel : s.cancel Serve.role =
      s.carryOut Serve.role (Serve.role.hearUntil s.side [] (some .cancelled)) := by
    rw [Session.cancel, done, h.going]
    rfl
  rw [hcancel]
  exact reacted_carryOut h _

/-- One that has ended is not told to. -/
theorem cancel_of_ended {s : Session Serve Unit} (h : s.result ≠ none) :
    s.cancel Serve.role = s := by
  rw [Session.cancel, done, if_pos (Option.isSome_iff_ne_none.mpr h)]

theorem Heard.cancel {s s' : Session Serve Unit} (h : s.Heard s') :
    s.Heard (s'.cancel Serve.role) := by
  by_cases hresult : s'.result = none
  · exact h.andThen hresult [] (some .cancelled) (h.going hresult).1.cancel
  · rw [cancel_of_ended hresult]
    exact h

theorem Heard.arrive {s s' : Session Serve Unit} (h : s.Heard s') (bs : Bytes) :
    s.Heard (s'.arrive bs) := h.of_stream _

theorem Heard.close {s s' : Session Serve Unit} (h : s.Heard s') : s.Heard s'.close :=
  h.of_stream _

end Session

namespace Exchange

variable {s : Session Serve Unit} {x : Exchange}

theorem heard_round (h : s.Heard x.server) : s.Heard x.round.2.server := by
  have hdelivered : s.Heard (deliver x.client x.server).2 := by
    simp only [deliver]
    split
    · exact (h.arrive _).close
    · exact h.arrive _
  exact hdelivered.run.drain

theorem heard_pump (h : s.Heard x.server) (fuel : Nat) : s.Heard (x.pump fuel).server := by
  induction fuel generalizing x with
  | zero => exact h
  | succ fuel ih =>
    have hround := heard_round h
    rw [pump]
    split
    next moved x' hx =>
    rw [hx] at hround
    split
    · exact ih hround
    · exact hround

/-- **In every exchange the server comes to what it hears.** -/
theorem heard_run (serve : Serve) (join : Join) :
    (Session.begin Serve.role serve []).Heard (Exchange.begin serve join).run.server := by
  have hbegin := Session.Heard.refl
    (s := Session.begin Serve.role serve []) ⟨rfl, rfl, rfl, rfl⟩
  have hpump := heard_pump (x := Exchange.begin serve join) hbegin
    (roundBound serve.packs serve.settings.chunkSize)
  rw [run]
  refine heard_round ?_
  split
  · exact hpump
  · exact hpump.close.run

end Exchange

end PackExchange
