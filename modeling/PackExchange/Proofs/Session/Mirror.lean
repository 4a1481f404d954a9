import PackExchange.Proofs.Session.Performing

/-!
# Sessions and ends

While a session runs on its own, an end of a connection can follow it step by step: it reads the
same packets and writes the same frames.

* `Endpoint.Mirrors` — an end that stands where a session stands;
* `Mirrors.carries` — both carry out a turn alike;
* `Mirrors.reads` — both read alike;
* `Mirrors.receive`, `arrive`, `hangUp`, `close` — what happens to the stream that is read.
-/

namespace PackExchange

open Batch (compressor)

/-- Does an end stand where the connection of a session stands, that has yet to be delivered some
bytes?  The session writes at once, so nothing waits in the outbox. -/
structure Endpoint.Mirrors {σ ρ : Type} (e : Endpoint) (s : Session σ ρ) (coming : Bytes) :
    Prop where
  outbox : e.outbox = []
  writes : s.result = none → s.Writes
  writer : s.result = none → e.writer = s.connection.writer
  stands : s.result = none → e.Stands s.connection.reader (s.connection.inbound.push coming)

namespace Endpoint

variable {σ ρ : Type} {role : Role σ ρ} {e : Endpoint} {s : Session σ ρ} {coming : Bytes}

/-- Nothing is said of the connection of a session that has ended. -/
theorem mirrors_of_ended (houtbox : e.outbox = []) (hresult : s.result ≠ none) :
    e.Mirrors s coming :=
  ⟨houtbox, fun hnone => absurd hnone hresult, fun hnone => absurd hnone hresult,
    fun hnone => absurd hnone hresult⟩

/-- What a session is told apart by its connection does not matter. -/
theorem Mirrors.of_connection {s' : Session σ ρ} (h : e.Mirrors s coming)
    (hconnection : s'.connection = s.connection) (hmute : s'.mute = s.mute)
    (hresult : s'.result = s.result) : e.Mirrors s' coming := by
  refine ⟨h.outbox, fun hnone => ?_, fun hnone => ?_, fun hnone => ?_⟩
  · obtain ⟨hgoing, hloud, hwhole, hunclosed⟩ := h.writes (hresult ▸ hnone)
    rw [← hconnection] at hwhole hunclosed
    exact ⟨hnone, hmute.trans hloud, hwhole, hunclosed⟩
  · rw [hconnection]
    exact h.writer (hresult ▸ hnone)
  · rw [hconnection]
    exact h.stands (hresult ▸ hnone)

/-- **What is posted and written in small steps is what a session writes at once.**  A reader that
is told to compress has to have looked at what it holds. -/
theorem Mirrors.performs (role : Role σ ρ) (h : e.Mirrors s coming) (hresult : s.result = none)
    (os : List Outgoing)
    (hreader : os.any Outgoing.compresses = false ∨ e.reader = s.connection.reader) :
    ((e.post os).flushAll (role.shield s.side) (role.revision s.side)).2.Mirrors
        (s.performAll role os) coming ∧
      (s.performAll role os).undelivered = s.undelivered ++
        ((e.post os).flushAll (role.shield s.side) (role.revision s.side)).1.flatMap
          (Batched.frame compressor) := by
  have hwrites := h.writes hresult
  have hflush : (e.post os).flushAll (role.shield s.side) (role.revision s.side) =
      ((s.connection.writer.carryAll (role.shield s.side) (role.revision s.side) os).1,
        { e.post os with
          writer := (s.connection.writer.carryAll (role.shield s.side) (role.revision s.side) os).2
          outbox := [] }) := by
    simp only [flushAll, post, h.outbox, h.writer hresult, List.nil_append]
  rw [hflush]
  refine ⟨?_, Session.undelivered_performAll hwrites os⟩
  rw [Session.performAll_eq hwrites]
  obtain ⟨hbroken, hclosed⟩ := FrameWriter.carryAll_keeps (role.shield s.side)
    (role.revision s.side) s.connection.writer os
  refine ⟨rfl, fun _ => ⟨hresult, hwrites.loud, hbroken.trans hwrites.whole,
    hclosed.trans hwrites.unclosed⟩, fun _ => rfl, fun _ => ?_⟩
  obtain ⟨hstands, harrived, hclosed⟩ := h.stands hresult
  refine ⟨?_, harrived, hclosed⟩
  rcases hreader with hnone | hexact
  · simp only [post, hnone]
    exact hstands
  · left
    simp only [post, hexact]

theorem Mirrors.receive (h : e.Mirrors s coming) (bs : List Batched) :
    (e.receive compressor bs).Mirrors s (coming ++ bs.flatMap (Batched.frame compressor)) := by
  refine ⟨h.outbox, h.writes, h.writer, fun hresult => ?_⟩
  obtain ⟨hreader, harrived, hclosed⟩ := h.stands hresult
  refine ⟨hreader, ?_, hclosed⟩
  show e.inbound.arrived ++ _ = _ ++ (coming ++ _)
  rw [harrived, Inbound.push, List.append_assoc]

theorem Mirrors.hangUp (h : e.Mirrors s coming) : e.hangUp.Mirrors s coming := by
  refine ⟨h.outbox, h.writes, h.writer, fun hresult => ?_⟩
  obtain ⟨hreader, harrived, -⟩ := h.stands hresult
  exact ⟨hreader, harrived, fun _ => rfl⟩

/-- What was written and not delivered arrives. -/
theorem Mirrors.arrive (h : e.Mirrors s coming) : e.Mirrors (s.arrive coming) [] := by
  refine ⟨h.outbox, fun hresult => ?_, h.writer, fun hresult => ?_⟩
  · obtain ⟨hgoing, hloud, hwhole, hunclosed⟩ := h.writes hresult
    exact ⟨hgoing, hloud, hwhole, hunclosed⟩
  · obtain ⟨hreader, harrived, hclosed⟩ := h.stands hresult
    refine ⟨hreader, ?_, hclosed⟩
    show _ = (s.connection.inbound.arrived ++ coming) ++ []
    rw [harrived, List.append_nil]
    rfl

/-- The stream ends. -/
theorem Mirrors.close (h : e.Mirrors s coming) (hclosed : e.inbound.closed = true) :
    e.Mirrors s.close coming := by
  refine ⟨h.outbox, fun hresult => ?_, h.writer, fun hresult => ?_⟩
  · obtain ⟨hgoing, hloud, hwhole, hunclosed⟩ := h.writes hresult
    exact ⟨hgoing, hloud, hwhole, hunclosed⟩
  · obtain ⟨hreader, harrived, -⟩ := h.stands hresult
    exact ⟨hreader, harrived, fun _ => hclosed⟩

/-- What a session and an end have in common after a turn, when the end has written what the turn
has posted. -/
structure Carries (role : Role σ ρ) (turn : Turn σ ρ) (s : Session σ ρ) (coming : Bytes)
    (bs : List Batched) (e : Endpoint) : Prop where
  undelivered : (s.carryOut role turn).undelivered =
    s.undelivered ++ bs.flatMap (Batched.frame compressor)
  result : (s.carryOut role turn).result = turn.ending.map (·.result)
  going : turn.ending = none → (s.carryOut role turn).side = turn.side
  ended : turn.ending ≠ none → (s.carryOut role turn).side = role.cancel turn.side
  mirrors : e.Mirrors (s.carryOut role turn) coming
  unclosed : e.writer.closed = false

/-- **A turn is carried out alike.** -/
theorem Mirrors.carries (role : Role σ ρ) (h : e.Mirrors s coming) (hresult : s.result = none)
    (turn : Turn σ ρ) (hreader : turn.outgoing.any Outgoing.compresses = false ∨
      e.reader = s.connection.reader) :
    Carries role turn s coming
      ((e.post turn.outgoing).flushAll (role.shield turn.side) (role.revision turn.side)).1
      ((e.post turn.outgoing).flushAll (role.shield turn.side) (role.revision turn.side)).2 := by
  have hside : e.Mirrors { s with side := turn.side } coming := h.of_connection rfl rfl rfl
  obtain ⟨hmirrors, hsent⟩ := hside.performs role hresult turn.outgoing hreader
  have hcarried := Session.carried_carryOut role (h.writes hresult) turn
  have hnone : (Session.performAll role { s with side := turn.side } turn.outgoing).result = none :=
    (Session.performAll_keeps role (hside.writes hresult) turn.outgoing).2.trans hresult
  have hunclosed := (hmirrors.writes hnone).unclosed
  rw [← hmirrors.writer hnone] at hunclosed
  have hwritten : (Session.performAll role { s with side := turn.side } turn.outgoing).undelivered =
      _ := Session.undelivered_performAll (hside.writes hresult) turn.outgoing
  refine ⟨hcarried.undelivered.trans (hwritten.symm.trans hsent), hcarried.result, hcarried.going,
    hcarried.ended, ?_, hunclosed⟩
  cases hending : turn.ending with
  | none =>
    rw [Session.carryOut, hending]
    exact hmirrors
  | some ending =>
    refine mirrors_of_ended rfl ?_
    rw [hcarried.result, hending]
    exact Option.some_ne_none _

/-! ### A session that reads -/

theorem waits_keeps {e' : Endpoint} (h : Relation.ReflTransGen Waits e e') :
    e'.writer = e.writer ∧ e'.outbox = e.outbox ∧ e'.inbound.closed = e.inbound.closed := by
  induction h with
  | refl => exact ⟨rfl, rfl, rfl⟩
  | tail _ hread ih =>
    obtain ⟨hwriter, houtbox, -, hclosed⟩ := hread.keeps
    exact ⟨hwriter.trans ih.1, houtbox.trans ih.2.1, hclosed.trans ih.2.2⟩

/-- **What a session reads at once an end reads in small steps.**  Everything has to be delivered
before. -/
theorem Mirrors.reads (h : e.Mirrors s []) (hresult : s.result = none)
    {o : FrameReader.Outcome} {c : Connection} (hread : s.connection.read = (o, c)) :
    ∃ e', Relation.ReflTransGen Waits e e' ∧
      ((o = .waiting ∧ e'.inbound.closed = e.inbound.closed ∧
          e'.Mirrors { s with connection := c } []) ∨
        ∃ e'', e'.Read o e'' ∧ e''.reader = c.reader ∧
          e''.inbound.closed = e.inbound.closed ∧ e''.Mirrors { s with connection := c } []) := by
  obtain ⟨hreader, harrived, hclosed⟩ := h.stands hresult
  have hpush : s.connection.inbound.push [] = s.connection.inbound := by
    rw [Inbound.push, List.append_nil]
  rw [hpush] at harrived hclosed
  obtain ⟨r', i', hreceive⟩ : ∃ r' i',
      s.connection.reader.receive s.connection.inbound = (o, r', i') ∧
        c = { s.connection with reader := r', inbound := i' } := by
    rw [Connection.read] at hread
    cases hread
    exact ⟨_, _, rfl, rfl⟩
  obtain ⟨hreceive, rfl⟩ := hreceive
  -- Whatever stands where the session stands mirrors it.
  have hmirrors : ∀ e₁ : Endpoint, e₁.writer = e.writer → e₁.outbox = e.outbox →
      e₁.Stands r' i' →
      e₁.Mirrors { s with connection := { s.connection with reader := r', inbound := i' } } [] := by
    intro e₁ hwriter houtbox hstands
    obtain ⟨hgoing, hloud, hwhole, hunclosed⟩ := h.writes hresult
    refine ⟨houtbox.trans h.outbox, fun _ => ⟨hgoing, hloud, hwhole, hunclosed⟩,
      fun _ => hwriter.trans (h.writer hresult), fun _ => ?_⟩
    rw [Inbound.push, List.append_nil]
    exact hstands
  obtain ⟨e', hsteps, hend⟩ := Endpoint.reads ⟨hreader, harrived, hclosed⟩ hreceive
  obtain ⟨hwriter, houtbox, hclosed'⟩ := waits_keeps hsteps
  refine ⟨e', hsteps, ?_⟩
  rcases hend with ⟨ho, hstands⟩ | ⟨e'', hlast, hexact, hstands⟩
  · exact Or.inl ⟨ho, hclosed', hmirrors e' hwriter houtbox hstands⟩
  · obtain ⟨hwriter', houtbox', -, hclosed''⟩ := hlast.keeps
    exact Or.inr ⟨e'', hlast, hexact, hclosed''.trans hclosed',
      hmirrors e'' (hwriter'.trans hwriter) (houtbox'.trans houtbox) hstands⟩

end Endpoint

end PackExchange
