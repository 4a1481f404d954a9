import PackExchange.Proofs.Packet.RoundTrip
import PackExchange.Proofs.Session.Joining
import PackExchange.Proofs.Transfer.Delivery

/-!
# What a client may trust when it has joined

Whatever bytes a server sends, and however the receive loop and the workers take turns, a session
that ends well has exactly the packs it wanted, with the bytes that were announced.

* `openRaw_sized` — a chunk that was read is no longer than a packet can say;
* `Joining.Follows` — a session follows a course of its client's side, and `Joining.Step.follows`;
* `Joining.Sound` — what holds at every moment of a session;
* `Joining.join_safe` — what the packs are that a session ends with.
-/

namespace PackExchange

/-! ### Packets that were read -/

theorem RawPacket.decode_sized {r : Revision} {policy : Policy} {raw : RawPacket} {d : Decoded}
    (h : raw.decode r policy = .ok d) : ∀ p ∈ d.packets, p.Sized := by
  have htoLatest : ∀ q : Packet, q.Sized → ∀ p ∈ r.toLatest q, p.Sized := by
    intro q hq p hp
    rw [Revision.toLatest.eq_def] at hp
    split at hp
    · rw [List.mem_singleton] at hp
      subst hp
      trivial
    · rw [List.mem_singleton] at hp
      subst hp
      trivial
    · cases hp
    · rw [List.mem_singleton] at hp
      subst hp
      exact hq
  rw [decode] at h
  split at h
  · next kind hkind =>
    rw [decodeKnown] at h
    split at h
    · cases h
    · next body rest hread =>
      have hfits := (Packet.fits_iff policy kind body).mp (Layout.fits_of_read hread)
      have hsized : (Packet.known kind body).Sized := by
        cases kind with
        | chunkData => exact hfits.2.1 body.data (List.mem_singleton_self _)
        | _ => trivial
      have hall := htoLatest (.known kind body) hsized
      simp only at h
      split at h
      · cases h
        exact hall
      · split at h
        · cases h
        · cases h
          exact hall
  · split at h
    · cases h
    · cases h
      exact htoLatest _ trivial

theorem openRaw_sized {r : Revision} {policy : Policy} {raw : Bytes} {ps : List Packet}
    (h : openRaw r policy raw = .ok ps) : ∀ p ∈ ps, p.Sized := by
  rw [openRaw] at h
  split at h
  · cases h
    exact fun _ hp => nomatch hp
  · split at h
    · next d hd =>
      cases h
      exact RawPacket.decode_sized hd
    · split at h
      · cases h
      · cases h
        exact fun _ hp => nomatch hp

/-! ### The course of a session -/

/-- Handling a packet changes the client's side as the packet says, and ends the session only with
a failure. -/
theorem Join.handle_eq (j : Join) (p : Packet) :
    (j.handle p).side = { j with fetch := (j.fetch.take p).1 } ∧
      ∀ e, (j.handle p).ending = some e → ∃ cause, e.result = .error cause := by
  have hfollow : ∀ (f : Fetch) (error : Option TransferError),
      (j.follow f error).side = { j with fetch := f } ∧
        ∀ e, (j.follow f error).ending = some e → ∃ cause, e.result = .error cause := by
    intro f error
    cases error with
    | none => exact ⟨rfl, fun _ he => by cases he⟩
    | some cause =>
      simp only [follow]
      split
      · refine ⟨rfl, ?_⟩
        intro e he
        cases he
        exact ⟨_, rfl⟩
      · exact ⟨rfl, fun _ he => by cases he⟩
  cases p with
  | unknown id bytes => exact ⟨rfl, fun _ he => by cases he⟩
  | known kind body =>
    cases kind with
    | disconnect =>
      refine ⟨rfl, ?_⟩
      intro e he
      cases he
      exact ⟨_, rfl⟩
    | playStatus =>
      rw [handle]
      split
      · exact ⟨rfl, fun _ he => by cases he⟩
      · refine ⟨rfl, ?_⟩
        intro e he
        cases he
        exact ⟨_, rfl⟩
    | packData => exact hfollow _ _
    | chunkData => exact hfollow _ _
    | stack =>
      cases hstack : j.fetch.takeStack body with
      | error e =>
        simp only [handle, Fetch.take, hstack]
        exact hfollow j.fetch (some (e))
      | ok r =>
        simp only [handle, Fetch.take, hstack]
        exact ⟨rfl, fun _ he => by cases he⟩
    | _ => exact ⟨rfl, fun _ he => by cases he⟩

namespace Joining

/-- Does the session stand where a course of its client's side stands? -/
structure Follows (j : Joining) (c : Course) : Prop where
  fetch : c.fetch = j.join.fetch
  held : c.held = j.position.held
  handled : c.handled = j.handled

/-- Whatever happens to a session is a step of its course, or none. -/
theorem Step.follows {j j' : Joining} (hstep : Step j j') {c : Course} (h : j.Follows c) :
    ∃ c', Relation.ReflTransGen Course.Step c c' ∧ j'.Follows c' := by
  have hstay : ∀ {j' : Joining}, j'.join.fetch = j.join.fetch → j'.position.held = j.position.held →
      j'.handled = j.handled → ∃ c', Relation.ReflTransGen Course.Step c c' ∧ j'.Follows c' := by
    intro j' hfetch hheld hhandled
    exact ⟨c, .refl, h.fetch.trans hfetch.symm, h.held.trans hheld.symm,
      h.handled.trans hhandled.symm⟩
  cases hstep with
  | arrive bs => exact hstay rfl rfl rfl
  | hangUp => exact hstay rfl rfl rfl
  | write w os => exact hstay rfl rfl rfl
  | stop hresult hposition hcancelled => exact hstay rfl rfl rfl
  | cancel =>
    refine ⟨_, .single (.cancel c), ?_, h.held, h.handled⟩
    rw [h.fetch]
  | inner hinner =>
    cases hinner with
    | @read o e hresult hposition hread =>
      cases o with
      | packet raw =>
        rw [react, take]
        split
        · exact hstay rfl rfl rfl
        · refine hstay rfl ?_ rfl
          rw [hposition]
          rfl
      | waiting => exact hstay rfl rfl rfl
      | failed cause => exact hstay rfl rfl rfl
      | ended => exact hstay rfl rfl rfl
    | skip hresult hposition hadmits =>
      refine hstay rfl ?_ rfl
      rw [hposition]
      rfl
    | @hold p ps hresult hposition hadmits =>
      have hnone : c.held = none := by rw [h.held, hposition]; rfl
      rw [← h.fetch] at hadmits
      exact ⟨_, .single (.hold hnone hadmits), h.fetch, rfl, h.handled⟩
    | @handle p ps hresult hposition =>
      have hheld : c.held = some p := by rw [h.held, hposition]; rfl
      refine ⟨_, .single (.handle hheld), ?_, rfl, ?_⟩
      · show (c.fetch.take p).1 = (j.join.handle p).side.fetch
        rw [(j.join.handle_eq p).1, h.fetch]
      · show c.handled ++ _ = j.handled ++ _
        rw [h.handled, h.fetch]
    | check hresult hposition =>
      refine hstay rfl ?_ rfl
      rw [hposition]
      rfl
    | @work k d slotFirst hresult hk hawake =>
      refine ⟨_, .single (.work c k slotFirst), ?_, h.held, h.handled⟩
      show (c.fetch.work k slotFirst).1 = _
      rw [h.fetch]
      rfl

theorem Reachable.follows {join : Join} (hfetch : join.fetch = { rules := join.fetch.rules })
    {j : Joining} (h : Reachable join j) :
    ∃ c, Course.Reachable join.fetch.rules c ∧ j.Follows c := by
  induction h with
  | refl => exact ⟨_, .refl, hfetch.symm, rfl, rfl⟩
  | tail _ hstep ih =>
    obtain ⟨c, hreachable, hfollows⟩ := ih
    obtain ⟨c', hsteps, hfollows'⟩ := hstep.follows hfollows
    exact ⟨c', hreachable.trans hsteps, hfollows'⟩

/-- What holds at every moment of a session: no chunk is longer than a packet can say, and a good
end comes with the resolved packs of a complete exchange. -/
structure Sound (j : Joining) : Prop where
  unhandled : ∀ p ∈ j.position.packets, p.Sized
  handled : ∀ h ∈ j.handled, h.packet.Sized
  result : ∀ packs, j.result = some (.ok packs) →
    j.join.fetch.stage = .done ∧ packs = j.join.fetch.resolved

theorem sound_start (join : Join) : (start join).Sound :=
  ⟨(fun _ hp => nomatch hp), (fun _ hh => nomatch hh), nofun⟩

theorem Sound.inner {j j' : Joining} (h : j.Sound) (hinner : Inner j j') : j'.Sound := by
  have hopen : ∀ {j' : Joining}, j'.handled = j.handled → j'.result = none →
      (∀ p ∈ j'.position.packets, p.Sized) → j'.Sound := by
    intro j' hhandled hresult hpackets
    refine ⟨hpackets, ?_, ?_⟩
    · rw [hhandled]
      exact h.handled
    · intro packs hok
      rw [hresult] at hok
      cases hok
  have hfail : ∀ {j' : Joining} {e : SessionError}, j'.handled = j.handled →
      j'.position = j.position → j'.result = some (.error e) → j'.Sound := by
    intro j' e hhandled hposition hresult
    refine ⟨?_, ?_, ?_⟩
    · rw [hposition]
      exact h.unhandled
    · rw [hhandled]
      exact h.handled
    · intro packs hok
      rw [hresult] at hok
      cases hok
  cases hinner with
  | @read o e hresult hposition hread =>
    cases o with
    | packet raw =>
      rw [react, take]
      split
      · exact hfail rfl rfl rfl
      · next ps hps => exact hopen rfl hresult (openRaw_sized hps)
    | waiting => exact hopen rfl hresult h.unhandled
    | failed cause => exact hfail rfl rfl rfl
    | ended => exact hfail rfl rfl rfl
  | @skip p ps hresult hposition hadmits =>
    have hunhandled := h.unhandled
    rw [hposition] at hunhandled
    exact hopen rfl hresult fun q hq => hunhandled q (List.mem_cons_of_mem p hq)
  | @hold p ps hresult hposition hadmits =>
    have hunhandled := h.unhandled
    rw [hposition] at hunhandled
    exact hopen rfl hresult hunhandled
  | @handle p ps hresult hposition =>
    have hunhandled := h.unhandled
    rw [hposition] at hunhandled
    refine ⟨?_, ?_, ?_⟩
    · exact fun q hq => hunhandled q (List.mem_cons_of_mem p hq)
    · intro x hx
      rcases List.mem_append.mp hx with hx | hx
      · exact h.handled x hx
      · rw [List.mem_singleton] at hx
        subst hx
        exact hunhandled p List.mem_cons_self
    · intro packs hok
      obtain ⟨e, he, heq⟩ := Option.map_eq_some_iff.mp hok
      obtain ⟨cause, hcause⟩ := (j.join.handle_eq p).2 e he
      rw [hcause] at heq
      cases heq
  | @check ps hresult hposition =>
    have hunhandled := h.unhandled
    rw [hposition] at hunhandled
    refine ⟨hunhandled, h.handled, ?_⟩
    intro packs hok
    obtain ⟨e, he, heq⟩ := Option.map_eq_some_iff.mp hok
    rw [Join.conclude] at he
    split at he
    · next hdone =>
      cases he
      cases heq
      exact ⟨hdone, rfl⟩
    · cases he
  | @work k d slotFirst hresult hk hawake => exact hopen rfl hresult h.unhandled

theorem Sound.step {j j' : Joining} (h : j.Sound) (hstep : Step j j') : j'.Sound := by
  cases hstep with
  | inner hinner => exact h.inner hinner
  | arrive bs => exact ⟨h.unhandled, h.handled, h.result⟩
  | hangUp => exact ⟨h.unhandled, h.handled, h.result⟩
  | write w os => exact ⟨h.unhandled, h.handled, h.result⟩
  | cancel => exact ⟨h.unhandled, h.handled, h.result⟩
  | stop hresult hposition hcancelled => exact ⟨h.unhandled, h.handled, nofun⟩

theorem Reachable.sound {join : Join} {j : Joining} (h : Reachable join j) : j.Sound := by
  induction h with
  | refl => exact sound_start join
  | tail _ hstep ih => exact ih.step hstep

/-- **What a client may trust when it has joined.**  Whatever a server has sent and whenever the
workers ran, a session that ends with packs has handled one catalog and has exactly the wanted
packs of it, each once, as they were announced and sent; and the one load order that was accepted
names nothing else, but for packs that every client has or the filter has turned down. -/
theorem join_safe (settings : SessionSettings) (revision : Revision)
    (filter : Option DownloadFilter) {j : Joining} {packs : List Pack}
    (h : Reachable ⟨settings, revision, { rules := { filter := filter } }⟩ j)
    (hok : j.result = some (.ok packs)) : Handled.AccountFor filter j.handled packs := by
  obtain ⟨c, hreachable, hfollows⟩ := h.follows rfl
  have hsound := h.sound
  obtain ⟨hdone, rfl⟩ := hsound.result packs hok
  have hsized : c.Sized := by
    intro x hx
    rw [hfollows.handled] at hx
    exact hsound.handled x hx
  rw [← hfollows.fetch] at hdone ⊢
  rw [← hfollows.handled]
  exact Course.delivered hreachable rfl hsized hdone

/-- The catalog of a server that has one pack. -/
def exampleCatalog : Packet :=
  .catalog { packs := [{ uuid := ⟨0, 1⟩, version := "1.0.0", size := 3 }] }

/-- The announcement of this pack, in chunks of two bytes. -/
def exampleAnnouncement : Packet :=
  .packData { uuid := "00000000-0000-0000-0000-000000000001", chunkSize := 2, size := 3 }

/-- A chunk of this pack. -/
def exampleChunk (index : UInt32) (data : Bytes) : Packet :=
  .chunkData { uuid := "00000000-0000-0000-0000-000000000001", index := index, data := data }

/-- The load order that names this pack alone. -/
def exampleStack : Packet :=
  .stack { packs := [{ uuid := "00000000-0000-0000-0000-000000000001", version := "1.0.0" }] }

/-- What this server writes. -/
def exampleStream : Bytes :=
  Frame.write none [(Packet.networkSettings {}).toBytes 0] ++
    [exampleCatalog, exampleAnnouncement, exampleChunk 0 [7, 8], exampleChunk 1 [9],
      exampleStack].flatMap fun p => Frame.write (some 256) [p.toBytes 0]

/-- The session of a client that has read all of this. -/
def exampleJoining : Joining :=
  let j := (start ⟨{}, .latest, {}⟩).hear exampleStream
  let j := (j.pass (.networkSettings {})).pass exampleCatalog
  let j := (j.pass exampleAnnouncement).work 0 false
  let j := ((j.pass (exampleChunk 0 [7, 8])).work 0 false).work 0 false
  let j := ((j.pass (exampleChunk 1 [9])).work 0 false).work 0 false
  j.pass exampleStack

/-- This client has joined with the pack. -/
theorem join_safe_exampleJoining :
    ∃ packs, exampleJoining.result = some (.ok packs) ∧ packs.length = 1 ∧
      Handled.AccountFor none exampleJoining.handled packs := by
  have hreachable : Reachable ⟨{}, .latest, { rules := { filter := none } }⟩ exampleJoining := by
    refine Reachable.pass ?_ (exampleStack.toBytes 0) rfl rfl (by decide +kernel) rfl rfl rfl
    refine Relation.ReflTransGen.tail ?_ (.inner (.work false rfl rfl (by decide +kernel)))
    refine Relation.ReflTransGen.tail ?_ (.inner (.work false rfl rfl (by decide +kernel)))
    refine Reachable.pass ?_ ((exampleChunk 1 [9]).toBytes 0) rfl rfl (by decide +kernel) rfl
      rfl rfl
    refine Relation.ReflTransGen.tail ?_ (.inner (.work false rfl rfl (by decide +kernel)))
    refine Relation.ReflTransGen.tail ?_ (.inner (.work false rfl rfl (by decide +kernel)))
    refine Reachable.pass ?_ ((exampleChunk 0 [7, 8]).toBytes 0) rfl rfl (by decide +kernel) rfl
      rfl rfl
    refine Relation.ReflTransGen.tail ?_ (.inner (.work false rfl rfl (by decide +kernel)))
    refine Reachable.pass ?_ (exampleAnnouncement.toBytes 0) rfl rfl (by decide +kernel) rfl rfl rfl
    refine Reachable.pass ?_ (exampleCatalog.toBytes 0) rfl rfl (by decide +kernel) rfl rfl rfl
    refine Reachable.pass ?_ ((Packet.networkSettings {}).toBytes 0) rfl rfl (by decide +kernel)
      rfl rfl rfl
    exact Reachable.hear .refl rfl rfl rfl rfl (by decide +kernel)
  have hresult : ∃ packs, exampleJoining.result = some (.ok packs) ∧ packs.length = 1 := by
    refine ⟨_, rfl, rfl⟩
  obtain ⟨packs, hok, hlength⟩ := hresult
  exact ⟨packs, hok, hlength, join_safe {} .latest none hreachable hok⟩

end Joining

end PackExchange
