import PackExchange.Proofs.Transfer.Calls

/-!
# What a server delivers

A client may call a server in any order, as often as it likes and with any texts and numbers.  What
the server makes of it is recorded, and the record is always one of a few forms.

* `Offer.Call`, `Offer.run` — any calls, one after another, and what they leave on record;
* `Offer.Sending`, `Offer.Served` — a pack with the chunks that were sent of it so far, and packs
  that were sent whole, one after another;
* `Offer.Rounds` — a record in which every pack that was asked for was sent whole;
* `Offer.Progress` — the records a server comes to, with the offer that goes with each;
* `Offer.Progress.step`, `Offer.Progress.run` — calls lead from one of them to another;
* `Offer.run_delivers` — what a client is sent after the catalog.
-/

namespace PackExchange

namespace Offer

/-! ### Calls and records -/

/-- What a client may call a server for. -/
inductive Call where
  | answer (r : ClientResponse)
  | request (r : ChunkRequest)

/-- What is on record of an exchange. -/
inductive Event where
  /-- The client asked for packs, and the server agreed. -/
  | asked (tokens : List String)
  | sent (p : Packet)

/-- The reaction to a call. -/
def hear (o : Offer) : Call → Except TransferError (Offer × List Packet)
  | .answer r => o.respond r
  | .request r => o.serveChunk r

/-- What a call itself leaves on record. -/
def Call.record : Call → List Event
  | .answer r => if Answer.ofCode? r.response = some .sendPacks then [.asked r.packs] else []
  | .request _ => []

/-- The offer after a call, and what goes on record.  A call that fails changes nothing. -/
def step (o : Offer) (c : Call) : Offer × List Event :=
  match o.hear c with
  | .error _ => (o, [])
  | .ok (o', sent) => (o', c.record ++ sent.map .sent)

/-- The offer after some calls, and the record of them. -/
def run (o : Offer) : List Call → Offer × List Event
  | [] => (o, [])
  | c :: cs => (((o.step c).1.run cs).1, (o.step c).2 ++ ((o.step c).1.run cs).2)

/-- The bytes of the chunks on a record, in order. -/
def Event.bytes : Event → Bytes
  | .sent (.chunkData c) => c.data
  | _ => []

/-! ### Records -/

/-- How many chunks a pack on offer has. -/
def chunks (o : Offer) (p : Pack) : Nat := Download.ceiling p.size o.chunkSize

/-- A pack was announced, and so many of its chunks were sent, from the first on. -/
inductive Sending (o : Offer) (p : Pack) (content : Bytes) : Nat → List Event → Prop
  | announced : Sending o p content 0 [.sent (.packData (o.announcement p))]
  | chunk {n : Nat} {es : List Event} {c : ChunkData} (h : Sending o p content n es)
      (hc : c.Carries p content o.chunkSize n) :
      Sending o p content (n + 1) (es ++ [.sent (.chunkData c)])

/-- Packs were announced and sent whole, one after another. -/
inductive Served (o : Offer) (content : Pack → Bytes) : List Pack → List Event → Prop
  | nil : Served o content [] []
  | next {ps : List Pack} {p : Pack} {es es' : List Event} (h : Served o content ps es)
      (hp : Sending o p (content p) (o.chunks p) es') : Served o content (ps ++ [p]) (es ++ es')

/-- Nothing is being sent: what was asked for was sent whole, each time the client asked. -/
inductive Rounds (o : Offer) (content : Pack → Bytes) : ServerStage → List Event → Prop
  | start : Rounds o content .awaitingResponse []
  | round {es es' : List Event} {tokens : List String} {ps : List Pack}
      (h : Rounds o content .awaitingResponse es) (hnames : o.Names tokens ps)
      (hserved : Served o content ps es') :
      Rounds o content .awaitingResponse (es ++ .asked tokens :: es')
  | stack {es : List Event} (h : Rounds o content .awaitingResponse es) :
      Rounds o content .awaitingCompletion (es ++ [.sent (.stack o.stack)])
  | completed {es : List Event} (h : Rounds o content .awaitingCompletion es) :
      Rounds o content .loggedIn es

/-- The offer while no pack is being served. -/
def resting (o : Offer) (stage : ServerStage) : Offer := { o with stage := stage, serving := none }

/-- The offer while a pack is being served. -/
def busy (o : Offer) (s : Serving) : Offer := { o with stage := .servingChunks, serving := some s }

/-- The records that a server comes to, and the offer at that moment. -/
inductive Progress (o : Offer) (content : Pack → Bytes) : Offer → List Event → Prop
  | idle {stage : ServerStage} {es : List Event} (h : Rounds o content stage es) :
      Progress o content (o.resting stage) es
  /-- Of the packs that were asked for last some were sent whole, and of the next one some chunks. -/
  | serving {es es' es'' : List Event} {tokens : List String} {before later : List Pack}
      {p : Pack} {n : Nat} {offset : UInt64} (h : Rounds o content .awaitingResponse es)
      (hnames : o.Names tokens (before ++ p :: later)) (hbefore : Served o content before es')
      (hp : Sending o p (content p) n es'') (hn : n < o.chunks p)
      (hoffset : offset.toNat = n * o.chunkSize.toNat) :
      Progress o content (o.busy { pack := p, offset, later })
        (es ++ .asked tokens :: (es' ++ es''))

/-- An offer of packs whose chunks can be numbered. -/
def Numbered (o : Offer) (content : Pack → Bytes) : Prop :=
  ∀ p ∈ o.packs, p.Numbered (content p) o.chunkSize

variable {o o' : Offer} {content : Pack → Bytes}

theorem step_of_error {c : Call} {e : TransferError} (h : o.hear c = .error e) :
    o.step c = (o, []) := by
  rw [step, h]

theorem step_of_ok {c : Call} {sent : List Packet} (h : o.hear c = .ok (o', sent)) :
    o.step c = (o', c.record ++ sent.map .sent) := by
  rw [step, h]

/-- The bytes of the chunks that were sent of a pack are its first bytes. -/
theorem Sending.bytes {p : Pack} {bs : Bytes} {n : Nat} {es : List Event}
    (h : Sending o p bs n es) : es.flatMap Event.bytes = bs.take (n * o.chunkSize.toNat) := by
  induction h with
  | announced => simp [Event.bytes]
  | chunk _ hc ih =>
    rw [List.flatMap_append, ih, ← Pack.take_append_chunk]
    simp [Event.bytes, hc.data]

/-- A pack that was sent whole was sent with all its bytes. -/
theorem Sending.whole {p : Pack} {bs : Bytes} {es : List Event} (hp : p.Numbered bs o.chunkSize)
    (h : Sending o p bs (o.chunks p) es) : es.flatMap Event.bytes = bs := by
  rw [h.bytes]
  exact hp.take_count (Nat.le_refl _)

/-! ### One call -/

theorem serveNext_resting (o : Offer) (stage : ServerStage) (ps : List Pack) :
    (o.resting stage).serveNext ps = o.serveNext ps := by
  cases ps <;> rfl

theorem serveNext_busy (o : Offer) (s : Serving) (ps : List Pack) :
    (o.busy s).serveNext ps = o.serveNext ps := by
  cases ps <;> rfl

/-- The next pack is announced, or all packs were sent. -/
theorem Progress.next (hnumbered : o.Numbered content) {es es' : List Event}
    {tokens : List String} {before later : List Pack}
    (h : Rounds o content .awaitingResponse es) (hnames : o.Names tokens (before ++ later))
    (hbefore : Served o content before es') :
    Progress o content (o.serveNext later).1
      (es ++ .asked tokens :: (es' ++ (o.serveNext later).2.map .sent)) := by
  cases later with
  | nil =>
    rw [List.append_nil] at hnames
    rw [serveNext, List.map_nil, List.append_nil]
    exact .idle (.round h hnames hbefore)
  | cons p later =>
    have hmem : p ∈ o.packs := hnames.mem (List.mem_append_right before List.mem_cons_self)
    refine .serving (n := 0) h hnames hbefore .announced (hnumbered p hmem).count_pos ?_
    rw [Nat.zero_mul]
    rfl

/-- The next chunk of the pack that is being served. -/
theorem busy_request {p : Pack} {bs : Bytes} {n : Nat} {offset : UInt64} (later : List Pack)
    {r : ChunkRequest} (hp : p.Numbered bs o.chunkSize) (hn : n < o.chunks p)
    (hoffset : offset.toNat = n * o.chunkSize.toNat)
    (huuid : PackId.uuidOf? r.uuid = some p.id.uuid)
    (hindex : offset.toNat = r.index.toNat * o.chunkSize.toNat) :
    ∃ c : ChunkData, c.Carries p bs o.chunkSize n ∧
      (n + 1 < o.chunks p ∧ (∃ offset' : UInt64, offset'.toNat = (n + 1) * o.chunkSize.toNat ∧
        (o.busy { pack := p, offset, later }).hear (.request r) =
          .ok (o.busy { pack := p, offset := offset', later }, [.chunkData c])) ∨
      n + 1 = o.chunks p ∧ (o.busy { pack := p, offset, later }).hear (.request r) =
        .ok ((o.serveNext later).1, .chunkData c :: (o.serveNext later).2)) := by
  have hindex' : r.index.toNat = n := by
    rw [hoffset] at hindex
    exact (Nat.eq_of_mul_eq_mul_right hp.chunkSize_pos hindex).symm
  obtain ⟨c, -, hcarries, hnext⟩ := serveChunk_next (o := o.busy { pack := p, offset, later })
    rfl hp hoffset hn huuid hindex'
  rw [serveNext_busy] at hnext
  exact ⟨c, hcarries, hnext⟩

/-- What an answer leaves on record. -/
theorem Progress.answer (hnumbered : o.Numbered content) {es : List Event}
    (h : Progress o content o' es) (r : ClientResponse) :
    Progress o content (o'.step (.answer r)).1 (es ++ (o'.step (.answer r)).2) := by
  cases hrespond : o'.respond r with
  | error e =>
    rw [step_of_error (c := .answer r) hrespond, List.append_nil]
    exact h
  | ok reply =>
    obtain ⟨o'', sent⟩ := reply
    rw [step_of_ok (c := .answer r) hrespond]
    cases responded_of_respond hrespond with
    | @asked packs hstage hanswer hnames =>
      cases h with
      | serving _ _ _ _ _ _ => cases hstage
      | @idle stage _ h =>
        cases hstage
        rw [Call.record, if_pos hanswer]
        rw [serveNext_resting]
        have hnames' : o.Names r.packs ([] ++ packs) := hnames
        exact Progress.next hnumbered h hnames' .nil
    | downloaded hstage hanswer =>
      cases h with
      | serving _ _ _ _ _ _ => cases hstage
      | @idle stage _ h =>
        cases hstage
        rw [Call.record, hanswer]
        exact .idle h.stack
    | completed hstage hanswer =>
      cases h with
      | serving _ _ _ _ _ _ => cases hstage
      | @idle stage _ h =>
        cases hstage
        rw [Call.record, hanswer, if_neg (by decide), List.map_nil, List.append_nil,
          List.append_nil]
        exact .idle h.completed

/-- What a request for a chunk leaves on record. -/
theorem Progress.request (hnumbered : o.Numbered content) {es : List Event}
    (h : Progress o content o' es) (r : ChunkRequest) :
    Progress o content (o'.step (.request r)).1 (es ++ (o'.step (.request r)).2) := by
  cases h with
  | idle h =>
    rw [step_of_error (c := .request r) (serveChunk_idle rfl r), List.append_nil]
    exact .idle h
  | @serving es es' es'' tokens before later p n offset h hnames hbefore hp hn hoffset =>
    have hmem : p ∈ o.packs := hnames.mem (List.mem_append_right before List.mem_cons_self)
    by_cases hasks : PackId.uuidOf? r.uuid = some p.id.uuid ∧
        offset.toNat = r.index.toNat * o.chunkSize.toNat
    · obtain ⟨c, hcarries, hnext⟩ :=
        busy_request later (hnumbered p hmem) hn hoffset hasks.1 hasks.2
      have hsent := hp.chunk hcarries
      rcases hnext with ⟨hmore, offset', hoffset', hhear⟩ | ⟨hlast, hhear⟩
      · rw [step_of_ok hhear]
        have hprogress := Progress.serving h hnames hbefore hsent hmore hoffset'
        simpa [Call.record] using hprogress
      · rw [step_of_ok hhear]
        rw [hlast] at hsent
        have hnames' : o.Names tokens (before ++ [p] ++ later) := by
          rw [List.append_assoc]
          exact hnames
        have hprogress := Progress.next hnumbered h hnames' (hbefore.next hsent)
        simpa [Call.record] using hprogress
    · obtain ⟨e, hserve⟩ := serveChunk_refused (o := o.busy { pack := p, offset, later }) rfl hasks
      rw [step_of_error (o := o.busy { pack := p, offset, later }) (c := .request r) hserve,
        List.append_nil]
      exact .serving h hnames hbefore hp hn hoffset

/-- **A call leads from one record to another.** -/
theorem Progress.step (hnumbered : o.Numbered content) {es : List Event}
    (h : Progress o content o' es) (c : Call) :
    Progress o content (o'.step c).1 (es ++ (o'.step c).2) := by
  cases c with
  | answer r => exact h.answer hnumbered r
  | request r => exact h.request hnumbered r

/-! ### All calls -/

/-- **And so do any calls.** -/
theorem Progress.run (hnumbered : o.Numbered content) {es : List Event}
    (h : Progress o content o' es) (cs : List Call) :
    Progress o content (o'.run cs).1 (es ++ (o'.run cs).2) := by
  induction cs generalizing o' es with
  | nil =>
    rw [Offer.run, List.append_nil]
    exact h
  | cons c cs ih =>
    rw [Offer.run, ← List.append_assoc]
    exact ih (h.step hnumbered c)

/-! ### What is accepted -/

/-- While a pack is being served, its next chunk is what may be asked for. -/
theorem Progress.request_accepted_iff (hnumbered : o.Numbered content) {es : List Event}
    (h : Progress o content o' es) {s : Serving} (hserving : o'.serving = some s)
    (r : ChunkRequest) :
    (∃ reply, o'.serveChunk r = .ok reply) ↔
      PackId.uuidOf? r.uuid = some s.pack.id.uuid ∧
        s.offset.toNat = r.index.toNat * o.chunkSize.toNat := by
  cases h with
  | idle h => cases hserving
  | @serving es es' es'' tokens before later p n offset h hnames hbefore hp hn hoffset =>
    obtain rfl : { pack := p, offset, later } = s := Option.some.inj hserving
    constructor
    · rintro ⟨reply, hreply⟩
      by_contra hother
      obtain ⟨e, he⟩ := serveChunk_refused (o := o.busy { pack := p, offset, later }) rfl hother
      rw [he] at hreply
      cases hreply
    · rintro ⟨huuid, hindex⟩
      have hmem : p ∈ o.packs := hnames.mem (List.mem_append_right before List.mem_cons_self)
      obtain ⟨c, -, ⟨-, offset', -, hhear⟩ | ⟨-, hhear⟩⟩ :=
        busy_request later (hnumbered p hmem) hn hoffset huuid hindex
      · exact ⟨_, hhear⟩
      · exact ⟨_, hhear⟩

/-- While the client is to answer, it may ask for any packs that its tokens name. -/
theorem Progress.asked_accepted_iff {es : List Event} (h : Progress o content o' es)
    (hstage : o'.stage = .awaitingResponse) {r : ClientResponse}
    (hanswer : Answer.ofCode? r.response = some .sendPacks) :
    (∃ reply, o'.respond r = .ok reply) ↔ ∃ ps, o.Names r.packs ps := by
  cases h with
  | serving _ _ _ _ _ _ => cases hstage
  | idle _ =>
    constructor
    · rintro ⟨⟨o'', sent⟩, hreply⟩
      cases responded_of_respond hreply with
      | asked _ _ hnames => exact ⟨_, hnames⟩
      | downloaded _ hother | completed _ hother =>
        rw [hanswer] at hother
        cases hother
    · rintro ⟨ps, hnames⟩
      exact ⟨_, respond_asked hstage hanswer hnames⟩

/-- **What a server delivers**, whatever its client calls for after the catalog.  Each time packs
are asked for by tokens that name them they are sent one after another, in the order in which they
were first named; each is announced and then sent chunk by chunk from the first to the last, of
which it has as many as its length needs, and only the last pack may be under way.  The chunks of a
pack are its bytes, and have the checksum that was announced.  The server accepts the request for
the next chunk and no other, and to be asked for packs that are on offer. -/
theorem run_delivers {packs : List Pack} {content : Pack → Bytes} (chunkSize : UInt32)
    (required : Bool) (hholds : ∀ p ∈ packs, p.Holds (content p))
    (hcountable : ∀ p ∈ packs,
      Download.ceiling p.size (ofPacks packs chunkSize).chunkSize ≤ 2 ^ 32)
    (calls : List Call) :
    let o := ((ofPacks packs chunkSize).start required).1
    let o' := (o.run calls).1
    Progress o content o' (o.run calls).2 ∧
      (∀ p ∈ o.packs, ∀ es, Sending o p (content p) (o.chunks p) es →
        es.flatMap Event.bytes = content p ∧
          Sha256.digest (es.flatMap Event.bytes) = (o.announcement p).hash) ∧
      (∀ s, o'.serving = some s → ∀ r, (∃ reply, o'.serveChunk r = .ok reply) ↔
        PackId.uuidOf? r.uuid = some s.pack.id.uuid ∧
          s.offset.toNat = r.index.toNat * o.chunkSize.toNat) ∧
      (o'.stage = .awaitingResponse → ∀ r, Answer.ofCode? r.response = some .sendPacks →
        ((∃ reply, o'.respond r = .ok reply) ↔ ∃ ps, o.Names r.packs ps)) := by
  intro o o'
  have hnumbered : o.Numbered content := by
    intro p hp
    obtain ⟨hmem, hsome⟩ := List.mem_filter.mp hp
    refine ⟨hholds p hmem, ?_, ?_, hcountable p hmem⟩
    · rw [Pack.isEmpty, Bool.not_eq_true', beq_eq_false_iff_ne] at hsome
      exact hsome
    · show (if chunkSize = 0 then 1 else chunkSize) ≠ 0
      split
      · decide
      · next hne => exact hne
  have hprogress : Progress o content o' (o.run calls).2 :=
    Progress.run hnumbered (.idle .start) calls
  refine ⟨hprogress, ?_, ?_, ?_⟩
  · intro p hp es hsending
    have hwhole := hsending.whole (hnumbered p hp)
    exact ⟨hwhole, by rw [hwhole]; exact (hnumbered p hp).holds.checksum.symm⟩
  · intro s hserving r
    exact hprogress.request_accepted_iff hnumbered hserving r
  · intro hstage r hanswer
    exact hprogress.asked_accepted_iff hstage hanswer

/-- Two packs of five and four bytes. -/
def exampleArchives : List Archive :=
  [{ id := ⟨⟨0, 1⟩, "1.0.0"⟩, data := [1, 2, 3, 4, 5] },
    { id := ⟨⟨0, 2⟩, "1.0.0"⟩, data := [6, 7, 8, 9] }]

/-- A client that asks for the second pack, the first and the second again, and for one chunk of the
first pack too early. -/
def exampleCalls : List Call :=
  let first := "00000000-0000-0000-0000-000000000001"
  let second := "00000000-0000-0000-0000-000000000002_1.0.0"
  [.answer ⟨Answer.sendPacks.code, [second, first, second]⟩, .request ⟨second, 0⟩,
    .request ⟨second, 1⟩, .request ⟨first, 1⟩, .request ⟨first, 0⟩, .request ⟨first, 1⟩,
    .request ⟨first, 2⟩, .answer (.plain .allPacksDownloaded)]

/-- The bytes of these packs. -/
def exampleBytes (p : Pack) : Bytes :=
  if p.id.uuid = ⟨0, 1⟩ then [1, 2, 3, 4, 5] else [6, 7, 8, 9]

/-- This client gets both packs in two and three chunks, and the load order. -/
theorem run_delivers_exampleCalls :
    let o := ((ofPacks (exampleArchives.map (·.toPack)) 2).start false).1
    (o.run exampleCalls).2.length = 9 ∧ (o.run exampleCalls).1.stage = .awaitingCompletion ∧
      Progress o exampleBytes (o.run exampleCalls).1 (o.run exampleCalls).2 := by
  refine ⟨by decide +kernel, by decide +kernel, ?_⟩
  refine (run_delivers 2 false ?_ ?_ exampleCalls).1
  · intro p hp
    simp only [exampleArchives, List.map_cons, List.map_nil, List.mem_cons, List.not_mem_nil,
      or_false] at hp
    rcases hp with rfl | rfl
    · exact Pack.holds_toPack _ (by decide)
    · exact Pack.holds_toPack _ (by decide)
  · decide +kernel

end Offer

end PackExchange
