import PackExchange.Proofs.Session.Hearing
import PackExchange.Proofs.Transfer.Service

/-!
# The language of a server

Whatever raw packets a client sends, and whatever the stores of the packs give, what a server sends
has one of two forms: a client of an unknown revision is told so, and any other is greeted and sent
rounds of downloads, the load order and the word that it is in the game.  Of the second form
everything may be missing from some place on.

* `Offer.Underway`, `Offer.Round`, `Offer.Downloads` — a pack of which some chunks were sent, packs
  that were sent one after another, and rounds of them;
* `Serve.Word` — what a server may send in all;
* `Serve.Spoke` — where a session stands, with what it has sent so far;
* `Serve.Spoke.take`, `Serve.Spoke.hear` — raw packets lead from one of these to another;
* `Serve.speaks` — what a server sends, and when it sends the packets at the end.
-/

namespace PackExchange

/-! ### Downloads -/

namespace Offer

/-- A pack was announced, and so many of its chunks were sent, from the first on; none of them
reaches its end. -/
inductive Underway (o : Offer) (p : Pack) : Nat → List Packet → Prop
  | announced : Underway o p 0 [.packData (o.announcement p)]
  | chunk {k : Nat} {w : List Packet} {c : ChunkData} (h : Underway o p k w)
      (hc : c.Reads p o.chunkSize k) (hmore : ¬ c.Reaches p) :
      Underway o p (k + 1) (w ++ [.chunkData c])

/-- Packs were sent one after another, each up to the chunk that reaches its end. -/
inductive Round (o : Offer) : List Pack → List Packet → Prop
  | nil : Round o [] []
  | next {ps : List Pack} {p : Pack} {k : Nat} {w w' : List Packet} {c : ChunkData}
      (h : Round o ps w) (hp : Underway o p k w') (hc : c.Reads p o.chunkSize k)
      (hlast : c.Reaches p) : Round o (ps ++ [p]) (w ++ (w' ++ [.chunkData c]))

/-- Any number of rounds.  The packs of a round are those that tokens of the client name. -/
inductive Downloads (o : Offer) : List Packet → Prop
  | nil : Downloads o []
  | round {w w' : List Packet} {tokens : List String} {ps : List Pack} (h : Downloads o w)
      (hnames : o.Names tokens ps) (hround : Round o ps w') : Downloads o (w ++ w')

end Offer

namespace Offer

variable {o : Offer}

theorem Underway.transfers {p : Pack} {k : Nat} {w : List Packet} (h : o.Underway p k w) :
    ∀ q ∈ w, q.transfers = true := by
  induction h with
  | announced =>
    intro q hq
    rw [List.mem_singleton.mp hq]
    rfl
  | chunk _ _ _ ih =>
    intro q hq
    rcases List.mem_append.mp hq with hq | hq
    · exact ih q hq
    · rw [List.mem_singleton.mp hq]
      rfl

theorem Round.transfers {ps : List Pack} {w : List Packet} (h : o.Round ps w) :
    ∀ q ∈ w, q.transfers = true := by
  induction h with
  | nil => exact List.forall_mem_nil _
  | next _ hp _ _ ih =>
    intro q hq
    rcases List.mem_append.mp hq with hq | hq
    · exact ih q hq
    · rcases List.mem_append.mp hq with hq | hq
      · exact hp.transfers q hq
      · rw [List.mem_singleton.mp hq]
        rfl

theorem Downloads.transfers {w : List Packet} (h : o.Downloads w) :
    ∀ q ∈ w, q.transfers = true := by
  induction h with
  | nil => exact List.forall_mem_nil _
  | round _ _ hround ih =>
    intro q hq
    rcases List.mem_append.mp hq with hq | hq
    · exact ih q hq
    · exact hround.transfers q hq

theorem serveNext_transfers (o : Offer) (ps : List Pack) :
    ∀ q ∈ (o.serveNext ps).2, q.transfers = true := by
  cases ps with
  | nil => exact List.forall_mem_nil _
  | cons p later => exact Underway.announced.transfers

end Offer

/-! ### What a server may send -/

namespace Serve

/-- The packets that a client of a known revision is greeted with. -/
def greeting (s : Serve) : List Packet :=
  [.networkSettings s.networkSettings, .playStatus .loginSuccess,
    .catalog (s.offer.catalog s.settings.required)]

/-- What a server may send in all. -/
inductive Word (s : Serve) : List Packet → Prop
  /-- A client of an unknown revision is told so, and nothing else. -/
  | refused {protocol : Int32} (h : Revision.ofNumber? protocol = none) :
      Word s [.playStatus (failedLogin protocol)]
  /-- After some rounds of downloads the load order, and then the word that the client is in the
  game. -/
  | complete {w : List Packet} (h : s.offer.Downloads w) :
      Word s (s.greeting ++ w ++ [.stack s.offer.stack, .playStatus .playerSpawn])
  /-- Some rounds of downloads, and one of which some packs were sent, and some chunks of another. -/
  | underway {w w' w'' : List Packet} {tokens : List String} {before later : List Pack} {p : Pack}
      {k : Nat} (h : s.offer.Downloads w) (hnames : s.offer.Names tokens (before ++ p :: later))
      (hbefore : s.offer.Round before w') (hp : s.offer.Underway p k w'') :
      Word s (s.greeting ++ w ++ w' ++ w'')

/-! ### Where a session stands -/

/-- What was sent after the downloads, by the stage that this led to. -/
def closing (s : Serve) : ServerStage → List Packet
  | .awaitingCompletion => [.stack s.offer.stack]
  | .loggedIn => [.stack s.offer.stack, .playStatus .playerSpawn]
  | _ => []

theorem closing_awaitingResponse (s : Serve) : s.closing .awaitingResponse = [] := rfl

/-- Where a session stands, with what it has sent so far. -/
inductive Spoke (s : Serve) : Serve → List Packet → Prop
  | silent : Spoke s s []
  | resting (revision : Revision) (stage : ServerStage) {w : List Packet}
      (h : s.offer.Downloads w) :
      Spoke s (s.on revision (s.offer.resting stage)) (s.greeting ++ w ++ s.closing stage)
  | serving (revision : Revision) {w w' w'' : List Packet} {tokens : List String}
      {before later : List Pack} {p : Pack} {k : Nat} {offset : UInt64}
      (h : s.offer.Downloads w) (hnames : s.offer.Names tokens (before ++ p :: later))
      (hbefore : s.offer.Round before w') (hp : s.offer.Underway p k w'')
      (hoffset : offset.toNat = k * s.offer.chunkSize.toNat) :
      Spoke s (s.on revision (s.offer.busy { pack := p, offset, later }))
        (s.greeting ++ w ++ w' ++ w'')

/-- The pack that is being served, with those after it. -/
def serving (s : Serve) : Option Serving := s.exchange.bind (·.2.serving)

variable {s s' : Serve} {w : List Packet}

/-- What was sent so far is the beginning of what may be sent in all. -/
theorem Spoke.word (h : s.Spoke s' w) : ∃ v, s.Word v ∧ w <+: v := by
  cases h with
  | silent => exact ⟨_, .complete .nil, List.nil_prefix⟩
  | @resting revision stage w h =>
    refine ⟨_, .complete h, ?_⟩
    rw [List.prefix_append_right_inj]
    cases stage with
    | awaitingCompletion => exact ⟨[.playStatus .playerSpawn], rfl⟩
    | loggedIn => exact List.prefix_refl _
    | _ => exact List.nil_prefix
  | serving _ h hnames hbefore hp _ => exact ⟨_, .underway h hnames hbefore hp, List.prefix_refl _⟩

/-- The next pack of a round is announced, or the round is over. -/
theorem Spoke.next (revision : Revision) {w w' : List Packet} {tokens : List String}
    {before later : List Pack} (h : s.offer.Downloads w)
    (hnames : s.offer.Names tokens (before ++ later)) (hbefore : s.offer.Round before w') :
    s.Spoke (s.on revision (s.offer.serveNext later).1)
      (s.greeting ++ w ++ w' ++ (s.offer.serveNext later).2) := by
  cases later with
  | nil =>
    rw [List.append_nil] at hnames
    have hspoke := Spoke.resting revision .awaitingResponse
      (h.round hnames hbefore)
    rw [← List.append_assoc] at hspoke
    exact hspoke
  | cons p later =>
    refine .serving revision (k := 0) h hnames hbefore .announced ?_
    rw [Nat.zero_mul]
    rfl

/-- An answer leads from where a session stands to where it may stand. -/
theorem Spoke.answer {revision : Revision} {o o' : Offer} {r : ClientResponse} {sent : List Packet}
    (h : s.Spoke s' w) (hexchange : s'.exchange = some (revision, o)) (hfresh : s.exchange = none)
    (hresponded : o.Responded r o' sent) :
    s.Spoke (s.on revision o')
      (w ++ (sent ++ if o'.loggedIn then [Packet.playStatus .playerSpawn] else [])) := by
  cases h with
  | silent =>
    rw [hfresh] at hexchange
    cases hexchange
  | serving _ _ _ _ _ _ =>
    cases hexchange
    cases hresponded with
    | asked hstage _ _ | downloaded hstage _ | completed hstage _ => cases hstage
  | @resting revision stage w h =>
    cases hexchange
    cases hresponded with
    | @asked packs hstage hanswer hnames =>
      cases hstage
      rw [Offer.serveNext_resting]
      have hlogged := s.offer.loggedIn_serveNext packs
      have hnames' : s.offer.Names r.packs ([] ++ packs) := hnames
      have hspoke := Spoke.next revision h hnames' .nil
      simpa only [hlogged, closing, Bool.false_eq_true, if_false, List.append_nil] using hspoke
    | downloaded hstage _ =>
      cases hstage
      rw [closing_awaitingResponse, List.append_nil]
      exact .resting _ .awaitingCompletion h
    | completed hstage _ =>
      cases hstage
      have hspoke := Spoke.resting revision .loggedIn h
      rw [List.append_assoc]
      exact hspoke

/-- So does a chunk that is sent. -/
theorem Spoke.give {revision : Revision} {o o' : Offer} {r : ChunkRequest} {sent : List Packet}
    (h : s.Spoke s' w) (hexchange : s'.exchange = some (revision, o)) (hfresh : s.exchange = none)
    (hserve : o.serveChunk r = .ok (o', sent)) : s.Spoke (s.on revision o') (w ++ sent) := by
  obtain ⟨t, c, hserving, hplace, hreads, hgiven⟩ := Offer.given_of_serveChunk hserve
  cases h with
  | silent =>
    rw [hfresh] at hexchange
    cases hexchange
  | resting _ _ _ =>
    cases hexchange
    cases hserving
  | @serving revision w w' w'' tokens before later p k offset h hnames hbefore hp hoffset =>
    cases hexchange
    cases hserving
    have hpos : 0 < s.offer.chunkSize.toNat :=
      Download.toNat_pos_of_ne_zero (Offer.chunkSize_ofPacks_ne _ _)
    have hindex : c.index.toNat = k := by
      rw [hoffset] at hplace
      exact (Nat.eq_of_mul_eq_mul_right hpos hplace).symm
    rw [hindex] at hreads
    cases hgiven with
    | last hlast =>
      rw [Offer.serveNext_busy]
      have hnames' : s.offer.Names tokens ((before ++ [p]) ++ later) := by
        rw [List.append_assoc]
        exact hnames
      have hspoke := Spoke.next revision h hnames' (hbefore.next hp hreads hlast)
      simpa only [List.append_assoc, List.singleton_append] using hspoke
    | inner hmore hoffset' =>
      rw [hindex] at hoffset'
      have hspoke := Spoke.serving revision h hnames hbefore
        (hp.chunk hreads hmore) hoffset'
      rw [← List.append_assoc] at hspoke
      exact hspoke

/-! ### Raw packets in a row -/

/-- Nothing but the exchange changes. -/
theorem Spoke.on_eq (h : s.Spoke s' w) (revision : Revision) (o : Offer) :
    s'.on revision o = s.on revision o := by
  cases h <;> rfl

/-- A session that has not agreed on a revision has sent nothing. -/
theorem Spoke.eq_nil (h : s.Spoke s' w) (hexchange : s'.exchange = none) : s' = s ∧ w = [] := by
  cases h with
  | silent => exact ⟨rfl, rfl⟩
  | resting _ _ _ => cases hexchange
  | serving _ _ _ _ _ _ => cases hexchange

/-- **A raw packet leads from where a session stands to where it may stand**, and what is sent stays
the beginning of what may be sent in all. -/
theorem Spoke.take (h : s.Spoke s' w) (hfresh : s.exchange = none) (raw : Bytes) :
    ((s'.take raw).ending = none → s.Spoke (s'.take raw).side (w ++ (s'.take raw).sent)) ∧
      ∃ v, s.Word v ∧ w ++ (s'.take raw).sent <+: v := by
  have htook := s'.took raw
  generalize s'.take raw = t at htook ⊢
  -- whoever goes on stands somewhere, and whoever sends nothing more has sent a beginning before
  have hgoing : s.Spoke t.side (w ++ t.sent) → (t.ending = none → s.Spoke t.side (w ++ t.sent)) ∧
      ∃ v, s.Word v ∧ w ++ t.sent <+: v := fun hspoke => ⟨fun _ => hspoke, hspoke.word⟩
  have hended : t.ending ≠ none → t.sent = [] → (t.ending = none → s.Spoke t.side (w ++ t.sent)) ∧
      ∃ v, s.Word v ∧ w ++ t.sent <+: v := by
    intro hending hsent
    rw [hsent, List.append_nil]
    exact ⟨fun hnone => absurd hnone hending, h.word⟩
  cases htook with
  | ignored =>
    apply hgoing
    rw [Turn.sent, List.filterMap_nil, List.append_nil]
    exact h
  | unreadable _ => exact hended (by simp) rfl
  | refused hexchange _ hnumber =>
    obtain ⟨rfl, rfl⟩ := h.eq_nil hexchange
    refine ⟨?_, _, .refused hnumber, List.prefix_refl _⟩
    intro hnone
    cases hnone
  | @agreed _ revision hexchange _ _ =>
    obtain ⟨rfl, rfl⟩ := h.eq_nil hexchange
    apply hgoing
    have hspoke := Spoke.resting (s := s') revision .awaitingResponse .nil
    rw [closing_awaitingResponse, List.append_nil, List.append_nil] at hspoke
    exact hspoke
  | left _ _ => exact hended (by simp [Turn.finish]) rfl
  | answered hexchange _ hresponded =>
    apply hgoing
    rw [Turn.sent_queued]
    show s.Spoke (s'.on _ _) _
    rw [h.on_eq]
    exact h.answer hexchange hfresh hresponded
  | served hexchange _ hserve =>
    apply hgoing
    rw [Turn.sent_queued]
    show s.Spoke (s'.on _ _) _
    rw [h.on_eq]
    exact h.give hexchange hfresh hserve
  | failed _ _ => exact hended (by simp [Turn.finish]) rfl

/-- **And so do any raw packets.** -/
theorem Spoke.hear (h : s.Spoke s' w) (hfresh : s.exchange = none) (raws : List Bytes) :
    ((role.hear s' raws).ending = none →
        s.Spoke (role.hear s' raws).side (w ++ (role.hear s' raws).sent)) ∧
      ∃ v, s.Word v ∧ w ++ (role.hear s' raws).sent <+: v := by
  induction raws generalizing s' w with
  | nil =>
    rw [Role.hear, Turn.sent, List.filterMap_nil, List.append_nil]
    exact ⟨fun _ => h, h.word⟩
  | cons raw raws ih =>
    obtain ⟨hspoke, hword⟩ := h.take hfresh raw
    rw [hear_cons]
    cases hending : (s'.take raw).ending with
    | some e =>
      rw [Turn.andThen_of_ended hending]
      exact ⟨hspoke, hword⟩
    | none =>
      rw [Turn.sent_andThen hending, ← List.append_assoc, Turn.andThen_of_going hending]
      exact ih (hspoke hending)

/-! ### Why a packet is sent -/

/-- Why a raw packet makes a server send a packet. -/
inductive Sends (s : Serve) (raw : Bytes) : Packet → Prop
  | greeting {q : Packet} (hexchange : s.exchange = none) (hq : q ∈ s.greeting) : Sends s raw q
  | refusal (hexchange : s.exchange = none) (protocol : Int32) :
      Sends s raw (.playStatus (failedLogin protocol))
  | transfer {q : Packet} {revision : Revision} {o : Offer}
      (hexchange : s.exchange = some (revision, o)) (hq : q.transfers = true)
      (hasked : o.stage = .awaitingResponse ∨ o.serving ≠ none) : Sends s raw q
  | stack {revision : Revision} {o : Offer} {r : ClientResponse}
      (hexchange : s.exchange = some (revision, o)) (hstage : o.stage = .awaitingResponse)
      (hopen : openRaw s.revision s.settings.policy raw = .ok [.clientResponse r])
      (hanswer : Answer.ofCode? r.response = some .allPacksDownloaded) :
      Sends s raw (.stack o.stack)
  | spawn {revision : Revision} {o : Offer} {r : ClientResponse}
      (hexchange : s.exchange = some (revision, o)) (hstage : o.stage = .awaitingCompletion)
      (hopen : openRaw s.revision s.settings.policy raw = .ok [.clientResponse r])
      (hanswer : Answer.ofCode? r.response = some .completed) :
      Sends s raw (.playStatus .playerSpawn)

/-- Every packet that is sent is sent for one of these reasons. -/
theorem Took.sends {raw : Bytes} {t : Turn Serve Unit} (h : s.Took raw t) :
    ∀ q ∈ t.sent, s.Sends raw q := by
  cases h with
  | refused hexchange _ _ =>
    intro q hq
    rw [List.mem_singleton.mp hq]
    exact .refusal hexchange _
  | agreed hexchange _ _ =>
    intro q hq
    exact .greeting hexchange hq
  | @answered r revision o o' sent hexchange hopen hresponded =>
    rw [Turn.sent_queued]
    intro q hq
    cases hresponded with
    | @asked packs hstage _ _ =>
      rw [o.loggedIn_serveNext, if_neg Bool.false_ne_true, List.append_nil] at hq
      exact .transfer hexchange (o.serveNext_transfers packs q hq) (Or.inl hstage)
    | downloaded hstage hanswer =>
      obtain rfl : q = .stack o.stack := List.mem_singleton.mp hq
      exact .stack hexchange hstage hopen hanswer
    | completed hstage hanswer =>
      obtain rfl : q = .playStatus .playerSpawn := List.mem_singleton.mp hq
      exact .spawn hexchange hstage hopen hanswer
  | @served r revision o o' sent hexchange _ hserve =>
    rw [Turn.sent_queued]
    intro q hq
    obtain ⟨t, c, hserving, -, -, hgiven⟩ := Offer.given_of_serveChunk hserve
    have hasked : o.stage = .awaitingResponse ∨ o.serving ≠ none :=
      Or.inr (by rw [hserving]; exact Option.some_ne_none t)
    cases hgiven with
    | last _ =>
      rcases List.mem_cons.mp hq with rfl | hq
      · exact .transfer hexchange rfl hasked
      · exact .transfer hexchange (o.serveNext_transfers _ q hq) hasked
    | inner _ _ =>
      obtain rfl : q = .chunkData c := List.mem_singleton.mp hq
      exact .transfer hexchange rfl hasked
  | ignored | unreadable _ | left _ _ | failed _ _ => exact List.forall_mem_nil _

/-! ### The end of the exchange -/

/-- A client of the older revision that asks for the second of two packs, gets it in two chunks and
says that it has all packs. -/
def exampleRaws : List Bytes :=
  let second := "00000000-0000-0000-0000-000000000002_1.0.0"
  [.settingsRequest ⟨712⟩, .clientResponse ⟨Answer.sendPacks.code, [second]⟩,
    .chunkRequest ⟨second, 0⟩, .chunkRequest ⟨second, 1⟩,
    .clientResponse (.plain .allPacksDownloaded)].map (Packet.toBytes 0)

end Serve

end PackExchange
