import PackExchange.Proofs.Packet.Translation
import PackExchange.Proofs.Transfer.Calls
import PackExchange.Session.Serve

/-!
# What a side hears

A side reacts to one raw packet after another, until it ends.  This file says what the reactions to
several raw packets come to, for either side, and what a server makes of a single one.

* `Turn.andThen_assoc`, `Turn.sent` — reactions one after another, and what they send;
* `Role.hear` — the reactions to raw packets in a row, with `Role.hear_append`;
* `openRaw_eq_ok` — a raw packet holds one packet at most;
* `Offer.Given` — what becomes of a request for a chunk, whatever the store gives;
* `Serve.Took` — what becomes of a raw packet.
-/

namespace PackExchange

/-! ### Reactions one after another -/

/-- The packet that a deed sends, in the form of the latest revision. -/
def Outgoing.packet? : Outgoing → Option Packet
  | .direct p | .queued p => some p
  | .compress _ => none

namespace Turn

variable {σ ρ : Type}

/-- The packets that a reaction sends, in the form of the latest revision. -/
def sent (t : Turn σ ρ) : List Packet := t.outgoing.filterMap Outgoing.packet?

theorem andThen_of_ended {t : Turn σ ρ} {e : Ending ρ} (h : t.ending = some e)
    (next : σ → Turn σ ρ) : t.andThen next = t := by
  rw [andThen, h]

theorem andThen_of_going {t : Turn σ ρ} (h : t.ending = none) (next : σ → Turn σ ρ) :
    t.andThen next =
      ⟨(next t.side).side, t.outgoing ++ (next t.side).outgoing, (next t.side).ending⟩ := by
  rw [andThen, h]

/-- Doing nothing after a reaction changes nothing. -/
theorem andThen_pure (t : Turn σ ρ) : (t.andThen fun side => { side }) = t := by
  obtain ⟨side, outgoing, ending⟩ := t
  cases ending with
  | none =>
    rw [andThen_of_going rfl]
    simp only [List.append_nil]
  | some e => rw [andThen_of_ended rfl]

/-- Doing nothing before a reaction changes nothing. -/
theorem pure_andThen (side : σ) (next : σ → Turn σ ρ) :
    Turn.andThen { side } next = next side := by
  rw [andThen_of_going rfl]
  simp only [List.nil_append]

theorem andThen_assoc (t : Turn σ ρ) (next next' : σ → Turn σ ρ) :
    (t.andThen next).andThen next' = t.andThen fun side => (next side).andThen next' := by
  cases hending : t.ending with
  | some e => rw [andThen_of_ended hending, andThen_of_ended hending, andThen_of_ended hending]
  | none =>
    rw [andThen_of_going hending, andThen_of_going hending]
    cases hnext : (next t.side).ending with
    | some e => rw [andThen_of_ended rfl, andThen_of_ended hnext, hnext]
    | none =>
      rw [andThen_of_going rfl, andThen_of_going hnext]
      simp only [List.append_assoc]

/-- A reaction after another sends what both send. -/
theorem sent_andThen {t : Turn σ ρ} (h : t.ending = none) (next : σ → Turn σ ρ) :
    (t.andThen next).sent = t.sent ++ (next t.side).sent := by
  rw [andThen_of_going h, sent, List.filterMap_append]
  rfl

theorem sent_queued (side : σ) (ps : List Packet) :
    (Turn.proceed side (ps.map .queued) : Turn σ ρ).sent = ps := by
  show (ps.map Outgoing.queued).filterMap Outgoing.packet? = ps
  rw [List.filterMap_map]
  exact List.filterMap_some

theorem all_singleton (react : σ → Packet → Turn σ ρ) (side : σ) (p : Packet) :
    all react side [p] = react side p := by
  rw [all]
  exact andThen_pure _

end Turn

/-! ### Raw packets in a row -/

namespace Role

variable {σ ρ : Type} (role : Role σ ρ)

/-- The reactions to raw packets in a row; once the session has ended nothing more is read. -/
def hear (side : σ) : List Bytes → Turn σ ρ
  | [] => { side }
  | raw :: raws => (role.take side raw).andThen fun side => hear side raws

theorem hear_append (side : σ) (raws raws' : List Bytes) :
    role.hear side (raws ++ raws') =
      (role.hear side raws).andThen fun side => role.hear side raws' := by
  induction raws generalizing side with
  | nil =>
    rw [List.nil_append, hear, Turn.pure_andThen]
  | cons raw raws ih =>
    rw [List.cons_append, hear, hear, Turn.andThen_assoc]
    simp only [ih]

theorem hear_singleton (side : σ) (raw : Bytes) : role.hear side [raw] = role.take side raw :=
  Turn.andThen_pure _

/-- The reactions to raw packets in a row, after which no more can be read. -/
def hearOut (side : σ) (raws : List Bytes) (e : SessionError) : Turn σ ρ :=
  (role.hear side raws).andThen fun side => { side, ending := some (role.lose side e) }

end Role

/-! ### What a raw packet holds -/

/-- **A raw packet holds one packet at most.** -/
theorem openRaw_eq_ok {r : Revision} {policy : Policy} {raw : Bytes} {ps : List Packet}
    (h : openRaw r policy raw = .ok ps) : ps = [] ∨ ∃ p, ps = [p] := by
  rw [openRaw] at h
  split at h
  · cases h
    exact Or.inl rfl
  · split at h
    · next d hd =>
      cases h
      rcases RawPacket.of_decode hd with ⟨kind, body, -, hkind, -, hpackets, -⟩ | ⟨-, -, hpackets, -⟩
      · rw [hpackets]
        rcases Revision.toLatest_known hkind body with hnone | ⟨kind', body', hone, -⟩
        · exact Or.inl hnone
        · exact Or.inr ⟨_, hone⟩
      · exact Or.inr ⟨_, hpackets⟩
    · split at h
      · cases h
      · cases h
        exact Or.inl rfl

/-- A policy that ends no session over a packet. -/
structure Policy.Lenient (policy : Policy) : Prop where
  unknown : policy.disconnectOnUnknown = false
  invalid : policy.disconnectOnInvalid = false

theorem Policy.Lenient.disconnects_eq {policy : Policy} (h : policy.Lenient) (e : DecodeError) :
    e.disconnects policy = false := by
  cases e with
  | unknownPacket id => exact h.unknown
  | malformed kind cause => exact h.invalid
  | trailingBytes kind remaining => exact h.invalid

/-- Under a lenient policy whatever cannot be read is left out. -/
theorem openRaw_of_lenient {policy : Policy} (h : policy.Lenient) (r : Revision) (raw : Bytes) :
    ∃ ps, openRaw r policy raw = .ok ps := by
  rw [openRaw]
  split
  · exact ⟨[], rfl⟩
  · split
    · exact ⟨_, rfl⟩
    · next e _ =>
      rw [h.disconnects_eq]
      exact ⟨[], rfl⟩

/-! ### Requests for chunks -/

/-- Is this the chunk of a pack with this number?  It holds what the store gives for it. -/
structure ChunkData.Reads (c : ChunkData) (p : Pack) (chunkSize : UInt32) (k : Nat) : Prop where
  uuid : PackId.uuidOf? c.uuid = some p.id.uuid
  index : c.index.toNat = k
  offset : c.offset.toNat = k * chunkSize.toNat
  data : p.readAt (min chunkSize.toNat (p.size.toNat - c.offset.toNat)) c.offset = .ok c.data

/-- Does a chunk reach the end of its pack? -/
def ChunkData.Reaches (c : ChunkData) (p : Pack) : Prop :=
  p.size ≤ c.offset + UInt64.ofNat c.data.length

namespace Offer

theorem chunkSize_ofPacks_ne (packs : List Pack) (chunkSize : UInt32) :
    (ofPacks packs chunkSize).chunkSize ≠ 0 := by
  show (if chunkSize = 0 then 1 else chunkSize) ≠ 0
  split
  · decide
  · assumption

/-- What becomes of a request for a chunk that is served. -/
inductive Given (o : Offer) (s : Serving) (c : ChunkData) : Offer → List Packet → Prop
  | last (h : c.Reaches s.pack) :
      Given o s c (o.serveNext s.later).1 (.chunkData c :: (o.serveNext s.later).2)
  | inner {offset : UInt64} (h : ¬ c.Reaches s.pack)
      (hoffset : offset.toNat = (c.index.toNat + 1) * o.chunkSize.toNat) :
      Given o s c { o with serving := some { s with offset := offset } } [.chunkData c]

/-- **A chunk is served only if it is the next one of the pack that is being served**, as the store
gives it. -/
theorem given_of_serveChunk {o o' : Offer} {r : ChunkRequest} {sent : List Packet}
    (h : o.serveChunk r = .ok (o', sent)) :
    ∃ s c, o.serving = some s ∧ s.offset.toNat = c.index.toNat * o.chunkSize.toNat ∧
      c.Reads s.pack o.chunkSize c.index.toNat ∧ o.Given s c o' sent := by
  cases hserving : o.serving with
  | none =>
    rw [serveChunk_idle hserving] at h
    cases h
  | some s =>
    simp only [serveChunk, hserving] at h
    split at h
    · cases h
    next huuid =>
    split at h
    · cases h
    next hoffset =>
    rw [ne_eq, not_not] at huuid hoffset
    have hplace := (offset_eq_iff _ _ _).mp hoffset
    split at h
    · cases h
    next data hdata =>
    refine ⟨s, ⟨r.uuid, r.index, s.offset, data⟩, rfl, hplace, ⟨huuid, rfl, hplace, ?_⟩, ?_⟩
    · rw [UInt32.toNat_toUInt64] at hdata
      exact hdata
    · split at h
      · next hlast =>
        cases h
        exact .last hlast
      · next hmore =>
        cases h
        refine .inner hmore ?_
        have hroom : (r.index.toNat + 1) * o.chunkSize.toNat < 2 ^ 64 := by
          have hproduct : (r.index.toNat + 1) * o.chunkSize.toNat < 2 ^ 32 * 2 ^ 32 :=
            Nat.mul_lt_mul_of_le_of_lt r.index.toNat_lt o.chunkSize.toNat_lt (by decide)
          omega
        rw [UInt64.toNat_add, hplace, UInt32.toNat_toUInt64, ← Nat.succ_mul]
        exact Nat.mod_eq_of_lt hroom

/-- An answer that is not accepted ends the session. -/
theorem isFatal_of_respond {o : Offer} {r : ClientResponse} {e : TransferError}
    (h : o.respond r = .error e) : e.isFatal = true := by
  have hresolve : ∀ (tokens : List String) (named : List Pack) (e : TransferError),
      o.resolve tokens named = .error e → e.isFatal = true := by
    intro tokens
    induction tokens with
    | nil =>
      intro named e he
      cases he
    | cons token tokens ih =>
      intro named e he
      rw [resolve] at he
      split at he
      · cases he
        rfl
      · split at he
        · exact ih _ _ he
        · exact ih _ _ he
  unfold respond at h
  split at h
  · cases h
    rfl
  · split at h
    · next e' he =>
      cases h
      exact hresolve _ _ _ he
    · cases h
      rfl
    · cases h
  · cases h
  · cases h
  · cases h
    rfl

end Offer

/-! ### A server -/

namespace Serve

/-- The offer a session starts from. -/
def offer (s : Serve) : Offer := .ofPacks s.packs s.settings.chunkSize

/-- Everything that a client of a known revision is greeted with. -/
def welcome (s : Serve) : List Outgoing :=
  [.direct (.networkSettings s.networkSettings), .compress s.settings.compressionThreshold,
    .queued (.playStatus .loginSuccess), .queued (.catalog (s.offer.catalog s.settings.required))]

/-- The session once a revision is agreed on. -/
def on (s : Serve) (revision : Revision) (o : Offer) : Serve :=
  { s with exchange := some (revision, o) }

/-- The session of a client that has just been greeted. -/
def greeted (s : Serve) (revision : Revision) : Serve :=
  s.on revision (s.offer.start s.settings.required).1

/-- What becomes of a raw packet. -/
inductive Took (s : Serve) (raw : Bytes) : Turn Serve Unit → Prop
  | ignored : Took s raw { side := s }
  /-- The policy ends the session over bytes that cannot be read. -/
  | unreadable {e : SessionError} (hopen : openRaw s.revision s.settings.policy raw = .error e) :
      Took s raw { side := s, ending := some (s.lose e) }
  | refused {r : SettingsRequest} (hexchange : s.exchange = none)
      (hopen : openRaw s.revision s.settings.policy raw = .ok [.settingsRequest r])
      (hnumber : Revision.ofNumber? r.protocol = none) :
      Took s raw (.finish s [.direct (.playStatus (failedLogin r.protocol))] (.ok ()))
  | agreed {r : SettingsRequest} {revision : Revision} (hexchange : s.exchange = none)
      (hopen : openRaw s.revision s.settings.policy raw = .ok [.settingsRequest r])
      (hnumber : Revision.ofNumber? r.protocol = some revision) :
      Took s raw (.proceed (s.greeted revision) s.welcome)
  | left {d : Disconnect} {exchange : Revision × Offer} (hexchange : s.exchange = some exchange)
      (hopen : openRaw s.revision s.settings.policy raw = .ok [.disconnect d]) :
      Took s raw (.finish s [] (.ok ()))
  | answered {r : ClientResponse} {revision : Revision} {o o' : Offer} {sent : List Packet}
      (hexchange : s.exchange = some (revision, o))
      (hopen : openRaw s.revision s.settings.policy raw = .ok [.clientResponse r])
      (hresponded : o.Responded r o' sent) :
      Took s raw (.proceed (s.on revision o')
        ((sent ++ if o'.loggedIn then [Packet.playStatus .playerSpawn] else []).map .queued))
  | served {r : ChunkRequest} {revision : Revision} {o o' : Offer} {sent : List Packet}
      (hexchange : s.exchange = some (revision, o))
      (hopen : openRaw s.revision s.settings.policy raw = .ok [.chunkRequest r])
      (hserve : o.serveChunk r = .ok (o', sent)) :
      Took s raw (.proceed (s.on revision o') (sent.map .queued))
  | failed {exchange : Revision × Offer} (hexchange : s.exchange = some exchange)
      (e : TransferError) : Took s raw (.finish s [] (.error (.transfer e)))

/-- What a server makes of raw bytes that it can read. -/
theorem take_of_open {s : Serve} {raw : Bytes} {ps : List Packet}
    (h : openRaw s.revision s.settings.policy raw = .ok ps) :
    s.take raw = if s.exchange.isSome then .all (react s.revision) s ps else s.negotiate ps := by
  rw [take, h]

/-- A raw packet that is not read as a packet is passed over. -/
theorem take_of_nil {s : Serve} {raw : Bytes}
    (h : openRaw s.revision s.settings.policy raw = .ok []) : s.take raw = { side := s } := by
  rw [take_of_open h]
  split <;> rfl

/-- One that is read as a packet is reacted to, or looked at for a request for settings. -/
theorem take_of_singleton {s : Serve} {raw : Bytes} {p : Packet}
    (h : openRaw s.revision s.settings.policy raw = .ok [p]) :
    s.take raw = if s.exchange.isSome then s.react s.revision p else s.negotiate [p] := by
  rw [take_of_open h, Turn.all_singleton]

/-- Before a revision is agreed on only a request for settings is heeded. -/
theorem took_negotiate {s : Serve} {raw : Bytes} {p : Packet} (hexchange : s.exchange = none)
    (hopen : openRaw s.revision s.settings.policy raw = .ok [p]) :
    s.Took raw (s.negotiate [p]) := by
  rw [negotiate]
  split
  · next r hfind =>
    have hmem := List.mem_singleton.mp (List.mem_of_find?_eq_some hfind)
    subst hmem
    rw [agree]
    split
    · next hnumber => exact .refused hexchange hopen hnumber
    · next hnumber => exact .agreed hexchange hopen hnumber
  · exact .ignored

/-- An answer that is accepted may complete the exchange, and any other ends the session. -/
theorem took_answer {s : Serve} {raw : Bytes} {r : ClientResponse} {revision : Revision} {o : Offer}
    (hexchange : s.exchange = some (revision, o))
    (hopen : openRaw s.revision s.settings.policy raw = .ok [.clientResponse r]) :
    s.Took raw ((s.follow revision (o.respond r)).andThen spawn) := by
  cases hrespond : o.respond r with
  | error e =>
    simp only [follow, Offer.isFatal_of_respond hrespond, if_true]
    exact .failed hexchange e
  | ok reply =>
    obtain ⟨o', sent⟩ := reply
    have htook := Took.answered hexchange hopen (Offer.responded_of_respond hrespond)
    simp only [follow, Turn.proceed, Turn.andThen_of_going, spawn]
    cases hlogged : o'.loggedIn with
    | true =>
      rw [hlogged, if_pos rfl, List.map_append] at htook
      exact htook
    | false =>
      rw [hlogged, if_neg Bool.false_ne_true, List.append_nil] at htook
      simp only [Bool.false_eq_true, if_false, List.append_nil]
      exact htook

/-- Once a revision is agreed on, the stage of the offer says what is heeded. -/
theorem took_react {s : Serve} {raw : Bytes} {p : Packet} {revision : Revision} {o : Offer}
    (hexchange : s.exchange = some (revision, o))
    (hopen : openRaw s.revision s.settings.policy raw = .ok [p]) :
    s.Took raw (s.react revision p) := by
  simp only [react, hexchange]
  split
  · split
    · exact .left hexchange hopen
    · exact took_answer hexchange hopen
    · next r _ =>
      cases hserve : o.serveChunk r with
      | error e =>
        rw [follow]
        split
        · exact .failed hexchange e
        · exact .ignored
      | ok reply => exact .served hexchange hopen hserve
    · exact .ignored
  · exact .ignored

/-- **There are these outcomes of a raw packet and no others.** -/
theorem took (s : Serve) (raw : Bytes) : s.Took raw (s.take raw) := by
  cases hopen : openRaw s.revision s.settings.policy raw with
  | error e =>
    rw [take, hopen]
    exact .unreadable hopen
  | ok ps =>
    rcases openRaw_eq_ok hopen with rfl | ⟨p, rfl⟩
    · rw [take_of_nil hopen]
      exact .ignored
    · rw [take_of_singleton hopen]
      cases hexchange : s.exchange with
      | none => exact took_negotiate hexchange hopen
      | some exchange =>
        obtain ⟨revision, o⟩ := exchange
        have hrevision : s.revision = revision := by
          rw [Serve.revision, hexchange]
          rfl
        rw [hrevision]
        exact took_react hexchange hopen

/-- Nothing but the exchange changes, and the revision stays as agreed on. -/
theorem Took.keeps {s : Serve} {raw : Bytes} {t : Turn Serve Unit} (h : s.Took raw t) :
    t.side.settings = s.settings ∧ t.side.packs = s.packs ∧
      (s.exchange.isSome = true → t.side.exchange.isSome = true ∧
        t.side.revision = s.revision) := by
  cases h with
  | agreed hexchange _ _ =>
    refine ⟨rfl, rfl, ?_⟩
    intro hsome
    rw [hexchange] at hsome
    cases hsome
  | answered hexchange _ _ | served hexchange _ _ =>
    refine ⟨rfl, rfl, ?_⟩
    intro _
    rw [revision, revision, hexchange]
    exact ⟨rfl, rfl⟩
  | ignored | unreadable _ | refused _ _ _ | left _ _ | failed _ _ =>
    exact ⟨rfl, rfl, fun hsome => ⟨hsome, rfl⟩⟩

/-- Once a revision is agreed on everything is left to the writer. -/
theorem Took.outgoing_eq {s : Serve} {raw : Bytes} {t : Turn Serve Unit} (h : s.Took raw t)
    (hsome : s.exchange.isSome = true) : t.outgoing = t.sent.map .queued := by
  cases h with
  | refused hexchange _ _ | agreed hexchange _ _ =>
    rw [hexchange] at hsome
    cases hsome
  | answered _ _ _ | served _ _ _ =>
    rw [Turn.sent_queued]
    rfl
  | ignored | unreadable _ | left _ _ | failed _ _ => rfl

theorem hear_cons (s : Serve) (raw : Bytes) (raws : List Bytes) :
    role.hear s (raw :: raws) = (s.take raw).andThen fun s => role.hear s raws := rfl

/-- Nothing but the exchange changes over raw packets in a row either. -/
theorem hear_keeps (s : Serve) (raws : List Bytes) :
    (role.hear s raws).side.settings = s.settings ∧ (role.hear s raws).side.packs = s.packs ∧
      (s.exchange.isSome = true → (role.hear s raws).side.exchange.isSome = true ∧
        (role.hear s raws).side.revision = s.revision) := by
  induction raws generalizing s with
  | nil => exact ⟨rfl, rfl, fun hsome => ⟨hsome, rfl⟩⟩
  | cons raw raws ih =>
    obtain ⟨hsettings, hpacks, hexchange⟩ := (s.took raw).keeps
    rw [hear_cons]
    cases hending : (s.take raw).ending with
    | some e =>
      rw [Turn.andThen_of_ended hending]
      exact ⟨hsettings, hpacks, hexchange⟩
    | none =>
      obtain ⟨hsettings', hpacks', hexchange'⟩ := ih (s.take raw).side
      rw [Turn.andThen_of_going hending]
      refine ⟨hsettings'.trans hsettings, hpacks'.trans hpacks, ?_⟩
      intro hsome
      obtain ⟨hsome', hrevision⟩ := hexchange hsome
      obtain ⟨hsome'', hrevision'⟩ := hexchange' hsome'
      exact ⟨hsome'', hrevision'.trans hrevision⟩

theorem hear_outgoing {s : Serve} (hsome : s.exchange.isSome = true) (raws : List Bytes) :
    (role.hear s raws).outgoing = (role.hear s raws).sent.map .queued := by
  induction raws generalizing s with
  | nil => rfl
  | cons raw raws ih =>
    have htook := s.took raw
    have hqueued := htook.outgoing_eq hsome
    rw [hear_cons]
    cases hending : (s.take raw).ending with
    | some e =>
      rw [Turn.andThen_of_ended hending]
      exact hqueued
    | none =>
      rw [Turn.sent_andThen hending, Turn.andThen_of_going hending, List.map_append, ← hqueued,
        ← ih (htook.keeps.2.2 hsome).1]

/-- A client that asks for settings is welcomed, if its revision is known. -/
theorem take_request {s : Serve} (hfresh : s.exchange = none) {raw : Bytes} {q : SettingsRequest}
    {r : Revision} (hopen : openRaw .latest s.settings.policy raw = .ok [.settingsRequest q])
    (hnumber : Revision.ofNumber? q.protocol = some r) :
    s.take raw = .proceed (s.greeted r) s.welcome := by
  have hrevision : s.revision = .latest := by
    rw [revision, hfresh]
    rfl
  rw [← hrevision] at hopen
  rw [take_of_singleton hopen, hfresh]
  show s.agree q = _
  rw [agree, hnumber]
  rfl

end Serve

end PackExchange
