import Mathlib.Data.List.Forall2
import PackExchange.Proofs.Frame.Stream
import PackExchange.Proofs.Session.Endpoint

/-!
# The way from one end to the other

Between a session that sends packets and one that reads them lie an outbox, a writer, a stream and
a reader.  All of them together are a queue of packets: what is posted at one end is what is read
at the other, in the same order, as long as each packet is read with the compression it was written
with.

* `Outgoing.Sends` — an entry of an outbox that carries one packet across;
* `Queue` — the packets in an outbox, and the compression that each is written with;
* `Link` — the packets that are on their way;
* `Link.flush`, `Link.post`, `Link.read`, `Link.close` — what happens to them;
* `Link.progress` — packets that are on their way can move on;
* `Wire` — both directions between two ends.
-/

namespace PackExchange

/-- Does the packet travel before compression is agreed on? -/
def Packet.greeting : Packet → Bool
  | .settingsRequest _ | .networkSettings _ => true
  | _ => false

/-- Does an entry of the outbox carry a packet across?  It is written as one packet, and `opens`
says what the other side reads raw packets as. -/
def Outgoing.Sends (opens : Bytes → Packet → Prop) (shield : Int32) (revision : Revision)
    (o : Outgoing) (p : Packet) : Prop :=
  ∃ raw, (∀ w : FrameWriter, w.carryOut shield revision o = ([⟨w.threshold, raw⟩], w)) ∧
    ((Batch.body [raw]).length ≤ Batch.mostBytes → opens raw p)

/-- The packets in an outbox.  The first flag says whether the writer compresses by now, the second
whether it will when the outbox is empty. -/
inductive Queue (sends : Outgoing → Packet → Prop) :
    Bool → List Outgoing → List Packet → Bool → Prop
  | nil (mode : Bool) : Queue sends mode [] [] mode
  | compress {mode mode' : Bool} {os : List Outgoing} {ps : List Packet} (threshold : UInt16)
      (h : Queue sends true os ps mode') : Queue sends mode (.compress threshold :: os) ps mode'
  | packet {mode mode' : Bool} {o : Outgoing} {p : Packet} {os : List Outgoing} {ps : List Packet}
      (hsends : sends o p) (hmode : mode = !p.greeting) (h : Queue sends mode os ps mode') :
      Queue sends mode (o :: os) (p :: ps) mode'

theorem Queue.append {sends : Outgoing → Packet → Prop} {m m' m'' : Bool}
    {os os' : List Outgoing} {ps ps' : List Packet} (h : Queue sends m os ps m')
    (h' : Queue sends m' os' ps' m'') : Queue sends m (os ++ os') (ps ++ ps') m'' := by
  induction h with
  | nil mode => exact h'
  | compress threshold _ ih => exact .compress threshold (ih h')
  | packet hsends hmode _ ih => exact .packet hsends hmode (ih h')

theorem Queue.of_nil {sends : Outgoing → Packet → Prop} {m m' : Bool} {ps : List Packet}
    (h : Queue sends m [] ps m') : ps = [] ∧ m = m' := by
  cases h
  exact ⟨rfl, rfl⟩

theorem Queue.of_cons {sends : Outgoing → Packet → Prop} {m m' : Bool} {o : Outgoing}
    {os : List Outgoing} {ps : List Packet} (h : Queue sends m (o :: os) ps m') :
    (∃ threshold, o = .compress threshold ∧ Queue sends true os ps m') ∨
      ∃ p rest, ps = p :: rest ∧ sends o p ∧ m = !p.greeting ∧ Queue sends m os rest m' := by
  cases h with
  | compress threshold hrest => exact Or.inl ⟨threshold, rfl, hrest⟩
  | packet hsends hmode hrest => exact Or.inr ⟨_, _, rfl, hsends, hmode, hrest⟩

/-- Packets that are left to a writer which compresses. -/
theorem Queue.queued {sends : Outgoing → Packet → Prop} {ps : List Packet}
    (h : ∀ p ∈ ps, sends (.queued p) p ∧ p.greeting = false) :
    Queue sends true (ps.map .queued) ps true := by
  induction ps with
  | nil => exact .nil true
  | cons p ps ih =>
    obtain ⟨hsends, hgreeting⟩ := h p List.mem_cons_self
    refine .packet hsends ?_ (ih fun q hq => h q (List.mem_cons_of_mem p hq))
    rw [hgreeting]
    rfl

/-- Does a written packet carry a packet across? -/
structure Batched.Carries (z : Bytes → Bytes) (opens : Bytes → Packet → Prop) (b : Batched)
    (p : Packet) : Prop where
  fits : b.Fits z
  mode : b.threshold.isSome = !p.greeting
  opens : opens b.packet p

/-- The packets on their way from one end to the other: those on the stream and those in the
outbox. -/
structure Link (z : Bytes → Bytes) (opens : Bytes → Packet → Prop)
    (sends : Outgoing → Packet → Prop) (sender receiver : Endpoint) (items : List Packet) :
    Prop where
  pending : receiver.reader.pending = []
  transit : ∃ bs flying waiting, items = flying ++ waiting ∧
    receiver.reader.buffered ++ receiver.inbound.arrived = bs.flatMap (Batched.frame z) ∧
    List.Forall₂ (Batched.Carries z opens) bs flying ∧
    Queue sends sender.writer.threshold.isSome sender.outbox waiting sender.reader.compressed
  closed : receiver.inbound.closed = sender.writer.closed
  silent : sender.writer.closed = true → sender.outbox = []

/-! ### Reading -/

theorem FrameReader.compressed_nextOf (fuel : Nat) (r : FrameReader) :
    (nextOf fuel r).2.compressed = r.compressed := by
  induction fuel generalizing r with
  | zero =>
    rw [nextOf]
    split <;> try rfl
    split <;> try rfl
    split <;> try rfl
    split <;> rfl
  | succ fuel ih =>
    rw [nextOf]
    split <;> try rfl
    split <;> try rfl
    split <;> try rfl
    split
    · rfl
    · exact ih _

namespace Endpoint

/-- Reading touches neither the writer nor the outbox. -/
theorem Read.keeps {e e' : Endpoint} {o : FrameReader.Outcome} (h : e.Read o e') :
    e'.writer = e.writer ∧ e'.outbox = e.outbox ∧
      e'.reader.compressed = e.reader.compressed ∧ e'.inbound.closed = e.inbound.closed := by
  have hnext : ∀ {o : FrameReader.Outcome} {r : FrameReader}, e.reader.next = (o, r) →
      r.compressed = e.reader.compressed := by
    intro o r hr
    have hcompressed := e.reader.compressed_nextOf (e.reader.buffered.length + 1)
    rw [← FrameReader.next, hr] at hcompressed
    exact hcompressed
  cases h with
  | more hr _ _ =>
    refine ⟨rfl, rfl, ?_, rfl⟩
    rw [← hnext hr]
    rfl
  | packet hr => exact ⟨rfl, rfl, hnext hr, rfl⟩
  | failed hr => exact ⟨rfl, rfl, hnext hr, rfl⟩
  | ended hr _ _ => exact ⟨rfl, rfl, hnext hr, rfl⟩

/-- What a reader makes of a stream of frames: it hands out the first packet if it holds the whole
frame, and waits for more otherwise. -/
theorem next_of_frames {z : Bytes → Bytes} (hexpands : Expands z) {r : FrameReader}
    {arrived : Bytes} {b : Batched} {bs : List Batched} (hpending : r.pending = [])
    (hstream : r.buffered ++ arrived = (b :: bs).flatMap (Batched.frame z))
    (hfits : b.Fits z) (hmode : r.compressed = b.threshold.isSome) :
    (∃ rest, r.next = (.packet b.packet, { r with buffered := rest }) ∧
      rest ++ arrived = bs.flatMap (Batched.frame z)) ∨
      (r.next = (.waiting, r) ∧ arrived ≠ []) := by
  rw [List.flatMap_cons] at hstream
  -- the reader holds a whole frame exactly if none of it is among what has only arrived
  rcases List.append_eq_append_iff.mp hstream with
    ⟨missing, hframe, harrived⟩ | ⟨rest, hbuffered, hrest⟩
  · by_cases hmissing : missing = []
    · subst hmissing
      rw [List.append_nil] at hframe
      rw [List.nil_append] at harrived
      refine Or.inl ⟨[], ?_, harrived⟩
      have hbuffered : r.buffered = Frame.writeWith z b.threshold [b.packet] ++ [] := by
        rw [List.append_nil, ← hframe]
        rfl
      rw [FrameReader.next_frame hexpands hpending hbuffered hfits.1 hfits.2 hmode, ← hpending]
    · refine Or.inr ⟨FrameReader.next_prefix hpending hframe hmissing hfits.2, ?_⟩
      rw [harrived]
      exact List.append_ne_nil_of_left_ne_nil hmissing _
  · refine Or.inl ⟨rest, ?_, hrest.symm⟩
    rw [FrameReader.next_frame hexpands hpending hbuffered hfits.1 hfits.2 hmode, ← hpending]

end Endpoint

namespace Link

variable {z : Bytes → Bytes} {opens : Bytes → Packet → Prop} {sends : Outgoing → Packet → Prop}
  {sender receiver : Endpoint} {items : List Packet}

/-- **What is read is what was sent first.**  The reader is set to the compression that the first
packet was written with. -/
theorem read (h : Link z opens sends sender receiver items) (hexpands : Expands z)
    (hmode : ∀ p ∈ items.head?, receiver.reader.compressed = !p.greeting)
    {o : FrameReader.Outcome} {e : Endpoint} (hread : receiver.Read o e) :
    (o = .waiting ∧ Link z opens sends sender e items) ∨
      (∃ raw p rest, o = .packet raw ∧ items = p :: rest ∧ opens raw p ∧
        Link z opens sends sender e rest) ∨
      (o = .ended ∧ items = [] ∧ sender.writer.closed = true ∧
        Link z opens sends sender e items) := by
  obtain ⟨bs, flying, waiting, rfl, hstream, hcarries, hqueue⟩ := h.transit
  cases hcarries with
  | nil =>
    rw [List.flatMap_nil, List.append_eq_nil_iff] at hstream
    have hnext := FrameReader.next_nil h.pending hstream.1
    cases hread with
    | more _ hn hmost =>
      rw [hstream.2, List.length_nil] at hmost
      omega
    | packet hr =>
      rw [hnext] at hr
      cases hr
    | failed hr =>
      rw [hnext] at hr
      cases hr
    | ended hr harrived hclosed =>
      rw [hnext] at hr
      cases hr
      have hsilent : sender.writer.closed = true := h.closed.symm.trans hclosed
      have hwaiting : waiting = [] := by
        rw [h.silent hsilent] at hqueue
        exact hqueue.of_nil.1
      exact Or.inr (Or.inr ⟨rfl, hwaiting, hsilent, h⟩)
  | @cons b p bs flying hb hcarries =>
    have hmode' : receiver.reader.compressed = b.threshold.isSome := by
      rw [hb.mode]
      exact hmode p rfl
    rcases Endpoint.next_of_frames hexpands h.pending hstream hb.fits hmode' with
      ⟨rest, hnext, hrest⟩ | ⟨hnext, harrived⟩
    · cases hread with
      | more hr _ _ =>
        rw [hnext] at hr
        cases hr
      | packet hr =>
        rw [hnext] at hr
        cases hr
        refine Or.inr (Or.inl ⟨b.packet, p, flying ++ waiting, rfl, rfl, hb.opens, ?_⟩)
        exact ⟨h.pending, ⟨bs, flying, waiting, rfl, hrest, hcarries, hqueue⟩, h.closed, h.silent⟩
      | failed hr =>
        rw [hnext] at hr
        cases hr
      | ended hr _ _ =>
        rw [hnext] at hr
        cases hr
    · cases hread with
      | @more r n hr _ _ =>
        rw [hnext] at hr
        cases hr
        refine Or.inl ⟨rfl, h.pending,
          ⟨b :: bs, p :: flying, waiting, rfl, ?_, .cons hb hcarries, hqueue⟩, h.closed, h.silent⟩
        show (receiver.reader.buffered ++ receiver.inbound.arrived.take n) ++
          receiver.inbound.arrived.drop n = _
        rw [List.append_assoc, List.take_append_drop, hstream]
      | packet hr =>
        rw [hnext] at hr
        cases hr
      | failed hr =>
        rw [hnext] at hr
        cases hr
      | ended _ hnone _ => exact absurd hnone harrived

/-- Packets that are on their way can move on, and so can the end of the stream. -/
theorem progress (h : Link z opens sends sender receiver items) (hexpands : Expands z)
    (hmode : ∀ p ∈ items.head?, receiver.reader.compressed = !p.greeting)
    (hsome : items ≠ [] ∨ sender.writer.closed = true) :
    sender.outbox ≠ [] ∨ ∃ o e, receiver.Read o e := by
  obtain ⟨bs, flying, waiting, rfl, hstream, hcarries, hqueue⟩ := h.transit
  cases hcarries with
  | nil =>
    rw [List.flatMap_nil, List.append_eq_nil_iff] at hstream
    have hnext := FrameReader.next_nil h.pending hstream.1
    by_cases hclosed : sender.writer.closed = true
    · exact Or.inr ⟨_, _, .ended hnext hstream.2 (h.closed.trans hclosed)⟩
    · left
      intro hnone
      rw [hnone] at hqueue
      exact hsome.elim (fun hne => hne hqueue.of_nil.1) hclosed
  | @cons b p bs flying hb hcarries =>
    right
    have hmode' : receiver.reader.compressed = b.threshold.isSome := by
      rw [hb.mode]
      exact hmode p rfl
    rcases Endpoint.next_of_frames hexpands h.pending hstream hb.fits hmode' with
      ⟨rest, hnext, -⟩ | ⟨hnext, harrived⟩
    · exact ⟨_, _, .packet hnext⟩
    · exact ⟨_, _, .more hnext (List.length_pos_iff.mpr harrived) (Nat.le_refl _)⟩

/-! ### Posting and writing -/

/-- What is posted follows what is on its way. -/
theorem post (h : Link z opens sends sender receiver items) {os : List Outgoing} {ps : List Packet}
    (hqueue : Queue sends sender.reader.compressed os ps (sender.post os).reader.compressed)
    (hopen : sender.writer.closed = false) :
    Link z opens sends (sender.post os) receiver (items ++ ps) := by
  obtain ⟨bs, flying, waiting, rfl, hstream, hcarries, hbefore⟩ := h.transit
  refine ⟨h.pending, ⟨bs, flying, waiting ++ ps, List.append_assoc _ _ _, hstream, hcarries,
    hbefore.append hqueue⟩, h.closed, ?_⟩
  intro hclosed
  rw [show sender.writer.closed = true from hclosed] at hopen
  cases hopen

/-- **Writing keeps packets on their way.** -/
theorem flush (h : Link z opens sends sender receiver items) {shield : Int32} {revision : Revision}
    (hsends : ∀ o p, sends o p → o.Sends opens shield revision p)
    (hfits : ∀ b ∈ (sender.flush shield revision).1, b.Fits z) :
    Link z opens sends (sender.flush shield revision).2
      (receiver.receive z (sender.flush shield revision).1) items := by
  obtain ⟨bs, flying, waiting, rfl, hstream, hcarries, hqueue⟩ := h.transit
  cases houtbox : sender.outbox with
  | nil =>
    have hflush : sender.flush shield revision = ([], sender) := by rw [Endpoint.flush, houtbox]
    rw [hflush]
    refine ⟨h.pending, ⟨bs, flying, waiting, rfl, ?_, hcarries, hqueue⟩, h.closed, h.silent⟩
    show receiver.reader.buffered ++ (receiver.inbound.arrived ++ []) = _
    rw [List.append_nil, hstream]
  | cons o os =>
    have hopen : sender.writer.closed = false := by
      by_contra hclosed
      rw [h.silent (Bool.of_not_eq_false hclosed)] at houtbox
      cases houtbox
    rw [houtbox] at hqueue
    rcases hqueue.of_cons with ⟨threshold, rfl, hrest⟩ | ⟨p, rest, rfl, ho, hmode, hrest⟩
    · have hflush : sender.flush shield revision =
          ([], { sender with writer := sender.writer.compress threshold, outbox := os }) := by
        rw [Endpoint.flush, houtbox]
        rfl
      rw [hflush]
      refine ⟨h.pending, ⟨bs, flying, waiting, rfl, ?_, hcarries, hrest⟩, h.closed, ?_⟩
      · show receiver.reader.buffered ++ (receiver.inbound.arrived ++ []) = _
        rw [List.append_nil, hstream]
      · intro hclosed
        rw [show sender.writer.closed = true from hclosed] at hopen
        cases hopen
    · obtain ⟨raw, hwrite, hopens⟩ := hsends o p ho
      have hflush : sender.flush shield revision =
          ([⟨sender.writer.threshold, raw⟩], { sender with outbox := os }) := by
        rw [Endpoint.flush, houtbox]
        simp only [hwrite]
      rw [hflush] at hfits ⊢
      have hb := hfits _ (List.mem_singleton_self _)
      refine ⟨h.pending, ⟨bs ++ [⟨sender.writer.threshold, raw⟩], flying ++ [p], rest, ?_, ?_, ?_,
        hrest⟩, h.closed, ?_⟩
      · rw [List.append_assoc, List.singleton_append]
      · show receiver.reader.buffered ++ (receiver.inbound.arrived ++ _) = _
        rw [List.flatMap_append, ← hstream, List.append_assoc]
      · exact List.rel_append hcarries (.cons ⟨hb, hmode, hopens hb.1⟩ .nil)
      · intro hclosed
        rw [show sender.writer.closed = true from hclosed] at hopen
        cases hopen

/-- What the two sessions do otherwise leaves packets on their way. -/
theorem of_eq (h : Link z opens sends sender receiver items) {sender' receiver' : Endpoint}
    (hwriter : sender'.writer = sender.writer) (houtbox : sender'.outbox = sender.outbox)
    (hcompressed : sender'.reader.compressed = sender.reader.compressed)
    (hpending : receiver'.reader.pending = receiver.reader.pending)
    (hbuffered : receiver'.reader.buffered = receiver.reader.buffered)
    (hinbound : receiver'.inbound = receiver.inbound) :
    Link z opens sends sender' receiver' items := by
  refine ⟨?_, ?_, ?_, ?_⟩
  · rw [hpending]
    exact h.pending
  · rw [hwriter, houtbox, hcompressed, hbuffered, hinbound]
    exact h.transit
  · rw [hinbound, hwriter]
    exact h.closed
  · rw [hwriter, houtbox]
    exact h.silent

/-- A stream that is shut down ends after what is on its way. -/
theorem close (h : Link z opens sends sender receiver items) (houtbox : sender.outbox = []) :
    Link z opens sends sender.shutdown receiver.hangUp items :=
  ⟨h.pending, h.transit, rfl, fun _ => houtbox⟩

end Link

/-! ### Both directions -/

namespace Endpoint

theorem compressed_post (e : Endpoint) (os : List Outgoing) :
    (e.post os).reader.compressed =
      if os.any Outgoing.compresses then true else e.reader.compressed := by
  rw [post]
  split
  · rfl
  · rfl

/-- Posting touches nothing that was read. -/
theorem post_keeps (e : Endpoint) (os : List Outgoing) :
    (e.post os).reader.pending = e.reader.pending ∧
      (e.post os).reader.buffered = e.reader.buffered := by
  rw [post]
  split
  · exact ⟨rfl, rfl⟩
  · exact ⟨rfl, rfl⟩

/-- Writing touches nothing that was read, and does not shut the stream down. -/
theorem flush_keeps (e : Endpoint) (shield : Int32) (revision : Revision) :
    (e.flush shield revision).2.reader = e.reader ∧
      (e.flush shield revision).2.inbound = e.inbound ∧
      (e.flush shield revision).2.writer.closed = e.writer.closed := by
  rw [flush]
  cases e.outbox with
  | nil => exact ⟨rfl, rfl, rfl⟩
  | cons o os => cases o <;> exact ⟨rfl, rfl, rfl⟩

end Endpoint

/-- Two ends and the packets on their way between them: `out` are on their way from the first to the
second, `back` are on their way from the second to the first. -/
structure Wire (z : Bytes → Bytes) (opens : Bytes → Packet → Prop)
    (sends : Outgoing → Packet → Prop) (opens' : Bytes → Packet → Prop)
    (sends' : Outgoing → Packet → Prop) (a b : Endpoint) (out back : List Packet) : Prop where
  out : Link z opens sends a b out
  back : Link z opens' sends' b a back

namespace Wire

variable {z : Bytes → Bytes} {opens opens' : Bytes → Packet → Prop}
  {sends sends' : Outgoing → Packet → Prop} {a b : Endpoint} {out back : List Packet}

theorem symm (h : Wire z opens sends opens' sends' a b out back) :
    Wire z opens' sends' opens sends b a back out := ⟨h.back, h.out⟩

theorem post (h : Wire z opens sends opens' sends' a b out back) {os : List Outgoing}
    {ps : List Packet}
    (hqueue : Queue sends a.reader.compressed os ps
      (if os.any Outgoing.compresses then true else a.reader.compressed))
    (hopen : a.writer.closed = false) :
    Wire z opens sends opens' sends' (a.post os) b (out ++ ps) back := by
  rw [← a.compressed_post] at hqueue
  obtain ⟨hpending, hbuffered⟩ := a.post_keeps os
  exact ⟨h.out.post hqueue hopen, h.back.of_eq rfl rfl rfl hpending hbuffered rfl⟩

theorem read (h : Wire z opens sends opens' sends' a b out back) (hexpands : Expands z)
    (hmode : ∀ p ∈ out.head?, b.reader.compressed = !p.greeting) {o : FrameReader.Outcome}
    {e : Endpoint} (hread : b.Read o e) :
    (o = .waiting ∧ Wire z opens sends opens' sends' a e out back) ∨
      (∃ raw p rest, o = .packet raw ∧ out = p :: rest ∧ opens raw p ∧
        Wire z opens sends opens' sends' a e rest back) ∨
      (o = .ended ∧ out = [] ∧ a.writer.closed = true ∧
        Wire z opens sends opens' sends' a e out back) := by
  obtain ⟨hwriter, houtbox, hcompressed, -⟩ := hread.keeps
  have hback : Link z opens' sends' e a back :=
    h.back.of_eq hwriter houtbox hcompressed rfl rfl rfl
  rcases h.out.read hexpands hmode hread with ⟨rfl, hout⟩ | ⟨raw, p, rest, rfl, rfl, hraw, hout⟩ |
    ⟨rfl, hnil, hclosed, hout⟩
  · exact Or.inl ⟨rfl, hout, hback⟩
  · exact Or.inr (Or.inl ⟨raw, p, rest, rfl, rfl, hraw, hout, hback⟩)
  · exact Or.inr (Or.inr ⟨rfl, hnil, hclosed, hout, hback⟩)

theorem flush (h : Wire z opens sends opens' sends' a b out back) {shield : Int32}
    {revision : Revision} (hsends : ∀ o p, sends o p → o.Sends opens shield revision p)
    (hfits : ∀ x ∈ (a.flush shield revision).1, x.Fits z) :
    Wire z opens sends opens' sends' (a.flush shield revision).2
      (b.receive z (a.flush shield revision).1) out back := by
  obtain ⟨hreader, hinbound, -⟩ := a.flush_keeps shield revision
  refine ⟨h.out.flush hsends hfits, h.back.of_eq rfl rfl rfl ?_ ?_ hinbound⟩
  · rw [hreader]
  · rw [hreader]

theorem close (h : Wire z opens sends opens' sends' a b out back) (houtbox : a.outbox = []) :
    Wire z opens sends opens' sends' a.shutdown b.hangUp out back :=
  ⟨h.out.close houtbox, h.back.of_eq rfl rfl rfl rfl rfl rfl⟩

end Wire

end PackExchange
