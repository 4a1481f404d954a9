import Mathlib.Algebra.GroupWithZero.Nat
import PackExchange.Proofs.Frame.Listener

/-!
# How much a reader holds

Whatever a peer sends, and in whatever pieces, a reader holds little of it.  It turns to the stream
only while the frame at the front is one that may be read and has not arrived whole, and it opens a
batch only when nothing of the batch before is left.

* `Deflate.length_of_inflate` — what a compressed run expands to is no longer than allowed;
* `Batch.load` — how much packets take up, with `Batch.load_of_read`;
* `FrameReader.Holding` — the states that a reader comes to;
* `FrameReader.Holding.buffered_lt`, `Holding.pending_rests`, `Holding.load_le` — how much it holds
  in each of them;
* `FrameReader.Holding.receiveOf` — an attempt to read is a series of such states;
* `Listener.holds_little` — whatever is done with a connection.
-/

namespace PackExchange

/-! ### Expanded runs -/

namespace Deflate

variable {most : Nat} {out out' : Array UInt8} {s s' : BitStream}

theorem size_of_readPieces {literals distances : PrefixCode} {fuel : Nat}
    (h : readPieces most literals distances fuel s out = .ok (out', s')) (hout : out.size ≤ most) :
    out'.size ≤ most := by
  induction fuel generalizing s out with
  | zero => cases h
  | succ fuel ih =>
    rw [readPieces] at h
    split at h
    · cases h
    · cases h
      exact hout
    · next piece _ _ =>
      simp only at h
      split at h
      · cases h
      · next hmost => exact ih h (Nat.le_of_not_lt hmost)

theorem size_of_readPlain {size : Nat} {bytes : Bytes}
    (h : readPlain most size bytes out = .ok (out', s')) : out'.size ≤ most := by
  simp only [readPlain] at h
  split at h
  · cases h
  · next hmost =>
    split at h
    · cases h
    · cases h
      rw [Array.size_append, List.size_toArray]
      exact Nat.le_of_not_lt hmost

theorem size_of_readBlock {fuel : Nat} {last : Bool}
    (h : readBlock most fuel s out = .ok (last, out', s')) (hout : out.size ≤ most) :
    out'.size ≤ most := by
  rw [readBlock] at h
  split at h
  · cases h
  · next content t _ =>
    cases hcontent : readContent most fuel t out content with
    | error e =>
      rw [hcontent] at h
      cases h
    | ok r =>
      rw [hcontent] at h
      cases h
      cases content with
      | plain size => exact size_of_readPlain hcontent
      | coded literals distances => exact size_of_readPieces hcontent hout

theorem size_of_readBlocks {fuel : Nat} (h : readBlocks most fuel s out = .ok out')
    (hout : out.size ≤ most) : out'.size ≤ most := by
  induction fuel generalizing s out with
  | zero => cases h
  | succ fuel ih =>
    rw [readBlocks] at h
    cases hblock : readBlock most fuel s out with
    | error e =>
      rw [hblock] at h
      cases h
    | ok r =>
      obtain ⟨last, out₁, s₁⟩ := r
      rw [hblock] at h
      have hsize := size_of_readBlock hblock hout
      cases last with
      | true =>
        cases h
        exact hsize
      | false => exact ih h hsize

/-- **A run expands to no more bytes than are allowed.** -/
theorem length_of_inflate {bs content : Bytes} (h : inflate most bs = .ok content) :
    content.length ≤ most := by
  rw [inflate] at h
  split at h
  · next out hexpand =>
    cases h
    rw [Array.length_toList]
    exact size_of_readBlocks hexpand (Nat.zero_le _)
  · cases h
  · cases h

end Deflate

/-! ### Batches -/

namespace Batch

/-- How many bytes packets take up, if each of them takes one more than it has. -/
def load (packets : List Bytes) : Nat := (packets.map (·.length + 1)).sum

theorem load_reverse (packets : List Bytes) : load packets.reverse = load packets := by
  rw [load, load, List.map_reverse, List.sum_reverse]

/-- What is left of packets takes up no more than they do. -/
theorem load_of_suffix {ps qs : List Bytes} (h : ps <:+ qs) : load ps ≤ load qs := by
  obtain ⟨taken, rfl⟩ := h
  rw [load, load, List.map_append, List.sum_append]
  exact Nat.le_add_left _ _

theorem load_of_take {fuel : Nat} {bs : Bytes} {taken packets : List Bytes}
    (h : take fuel bs taken = .ok packets) : load packets ≤ load taken + bs.length := by
  induction fuel generalizing bs taken with
  | zero =>
    cases bs with
    | nil | cons =>
      rw [take] at h
      cases h
      rw [load_reverse]
      exact Nat.le_add_right _ _
  | succ fuel ih =>
    cases bs with
    | nil =>
      rw [take] at h
      cases h
      rw [load_reverse]
      exact Nat.le_add_right _ _
    | cons b bs =>
      rw [take] at h
      split at h
      · cases h
      · next length rest hread =>
        split at h
        · cases h
        · next packet left hsplit =>
          -- the length of a packet takes a byte at least
          have hshorter := VarInt.read32_shorter hread
          obtain ⟨-, rfl⟩ := Bytes.split?_eq_some_iff.mp hsplit
          have hload : load (packet :: taken) = packet.length + 1 + load taken := rfl
          have hrest := ih h
          rw [List.length_append] at hshorter
          omega

/-- A body is no longer than a batch may be, compressed or not. -/
theorem length_of_readBody {compressed : Bool} {bs content : Bytes}
    (h : readBody compressed bs = .ok content) (hmost : bs.length ≤ Frame.mostBytes) :
    content.length ≤ mostBytes := by
  have hframe : Frame.mostBytes ≤ mostBytes := by decide
  cases compressed with
  | false =>
    cases h
    omega
  | true =>
    cases bs with
    | nil => cases h
    | cons algorithm bs =>
      rw [List.length_cons] at hmost
      simp only [readBody, if_true] at h
      split at h
      · rw [expand] at h
        split at h
        · cases h
        · next hinflate =>
          cases h
          exact Deflate.length_of_inflate hinflate
      · split at h
        · cases h
          omega
        · cases h

/-- **The packets of a batch take up no more than a batch may.** -/
theorem load_of_read {compressed : Bool} {batch : Bytes} {packets : List Bytes}
    (h : read compressed batch = .ok packets) (hmost : batch.length ≤ Frame.mostBytes) :
    load packets ≤ mostBytes := by
  cases batch with
  | nil => cases h
  | cons first bs =>
    rw [read] at h
    split at h
    · cases hbody : readBody compressed bs with
      | error e =>
        rw [hbody] at h
        cases h
      | ok content =>
        rw [hbody] at h
        have hcontent := length_of_readBody hbody (Nat.le_of_succ_le hmost)
        have hload := load_of_take h
        rw [show load [] = 0 from rfl] at hload
        omega
    · cases h

end Batch

/-- What is left of a stream after its last whole frame is the front of what comes next. -/
theorem Frame.parse_append (bs tail : Bytes) :
    parse (bs ++ tail) = ((parse bs).1 ++ (parse ((parse bs).2 ++ tail)).1,
      (parse ((parse bs).2 ++ tail)).2) := by
  induction hlength : bs.length using Nat.strongRecOn generalizing bs with
  | ind n ih =>
    cases hsplit : split? bs with
    | error cause => rw [parse_partial (not_whole_of_error hsplit), List.nil_append]
    | ok found =>
      cases found with
      | none => rw [parse_partial (not_whole_of_none hsplit), List.nil_append]
      | some frame =>
        obtain ⟨batch, rest⟩ := frame
        have hshorter := split?_shorter hsplit
        rw [parse_whole (split?_append hsplit tail), parse_whole hsplit,
          ih rest.length (by omega) rest rfl]
        rfl

namespace FrameReader

/-! ### One reader -/

/-- The states that a reader comes to, with all that it was given of the stream.  The stream gives
it a few bytes at a time. -/
inductive Holding : FrameReader → Bytes → Prop
  | start : Holding {} []
  /-- The first of the packets that are left is handed over. -/
  | hands {r : FrameReader} {given : Bytes} {packet : Bytes} {pending : List Bytes}
      (h : Holding r given) (hpending : r.pending = packet :: pending) :
      Holding { r with pending := pending } given
  /-- The batch at the front is read, when nothing is left of the one before. -/
  | opens {r : FrameReader} {given : Bytes} {batch rest : Bytes} {packets : List Bytes}
      (h : Holding r given) (hpending : r.pending = [])
      (hsplit : Frame.split? r.buffered = .ok (some (batch, rest)))
      (hread : Batch.read r.compressed batch = .ok packets) :
      Holding { r with buffered := rest, pending := packets } given
  /-- The batch at the front cannot be read. -/
  | drops {r : FrameReader} {given : Bytes} {batch rest : Bytes} {cause : FrameError}
      (h : Holding r given) (hpending : r.pending = [])
      (hsplit : Frame.split? r.buffered = .ok (some (batch, rest)))
      (hread : Batch.read r.compressed batch = .error cause) :
      Holding { r with buffered := rest } given
  | feeds {r : FrameReader} {given piece : Bytes} (h : Holding r given) (hwaits : r.Waits)
      (hmost : piece.length ≤ Inbound.readSize) : Holding (r.feed piece) (given ++ piece)
  | compresses {r : FrameReader} {given : Bytes} (h : Holding r given) : Holding r.compress given

/-- Are the packets that are left the last ones of a batch? -/
def Rests (pending : List Bytes) (batch : Bytes) : Prop :=
  ∃ compressed packets, Batch.read compressed batch = .ok packets ∧ pending <:+ packets

/-- **A reader that waits holds less than the longest frame.** -/
theorem Waits.short {r : FrameReader} (h : r.Waits) :
    r.buffered.length < Frame.mostBytes + 5 := by
  rcases Frame.split?_eq_none_iff.mp h.buffered with
    ⟨needed, remaining, hread⟩ | ⟨length, rest, hread, hmost, hshort⟩
  · have hlength := VarInt.read32_notEnough hread
    omega
  · have hlength := VarInt.read32_length hread
    omega

/-- A reader never holds more than a frame and what one read gives. -/
theorem Holding.buffered_lt {r : FrameReader} {given : Bytes} (h : Holding r given) :
    r.buffered.length < Frame.mostBytes + 5 + Inbound.readSize := by
  induction h with
  | start => decide
  | hands h hpending ih => exact ih
  | opens h hpending hsplit hread ih | drops h hpending hsplit hread ih =>
    have hshorter := Frame.split?_shorter hsplit
    exact Nat.lt_trans hshorter ih
  | @feeds r given piece h hwaits hmost ih =>
    have hshort := hwaits.short
    show (r.buffered ++ piece).length < _
    rw [List.length_append]
    omega
  | compresses h ih => exact ih

/-- The stream so far is the batches that were taken off it and what the reader holds. -/
theorem Holding.parse {r : FrameReader} {given : Bytes} (h : Holding r given) :
    ∃ taken, Frame.parse given =
        (taken ++ (Frame.parse r.buffered).1, (Frame.parse r.buffered).2) ∧
      (r.pending = [] ∨
        ∃ batch ∈ taken, batch.length ≤ Frame.mostBytes ∧ Rests r.pending batch) := by
  induction h with
  | start => exact ⟨[], rfl, Or.inl rfl⟩
  | hands h hpending ih =>
    obtain ⟨taken, hparse, hleft⟩ := ih
    refine ⟨taken, hparse, ?_⟩
    rcases hleft with hnone | ⟨batch, hbatch, hmost, compressed, packets, hread, hsuffix⟩
    · rw [hpending] at hnone
      cases hnone
    · rw [hpending] at hsuffix
      exact Or.inr ⟨batch, hbatch, hmost, compressed, packets, hread,
        (List.suffix_cons _ _).trans hsuffix⟩
  | @opens r given batch rest packets h hpending hsplit hread ih =>
    obtain ⟨taken, hparse, -⟩ := ih
    rw [Frame.parse_whole hsplit, List.append_cons] at hparse
    exact ⟨taken ++ [batch], hparse, Or.inr ⟨batch, List.mem_append_right _ List.mem_cons_self,
      Frame.length_of_split? hsplit, _, _, hread, List.suffix_rfl⟩⟩
  | @drops r given batch rest cause h hpending hsplit hread ih =>
    obtain ⟨taken, hparse, -⟩ := ih
    rw [Frame.parse_whole hsplit, List.append_cons] at hparse
    exact ⟨taken ++ [batch], hparse, Or.inl hpending⟩
  | @feeds r given piece h hwaits hmost ih =>
    obtain ⟨taken, hparse, -⟩ := ih
    rw [Frame.parse_partial (Frame.not_whole_of_none hwaits.buffered)] at hparse
    refine ⟨taken, ?_, Or.inl hwaits.pending⟩
    rw [Frame.parse_append, hparse, List.append_nil]
    rfl
  | compresses h ih => exact ih

/-- **The packets that are left come from one batch of the stream.** -/
theorem Holding.pending_rests {r : FrameReader} {given : Bytes} (h : Holding r given) :
    r.pending = [] ∨ ∃ batch ∈ (Frame.parse given).1, Rests r.pending batch := by
  obtain ⟨taken, hparse, hleft⟩ := h.parse
  refine hleft.imp id ?_
  rintro ⟨batch, hbatch, -, hrests⟩
  refine ⟨batch, ?_, hrests⟩
  rw [hparse]
  exact List.mem_append_left _ hbatch

/-- So they take up no more than a batch may. -/
theorem Holding.load_le {r : FrameReader} {given : Bytes} (h : Holding r given) :
    Batch.load r.pending ≤ Batch.mostBytes := by
  obtain ⟨taken, -, hleft⟩ := h.parse
  rcases hleft with hnone | ⟨batch, -, hmost, compressed, packets, hread, hsuffix⟩
  · rw [hnone]
    exact Nat.zero_le _
  · exact Nat.le_trans (Batch.load_of_suffix hsuffix) (Batch.load_of_read hread hmost)

/-! ### An attempt to read -/

/-- What a reader makes of what it holds. -/
theorem Holding.nextOf {r r' : FrameReader} {given : Bytes} (h : Holding r given) {fuel : Nat}
    {o : Outcome} (hnext : FrameReader.nextOf fuel r = (o, r')) : Holding r' given := by
  fun_induction FrameReader.nextOf fuel r with
  | case1 fuel r packet pending hpending =>
    cases hnext
    exact h.hands hpending
  | case2 | case3 | case4 =>
    cases hnext
    exact h
  | case5 fuel r hpending hsome batch rest hsplit cause hread =>
    cases hnext
    exact h.drops hpending hsplit hread
  | case6 r hpending hsome batch rest hsplit packets hread =>
    cases hnext
    exact h.opens hpending hsplit hread
  | case7 r hpending hsome batch rest hsplit packets hread fuel ih =>
    exact ih (h.opens hpending hsplit hread) hnext

/-- A reader that is given less than it lacks waits on, and lacks that much less. -/
theorem Waits.feed {r : FrameReader} (h : r.Waits) {piece : Bytes}
    (hpiece : piece.length < r.lacking) :
    (r.feed piece).Waits ∧ (r.feed piece).lacking = r.lacking - piece.length := by
  rcases Frame.split?_eq_none_iff.mp h.buffered with
    ⟨needed, remaining, hread⟩ | ⟨length, rest, hread, hmost, hshort⟩
  · have hlacking : r.lacking = 1 := by rw [lacking, hread]
    obtain rfl : piece = [] := List.length_eq_zero_iff.mp (by omega)
    have hsame : r.feed [] = r := by rw [FrameReader.feed, List.append_nil]
    rw [hsame]
    exact ⟨h, rfl⟩
  · have hlacking : r.lacking = length.toNat - rest.length := by
      rw [lacking, hread]
      exact Nat.max_eq_right (by omega)
    have hmore : VarInt.read32 (r.feed piece).buffered = .ok (length, rest ++ piece) :=
      VarInt.read32_append hread piece
    have hlonger : (rest ++ piece).length < length.toNat := by
      rw [List.length_append]
      omega
    refine ⟨⟨h.pending, Frame.split?_eq_none_iff.mpr (Or.inr ⟨_, _, hmore, hmost, hlonger⟩)⟩, ?_⟩
    rw [hlacking, lacking, hmore]
    simp only [List.length_append] at hlonger ⊢
    omega

/-- **What a reader asks for comes in reads of a few bytes**, and it waits before each of them. -/
theorem Holding.feeds_appetite {r : FrameReader} {given : Bytes} (h : Holding r given)
    (hwaits : r.Waits) {piece : Bytes} (hpiece : piece.length ≤ r.appetite) :
    Holding (r.feed piece) (given ++ piece) := by
  induction hlength : piece.length using Nat.strongRecOn generalizing r given piece with
  | ind n ih =>
    by_cases hmost : piece.length ≤ Inbound.readSize
    · exact h.feeds hwaits hmost
    · -- the frame lacks more than one read gives, so the reader waits after it
      have hfirst : (piece.take Inbound.readSize).length = Inbound.readSize := by
        rw [List.length_take]
        omega
      have hless : (piece.take Inbound.readSize).length < r.lacking := by
        rw [appetite, Inbound.readSize] at hpiece
        rw [hfirst, Inbound.readSize]
        rw [Inbound.readSize] at hmost
        omega
      obtain ⟨hwaits', hlacking⟩ := hwaits.feed hless
      have hrest : (piece.drop Inbound.readSize).length ≤
          (r.feed (piece.take Inbound.readSize)).appetite := by
        rw [appetite, hlacking, hfirst, List.length_drop]
        rw [appetite] at hpiece
        rw [hfirst] at hless
        rw [Inbound.readSize] at *
        omega
      have hfed := ih _ (by rw [List.length_drop, Inbound.readSize]; omega)
        (h.feeds hwaits (Nat.le_of_eq hfirst)) hwaits' hrest rfl
      rw [feed, feed, List.append_assoc, List.append_assoc, List.take_append_drop] at hfed
      exact hfed

/-- **An attempt to read is a series of such states**, and gives the reader what it takes off the
stream. -/
theorem Holding.receiveOf {fuel : Nat} {r r' : FrameReader} {given : Bytes} {i i' : Inbound}
    {o : Outcome} (h : Holding r given) (hreceive : FrameReader.receiveOf fuel r i = (o, r', i')) :
    ∃ given', Holding r' given' ∧ given' ++ i'.arrived = given ++ i.arrived := by
  induction fuel generalizing r given i with
  | zero =>
    cases hreceive
    exact ⟨_, h, rfl⟩
  | succ fuel ih =>
    rw [FrameReader.receiveOf] at hreceive
    cases hnext : r.next with
    | mk outcome r₁ =>
      have h₁ := h.nextOf hnext
      rw [hnext] at hreceive
      rcases transcript_nextOf hnext (Nat.lt_succ_self _) with ⟨rfl, hwaits, -⟩ | ⟨hnot, -⟩
      · simp only at hreceive
        split at hreceive
        · cases hreceive
          exact ⟨_, h₁, rfl⟩
        · obtain ⟨given', hholding, hgiven⟩ :=
            ih (h₁.feeds_appetite hwaits (List.length_take_le _ _)) hreceive
          refine ⟨given', hholding, ?_⟩
          rw [hgiven, List.append_assoc, List.take_append_drop]
      · cases outcome with
        | waiting => exact absurd rfl hnot
        | packet _ | failed _ | ended =>
          cases hreceive
          exact ⟨_, h₁, rfl⟩

end FrameReader

/-! ### A connection -/

open FrameReader (Holding Rests)

namespace Listener

/-- A listener whose reader was given all of a stream that is no longer to come. -/
def Keeps (stream : Bytes) (x : Listener) : Prop :=
  ∃ given, Holding x.side.reader given ∧
    given ++ (x.side.inbound.arrived ++ x.coming.flatten) = stream

variable {stream : Bytes}

theorem keeps_start (pieces : List Bytes) : (start pieces).Keeps pieces.flatten :=
  ⟨[], .start, rfl⟩

/-- One read of what has arrived. -/
theorem Keeps.read_side {s : Side} {coming : List Bytes} (h : Keeps stream ⟨s, coming⟩) :
    Keeps stream ⟨s.read.2, coming⟩ := by
  obtain ⟨given, hholding, hgiven⟩ := h
  obtain ⟨given', hholding', hgiven'⟩ := hholding.receiveOf s.read_receive
  refine ⟨given', hholding', ?_⟩
  rw [← List.append_assoc, hgiven', List.append_assoc]
  exact hgiven

/-- A read, with the pieces that come while it waits. -/
theorem Keeps.await {coming : List Bytes} {s : Side} (h : Keeps stream ⟨s, coming⟩) :
    (Listener.await coming s).2.Keeps stream := by
  induction coming generalizing s with
  | nil =>
    have hclosed : Keeps stream ⟨s.onStream ({ · with closed := true }), []⟩ := by
      rw [Keeps, Side.reader_onStream, Side.inbound_onStream]
      exact h
    exact hclosed.read_side
  | cons piece coming ih =>
    have hopen : Keeps stream ⟨s.onStream ({ · with closed := false }), piece :: coming⟩ := by
      rw [Keeps, Side.reader_onStream, Side.inbound_onStream]
      exact h
    have hread := hopen.read_side
    rw [Listener.await]
    split
    · next s' hwaiting =>
      rw [hwaiting] at hread
      apply ih
      obtain ⟨given, hholding, hgiven⟩ := hread
      refine ⟨given, ?_, ?_⟩
      · rw [Side.reader_onStream]
        exact hholding
      · rw [Side.inbound_onStream, Inbound.push, List.append_assoc]
        exact hgiven
    · next houtcome =>
      rw [houtcome] at hread
      exact hread

theorem Keeps.run {x : Listener} (h : x.Keeps stream) (ops : List Operation) :
    (x.run ops).2.Keeps stream := by
  induction ops generalizing x with
  | nil => exact h
  | cons op ops ih =>
    cases op with
    | read => exact ih (x := x.read.2) h.await
    | compress threshold =>
      obtain ⟨given, hholding, hgiven⟩ := h
      refine ih (x := x.compress threshold) ⟨given, ?_, ?_⟩
      · rw [compress, Side.reader_compress]
        exact hholding.compresses
      · rw [compress, Side.inbound_compress]
        exact hgiven
    | split =>
      obtain ⟨given, hholding, hgiven⟩ := h
      refine ih (x := x.split) ⟨given, ?_, ?_⟩
      · rw [split, Side.reader_split]
        exact hholding
      · rw [split, Side.inbound_split]
        exact hgiven

/-- **A reader holds little, whatever a peer sends.**  In every state that a reader comes to

* the bytes that were not interpreted are fewer than the longest frame, its length and one read take;
* the packets that nobody has taken are the last ones of one batch of the stream so far, which was
  read as a whole;
* these take up no more than one batch may, each with a byte for its length.

These are the states of every connection: wherever the stream is cut, whatever is read and comes
out of it, and whenever compression is agreed on or the connection is split. -/
theorem holds_little :
    (∀ (r : FrameReader) (given : Bytes), Holding r given →
      r.buffered.length < Frame.mostBytes + 5 + Inbound.readSize ∧
      (r.pending = [] ∨ ∃ batch ∈ (Frame.parse given).1, Rests r.pending batch) ∧
      (r.pending.map (·.length + 1)).sum ≤ Batch.mostBytes) ∧
    ∀ (pieces : List Bytes) (ops : List Operation), ∃ given, given <+: pieces.flatten ∧
      Holding ((start pieces).run ops).2.side.reader given := by
  constructor
  · intro r given h
    exact ⟨h.buffered_lt, h.pending_rests, h.load_le⟩
  · intro pieces ops
    obtain ⟨given, hholding, hgiven⟩ := (keeps_start pieces).run ops
    exact ⟨given, ⟨_, hgiven⟩, hholding⟩

/-- One of two packets is taken, and a part of the next frame has arrived. -/
theorem holds_little_example :
    ((start [[5], [0xFE, 1, 7], [1, 8, 3]]).run [.read]).2.side.reader =
        { buffered := [3], pending := [[8]] } ∧
      ∃ given, given <+: [5, 0xFE, 1, 7, 1, 8, 3] ∧
        Holding { buffered := [3], pending := [[8]] } given ∧
        ([3] : Bytes).length < Frame.mostBytes + 5 + Inbound.readSize ∧
        (([[8]] : List Bytes) = [] ∨ ∃ batch ∈ (Frame.parse given).1, Rests [[8]] batch) ∧
        (([[8]] : List Bytes).map (·.length + 1)).sum ≤ Batch.mostBytes := by
  obtain ⟨hbounds, hruns⟩ := holds_little
  obtain ⟨given, hgiven, hholding⟩ := hruns [[5], [0xFE, 1, 7], [1, 8, 3]] [.read]
  have hreader : ((start [[5], [0xFE, 1, 7], [1, 8, 3]]).run [.read]).2.side.reader =
      { buffered := [3], pending := [[8]] } := by decide +kernel
  rw [hreader] at hholding
  exact ⟨hreader, given, hgiven, hholding, hbounds _ _ hholding⟩

end Listener

end PackExchange
