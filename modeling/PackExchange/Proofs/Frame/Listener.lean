import PackExchange.Frame.Connection
import PackExchange.Proofs.Frame.Transcript

/-!
# Reading a stream that arrives in pieces

A stream arrives piece by piece, the next one whenever the reader has taken up all before it, and
ends after the last.  However it is cut, what is read is what a transcript of the whole stream says.

* `Side` — the reading side of a connection, whole or split;
* `Listener` — a reading side and the pieces that are still to come;
* `FrameReader.Received` — what one attempt to read makes of a reader;
* `Listener.read_eq`, `Listener.run_eq` — reads against the transcript;
* `Listener.reads_stream` — what is read of any stream.
-/

namespace PackExchange

open FrameReader (Outcome)

/-! ### The reading side -/

/-- The reading side of a connection. -/
inductive Side where
  | whole (c : Connection)
  | half (h : ReadHalf)
  deriving DecidableEq, Repr

namespace Side

/-- What has been read from the stream. -/
def reader : Side → FrameReader
  | whole c => c.reader
  | half h => h.reader

/-- What has arrived on the stream. -/
def inbound : Side → Inbound
  | whole c => c.inbound
  | half h => h.inbound

/-- Something happens to the stream. -/
def onStream (f : Inbound → Inbound) : Side → Side
  | whole c => whole { c with inbound := f c.inbound }
  | half h => half { h with inbound := f h.inbound }

/-- Takes the next packet. -/
def read : Side → Outcome × Side
  | whole c => (c.read.1, whole c.read.2)
  | half h => (h.read.1, half h.read.2)

/-- Compression is agreed on. -/
def compress (threshold : UInt16) : Side → Side
  | whole c => whole (c.compress threshold)
  | half h => half h.compress

/-- Splits the connection, once. -/
def split : Side → Side
  | whole c => half c.split.1
  | half h => half h

@[simp] theorem reader_onStream (f : Inbound → Inbound) (s : Side) :
    (s.onStream f).reader = s.reader := by
  cases s <;> rfl

@[simp] theorem inbound_onStream (f : Inbound → Inbound) (s : Side) :
    (s.onStream f).inbound = f s.inbound := by
  cases s <;> rfl

@[simp] theorem reader_compress (threshold : UInt16) (s : Side) :
    (s.compress threshold).reader = s.reader.compress := by
  cases s <;> rfl

@[simp] theorem inbound_compress (threshold : UInt16) (s : Side) :
    (s.compress threshold).inbound = s.inbound := by
  cases s <;> rfl

@[simp] theorem reader_split (s : Side) : s.split.reader = s.reader := by
  cases s <;> rfl

@[simp] theorem inbound_split (s : Side) : s.split.inbound = s.inbound := by
  cases s <;> rfl

theorem read_receive (s : Side) :
    s.reader.receive s.inbound = (s.read.1, s.read.2.reader, s.read.2.inbound) := by
  cases s <;> rfl

end Side

/-- A reading side and the pieces of the stream that are still to come. -/
structure Listener where
  side : Side
  coming : List Bytes
  deriving DecidableEq, Repr

namespace Listener

/-- A new connection to a stream. -/
def start (pieces : List Bytes) : Listener := { side := .whole {}, coming := pieces }

/-- Takes the next packet.  A piece comes when the reader waits, and the stream ends when it waits
and none is left. -/
def await : List Bytes → Side → Outcome × Listener
  | [], s =>
    let (outcome, s) := (s.onStream ({ · with closed := true })).read
    (outcome, { side := s, coming := [] })
  | piece :: coming, s =>
    match (s.onStream ({ · with closed := false })).read with
    | (.waiting, s) => await coming (s.onStream (·.push piece))
    | (outcome, s) => (outcome, { side := s, coming := piece :: coming })

/-- Takes the next packet. -/
def read (x : Listener) : Outcome × Listener := await x.coming x.side

/-- Compression is agreed on. -/
def compress (x : Listener) (threshold : UInt16) : Listener :=
  { x with side := x.side.compress threshold }

/-- Splits the connection. -/
def split (x : Listener) : Listener := { x with side := x.side.split }

/-- Does some operations, with what they read. -/
def run : Listener → List Operation → List Outcome × Listener
  | x, [] => ([], x)
  | x, .read :: ops => (x.read.1 :: (run x.read.2 ops).1, (run x.read.2 ops).2)
  | x, .compress threshold :: ops => run (x.compress threshold) ops
  | x, .split :: ops => run x.split ops

/-- What operations read. -/
def results (x : Listener) (ops : List Operation) : List Outcome := (x.run ops).1

/-- All bytes that were not interpreted: those in the reader, those that have arrived, and those to
come. -/
def unread (x : Listener) : Bytes :=
  x.side.reader.buffered ++ (x.side.inbound.arrived ++ x.coming.flatten)

theorem unread_start (pieces : List Bytes) : (start pieces).unread = pieces.flatten := rfl

/-- The packets of the last batch that nobody has taken. -/
def pending (x : Listener) : List Bytes := x.side.reader.pending

/-- Is compression agreed on? -/
def compressed (x : Listener) : Bool := x.side.reader.compressed

/-- What is left to be taken of the stream. -/
def transcript (x : Listener) : Transcript := .ofStream x.compressed x.pending x.unread

end Listener

/-! ### One attempt -/

namespace FrameReader

/-- What is left to be taken of what a reader holds and the bytes after it. -/
def transcript (r : FrameReader) (rest : Bytes) : Transcript :=
  .ofStream r.compressed r.pending (r.buffered ++ rest)

/-- A reader that waits for more. -/
structure Waits (r : FrameReader) : Prop where
  pending : r.pending = []
  buffered : Frame.split? r.buffered = .ok none

/-- What an attempt to take a packet makes of a reader and a stream. -/
inductive Received (r : FrameReader) (i : Inbound) : Outcome → FrameReader → Inbound → Prop
  | drained {r' : FrameReader} (hwaits : r'.Waits)
      (hread : ∀ rest, (r.transcript (i.arrived ++ rest)).read = (r'.transcript rest).read) :
      Received r i (if i.closed then .ended else .waiting) r' { i with arrived := [] }
  | taken {o : Outcome} {r' : FrameReader} {arrived : Bytes} (hnot : o ≠ .waiting)
      (hread : ∀ rest, (r.transcript (i.arrived ++ rest)).read =
        (o, r'.transcript (arrived ++ rest))) :
      Received r i o r' { i with arrived := arrived }

/-- What the reader holds is taken in the order of the transcript. -/
theorem transcript_nextOf {fuel : Nat} {r r' : FrameReader} {o : Outcome}
    (h : nextOf fuel r = (o, r')) (hfuel : r.buffered.length < fuel) :
    (o = .waiting ∧ r'.Waits ∧
        ∀ rest, (r.transcript rest).read = (r'.transcript rest).read) ∨
      (o ≠ .waiting ∧ ∀ rest, (r.transcript rest).read = (o, r'.transcript rest)) := by
  induction fuel generalizing r with
  | zero => exact absurd hfuel (Nat.not_lt_zero _)
  | succ fuel ih =>
    obtain ⟨compressed, buffered, pending⟩ := r
    rw [nextOf] at h
    cases pending with
    | cons packet pending =>
      cases h
      refine Or.inr ⟨by simp, ?_⟩
      intro rest
      exact Transcript.read_pending packet pending _ _
    | nil =>
      by_cases hempty : buffered = []
      · subst hempty
        cases h
        exact Or.inl ⟨rfl, ⟨rfl, rfl⟩, fun _ => rfl⟩
      · simp only [List.isEmpty_iff, hempty, if_false] at h
        cases hsplit : Frame.split? buffered with
        | error cause =>
          rw [hsplit] at h
          cases h
          refine Or.inr ⟨by simp, ?_⟩
          intro rest
          have herror := Frame.split?_error_append hsplit rest
          rw [← Transcript.ending_of_error herror]
          exact Transcript.read_partial (Frame.not_whole_of_error herror)
        | ok found =>
          rw [hsplit] at h
          cases found with
          | none =>
            cases h
            exact Or.inl ⟨rfl, ⟨rfl, hsplit⟩, fun _ => rfl⟩
          | some frame =>
            obtain ⟨batch, left⟩ := frame
            have hframe := Frame.split?_append hsplit
            cases hread : Batch.read compressed batch with
            | error cause =>
              simp only [hread] at h
              cases h
              refine Or.inr ⟨by simp, ?_⟩
              intro rest
              exact Transcript.read_malformed (hframe rest) hread
            | ok packets =>
              simp only [hread] at h
              have hshorter := Frame.split?_shorter hsplit
              have hleft : left.length < fuel := by
                have hbuffered : buffered.length < fuel + 1 := hfuel
                omega
              have hskip : ∀ rest, (transcript ⟨compressed, buffered, []⟩ rest).read =
                  (transcript ⟨compressed, left, packets⟩ rest).read :=
                fun rest => Transcript.read_batch (hframe rest) hread
              simp only [hskip]
              exact ih h hleft

/-- An attempt to take a packet, turning to the stream as needed. -/
theorem received_receiveOf {fuel : Nat} {r r' : FrameReader} {i i' : Inbound} {o : Outcome}
    (h : receiveOf fuel r i = (o, r', i')) (hfuel : i.arrived.length < fuel) :
    Received r i o r' i' := by
  induction fuel generalizing r i with
  | zero => exact absurd hfuel (Nat.not_lt_zero _)
  | succ fuel ih =>
    rw [receiveOf] at h
    cases hnext : r.next with
    | mk outcome r₁ =>
      rw [hnext] at h
      rcases transcript_nextOf hnext (Nat.lt_succ_self _) with
        ⟨rfl, hwaits, hskip⟩ | ⟨hnot, htaken⟩
      · by_cases harrived : i.arrived = []
        · -- nothing has arrived: the attempt is over
          simp only [harrived, List.isEmpty_nil, if_true] at h
          cases h
          have hdrained : Received r i' (if i'.closed then .ended else .waiting) r'
              { i' with arrived := [] } := by
            refine .drained hwaits ?_
            intro rest
            rw [harrived, List.nil_append]
            exact hskip rest
          rw [← harrived] at hdrained
          exact hdrained
        · simp only [List.isEmpty_iff, harrived, if_false] at h
          have hshorter : (i.arrived.drop r₁.appetite).length < fuel := by
            have hpos := List.length_pos_iff.mpr harrived
            have happetite := r₁.appetite_pos
            rw [List.length_drop]
            omega
          have hfeed : ∀ rest, (r.transcript (i.arrived ++ rest)).read =
              ((r₁.feed (i.arrived.take r₁.appetite)).transcript
                (i.arrived.drop r₁.appetite ++ rest)).read := by
            intro rest
            rw [hskip, transcript, transcript, feed, List.append_assoc,
              ← List.append_assoc (List.take _ _), List.take_append_drop]
          cases ih h hshorter with
          | drained hwaits' hread =>
            refine .drained hwaits' ?_
            intro rest
            rw [hfeed]
            exact hread rest
          | taken hnot hread =>
            refine .taken hnot ?_
            intro rest
            rw [hfeed]
            exact hread rest
      · cases outcome with
        | waiting => exact absurd rfl hnot
        | packet _ | failed _ | ended =>
          cases h
          exact .taken hnot (fun rest => htaken _)

theorem received_receive (r : FrameReader) (i : Inbound) :
    Received r i (r.receive i).1 (r.receive i).2.1 (r.receive i).2.2 :=
  received_receiveOf rfl (by omega)

end FrameReader

/-! ### Reads -/

/-- What is left to be taken of what a reading side holds and the bytes after it. -/
def Side.transcript (s : Side) (rest : Bytes) : Transcript :=
  s.reader.transcript (s.inbound.arrived ++ rest)

/-- What one read makes of a reading side. -/
theorem Side.read_transcript (s : Side) :
    (s.read.1 = (if s.inbound.closed then .ended else .waiting) ∧ s.read.2.reader.Waits ∧
        s.read.2.inbound.arrived = [] ∧
        ∀ rest, (s.transcript rest).read = (s.read.2.transcript rest).read) ∨
      (s.read.1 ≠ .waiting ∧
        ∀ rest, (s.transcript rest).read = (s.read.1, s.read.2.transcript rest)) := by
  have hreceived := FrameReader.received_receive s.reader s.inbound
  rw [read_receive] at hreceived
  simp only [transcript]
  generalize s.read.1 = o, s.read.2.reader = r, s.read.2.inbound = i at hreceived ⊢
  cases hreceived with
  | drained hwaits hread => exact Or.inl ⟨rfl, hwaits, rfl, hread⟩
  | taken hnot hread => exact Or.inr ⟨hnot, hread⟩

/-- A reader that waits at the end of the stream has nothing more to take. -/
theorem FrameReader.Waits.read_transcript {r : FrameReader} (h : r.Waits) :
    (r.transcript []).read = (.ended, r.transcript []) := by
  rw [transcript, h.pending, List.append_nil, ← Transcript.ending_of_none h.buffered]
  exact Transcript.read_partial (Frame.not_whole_of_none h.buffered)

namespace Listener

theorem transcript_eq (x : Listener) : x.transcript = x.side.transcript x.coming.flatten := rfl

/-- **A read takes what is next in the transcript.** -/
theorem await_eq (coming : List Bytes) (s : Side) :
    (transcript ⟨s, coming⟩).read = ((await coming s).1, (await coming s).2.transcript) := by
  induction coming generalizing s with
  | nil =>
    have hsame : transcript ⟨s, []⟩ =
        (s.onStream ({ · with closed := true })).transcript [] := by
      simp [transcript_eq, Side.transcript]
    rw [hsame, await]
    rcases (s.onStream ({ · with closed := true })).read_transcript with
      ⟨houtcome, hwaits, harrived, hread⟩ | ⟨-, hread⟩
    · have hend := hwaits.read_transcript
      rw [hread, houtcome, transcript_eq]
      simp [Side.transcript, harrived, hend]
    · exact hread []
  | cons piece coming ih =>
    have hsame : transcript ⟨s, piece :: coming⟩ =
        (s.onStream ({ · with closed := false })).transcript (piece ++ coming.flatten) := by
      simp [transcript_eq, Side.transcript]
    rw [hsame, await]
    have hclosed : (s.onStream ({ · with closed := false })).inbound.closed = false := by simp
    generalize s.onStream ({ · with closed := false }) = s at hclosed ⊢
    rcases s.read_transcript with ⟨houtcome, -, harrived, hread⟩ | ⟨hnot, hread⟩
    · -- the reader waits, and the next piece comes
      rw [hclosed] at houtcome
      rw [hread]
      cases hside : s.read with
      | mk o s' =>
        rw [hside] at houtcome harrived
        simp only at houtcome harrived
        subst houtcome
        have hpush : s'.transcript (piece ++ coming.flatten) =
            transcript ⟨s'.onStream (·.push piece), coming⟩ := by
          simp [transcript_eq, Side.transcript, Inbound.push, harrived]
        rw [hpush]
        exact ih _
    · rw [hread]
      cases hside : s.read with
      | mk o s' =>
        rw [hside] at hnot
        cases o with
        | waiting => exact absurd rfl hnot
        | packet _ | failed _ | ended => rfl

theorem read_eq (x : Listener) : x.transcript.read = (x.read.1, x.read.2.transcript) :=
  await_eq x.coming x.side

theorem transcript_compress (x : Listener) (threshold : UInt16) :
    (x.compress threshold).transcript = x.transcript.compress := by
  simp [transcript_eq, Side.transcript, compress, FrameReader.transcript, FrameReader.compress,
    Transcript.compress, Transcript.ofStream]

theorem transcript_split (x : Listener) : x.split.transcript = x.transcript := by
  simp [transcript_eq, Side.transcript, split]

/-- **Operations read what the transcript says**, and leave what it leaves. -/
theorem run_eq (x : Listener) (ops : List Operation) :
    x.transcript.run ops = ((x.run ops).1, (x.run ops).2.transcript) := by
  induction ops generalizing x with
  | nil => rfl
  | cons op ops ih =>
    cases op with
    | read => rw [Transcript.run, read_eq, ih, run]
    | compress threshold => rw [Transcript.run, ← transcript_compress, ih, run]
    | split => rw [Transcript.run, ← transcript_split, ih, run]

theorem results_eq (x : Listener) (ops : List Operation) :
    x.results ops = x.transcript.results ops := by
  rw [Transcript.results, run_eq, results]

/-- **Where there is no whole frame every read comes to the same end, and nothing is consumed.** -/
theorem run_partial {x : Listener} (hpending : x.pending = [])
    (h : ∀ frame, Frame.split? x.unread ≠ .ok (some frame)) (ops : List Operation) :
    (∀ outcome ∈ x.results ops, outcome = Transcript.ending x.unread) ∧
      (x.run ops).2.unread = x.unread := by
  have htranscript : x.transcript = .ofStream x.compressed [] x.unread := by
    rw [transcript, hpending]
  have hrun := x.run_eq ops
  rw [htranscript] at hrun
  obtain ⟨houtcomes, compressed', hleft⟩ := Transcript.run_partial h ops
  rw [Transcript.results, hrun] at houtcomes
  rw [hrun] at hleft
  refine ⟨houtcomes, ?_⟩
  have hbatches : (Frame.parse (x.run ops).2.unread).1 = (Frame.parse x.unread).1 :=
    congrArg Transcript.batches hleft
  have hbytes : (Frame.parse (x.run ops).2.unread).2 = (Frame.parse x.unread).2 :=
    congrArg Transcript.left hleft
  rw [Frame.parse_partial h] at hbatches hbytes
  rw [← Frame.parse_left hbatches]
  exact hbytes

/-- A length that no frame may have is met by every read. -/
theorem run_stuck {x : Listener} (hpending : x.pending = []) {cause : FrameError}
    (h : Frame.split? x.unread = .error cause) (ops : List Operation) :
    (∀ outcome ∈ x.results ops, outcome = .failed cause) ∧
      (x.run ops).2.unread = x.unread := by
  rw [← Transcript.ending_of_error h]
  exact run_partial hpending (Frame.not_whole_of_error h) ops

/-- **A stream that arrives in pieces is read as a whole.**  What a new connection reads, with
compression agreed on and the connection split at any time, is what the transcript says of all bytes
together: each frame is cut off from the left, and its batch is read when all packets before it have
been taken.  The same holds from any state on.  In particular

* what is read does not depend on where the stream is cut;
* a malformed batch is one error and gives no packet, and reading goes on with the next frame;
* a length that is too large, or has five bytes and no end, is an error of every later read, and
  nothing is consumed;
* of a frame that the end of the stream cuts off nothing is read. -/
theorem reads_stream :
    (∀ (pieces : List Bytes) (ops : List Operation),
      (start pieces).results ops = (Transcript.ofStream false [] pieces.flatten).results ops) ∧
    (∀ (x : Listener) (ops : List Operation),
      x.results ops = (Transcript.ofStream x.compressed x.pending x.unread).results ops) ∧
    (∀ x y : Listener, y.compressed = x.compressed → y.pending = x.pending →
      y.unread = x.unread → ∀ ops, y.results ops = x.results ops) ∧
    (∀ (x : Listener) (batch rest : Bytes) (cause : FrameError), x.pending = [] →
      Frame.split? x.unread = .ok (some (batch, rest)) →
      Batch.read x.compressed batch = .error cause →
      ∀ ops, x.results (.read :: ops) =
        .failed cause :: (Transcript.ofStream x.compressed [] rest).results ops) ∧
    (∀ (x : Listener) (length : UInt32) (rest : Bytes), x.pending = [] →
      VarInt.read32 x.unread = .ok (length, rest) → Frame.mostBytes < length.toNat →
      ∀ ops, (∀ outcome ∈ x.results ops, outcome = .failed (.tooLong length.toNat)) ∧
        (x.run ops).2.unread = x.unread) ∧
    (∀ x : Listener, x.pending = [] → 5 ≤ x.unread.length →
      (∀ b ∈ x.unread.take 5, 128 ≤ b.toNat) →
      ∀ ops, (∀ outcome ∈ x.results ops, outcome = .failed (.unreadable .varIntTooBig)) ∧
        (x.run ops).2.unread = x.unread) ∧
    (∀ (x : Listener) (batch tail : Bytes), x.pending = [] → tail ≠ [] →
      Frame.split? (x.unread ++ tail) = .ok (some (batch, [])) →
      ∀ ops, ∀ outcome ∈ x.results ops, outcome = .ended) := by
  refine ⟨fun pieces => (start pieces).results_eq, results_eq, ?_, ?_, ?_, ?_, ?_⟩
  · intro x y hcompressed hpending hunread ops
    rw [results_eq, results_eq, transcript, transcript, hcompressed, hpending, hunread]
  · intro x batch rest cause hpending hsplit hread ops
    rw [results_eq, transcript, hpending, Transcript.results_read,
      Transcript.read_malformed hsplit hread]
  · intro x length rest hpending hread hlong ops
    refine run_stuck hpending ?_ ops
    rw [Frame.split?_eq_error_iff]
    exact Or.inr ⟨length, rest, hread, hlong, rfl⟩
  · intro x hpending hlength hbytes ops
    refine run_stuck hpending ?_ ops
    rw [Frame.split?_eq_error_iff]
    exact Or.inl ⟨VarInt.read32_tooBig.mpr ⟨hlength, hbytes⟩, rfl⟩
  · intro x batch tail hpending htail hwhole ops
    have hcutOff := Frame.split?_cutOff hwhole htail
    rw [← Transcript.ending_of_none hcutOff]
    exact (run_partial hpending (Frame.not_whole_of_none hcutOff) ops).1

/-- A packet in three pieces and in one, two streams that begin with a malformed batch and with a
length that no frame may have, and a frame that is cut off. -/
theorem reads_stream_examples :
    (start [[4], [0xFE, 2], [7, 8]]).results [.read, .compress 1, .split, .read] =
        (Transcript.ofStream false [] [4, 0xFE, 2, 7, 8]).results
          [.read, .compress 1, .split, .read] ∧
      (start [[4, 0xFE, 2, 7, 8]]).results [.read] =
        (start [[4], [0xFE, 2], [7, 8]]).results [.read] ∧
      (start [[3, 0xFE, 5], [1, 2, 0xFE, 0]]).results [.read, .read] =
        .failed (.packetTooLong 5 1) :: (Transcript.ofStream false [] [2, 0xFE, 0]).results [.read] ∧
      (∀ outcome ∈ (start [[0x81, 0x80], [0x80, 8]]).results [.read, .read],
        outcome = .failed (.tooLong 16777217)) ∧
      (∀ outcome ∈ (start [[0x80, 0x80, 0x80], [0x80, 0x80]]).results [.read, .read],
        outcome = .failed (.unreadable .varIntTooBig)) ∧
      ∀ outcome ∈ (start [[4], [0xFE, 2]]).results [.read, .read], outcome = .ended := by
  obtain ⟨hstart, -, hcuts, hmalformed, hlong, htooBig, hcutOff⟩ := reads_stream
  refine ⟨hstart _ _, hcuts _ _ rfl rfl rfl _, hmalformed _ _ _ _ rfl rfl rfl _,
    (hlong _ 16777217 [] rfl rfl ?_ _).1, (htooBig _ rfl ?_ ?_ _).1,
    hcutOff _ [0xFE, 2, 7, 8] [7, 8] rfl (by decide) rfl _⟩
  · decide +kernel
  · decide +kernel
  · decide +kernel

end Listener

end PackExchange
