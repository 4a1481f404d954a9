import PackExchange.Proofs.Frame.Stream

/-!
# A stream read as a whole

What should come out of a stream can be said without pieces and buffers: the stream is cut into
frames from the left, and each batch is read when all packets before it have been taken.

* `Frame.parse` — the batches of a stream, and what is left after the last whole frame;
* `Operation` — what is done with the reading side of a connection;
* `Transcript` — what is left to be taken of a stream;
* `Transcript.read`, `Transcript.run` — the next packet, and the outcomes of operations;
* `Transcript.read_batch`, `read_malformed`, `read_partial` — what a read makes of the front of a
  stream;
* `Transcript.run_partial` — what is read where there is no whole frame.
-/

namespace PackExchange

/-! ### Frames -/

/-- The batches of the whole frames at the front of a stream, and the bytes after them. -/
def Frame.parse (bs : Bytes) : List Bytes × Bytes :=
  match _h : split? bs with
  | .ok (some (batch, rest)) => (batch :: (parse rest).1, (parse rest).2)
  | .ok none => ([], bs)
  | .error _ => ([], bs)
termination_by bs.length
decreasing_by all_goals exact split?_shorter _h

theorem Frame.parse_whole {bs batch rest : Bytes} (h : split? bs = .ok (some (batch, rest))) :
    parse bs = (batch :: (parse rest).1, (parse rest).2) := by
  rw [parse]
  split
  · next hsplit =>
    rw [h, Except.ok.injEq, Option.some.injEq, Prod.mk.injEq] at hsplit
    obtain ⟨rfl, rfl⟩ := hsplit
    rfl
  · next hsplit =>
    rw [h] at hsplit
    cases hsplit
  · next hsplit =>
    rw [h] at hsplit
    cases hsplit

theorem Frame.not_whole_of_error {bs : Bytes} {cause : FrameError} (h : split? bs = .error cause)
    (frame : Bytes × Bytes) : split? bs ≠ .ok (some frame) := by
  rw [h]
  exact nofun

theorem Frame.not_whole_of_none {bs : Bytes} (h : split? bs = .ok none) (frame : Bytes × Bytes) :
    split? bs ≠ .ok (some frame) := by
  rw [h]
  exact nofun

theorem Frame.parse_partial {bs : Bytes} (h : ∀ frame, split? bs ≠ .ok (some frame)) :
    parse bs = ([], bs) := by
  rw [parse]
  split
  · next hsplit => exact absurd hsplit (h _)
  · rfl
  · rfl

/-- Where there is no whole frame everything is left. -/
theorem Frame.parse_left {bs : Bytes} (h : (parse bs).1 = []) : (parse bs).2 = bs := by
  cases hsplit : split? bs with
  | error cause => rw [parse_partial (not_whole_of_error hsplit)]
  | ok found =>
    cases found with
    | none => rw [parse_partial (not_whole_of_none hsplit)]
    | some frame =>
      rw [parse_whole hsplit] at h
      cases h

/-- Frames that were written one after another are the frames of their stream. -/
theorem Frame.parse_flatMap_ofBatch {batches : List Bytes}
    (h : ∀ batch ∈ batches, batch.length ≤ mostBytes) :
    parse (batches.flatMap ofBatch) = (batches, []) := by
  induction batches with
  | nil => exact parse_partial (not_whole_of_none rfl)
  | cons batch batches ih =>
    obtain ⟨hbatch, hbatches⟩ := List.forall_mem_cons.mp h
    rw [List.flatMap_cons, parse_whole (split?_ofBatch batch _ hbatch), ih hbatches]

/-! ### Transcripts -/

/-- What may be done with the reading side of a connection. -/
inductive Operation where
  | read
  | compress (threshold : UInt16)
  | split
  deriving DecidableEq, Repr

/-- What is left to be taken of a stream. -/
structure Transcript where
  /-- Is compression agreed on? -/
  compressed : Bool
  /-- The packets of the last batch that nobody has taken. -/
  pending : List Bytes
  /-- The batches that nobody has read. -/
  batches : List Bytes
  /-- The bytes after the last whole frame. -/
  left : Bytes
  deriving DecidableEq, Repr

namespace Transcript

/-- What is left to be taken before a stream is read. -/
def ofStream (compressed : Bool) (pending : List Bytes) (stream : Bytes) : Transcript :=
  { compressed := compressed
    pending := pending
    batches := (Frame.parse stream).1
    left := (Frame.parse stream).2 }

/-- What comes out after the last whole frame. -/
def ending (left : Bytes) : FrameReader.Outcome :=
  match Frame.split? left with
  | .error cause => .failed cause
  | .ok _ => .ended

theorem ending_of_error {left : Bytes} {cause : FrameError} (h : Frame.split? left = .error cause) :
    ending left = .failed cause := by
  rw [ending, h]

theorem ending_of_none {left : Bytes} (h : Frame.split? left = .ok none) : ending left = .ended := by
  rw [ending, h]

/-- Takes the first of some packets, or of the batches after them; `atEnd` comes out when there
is none. -/
def take (compressed : Bool) (atEnd : FrameReader.Outcome) :
    List Bytes → List Bytes → FrameReader.Outcome × List Bytes × List Bytes
  | packet :: pending, batches => (.packet packet, pending, batches)
  | [], [] => (atEnd, [], [])
  | [], batch :: batches =>
    match Batch.read compressed batch with
    | .error cause => (.failed cause, [], batches)
    | .ok packets => take compressed atEnd packets batches

/-- Takes the next packet. -/
def read (t : Transcript) : FrameReader.Outcome × Transcript :=
  let (outcome, pending, batches) := take t.compressed (ending t.left) t.pending t.batches
  (outcome, { t with pending := pending, batches := batches })

/-- From now on batches name their algorithm. -/
def compress (t : Transcript) : Transcript := { t with compressed := true }

/-- Does some operations, with what they read. -/
def run : Transcript → List Operation → List FrameReader.Outcome × Transcript
  | t, [] => ([], t)
  | t, .read :: ops => (t.read.1 :: (run t.read.2 ops).1, (run t.read.2 ops).2)
  | t, .compress _ :: ops => run t.compress ops
  | t, .split :: ops => run t ops

/-- What operations read, one after another. -/
def results (t : Transcript) (ops : List Operation) : List FrameReader.Outcome := (t.run ops).1

theorem results_read (t : Transcript) (ops : List Operation) :
    t.results (.read :: ops) = t.read.1 :: t.read.2.results ops := rfl

theorem results_compress (t : Transcript) (threshold : UInt16) (ops : List Operation) :
    t.results (.compress threshold :: ops) = t.compress.results ops := rfl

/-! ### One packet -/

variable {compressed : Bool} {bs : Bytes}

theorem read_pending (packet : Bytes) (pending batches : List Bytes) (left : Bytes) :
    read ⟨compressed, packet :: pending, batches, left⟩ =
      (.packet packet, ⟨compressed, pending, batches, left⟩) := by
  rw [read, take]

/-- A batch that can be read is read when its turn comes. -/
theorem read_batch {batch rest : Bytes} {packets : List Bytes}
    (hsplit : Frame.split? bs = .ok (some (batch, rest)))
    (hread : Batch.read compressed batch = .ok packets) :
    (ofStream compressed [] bs).read = (ofStream compressed packets rest).read := by
  rw [ofStream, Frame.parse_whole hsplit]
  simp only [read, take, hread, ofStream]

/-- **A batch that cannot be read is dropped as a whole.** -/
theorem read_malformed {batch rest : Bytes} {cause : FrameError}
    (hsplit : Frame.split? bs = .ok (some (batch, rest)))
    (hread : Batch.read compressed batch = .error cause) :
    (ofStream compressed [] bs).read = (.failed cause, ofStream compressed [] rest) := by
  rw [ofStream, Frame.parse_whole hsplit]
  simp only [read, take, hread, ofStream]

/-- Where there is no whole frame nothing is taken. -/
theorem read_partial (h : ∀ frame, Frame.split? bs ≠ .ok (some frame)) :
    (ofStream compressed [] bs).read = (ending bs, ofStream compressed [] bs) := by
  rw [ofStream, Frame.parse_partial h, read, take]

/-! ### Many packets -/

/-- **Where there is no whole frame every read comes to the same end**, and nothing is taken. -/
theorem run_partial (h : ∀ frame, Frame.split? bs ≠ .ok (some frame)) (ops : List Operation) :
    (∀ outcome ∈ (ofStream compressed [] bs).results ops, outcome = ending bs) ∧
      ∃ compressed', ((ofStream compressed [] bs).run ops).2 = ofStream compressed' [] bs := by
  induction ops generalizing compressed with
  | nil =>
    refine ⟨?_, compressed, rfl⟩
    intro outcome houtcome
    cases houtcome
  | cons op ops ih =>
    cases op with
    | read =>
      rw [results, run, read_partial h, List.forall_mem_cons]
      exact ⟨⟨rfl, ih.1⟩, ih.2⟩
    | compress threshold => exact ih
    | split => exact ih

end Transcript

end PackExchange
