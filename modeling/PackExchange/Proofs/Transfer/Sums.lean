import PackExchange.Proofs.Transfer.Delivery

/-!
# The sums of a download have room

The receiving side adds up sizes that the server has chosen, in words of fixed width.  As long as chunks
are accepted, whole chunks have been accepted and fewer than `2 ^ 32` of them, so no sum runs over,
whatever sizes were announced and even if the number of chunks was cut.

* `Download.Exact` — the sums of a download that accepts chunks, and `Download.Fed.exact`;
* `Download.accept?`, `Fetch.takeChunk?` — a chunk is checked with sums that must not run over;
* `Download.Exact.accept?_eq`, `Fetch.takeChunk?_eq` — this makes no difference;
* `Course.sums_exact` — so it is wherever a course comes to.
-/

namespace PackExchange

/-! ### Sums that must not run over -/

/-- The sum of two long words, if it has room. -/
def add64? (a b : UInt64) : Option UInt64 := if a.toNat + b.toNat < 2 ^ 64 then some (a + b) else none

/-- The word after another, if there is one. -/
def next32? (a : UInt32) : Option UInt32 := if a.toNat + 1 < 2 ^ 32 then some (a + 1) else none

namespace Download

/-- Checks a chunk and puts it into the slot, as `accept` does, but every sum is looked at where it is
made: there is no result if one runs over. -/
def accept? (d : Download) (c : ChunkData) : Option (Download × Option TransferError) := do
  let uuid := d.id.uuid
  let length := UInt64.ofNat c.data.length
  let full ← add64? d.received d.chunkSize.toUInt64
  if c.index ≠ d.expected then
    return (d.close, some (.chunkIndexMismatch uuid d.expected c.index))
  if ¬ d.size ≤ full ∧ length ≠ d.chunkSize.toUInt64 then
    return (d.close, some (.chunkSizeMismatch uuid d.chunkSize c.data.length))
  let sum ← add64? d.received length
  if d.size < sum then
    return (d.close, some (.overflow uuid d.size))
  if d.worker = .ended then
    return (d.close, some (.unknownPack uuid))
  if d.slot.isSome then
    return (d.close, some (.unrequestedChunk uuid c.index))
  let expected ← next32? d.expected
  return ({ d with
    slot := some c.data
    expected := expected
    received := sum
    accepting := expected < d.chunkCount }, none)

/-! ### One download -/

/-- What is added up for a chunk that comes to a download: whole chunks have been accepted so far, no more
than were announced, and every sum has room. -/
structure Exact (d : Download) : Prop where
  received : d.received.toNat = d.expected.toNat * d.chunkSize.toNat
  room : d.received ≤ d.size
  full : d.received.toNat + d.chunkSize.toNat < 2 ^ 64
  sum : ∀ n, n < 2 ^ 32 → d.received.toNat + n < 2 ^ 64
  next : d.expected.toNat + 1 < 2 ^ 32

variable {d : Download}

/-- **While chunks are accepted, every sum has room.** -/
theorem Fed.exact {cs : List ChunkData} (h : d.Fed cs) (haccepting : d.accepting = true) : d.Exact := by
  have hreceived := h.accepting haccepting
  have hnext : d.expected.toNat + 1 < 2 ^ 32 :=
    Nat.lt_of_le_of_lt (h.paced.accepting haccepting) d.most_lt
  have hchunkSize : d.chunkSize.toNat < 2 ^ 32 := d.chunkSize.toNat_lt
  have hwhole := mul_add_lt hnext hchunkSize
  rw [← hreceived] at hwhole
  exact ⟨hreceived, h.room, by omega, fun n hn => by omega, hnext⟩

theorem Exact.accept?_eq (h : d.Exact) {c : ChunkData} (hlength : c.data.length < 2 ^ 32) :
    d.accept? c = some (d.accept c) := by
  have hofNat : (UInt64.ofNat c.data.length).toNat = c.data.length :=
    UInt64.toNat_ofNat_of_lt' (Nat.lt_trans hlength (by decide))
  have hfull : add64? d.received d.chunkSize.toUInt64 = some (d.received + d.chunkSize.toUInt64) := by
    refine if_pos ?_
    rw [UInt32.toNat_toUInt64]
    exact h.full
  have hsum : add64? d.received (UInt64.ofNat c.data.length) =
      some (d.received + UInt64.ofNat c.data.length) := by
    refine if_pos ?_
    rw [hofNat]
    exact h.sum _ hlength
  have hnext : next32? d.expected = some (d.expected + 1) := if_pos h.next
  -- the two go through the same checks, in the same order
  simp only [accept?, hfull, hsum, hnext, Option.bind_eq_bind, Option.bind_some, pure, accept, fault?]
  by_cases hindex : c.index ≠ d.expected
  · simp only [if_pos hindex]
  by_cases hwhole : ¬ d.size ≤ d.received + d.chunkSize.toUInt64 ∧
      UInt64.ofNat c.data.length ≠ d.chunkSize.toUInt64
  · simp only [if_neg hindex, if_pos hwhole]
  by_cases hover : d.size < d.received + UInt64.ofNat c.data.length
  · simp only [if_neg hindex, if_neg hwhole, if_pos hover]
  by_cases hended : d.worker = .ended
  · simp only [if_neg hindex, if_neg hwhole, if_neg hover, if_pos hended]
  by_cases hslot : d.slot.isSome
  · simp only [if_neg hindex, if_neg hwhole, if_neg hover, if_neg hended, if_pos hslot]
  · simp only [if_neg hindex, if_neg hwhole, if_neg hover, if_neg hended, if_neg hslot, put]

end Download

/-! ### All downloads -/

namespace Fetch

/-- Passes a chunk to the download of its pack, as `takeChunk` does, but there is no result if a sum runs
over. -/
def takeChunk? (f : Fetch) (c : ChunkData) : Option (Fetch × Option TransferError) :=
  match PackId.uuidOf? c.uuid with
  | none => some (f, some (.invalidPackId c.uuid))
  | some uuid =>
    match f.downloads.find? (takes uuid) with
    | none => some (f, some (.unknownPack uuid))
    | some d => do
      let (changed, error) ← d.accept? c
      let update (d : Download) : Download := if takes uuid d then changed else d
      return ({ f with downloads := f.downloads.map update }, error)

theorem takeChunk?_eq {f : Fetch} (h : ∀ d ∈ f.downloads, d.accepting = true → d.Exact) {c : ChunkData}
    (hlength : c.data.length < 2 ^ 32) : f.takeChunk? c = some (f.takeChunk c) := by
  rw [takeChunk?, takeChunk]
  cases PackId.uuidOf? c.uuid with
  | none => rfl
  | some uuid =>
    cases hfind : f.downloads.find? (takes uuid) with
    | none => simp only [hfind]
    | some d =>
      have htakes := List.find?_some hfind
      have hexact := h d (List.mem_of_find?_eq_some hfind) (Bool.and_eq_true_iff.mp htakes).1
      simp only [hfind, hexact.accept?_eq hlength]
      rfl

end Fetch

namespace Course

variable {rules : FetchRules} {c : Course}

/-- **The sums have room.**  Wherever a course comes to, a download that accepts chunks has received the
chunks before the expected one, all of them whole, and no more than was announced; a chunk more, or as
many bytes as a packet can carry, can be added to what it has received, and there is an index after the
expected one.  So it makes no difference to look at the sums when the next chunk is handled. -/
theorem sums_exact (h : Reachable rules c) (hsized : c.Sized) :
    (∀ d ∈ c.fetch.downloads, d.accepting = true → d.Exact) ∧
      ∀ chunk : ChunkData, chunk.data.length < 2 ^ 32 →
        c.fetch.takeChunk? chunk = some (c.fetch.takeChunk chunk) := by
  have hexact : ∀ d ∈ c.fetch.downloads, d.accepting = true → d.Exact := fun d hd =>
    ((traced h hsized).downloads d hd).fed.exact
  exact ⟨hexact, fun chunk => Fetch.takeChunk?_eq hexact⟩

/-- A pack of `2 ^ 64 - 1` bytes in chunks of three: the count is cut to `1431655765` chunks.  After one
of them the sums are exact. -/
theorem sums_exact_exampleHuge :
    ∃ c : Course, Reachable {} c ∧ c.Sized ∧
      c.fetch.downloads.map (fun d => (d.size, d.chunkCount, d.expected, d.received, d.accepting)) =
        [(0xffffffffffffffff, 1431655765, 1, 3, true)] ∧
      (∀ d ∈ c.fetch.downloads, d.accepting = true → d.Exact) ∧
      ∀ chunk : ChunkData, chunk.data.length < 2 ^ 32 →
        c.fetch.takeChunk? chunk = some (c.fetch.takeChunk chunk) := by
  let name := "00000000-0000-0000-0000-000000000001"
  let catalog : Catalog := { packs := [{ uuid := ⟨0, 1⟩, size := 0xffffffffffffffff }] }
  let announcement : PackData := { uuid := name, chunkSize := 3, size := 0xffffffffffffffff }
  have hstarted : Reachable {} ((start {}).handle (.networkSettings {})) :=
    Reachable.pass .refl rfl (by decide +kernel)
  have hannounced : Reachable {} _ :=
    (hstarted.pass (p := .catalog catalog) rfl (by decide +kernel)).pass (p := .packData announcement)
      rfl (by decide +kernel)
  have hasked := Relation.ReflTransGen.tail hannounced (.work _ 0 false)
  have htaken := Reachable.pass hasked (p := .chunkData { uuid := name, data := [1, 2, 3] })
    rfl (by decide +kernel)
  have hchunk : Packet.Sized (.chunkData { uuid := name, data := [1, 2, 3] }) := by
    show 3 < 2 ^ 32
    decide
  refine ⟨_, htaken, ?sized, by decide +kernel, sums_exact htaken ?sized⟩
  refine List.forall_mem_cons.mpr ⟨trivial, List.forall_mem_cons.mpr ⟨trivial, ?_⟩⟩
  exact List.forall_mem_cons.mpr ⟨trivial, List.forall_mem_singleton.mpr hchunk⟩

end Course

end PackExchange
