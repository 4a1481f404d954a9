import PackExchange.Proofs.Transfer.Effects

/-!
# How far the two sides of a download have come

The receiving side counts the chunks it accepts, and the worker those it takes.  Between them there
is at most the one chunk in the slot, in whatever order the two go on.

* `Download.Paced` — how the two counts belong together;
* `Download.Moves` — one move of either side, and `Download.Moves.paced`;
* `Download.Complete`, `Download.Lost` — the two ways in which chunks stop being accepted;
* `Download.Paced.complete` — a worker that finishes with a pack has a complete download.
-/

namespace PackExchange

namespace Download

variable {d d' : Download}

/-! ### One move -/

/-- What is checked before a chunk is accepted. -/
theorem of_fault?_eq_none {c : ChunkData} (h : d.fault? c = none) :
    c.index = d.expected ∧
      (d.size ≤ d.received + d.chunkSize.toUInt64 ∨
        UInt64.ofNat c.data.length = d.chunkSize.toUInt64) ∧
      d.received + UInt64.ofNat c.data.length ≤ d.size ∧ d.worker ≠ .ended ∧ d.slot = none := by
  simp only [fault?] at h
  split at h
  · cases h
  · next hindex =>
    split at h
    · cases h
    · next hlength =>
      split at h
      · cases h
      · next hroom =>
        split at h
        · cases h
        · next hworker =>
          split at h
          · cases h
          · next hslot =>
            refine ⟨Decidable.of_not_not hindex, ?_, UInt64.not_lt.mp hroom, hworker, ?_⟩
            · by_cases hlast : d.size ≤ d.received + d.chunkSize.toUInt64
              · exact Or.inl hlast
              · exact Or.inr (Decidable.of_not_not fun hne => hlength ⟨hlast, hne⟩)
            · exact Option.not_isSome_iff_eq_none.mp hslot

/-- One move of a download: its worker is woken, a chunk is accepted, or no more chunks are. -/
inductive Moves (d : Download) : Download → Prop
  | wakes {r : Download × Deed} (hwoken : d.Woken r) : Moves d r.1
  | accepts {c : ChunkData} (haccepting : d.accepting = true) (hfault : d.fault? c = none) :
      Moves d (d.put c)
  | closes : Moves d d.close

theorem Moves.leads (h : d.Moves d') : d.Leads d' := by
  cases h with
  | wakes hwoken => exact hwoken.leads
  | accepts haccepting hfault => exact leads_put d _
  | closes => exact leads_close d

/-! ### The pace -/

/-- How many chunks a download accepts.  It accepts one even if it expects none. -/
def most (d : Download) : Nat := max d.chunkCount.toNat 1

theorem most_pos (d : Download) : 0 < d.most := by
  rw [most]
  omega

theorem most_lt (d : Download) : d.most < 2 ^ 32 := by
  have hcount : d.chunkCount.toNat < 2 ^ 32 := d.chunkCount.toNat_lt
  rw [most]
  omega

theorem Leads.most_eq (h : d.Leads d') : d'.most = d.most := by rw [most, most, h.chunkCount]

/-- How the counts of a download belong together: each accepted chunk has been taken or is in the
slot, and the worker asks for the chunk after those that it has taken. -/
structure Paced (d : Download) : Prop where
  size_ne : d.size ≠ 0
  chunkCount : d.chunkCount = chunksOf d.size d.chunkSize
  expected : d.taken.length + d.slot.toList.length = d.expected.toNat
  ready : ∀ i, d.worker = .ready i → i.toNat = d.taken.length
  waiting : ∀ i, d.worker = .waiting i → i.toNat = d.taken.length ∧ i < d.chunkCount
  bounded : d.expected.toNat ≤ d.most
  accepting : d.accepting = true → d.expected.toNat < d.most

theorem paced_announced (id : PackId) (contentKey : String) {a : PackData} (hsize : a.size ≠ 0) :
    (announced id contentKey a).Paced where
  size_ne := hsize
  chunkCount := rfl
  expected := rfl
  ready := by
    intro i hi
    cases hi
    rfl
  waiting := nofun
  bounded := Nat.zero_le _
  accepting := fun _ => most_pos _

theorem toNat_succ {i : UInt32} {n : Nat} (hlt : i.toNat < n) (hn : n < 2 ^ 32) :
    (i + 1).toNat = i.toNat + 1 := by
  rw [UInt32.toNat_add]
  exact Nat.mod_eq_of_lt (Nat.lt_of_le_of_lt hlt hn)

/-- The index of the next chunk does not run over. -/
theorem Paced.toNat_next (h : d.Paced) (haccepting : d.accepting = true) :
    (d.expected + 1).toNat = d.expected.toNat + 1 :=
  toNat_succ (h.accepting haccepting) d.most_lt

theorem Paced.put (h : d.Paced) {c : ChunkData} (haccepting : d.accepting = true)
    (hfault : d.fault? c = none) : (d.put c).Paced := by
  obtain ⟨-, -, -, -, hslot⟩ := of_fault?_eq_none hfault
  have hnext := h.toNat_next haccepting
  have hlt := h.accepting haccepting
  have hexpected := h.expected
  rw [hslot] at hexpected
  refine ⟨h.size_ne, h.chunkCount, ?_, h.ready, h.waiting, ?_, ?_⟩
  · show d.taken.length + 1 = (d.expected + 1).toNat
    rw [hnext, ← hexpected]
    rfl
  · show (d.expected + 1).toNat ≤ d.most
    rw [hnext]
    exact hlt
  · intro hmore
    have hcount : (d.expected + 1).toNat < d.chunkCount.toNat := of_decide_eq_true hmore
    exact Nat.lt_of_lt_of_le hcount (Nat.le_max_left _ _)

theorem Woken.paced {r : Download × Deed} (hwoken : d.Woken r) (h : d.Paced) : r.1.Paced := by
  cases hwoken with
  | idle => exact h
  | quits _ => exact ⟨h.size_ne, h.chunkCount, h.expected, nofun, nofun, h.bounded, h.accepting⟩
  | finishes _ _ =>
    exact ⟨h.size_ne, h.chunkCount, h.expected, nofun, nofun, h.bounded, h.accepting⟩
  | asks hworker hmore =>
    refine ⟨h.size_ne, h.chunkCount, h.expected, nofun, ?_, h.bounded, h.accepting⟩
    intro j hj
    cases hj
    exact ⟨h.ready _ hworker, hmore⟩
  | @takes i chunk hworker hslot =>
    obtain ⟨hi, hmore⟩ := h.waiting i hworker
    refine ⟨h.size_ne, h.chunkCount, ?_, ?_, nofun, h.bounded, h.accepting⟩
    · have hexpected := h.expected
      rw [hslot] at hexpected
      exact hexpected
    · intro j hj
      cases hj
      rw [toNat_succ hmore d.chunkCount.toNat_lt, hi]
      rfl

/-- **Both sides keep the pace**, whichever moves next. -/
theorem Moves.paced (hmoves : d.Moves d') (h : d.Paced) : d'.Paced := by
  cases hmoves with
  | wakes hwoken => exact hwoken.paced h
  | accepts haccepting hfault => exact h.put haccepting hfault
  | closes =>
    exact ⟨h.size_ne, h.chunkCount, h.expected, h.ready, h.waiting, h.bounded,
      fun hclosed => absurd hclosed Bool.false_ne_true⟩

/-! ### When no more chunks are accepted -/

/-- Have all chunks been accepted? -/
def Complete (d : Download) : Prop := d.accepting = false ∧ d.most ≤ d.expected.toNat

/-- Was the download closed before all chunks had been accepted? -/
def Lost (d : Download) : Prop := d.accepting = false ∧ d.expected.toNat < d.most

theorem Lost.not_complete (h : d.Lost) : ¬ d.Complete := fun hcomplete =>
  Nat.not_lt.mpr hcomplete.2 h.2

/-- Once no more chunks are accepted, none is ever again. -/
theorem Moves.of_closed (hmoves : d.Moves d') (hclosed : d.accepting = false) :
    d'.accepting = false ∧ d'.expected = d.expected := by
  cases hmoves with
  | wakes hwoken => cases hwoken <;> exact ⟨hclosed, rfl⟩
  | accepts haccepting hfault => exact absurd (hclosed.symm.trans haccepting) Bool.false_ne_true
  | closes => exact ⟨rfl, rfl⟩

theorem Moves.complete (hmoves : d.Moves d') (h : d.Complete) : d'.Complete := by
  obtain ⟨hclosed, hexpected⟩ := hmoves.of_closed h.1
  refine ⟨hclosed, ?_⟩
  rw [hexpected, hmoves.leads.most_eq]
  exact h.2

theorem Moves.lost (hmoves : d.Moves d') (h : d.Lost) : d'.Lost := by
  obtain ⟨hclosed, hexpected⟩ := hmoves.of_closed h.1
  refine ⟨hclosed, ?_⟩
  rw [hexpected, hmoves.leads.most_eq]
  exact h.2

/-- A download that is closed while it accepts chunks is lost. -/
theorem Paced.lost_close (h : d.Paced) (haccepting : d.accepting = true) : d.close.Lost :=
  ⟨rfl, h.accepting haccepting⟩

/-- **A worker that finishes with a pack has a complete download.**  It has taken as many chunks as
there are; and it has taken one at least, since a pack is not empty. -/
theorem Paced.complete (h : d.Paced) {i : UInt32} (hworker : d.worker = .ready i)
    (hlast : ¬ i < d.chunkCount) (hsize : UInt64.ofNat d.data.length = d.size) : d.Complete := by
  have hcount : d.chunkCount.toNat ≤ d.taken.length := by
    rw [← h.ready i hworker]
    exact Nat.le_of_not_lt hlast
  have hsome : d.taken ≠ [] := by
    intro hnone
    apply h.size_ne
    rw [← hsize, data, hnone]
    rfl
  have hone : 0 < d.taken.length := List.length_pos_iff.mpr hsome
  have hexpected := h.expected
  have hall : d.most ≤ d.expected.toNat := by
    rw [most]
    omega
  refine ⟨Bool.eq_false_iff.mpr fun haccepting => ?_, hall⟩
  have hlt := h.accepting haccepting
  omega

end Download

end PackExchange
