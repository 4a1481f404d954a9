import PackExchange.Wire.VarInt

/-!
# Variable-length integers among other bytes

How an integer reads when bytes are missing or follow, and how long it is when it is written again.

* `VarInt.read32_prefix` — a word that was cut off cannot be read;
* `VarInt.read32_append` — what follows a word does not matter;
* `VarInt.read32_tooBig` — which bytes are no word, whatever follows;
* `VarInt.length_write32_le`, `VarInt.length_write64_le` — a word that was read is written in no more
  bytes than it was read from;
* `VarInt.fold32_unfold32`, `VarInt.fold64_unfold64` — every word stands for one signed word.
-/

namespace PackExchange.VarInt

/-! ### Integers that were cut off, and integers that something follows -/

theorem readGroups_prefix {more n : Nat} {bs tail : Bytes} (h : writeGroups more n = bs ++ tail)
    (htail : tail ≠ []) : readGroups (more + 1) bs = .error (.notEnoughData 1 0) := by
  have hsingle : ∀ {b : UInt8} {bs : Bytes}, [b] = bs ++ tail → bs = [] := by
    intro b bs hb
    rcases List.append_eq_singleton_iff.mp hb.symm with ⟨hnil, -⟩ | ⟨-, hnone⟩
    · exact hnil
    · exact absurd hnone htail
  induction more generalizing n bs with
  | zero =>
    rw [hsingle h]
    rfl
  | succ more ih =>
    rw [writeGroups] at h
    split at h
    · rw [hsingle h]
      rfl
    · cases bs with
      | nil => rfl
      | cons b bs =>
        rw [List.cons_append, List.cons.injEq] at h
        obtain ⟨rfl, hrest⟩ := h
        have hb : (UInt8.ofNat (n % 128 + 128)).toNat = n % 128 + 128 := by
          rw [UInt8.toNat_ofNat']
          omega
        have hmore : ¬ n % 128 + 128 < 128 := by omega
        rw [readGroups, hb, if_neg hmore, ih hrest]

/-- **A word that has not arrived whole is waited for.** -/
theorem read32_prefix {v : UInt32} {bs tail : Bytes} (h : write32 v = bs ++ tail)
    (htail : tail ≠ []) : read32 bs = .error (.notEnoughData 1 0) := by
  rw [read32, readGroups_prefix h htail]

/-- Of the bytes of a number only the first few count. -/
theorem readGroups_append {most n : Nat} {bs rest : Bytes} (h : readGroups most bs = .ok (n, rest))
    (tail : Bytes) : readGroups most (bs ++ tail) = .ok (n, rest ++ tail) := by
  induction most generalizing bs n with
  | zero => cases h
  | succ more ih =>
    cases bs with
    | nil => cases h
    | cons b bs =>
      rw [readGroups] at h
      rw [List.cons_append, readGroups]
      by_cases hlast : b.toNat < 128
      · rw [if_pos hlast] at h ⊢
        cases h
        rfl
      · rw [if_neg hlast] at h ⊢
        cases hmore : readGroups more bs with
        | error e =>
          rw [hmore] at h
          cases h
        | ok r =>
          rw [hmore] at h
          cases h
          rw [ih hmore]

/-- Too many groups are too many, whatever follows. -/
theorem readGroups_tooBig {most : Nat} {bs : Bytes} :
    readGroups most bs = .error .varIntTooBig ↔
      most ≤ bs.length ∧ ∀ b ∈ bs.take most, 128 ≤ b.toNat := by
  induction most generalizing bs with
  | zero => simp [readGroups]
  | succ more ih =>
    cases bs with
    | nil => simp [readGroups]
    | cons b bs =>
      rw [readGroups, List.take_succ_cons, List.forall_mem_cons, List.length_cons,
        Nat.add_le_add_iff_right]
      by_cases hlast : b.toNat < 128
      · rw [if_pos hlast]
        constructor
        · simp
        · rintro ⟨-, hb, -⟩
          omega
      · have hb : 128 ≤ b.toNat := by omega
        rw [if_neg hlast]
        simp only [hb, true_and]
        rw [← ih]
        cases readGroups more bs with
        | error e => simp
        | ok r => simp

/-- **Five bytes that all announce another one are no word.** -/
theorem read32_tooBig {bs : Bytes} :
    read32 bs = .error .varIntTooBig ↔ 5 ≤ bs.length ∧ ∀ b ∈ bs.take 5, 128 ≤ b.toNat := by
  rw [← readGroups_tooBig, read32]
  cases readGroups 5 bs with
  | error e => simp
  | ok r => simp

theorem readGroups_error {most : Nat} {bs : Bytes} {e : WireError}
    (h : readGroups most bs = .error e) : e = .varIntTooBig ∨ e = .notEnoughData 1 0 := by
  induction most generalizing bs with
  | zero =>
    cases h
    exact Or.inl rfl
  | succ more ih =>
    cases bs with
    | nil =>
      cases h
      exact Or.inr rfl
    | cons b bs =>
      rw [readGroups] at h
      split at h
      · cases h
      · cases hmore : readGroups more bs with
        | error e' =>
          rw [hmore] at h
          cases h
          exact ih hmore
        | ok r =>
          rw [hmore] at h
          cases h

/-- Nothing can be wrong with a word but its length, or that it has not arrived whole. -/
theorem read32_error {bs : Bytes} {e : WireError} (h : read32 bs = .error e) :
    e = .varIntTooBig ∨ e = .notEnoughData 1 0 := by
  rw [read32] at h
  cases hread : readGroups 5 bs with
  | error e' =>
    rw [hread] at h
    cases h
    exact readGroups_error hread
  | ok r =>
    rw [hread] at h
    cases h

theorem read32_append {v : UInt32} {bs rest : Bytes} (h : read32 bs = .ok (v, rest))
    (tail : Bytes) : read32 (bs ++ tail) = .ok (v, rest ++ tail) := by
  rw [read32] at h
  cases hread : readGroups 5 bs with
  | error e =>
    rw [hread] at h
    cases h
  | ok r =>
    rw [hread] at h
    cases h
    rw [read32, readGroups_append hread]

/-- A word that has not arrived whole has fewer bytes than a word may have. -/
theorem readGroups_notEnough {most needed remaining : Nat} {bs : Bytes}
    (h : readGroups most bs = .error (.notEnoughData needed remaining)) : bs.length < most := by
  induction most generalizing bs with
  | zero => cases h
  | succ more ih =>
    cases bs with
    | nil => exact Nat.succ_pos _
    | cons b bs =>
      rw [readGroups] at h
      split at h
      · cases h
      · cases hmore : readGroups more bs with
        | error e =>
          rw [hmore] at h
          cases h
          exact Nat.succ_lt_succ (ih hmore)
        | ok r =>
          rw [hmore] at h
          cases h

/-- A word takes no more bytes than it may. -/
theorem readGroups_length {most n : Nat} {bs rest : Bytes}
    (h : readGroups most bs = .ok (n, rest)) : bs.length ≤ rest.length + most := by
  induction most generalizing bs n with
  | zero => cases h
  | succ more ih =>
    cases bs with
    | nil => cases h
    | cons b bs =>
      rw [readGroups] at h
      rw [List.length_cons]
      split at h
      · cases h
        omega
      · cases hmore : readGroups more bs with
        | error e =>
          rw [hmore] at h
          cases h
        | ok r =>
          rw [hmore] at h
          cases h
          have hrest := ih hmore
          omega

theorem read32_notEnough {needed remaining : Nat} {bs : Bytes}
    (h : read32 bs = .error (.notEnoughData needed remaining)) : bs.length < 5 := by
  rw [read32] at h
  cases hread : readGroups 5 bs with
  | error e =>
    rw [hread] at h
    cases h
    exact readGroups_notEnough hread
  | ok r =>
    rw [hread] at h
    cases h

theorem read32_length {v : UInt32} {bs rest : Bytes} (h : read32 bs = .ok (v, rest)) :
    bs.length ≤ rest.length + 5 := by
  rw [read32] at h
  cases hread : readGroups 5 bs with
  | error e =>
    rw [hread] at h
    cases h
  | ok r =>
    rw [hread] at h
    cases h
    exact readGroups_length hread

/-! ### The shortest form -/

/-- A number up to the one that was read takes no more groups than were read. -/
theorem length_writeGroups_le {most more n m : Nat} {bs rest : Bytes}
    (h : readGroups most bs = .ok (n, rest)) (hm : m ≤ n) :
    (writeGroups more m).length + rest.length ≤ bs.length := by
  induction most generalizing bs n m more with
  | zero => cases h
  | succ most ih =>
    cases bs with
    | nil => cases h
    | cons b bs =>
      have hone : m < 128 → (writeGroups more m).length = 1 := by
        intro hsmall
        cases more with
        | zero => rfl
        | succ more => rw [writeGroups, if_pos hsmall, List.length_singleton]
      rw [readGroups] at h
      split at h
      · next hlast =>
        cases h
        rw [hone (Nat.lt_of_le_of_lt hm hlast), List.length_cons]
        omega
      · split at h
        · cases h
        · next k tail hread =>
          cases h
          have hb : b.toNat < 256 := b.toNat_lt
          by_cases hsmall : m < 128
          · have hshorter := readGroups_shorter hread
            rw [hone hsmall, List.length_cons]
            omega
          · cases more with
            | zero =>
              have hshorter := readGroups_shorter hread
              rw [writeGroups, List.length_singleton, List.length_cons]
              omega
            | succ more =>
              have hrest : (writeGroups more (m / 128)).length + rest.length ≤ bs.length :=
                ih hread (by omega)
              rw [writeGroups, if_neg hsmall, List.length_cons, List.length_cons]
              omega

theorem length_write32_le {v w : UInt32} {bs rest : Bytes} (h : read32 bs = .ok (v, rest))
    (hw : w ≤ v) : (write32 w).length + rest.length ≤ bs.length := by
  rw [read32] at h
  split at h
  · cases h
  · next n tail hread =>
    cases h
    refine length_writeGroups_le hread (Nat.le_trans (UInt32.le_iff_toNat_le.mp hw) ?_)
    rw [UInt32.toNat_ofNat']
    exact Nat.mod_le _ _

theorem length_write64_le {v w : UInt64} {bs rest : Bytes} (h : read64 bs = .ok (v, rest))
    (hw : w ≤ v) : (write64 w).length + rest.length ≤ bs.length := by
  rw [read64] at h
  split at h
  · cases h
  · next n tail hread =>
    cases h
    refine length_writeGroups_le hread (Nat.le_trans (UInt64.le_iff_toNat_le.mp hw) ?_)
    rw [UInt64.toNat_ofNat']
    exact Nat.mod_le _ _

/-! ### Signed words -/

theorem fold32_unfold32 (v : UInt32) : fold32 (unfold32 v) = v := by
  have hv : v.toNat < 2 ^ 32 := v.toNat_lt
  have hint : (unfold32 v).toInt = unfold v.toNat := by
    refine Int32.toInt_ofInt_of_le ?_ ?_
    · unfold unfold
      split <;> omega
    · unfold unfold
      split <;> omega
  rw [fold32, hint, fold_unfold, UInt32.ofNat_toNat]

theorem fold64_unfold64 (v : UInt64) : fold64 (unfold64 v) = v := by
  have hv : v.toNat < 2 ^ 64 := v.toNat_lt
  have hint : (unfold64 v).toInt = unfold v.toNat := by
    refine Int64.toInt_ofInt_of_le ?_ ?_
    · unfold unfold
      split <;> omega
    · unfold unfold
      split <;> omega
  rw [fold64, hint, fold_unfold, UInt64.ofNat_toNat]

end PackExchange.VarInt
