import PackExchange.Bytes
import PackExchange.Wire.Error

/-!
# Variable-length integers

A number is written in groups of seven bits, lowest group first; every byte but the last has
its top bit set.  A 32-bit word takes at most five groups and a 64-bit word at most ten.
Signed numbers are first folded onto the naturals, so that small magnitudes stay short.

* `VarInt.writeGroups` and `VarInt.readGroups` — the groups of a natural number;
* `VarInt.write32`, `read32`, `write64`, `read64` — the two word widths;
* `VarInt.fold` and `VarInt.unfold` — the numbers 0, -1, 1, -2, … as 0, 1, 2, 3, …;
* `VarInt.length32` — how many bytes a word takes.

`readGroups_writeGroups` reads back what was written and leaves the bytes after it.
-/

namespace PackExchange.VarInt

/-! ### Groups of seven bits -/

/-- Writes a number in at most `more + 1` groups; what does not fit is dropped. -/
def writeGroups : Nat → Nat → Bytes
  | 0, n => [UInt8.ofNat (n % 128)]
  | more + 1, n =>
    if n < 128 then [UInt8.ofNat n]
    else UInt8.ofNat (n % 128 + 128) :: writeGroups more (n / 128)

/-- Reads a number of at most `most` groups, and the bytes after it. -/
def readGroups : Nat → Bytes → Except WireError (Nat × Bytes)
  | 0, _ => .error .varIntTooBig
  | _ + 1, [] => .error (.notEnoughData 1 0)
  | more + 1, b :: rest =>
    if b.toNat < 128 then .ok (b.toNat, rest)
    else
      match readGroups more rest with
      | .error e => .error e
      | .ok (n, rest) => .ok (b.toNat - 128 + 128 * n, rest)

/-- How many numbers fit into so many groups. -/
def span : Nat → Nat
  | 0 => 1
  | groups + 1 => 128 * span groups

theorem readGroups_writeGroups (more n : Nat) (rest : Bytes) (h : n < span (more + 1)) :
    readGroups (more + 1) (writeGroups more n ++ rest) = .ok (n, rest) := by
  induction more generalizing n with
  | zero =>
    have hn : n < 128 := by simpa [span] using h
    have hb : (UInt8.ofNat (n % 128)).toNat = n := by simp; omega
    simp [writeGroups, readGroups, hb, hn]
  | succ more ih =>
    simp only [writeGroups]
    split
    · next hn =>
      have hb : (UInt8.ofNat n).toNat = n := by simp; omega
      simp [readGroups, hb, hn]
    · next hn =>
      have hd : n / 128 < span (more + 1) := by
        rw [Nat.div_lt_iff_lt_mul (by decide), Nat.mul_comm]
        exact h
      have hb : (UInt8.ofNat (n % 128 + 128)).toNat = n % 128 + 128 := by simp; omega
      have hlt : ¬ n % 128 + 128 < 128 := by omega
      simp only [List.cons_append, readGroups, hb, hlt, if_false, ih (n / 128) hd]
      congr 2
      omega

theorem readGroups_shorter {most n : Nat} {bs rest : Bytes}
    (h : readGroups most bs = .ok (n, rest)) : rest.length < bs.length := by
  induction most generalizing bs n with
  | zero => simp [readGroups] at h
  | succ more ih =>
    cases bs with
    | nil => simp [readGroups] at h
    | cons b bs =>
      simp only [readGroups] at h
      split at h
      · simp only [Except.ok.injEq, Prod.mk.injEq] at h
        simp [← h.2]
      · split at h
        · cases h
        · next m tail hm =>
          simp only [Except.ok.injEq, Prod.mk.injEq] at h
          obtain ⟨_, rfl⟩ := h
          have := ih hm
          simp only [List.length_cons]
          omega

/-! ### Words -/

/-- A 32-bit word in one to five bytes. -/
def write32 (v : UInt32) : Bytes := writeGroups 4 v.toNat

/-- A 64-bit word in one to ten bytes. -/
def write64 (v : UInt64) : Bytes := writeGroups 9 v.toNat

/-- Reads a 32-bit word; bits beyond the width are dropped. -/
def read32 (bs : Bytes) : Except WireError (UInt32 × Bytes) :=
  match readGroups 5 bs with
  | .error e => .error e
  | .ok (n, rest) => .ok (UInt32.ofNat n, rest)

/-- Reads a 64-bit word; bits beyond the width are dropped. -/
def read64 (bs : Bytes) : Except WireError (UInt64 × Bytes) :=
  match readGroups 10 bs with
  | .error e => .error e
  | .ok (n, rest) => .ok (UInt64.ofNat n, rest)

/-- How many bytes a 32-bit word takes. -/
def length32 (v : UInt32) : Nat :=
  if v < 0x80 then 1
  else if v < 0x4000 then 2
  else if v < 0x200000 then 3
  else if v < 0x10000000 then 4
  else 5

theorem read32_write32 (v : UInt32) (rest : Bytes) :
    read32 (write32 v ++ rest) = .ok (v, rest) := by
  have h : v.toNat < span 5 := Nat.lt_of_lt_of_le v.toNat_lt (by decide)
  simp [read32, write32, readGroups_writeGroups 4 v.toNat rest h]

theorem read64_write64 (v : UInt64) (rest : Bytes) :
    read64 (write64 v ++ rest) = .ok (v, rest) := by
  have h : v.toNat < span 10 := Nat.lt_of_lt_of_le v.toNat_lt (by decide)
  simp [read64, write64, readGroups_writeGroups 9 v.toNat rest h]

theorem read32_shorter {v : UInt32} {bs rest : Bytes} (h : read32 bs = .ok (v, rest)) :
    rest.length < bs.length := by
  simp only [read32] at h
  split at h
  · cases h
  · next n tail hn =>
    simp only [Except.ok.injEq, Prod.mk.injEq] at h
    exact h.2 ▸ readGroups_shorter hn

/-! ### Signed numbers -/

/-- Folds the integers onto the naturals: 0, -1, 1, -2 become 0, 1, 2, 3. -/
def fold (i : Int) : Nat := if 0 ≤ i then 2 * i.toNat else 2 * (-i).toNat - 1

/-- The integer that was folded onto a natural. -/
def unfold (n : Nat) : Int := if n % 2 = 0 then (n / 2 : Nat) else -((n / 2 + 1 : Nat) : Int)

theorem unfold_fold (i : Int) : unfold (fold i) = i := by
  unfold fold unfold
  split <;> split <;> omega

theorem fold_unfold (n : Nat) : fold (unfold n) = n := by
  unfold unfold fold
  split <;> split <;> omega

/-- The unsigned word a signed one is written as. -/
def fold32 (v : Int32) : UInt32 := UInt32.ofNat (fold v.toInt)

/-- The signed word an unsigned one stands for. -/
def unfold32 (v : UInt32) : Int32 := Int32.ofInt (unfold v.toNat)

/-- The unsigned long word a signed one is written as. -/
def fold64 (v : Int64) : UInt64 := UInt64.ofNat (fold v.toInt)

/-- The signed long word an unsigned one stands for. -/
def unfold64 (v : UInt64) : Int64 := Int64.ofInt (unfold v.toNat)

end PackExchange.VarInt
