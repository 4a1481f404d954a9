import PackExchange.Proofs.Wire.Numerals
import PackExchange.Proofs.Wire.RoundTrip

/-!
# Integers are written in their shortest form

A number is read back from the bytes that it was written in, whatever follows, and no fewer bytes are
ever read as this number.  Signed words are written as the unsigned words that they are folded to, and
the folding is the one that shifts the sign to the lowest bit.

* `length_write32` — how many bytes a word is written in;
* `toNat_shiftLeft_xor_sign`, `toInt_shiftRight_xor_neg` — folding and unfolding, bit by bit;
* `Minimal` — read back and shortest, with `Minimal.fold`;
* `Folds` — a bijection and the bits that it is made of;
* `integers_minimal` — all this holds of the four kinds of integers.
-/

namespace PackExchange.VarInt

/-! ### How many bytes a word takes -/

theorem length_writeGroups_succ (more n : Nat) :
    (writeGroups (more + 1) n).length = if n < 128 then 1 else (writeGroups more (n / 128)).length + 1 := by
  rw [writeGroups]
  split
  · rfl
  · rfl

/-- A word is written in as many bytes as its length says. -/
theorem length_write32 (v : UInt32) : (write32 v).length = length32 v := by
  have hlast : ∀ n, (writeGroups 0 n).length = 1 := fun _ => rfl
  rw [write32, length32]
  simp only [length_writeGroups_succ, hlast, UInt32.lt_iff_toNat_lt, UInt32.reduceToNat]
  split
  · rfl
  · split
    · rw [if_pos (by omega)]
    · split
      · rw [if_neg (by omega), if_pos (by omega)]
      · split
        · rw [if_neg (by omega), if_neg (by omega), if_pos (by omega)]
        · rw [if_neg (by omega), if_neg (by omega), if_neg (by omega)]

/-! ### Folding, bit by bit -/

section Bits

variable {w : Nat}

theorem two_pow_eq_double (hw : 0 < w) : 2 ^ w = 2 * 2 ^ (w - 1) := by
  rw [← Nat.pow_succ', Nat.succ_eq_add_one, Nat.sub_add_cancel hw]

/-- All bits but the sign make way for it: the others are turned over if it is set. -/
theorem toNat_shiftLeft_xor_sign (hw : 0 < w) (b : BitVec w) :
    ((b <<< 1) ^^^ b.sshiftRight (w - 1)).toNat = fold b.toInt := by
  have hb := b.isLt
  have hpow := two_pow_eq_double hw
  -- the bits that are shifted out are all that there are
  have hgone : ∀ {x : BitVec w}, x.toNat < 2 ^ (w - 1) → x >>> (w - 1) = 0#w := by
    intro x hx
    apply BitVec.eq_of_toNat_eq
    rw [BitVec.toNat_ushiftRight, Nat.shiftRight_eq_div_pow, Nat.div_eq_of_lt hx]
    rfl
  cases hsign : b.msb with
  | false =>
    have hsmall := BitVec.msb_eq_false_iff_two_mul_lt.mp hsign
    rw [BitVec.sshiftRight_eq_of_msb_false hsign, hgone (by omega), BitVec.xor_zero,
      BitVec.toNat_shiftLeft, BitVec.toInt_eq_toNat_of_msb hsign, Nat.shiftLeft_eq, fold,
      Nat.mod_eq_of_lt (by omega)]
    split <;> omega
  | true =>
    have hlarge := BitVec.msb_eq_true_iff_two_mul_ge.mp hsign
    have hrest : (~~~b).toNat < 2 ^ (w - 1) := by
      rw [BitVec.toNat_not]
      omega
    have hshifted : b.toNat * 2 ^ 1 % 2 ^ w = b.toNat * 2 - 2 ^ w := by
      rw [Nat.pow_one, Nat.mod_eq_sub_mod (by omega), Nat.mod_eq_of_lt (by omega)]
    rw [BitVec.sshiftRight_eq_of_msb_true hsign, hgone hrest, BitVec.not_zero, BitVec.xor_allOnes,
      BitVec.toNat_not, BitVec.toNat_shiftLeft, Nat.shiftLeft_eq, hshifted,
      BitVec.toInt_eq_toNat_cond, fold]
    split <;> split <;> omega

/-- The lowest bit says whether the others are turned over. -/
theorem toInt_shiftRight_xor_neg (hw : 1 < w) (b : BitVec w) :
    ((b >>> 1) ^^^ -(b &&& 1#w)).toInt = unfold b.toNat := by
  have hb := b.isLt
  have hpow := two_pow_eq_double (Nat.lt_of_succ_lt hw)
  have hhalf : (b >>> 1).toNat = b.toNat / 2 := by
    rw [BitVec.toNat_ushiftRight, Nat.shiftRight_eq_div_pow, Nat.pow_one]
  have hlow : (b &&& 1#w).toNat = b.toNat % 2 := by
    rw [BitVec.toNat_and, BitVec.toNat_one (Nat.lt_of_succ_lt hw), Nat.and_one_is_mod]
  rw [unfold]
  split
  · next heven =>
    have hzero : b &&& 1#w = 0#w := BitVec.eq_of_toNat_eq (hlow.trans heven)
    rw [hzero, BitVec.neg_zero, BitVec.xor_zero, BitVec.toInt_eq_toNat_cond, hhalf,
      if_pos (by omega)]
  · next hodd =>
    have hone : b &&& 1#w = 1#w := by
      apply BitVec.eq_of_toNat_eq
      rw [hlow, BitVec.toNat_one (Nat.lt_of_succ_lt hw)]
      omega
    rw [hone, BitVec.neg_one_eq_allOnes, BitVec.xor_allOnes, BitVec.toInt_eq_toNat_cond,
      BitVec.toNat_not, hhalf, if_neg (by omega)]
    omega

end Bits

theorem fold32_eq (v : Int32) : fold32 v = ((v <<< 1) ^^^ (v >>> 31)).toUInt32 := by
  have hbits : ((v <<< 1) ^^^ (v >>> 31)).toUInt32.toNat = fold v.toInt :=
    toNat_shiftLeft_xor_sign (w := 32) (by decide) v.toBitVec
  rw [fold32, ← hbits, UInt32.ofNat_toNat]

theorem unfold32_eq (v : UInt32) : unfold32 v = (v >>> 1).toInt32 ^^^ -(v &&& 1).toInt32 := by
  have hbits : ((v >>> 1).toInt32 ^^^ -(v &&& 1).toInt32).toInt = unfold v.toNat :=
    toInt_shiftRight_xor_neg (w := 32) (by decide) v.toBitVec
  rw [unfold32, ← hbits, Int32.ofInt_toInt]

theorem fold64_eq (v : Int64) : fold64 v = ((v <<< 1) ^^^ (v >>> 63)).toUInt64 := by
  have hbits : ((v <<< 1) ^^^ (v >>> 63)).toUInt64.toNat = fold v.toInt :=
    toNat_shiftLeft_xor_sign (w := 64) (by decide) v.toBitVec
  rw [fold64, ← hbits, UInt64.ofNat_toNat]

theorem unfold64_eq (v : UInt64) : unfold64 v = (v >>> 1).toInt64 ^^^ -(v &&& 1).toInt64 := by
  have hbits : ((v >>> 1).toInt64 ^^^ -(v &&& 1).toInt64).toInt = unfold v.toNat :=
    toInt_shiftRight_xor_neg (w := 64) (by decide) v.toBitVec
  rw [unfold64, ← hbits, Int64.ofInt_toInt]

/-! ### Read back, and shortest -/

/-- Is every value read back from what it is written in, and from no fewer bytes? -/
structure Minimal {α : Type} (write : α → Bytes) (read : Bytes → Except WireError (α × Bytes)) :
    Prop where
  readsBack : ∀ v rest, read (write v ++ rest) = .ok (v, rest)
  shortest : ∀ {bs rest : Bytes} {v : α}, read bs = .ok (v, rest) →
    ∃ front, bs = front ++ rest ∧ (write v).length ≤ front.length

theorem Minimal.of_groups {α : Type} {write : α → Bytes} {most : Nat} {make : Nat → α}
    {read : Bytes → Except WireError (α × Bytes)}
    (hread : ∀ bs, read bs = (readGroups most bs).map fun r => (make r.1, r.2))
    (hback : ∀ v rest, read (write v ++ rest) = .ok (v, rest))
    (hshort : ∀ {bs rest : Bytes} {v : α}, read bs = .ok (v, rest) →
      (write v).length + rest.length ≤ bs.length) : Minimal write read := by
  refine ⟨hback, fun {bs rest v} h => ?_⟩
  have hlength := hshort h
  rw [hread] at h
  cases hgroups : readGroups most bs with
  | error e =>
    rw [hgroups] at h
    cases h
  | ok r =>
    rw [hgroups] at h
    cases h
    obtain ⟨front, rfl, -⟩ := exists_numeral_of_readGroups hgroups
    rw [List.length_append] at hlength
    exact ⟨front, rfl, Nat.le_of_add_le_add_right hlength⟩

/-- Values that stand for others one to one are read back as those are, and are as short. -/
theorem Minimal.fold {α β : Type} {write : β → Bytes} {read : Bytes → Except WireError (β × Bytes)}
    (h : Minimal write read) {fold : α → β} {unfold : β → α} (hfold : ∀ w, fold (unfold w) = w)
    (hunfold : ∀ v, unfold (fold v) = v) {readFolded : Bytes → Except WireError (α × Bytes)}
    (hread : ∀ bs, readFolded bs = (read bs).map fun r => (unfold r.1, r.2)) :
    Minimal (fun v => write (fold v)) readFolded where
  readsBack := by
    intro v rest
    rw [hread, h.readsBack]
    exact congrArg (fun v => Except.ok (v, rest)) (hunfold v)
  shortest := by
    intro bs rest v hv
    rw [hread] at hv
    cases hword : read bs with
    | error e =>
      rw [hword] at hv
      cases hv
    | ok r =>
      rw [hword] at hv
      cases hv
      obtain ⟨front, hbs, hlength⟩ := h.shortest hword
      refine ⟨front, hbs, ?_⟩
      rw [hfold]
      exact hlength

theorem minimal_words32 : Minimal write32 read32 :=
  .of_groups read32_eq_map read32_write32 fun h => length_write32_le h (UInt32.le_refl _)

theorem minimal_words64 : Minimal write64 read64 :=
  .of_groups read64_eq_map read64_write64 fun h => length_write64_le h (UInt64.le_refl _)

theorem minimal_ints32 : Minimal Scalar.varInt32.write Scalar.varInt32.read := by
  refine minimal_words32.fold fold32_unfold32 Scalar.unfold32_fold32 fun bs => ?_
  rw [Scalar.read, Scalar.readVar32]
  cases read32 bs <;> rfl

theorem minimal_ints64 : Minimal Scalar.varInt64.write Scalar.varInt64.read := by
  refine minimal_words64.fold fold64_unfold64 Scalar.unfold64_fold64 fun bs => ?_
  rw [Scalar.read, Scalar.readVar64]
  cases read64 bs <;> rfl

/-- Do two functions take signed words to unsigned ones and back, one to one, and as these bit operations
do? -/
structure Folds {α β : Type} (fold : α → β) (unfold : β → α) (shift : α → β) (unshift : β → α) :
    Prop where
  unfold_fold : ∀ v, unfold (fold v) = v
  fold_bijective : Function.Bijective fold
  unfold_bijective : Function.Bijective unfold
  fold_eq : ∀ v, fold v = shift v
  unfold_eq : ∀ w, unfold w = unshift w

theorem Folds.of_inverse {α β : Type} {fold : α → β} {unfold : β → α}
    (hunfold : ∀ v, unfold (fold v) = v) (hfold : ∀ w, fold (unfold w) = w) {shift : α → β}
    {unshift : β → α} (hshift : ∀ v, fold v = shift v) (hunshift : ∀ w, unfold w = unshift w) :
    Folds fold unfold shift unshift :=
  have hleft : Function.LeftInverse unfold fold := hunfold
  have hright : Function.RightInverse unfold fold := hfold
  ⟨hunfold, ⟨hleft.injective, hright.surjective⟩, ⟨hright.injective, hleft.surjective⟩, hshift,
    hunshift⟩

/-- **Integers are written in their shortest form.**  Words of both widths, and signed words of both, are
read back from what they are written in, and the rest is left; they are written in no more bytes than any
bytes that are read as them; and a word of 32 bits is as long as its length says.  Signed words are
folded onto unsigned ones of the same width, one to one, by shifting all bits up and turning them over if
the sign is set. -/
theorem integers_minimal :
    (Minimal write32 read32 ∧ ∀ v, (write32 v).length = length32 v) ∧ Minimal write64 read64 ∧
      Minimal Scalar.varInt32.write Scalar.varInt32.read ∧
      Minimal Scalar.varInt64.write Scalar.varInt64.read ∧
      Folds fold32 unfold32 (fun v => ((v <<< 1) ^^^ (v >>> 31)).toUInt32)
        (fun w => (w >>> 1).toInt32 ^^^ -(w &&& 1).toInt32) ∧
      Folds fold64 unfold64 (fun v => ((v <<< 1) ^^^ (v >>> 63)).toUInt64)
        (fun w => (w >>> 1).toInt64 ^^^ -(w &&& 1).toInt64) :=
  ⟨⟨minimal_words32, length_write32⟩, minimal_words64, minimal_ints32, minimal_ints64,
    .of_inverse Scalar.unfold32_fold32 fold32_unfold32 fold32_eq unfold32_eq,
    .of_inverse Scalar.unfold64_fold64 fold64_unfold64 fold64_eq unfold64_eq⟩

/-- The extremes of the signed words are folded to the largest words. -/
example : fold32 2147483647 = 4294967294 ∧ fold32 (-2147483648) = 4294967295 ∧
    unfold32 4294967295 = -2147483648 := by
  decide

end PackExchange.VarInt
