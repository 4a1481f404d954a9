import Mathlib.Data.Nat.Digits.Lemmas
import PackExchange.Proofs.Wire.VarInt

/-!
# The numbers that bytes spell

Over the naturals every byte of a variable-length integer is a digit to the base of 128.  A word has
less room than the bytes that it may take: five digits spell numbers of 35 bits, and ten digits numbers
of 70 bits.  The count of bytes is checked and the last byte is not, so what has no room there is
dropped.

* `Numeral` — the bytes of one number, and `spelled`, the number;
* `readGroups_eq_ok_iff`, `readGroups_numeral_tooBig` — what is read of a numeral, and which are refused;
* `Wraps` — what a reader of words makes of numerals, with `Wraps.of_groups`;
* `read_wraps` — so it is for both words;
* `read_exampleWrapped` — numerals that are read as numbers that they do not spell.
-/

namespace PackExchange.VarInt

/-! ### Numerals -/

/-- The bytes of one number: every byte but the last says that another one follows. -/
inductive Numeral : Bytes → Prop
  | last {b : UInt8} (hlast : b.toNat < 128) : Numeral [b]
  | more {b : UInt8} {bs : Bytes} (hmore : 128 ≤ b.toNat) (hrest : Numeral bs) : Numeral (b :: bs)

/-- The number that bytes spell, the lowest digit first. -/
def spelled (bs : Bytes) : Nat := ((bs.map (·.toNat % 128)).mapIdx fun i d => d * 128 ^ i).sum

theorem spelled_eq_ofDigits (bs : Bytes) : spelled bs = Nat.ofDigits 128 (bs.map (·.toNat % 128)) :=
  (Nat.ofDigits_eq_sum_mapIdx 128 _).symm

theorem spelled_cons (b : UInt8) (bs : Bytes) :
    spelled (b :: bs) = b.toNat % 128 + 128 * spelled bs := by
  rw [spelled_eq_ofDigits, spelled_eq_ofDigits, List.map_cons, Nat.ofDigits_cons]

theorem spelled_singleton (b : UInt8) : spelled [b] = b.toNat % 128 := spelled_cons b []

theorem spelled_lt (bs : Bytes) : spelled bs < 128 ^ bs.length := by
  have hdigits : ∀ d ∈ bs.map (·.toNat % 128), d < 128 := by
    intro d hd
    obtain ⟨b, -, rfl⟩ := List.mem_map.mp hd
    exact Nat.mod_lt _ (by decide)
  have hlt := Nat.ofDigits_lt_base_pow_length (by decide) hdigits
  rwa [← spelled_eq_ofDigits, List.length_map] at hlt

/-! ### Reading groups -/

/-- What is read is a numeral at the front. -/
theorem exists_numeral_of_readGroups {most n : Nat} {bs rest : Bytes}
    (h : readGroups most bs = .ok (n, rest)) :
    ∃ front, bs = front ++ rest ∧ Numeral front ∧ front.length ≤ most ∧ n = spelled front := by
  induction most generalizing bs n with
  | zero => cases h
  | succ most ih =>
    cases bs with
    | nil => cases h
    | cons b bs =>
      rw [readGroups] at h
      split at h
      · next hlast =>
        cases h
        refine ⟨[b], rfl, .last hlast, Nat.le_add_left 1 most, ?_⟩
        rw [spelled_singleton, Nat.mod_eq_of_lt hlast]
      · next hmore =>
        split at h
        · cases h
        · next k tail hread =>
          cases h
          obtain ⟨front, rfl, hnumeral, hlength, rfl⟩ := ih hread
          have hb : b.toNat < 256 := b.toNat_lt
          refine ⟨b :: front, rfl, .more (Nat.le_of_not_lt hmore) hnumeral,
            Nat.succ_le_succ hlength, ?_⟩
          rw [spelled_cons]
          omega

theorem readGroups_numeral {front : Bytes} (h : Numeral front) {most : Nat}
    (hlength : front.length ≤ most) (rest : Bytes) :
    readGroups most (front ++ rest) = .ok (spelled front, rest) := by
  induction h generalizing most with
  | @last b hlast =>
    obtain ⟨most, rfl⟩ := Nat.exists_eq_succ_of_ne_zero (Nat.one_le_iff_ne_zero.mp hlength)
    rw [List.singleton_append, readGroups, if_pos hlast, spelled_singleton, Nat.mod_eq_of_lt hlast]
  | @more b bs hmore _ ih =>
    rw [List.length_cons] at hlength
    obtain ⟨most, rfl⟩ := Nat.exists_eq_succ_of_ne_zero (n := most) (by omega)
    have hb : b.toNat < 256 := b.toNat_lt
    rw [List.cons_append, readGroups, if_neg (Nat.not_lt.mpr hmore), ih (by omega), spelled_cons]
    simp only [Except.ok.injEq, Prod.mk.injEq, and_true]
    omega

/-- **What is read of bytes** is the numeral at their front, if it is not too long. -/
theorem readGroups_eq_ok_iff {most n : Nat} {bs rest : Bytes} :
    readGroups most bs = .ok (n, rest) ↔
      ∃ front, bs = front ++ rest ∧ Numeral front ∧ front.length ≤ most ∧ n = spelled front := by
  constructor
  · exact exists_numeral_of_readGroups
  · rintro ⟨front, rfl, hnumeral, hlength, rfl⟩
    exact readGroups_numeral hnumeral hlength rest

theorem readGroups_numeral_tooBig {front : Bytes} (h : Numeral front) {most : Nat}
    (hlength : most < front.length) (rest : Bytes) :
    readGroups most (front ++ rest) = .error .varIntTooBig := by
  induction h generalizing most with
  | last hlast =>
    rw [List.length_singleton, Nat.lt_one_iff] at hlength
    rw [hlength]
    rfl
  | more hmore _ ih =>
    cases most with
    | zero => rfl
    | succ most =>
      rw [List.cons_append, readGroups, if_neg (Nat.not_lt.mpr hmore),
        ih (Nat.lt_of_succ_lt_succ hlength)]

/-! ### Words -/

theorem read32_eq_map (bs : Bytes) :
    read32 bs = (readGroups 5 bs).map fun r => (UInt32.ofNat r.1, r.2) := by
  rw [read32]
  cases readGroups 5 bs <;> rfl

theorem read64_eq_map (bs : Bytes) :
    read64 bs = (readGroups 10 bs).map fun r => (UInt64.ofNat r.1, r.2) := by
  rw [read64]
  cases readGroups 10 bs <;> rfl

/-- What a reader makes of bytes that takes so many of them at most and has room for so many bits. -/
structure Wraps (read : Bytes → Except WireError (Nat × Bytes)) (most bits : Nat) (bs : Bytes) :
    Prop where
  /-- It reads a numeral at the front that is not too long, and drops what has no room. -/
  ok_iff : ∀ {rest : Bytes} {n : Nat}, read bs = .ok (n, rest) ↔
    ∃ front, bs = front ++ rest ∧ Numeral front ∧ front.length ≤ most ∧ n = spelled front % 2 ^ bits
  /-- It refuses a longer one, whatever that spells. -/
  tooBig_iff : ∀ {front rest : Bytes}, bs = front ++ rest → Numeral front →
    (read bs = .error .varIntTooBig ↔ most < front.length)
  /-- The number that was read is the one that was spelled if that has room, and only then. -/
  exact_iff : ∀ {front rest : Bytes} {n : Nat}, bs = front ++ rest → Numeral front →
    read bs = .ok (n, rest) → (n = spelled front ↔ spelled front < 2 ^ bits)
  /-- No bytes that it takes spell a number like this. -/
  refuses : ∀ {front rest : Bytes}, bs = front ++ rest → Numeral front → 128 ^ most ≤ spelled front →
    read bs = .error .varIntTooBig

/-- The value of a result, cut to some bits. -/
def cutTo (bits : Nat) : Except WireError (Nat × Bytes) → Except WireError (Nat × Bytes) :=
  Except.map fun r => (r.1 % 2 ^ bits, r.2)

theorem Wraps.of_groups {read : Bytes → Except WireError (Nat × Bytes)} {most bits : Nat} {bs : Bytes}
    (h : read bs = cutTo bits (readGroups most bs)) : Wraps read most bits bs := by
  have hok : ∀ {rest : Bytes} {n : Nat}, read bs = .ok (n, rest) ↔
      ∃ front, bs = front ++ rest ∧ Numeral front ∧ front.length ≤ most ∧
        n = spelled front % 2 ^ bits := by
    intro rest n
    rw [h]
    constructor
    · intro hread
      cases hgroups : readGroups most bs with
      | error e =>
        rw [hgroups] at hread
        cases hread
      | ok r =>
        rw [hgroups] at hread
        cases hread
        obtain ⟨front, hbs, hnumeral, hlength, hvalue⟩ := readGroups_eq_ok_iff.mp hgroups
        exact ⟨front, hbs, hnumeral, hlength, by rw [← hvalue]⟩
    · rintro ⟨front, rfl, hnumeral, hlength, rfl⟩
      rw [readGroups_numeral hnumeral hlength]
      rfl
  have htooBig : ∀ {front rest : Bytes}, bs = front ++ rest → Numeral front →
      (read bs = .error .varIntTooBig ↔ most < front.length) := by
    intro front rest hbs hnumeral
    by_cases hlength : front.length ≤ most
    · have hread : read bs = .ok (spelled front % 2 ^ bits, rest) :=
        hok.mpr ⟨front, hbs, hnumeral, hlength, rfl⟩
      rw [hread]
      exact iff_of_false nofun (Nat.not_lt.mpr hlength)
    · have hlong := Nat.lt_of_not_le hlength
      rw [h, hbs, readGroups_numeral_tooBig hnumeral hlong]
      exact iff_of_true rfl hlong
  refine ⟨hok, htooBig, ?_, ?_⟩
  · intro front rest n hbs hnumeral hread
    obtain ⟨front', hbs', -, -, rfl⟩ := hok.mp hread
    rw [← List.append_cancel_right (hbs.symm.trans hbs')]
    exact Nat.mod_eq_iff_lt (Nat.two_pow_pos bits).ne'
  · intro front rest hbs hnumeral hhuge
    refine (htooBig hbs hnumeral).mpr (Nat.lt_of_not_le fun hlength => ?_)
    have hpow : 128 ^ front.length ≤ 128 ^ most := Nat.pow_le_pow_right (by decide) hlength
    exact absurd (spelled_lt front) (Nat.not_lt.mpr (hpow.trans hhuge))

/-- **Words wrap.**  A word of 32 bits is read from a numeral of at most five bytes, and a word of 64
bits from one of at most ten: what is read is the number that the bytes spell, modulo the room of the
word.  So it is that number if it has room, and only then; a numeral of more bytes is refused, and with
it every number that takes more than 35 bits, or more than 70. -/
theorem read_wraps (bs : Bytes) :
    Wraps (fun bs => (read32 bs).map fun r => (r.1.toNat, r.2)) 5 32 bs ∧
      Wraps (fun bs => (read64 bs).map fun r => (r.1.toNat, r.2)) 10 64 bs := by
  refine ⟨Wraps.of_groups ?_, Wraps.of_groups ?_⟩
  · rw [read32_eq_map]
    cases readGroups 5 bs with
    | error e => rfl
    | ok r => exact congrArg (fun n => Except.ok (n, r.2)) UInt32.toNat_ofNat'
  · rw [read64_eq_map]
    cases readGroups 10 bs with
    | error e => rfl
    | ok r => exact congrArg (fun n => Except.ok (n, r.2)) UInt64.toNat_ofNat'

/-- Five bytes that spell `2 ^ 35 - 1` are read as `2 ^ 32 - 1`, and ten bytes that spell `2 ^ 70 - 1` as
`2 ^ 64 - 1`. -/
theorem read_exampleWrapped :
    (Numeral [0xff, 0xff, 0xff, 0xff, 0x7f] ∧ spelled [0xff, 0xff, 0xff, 0xff, 0x7f] = 2 ^ 35 - 1 ∧
      read32 [0xff, 0xff, 0xff, 0xff, 0x7f] = .ok (0xffffffff, [])) ∧
    (Numeral [0xff, 0xff, 0xff, 0xff, 0xff, 0xff, 0xff, 0xff, 0xff, 0x7f] ∧
      spelled [0xff, 0xff, 0xff, 0xff, 0xff, 0xff, 0xff, 0xff, 0xff, 0x7f] = 2 ^ 70 - 1 ∧
      read64 [0xff, 0xff, 0xff, 0xff, 0xff, 0xff, 0xff, 0xff, 0xff, 0x7f] =
        .ok (0xffffffffffffffff, [])) := by
  have hnumeral : ∀ n, Numeral (List.replicate n 0xff ++ [0x7f]) := by
    intro n
    induction n with
    | zero => exact .last (by decide)
    | succ n ih => exact .more (by decide) ih
  exact ⟨⟨hnumeral 4, by decide, by decide⟩, ⟨hnumeral 9, by decide, by decide⟩⟩

end PackExchange.VarInt
