/-!
# Bytes

A run of bytes is a list, consumed from the front.  This file holds the two pieces that
every wire format below is made of:

* `Bytes.little` and `Bytes.ofLittle` — a number as a fixed count of bytes, least
  significant first, and the number that bytes denote;
* `Bytes.split?` — a run of known length taken off the front, if that many bytes are left.

`ofLittle_little` and `split?_append` say that what was written is what is read.
-/

namespace PackExchange

/-- A run of bytes, consumed from the front. -/
abbrev Bytes := List UInt8

namespace Bytes

/-! ### Numbers of a fixed width -/

/-- The lowest `width` bytes of a number, least significant first. -/
def little : Nat → Nat → Bytes
  | 0, _ => []
  | width + 1, n => UInt8.ofNat (n % 256) :: little width (n / 256)

/-- The number that bytes denote, least significant first. -/
def ofLittle : Bytes → Nat
  | [] => 0
  | b :: bs => b.toNat + 256 * ofLittle bs

@[simp] theorem length_little (width n : Nat) : (little width n).length = width := by
  induction width generalizing n with
  | zero => rfl
  | succ width ih => simp [little, ih]

/-- How many numbers fit into so many bytes. -/
def span : Nat → Nat
  | 0 => 1
  | width + 1 => 256 * span width

theorem ofLittle_little (width n : Nat) : ofLittle (little width n) = n % span width := by
  induction width generalizing n with
  | zero => simp [little, ofLittle, span, Nat.mod_one]
  | succ width ih =>
    have h : (UInt8.ofNat (n % 256)).toNat = n % 256 := by simp
    simp only [little, ofLittle, ih, h]
    rw [span, Nat.mod_mul]

theorem ofLittle_lt (bs : Bytes) : ofLittle bs < span bs.length := by
  induction bs with
  | nil => simp [ofLittle, span]
  | cons b bs ih =>
    have hb : b.toNat < 256 := b.toNat_lt
    simp only [ofLittle, List.length_cons, span]
    omega

theorem little_ofLittle (bs : Bytes) : little bs.length (ofLittle bs) = bs := by
  induction bs with
  | nil => rfl
  | cons b bs ih =>
    have hb : b.toNat < 256 := b.toNat_lt
    have hm : (b.toNat + 256 * ofLittle bs) % 256 = b.toNat := by omega
    have hd : (b.toNat + 256 * ofLittle bs) / 256 = ofLittle bs := by omega
    simp [little, ofLittle, hm, hd, ih]

/-! ### Runs of a known length -/

/-- The first `n` bytes and the rest, if there are that many. -/
def split? (n : Nat) (bs : Bytes) : Option (Bytes × Bytes) :=
  let front := bs.take n
  if front.length = n then some (front, bs.drop n) else none

theorem split?_append (front rest : Bytes) :
    split? front.length (front ++ rest) = some (front, rest) := by
  simp [split?]

theorem split?_eq_some_iff {n : Nat} {bs front rest : Bytes} :
    split? n bs = some (front, rest) ↔ front.length = n ∧ bs = front ++ rest := by
  constructor
  · intro h
    simp only [split?] at h
    split at h
    · next hl =>
      simp only [Option.some.injEq, Prod.mk.injEq] at h
      obtain ⟨rfl, rfl⟩ := h
      exact ⟨hl, (List.take_append_drop n bs).symm⟩
    · cases h
  · rintro ⟨rfl, rfl⟩
    exact split?_append front rest

theorem split?_eq_none_iff {n : Nat} {bs : Bytes} : split? n bs = none ↔ bs.length < n := by
  simp only [split?, List.length_take]
  split <;> simp <;> omega

end Bytes

end PackExchange
