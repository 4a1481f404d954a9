import PackExchange.Proofs.Wire.RoundTrip
import PackExchange.Proofs.Wire.VarInt

/-!
# Values are written in their shortest form

Bytes may spell a value at greater length than needed: an integer in too many groups, or a flag as
any byte but zero.  A value that was read is written in no more bytes than it was read from.

* `Scalar.length_write_le`, `CountWidth.length_write_le`, `Layout.length_write_le` — fields, counts
  and layouts.
-/

namespace PackExchange

/-! ### Fields -/

namespace Scalar

theorem length_of_take {n : Nat} {bs front rest : Bytes} (h : take n bs = .ok (front, rest)) :
    front.length = n ∧ n + rest.length = bs.length := by
  rw [take] at h
  split at h
  · next parts hsplit =>
    cases h
    obtain ⟨hlength, rfl⟩ := Bytes.split?_eq_some_iff.mp hsplit
    rw [List.length_append, hlength]
    exact ⟨rfl, rfl⟩
  · cases h

theorem length_of_readFixed {α : Type} {n : Nat} {make : Bytes → α} {bs rest : Bytes} {v : α}
    (h : readFixed n make bs = .ok (v, rest)) : n + rest.length = bs.length := by
  rw [readFixed] at h
  split at h
  · cases h
  · next front tail htake =>
    cases h
    exact (length_of_take htake).2

theorem length_writeBlob_le {bs front rest : Bytes} (h : readBlob bs = .ok (front, rest)) :
    (writeBlob front).length + rest.length ≤ bs.length := by
  rw [readBlob] at h
  split at h
  · cases h
  · next n tail hread =>
    obtain ⟨hfront, htail⟩ := length_of_take h
    have hprefix := VarInt.length_write32_le hread (UInt32.le_refl _)
    rw [writeBlob, List.length_append, hfront, UInt32.ofNat_toNat]
    omega

/-- A field that was read is written in no more bytes. -/
theorem length_write_le {α : Type} {field : Scalar α} {bs rest : Bytes} {v : α}
    (h : field.read bs = .ok (v, rest)) : (field.write v).length + rest.length ≤ bs.length := by
  cases field with
  | varWord32 | varInt32 =>
    simp only [read, readVar32] at h
    split at h
    · cases h
    · next w tail hread =>
      cases h
      simp only [write, id_eq, VarInt.fold32_unfold32]
      exact VarInt.length_write32_le hread (UInt32.le_refl _)
  | varWord64 | varInt64 =>
    simp only [read, readVar64] at h
    split at h
    · cases h
    · next w tail hread =>
      cases h
      simp only [write, id_eq, VarInt.fold64_unfold64]
      exact VarInt.length_write64_le hread (UInt64.le_refl _)
  | blob => exact length_writeBlob_le h
  | text =>
    simp only [read, readText] at h
    split at h
    · cases h
    · next front tail hblob =>
      split at h
      · next s hs =>
        cases h
        rw [write, Bytes.ofText_of_toText? hs]
        exact length_writeBlob_le hblob
      · cases h
  | _ =>
    have hlength := length_of_readFixed h
    simp only [write, List.length_append, List.length_reverse, Bytes.length_little,
      List.length_singleton]
    omega

end Scalar

/-! ### Counts -/

namespace CountWidth

variable {limits : Bool} {width : CountWidth} {n : Nat} {bs rest : Bytes}

/-- A count that was read is there, and the bytes left can hold it. -/
theorem readRaw_of_read (h : width.read limits bs = .ok (n, rest)) :
    width.readRaw bs = .ok (n, rest) ∧ n ≤ rest.length := by
  rw [read] at h
  split at h
  · cases h
  · next m tail hraw =>
    split at h
    · cases h
    · split at h
      · cases h
      · next r htake =>
        cases h
        have hlength := (Scalar.length_of_take htake).2
        exact ⟨hraw, by omega⟩

/-- A count that was read is written in no more bytes. -/
theorem length_write_le (h : width.read limits bs = .ok (n, rest)) :
    (width.write n).length + rest.length ≤ bs.length := by
  have hraw := (readRaw_of_read h).1
  cases width with
  | two | four =>
    have hlength := Scalar.length_of_readFixed hraw
    rw [write, Bytes.length_little]
    omega
  | varying =>
    rw [readRaw, Scalar.readVar32] at hraw
    split at hraw
    · cases hraw
    · next v tail hread =>
      cases hraw
      rw [write, UInt32.ofNat_toNat]
      exact VarInt.length_write32_le hread (UInt32.le_refl _)

end CountWidth

/-! ### Layouts -/

namespace Layout

/-- Elements that were read are written in no more bytes than they were read from. -/
theorem length_writeMany_le {α : Type} {limits : Bool} {item : Layout α}
    (hread : ∀ {bs rest v}, item.read limits bs = .ok (v, rest) →
      (item.write v).length + rest.length ≤ bs.length) {n : Nat} {done vs : List α}
    {bs rest : Bytes} (h : readMany (fun bs => item.read limits bs) n done bs = .ok (vs, rest)) :
    ∃ new, vs = done.reverse ++ new ∧ new.length = n ∧
      (new.flatMap fun v => item.write v).length + rest.length ≤ bs.length := by
  induction n generalizing done bs with
  | zero =>
    cases h
    exact ⟨[], (List.append_nil _).symm, rfl, by simp⟩
  | succ n ih =>
    simp only [readMany] at h
    split at h
    · cases h
    · next v tail hv =>
      obtain ⟨new, rfl, hlength, hnew⟩ := ih h
      have hfirst := hread hv
      refine ⟨v :: new, ?_, ?_, ?_⟩
      · rw [List.reverse_cons, List.append_assoc, List.singleton_append]
      · rw [List.length_cons, hlength]
      · rw [List.flatMap_cons, List.length_append]
        omega

/-- **A value that was read is written in no more bytes** than it was read from. -/
theorem length_write_le {α : Type} {l : Layout α} {limits : Bool} {v : α} {bs rest : Bytes}
    (h : l.read limits bs = .ok (v, rest)) : (l.write v).length + rest.length ≤ bs.length := by
  induction l generalizing bs rest with
  | scalar field => exact Scalar.length_write_le h
  | always value =>
    cases h
    simp [write]
  | andThen first next ihFirst ihNext =>
    simp only [read] at h
    split at h
    · cases h
    · next a tail ha =>
      split at h
      · cases h
      · next b tail' hb =>
        cases h
        have hfirst := ihFirst ha
        have hnext := ihNext a hb
        rw [write, List.length_append]
        omega
  | optional value ih =>
    simp only [read] at h
    split at h
    · cases h
    · next tail hflag =>
      cases h
      exact Scalar.length_write_le hflag
    · next tail hflag =>
      split at h
      · cases h
      · next w tail' hw =>
        cases h
        have hfirst := Scalar.length_write_le hflag
        have hnext := ih hw
        rw [write, List.length_append]
        omega
  | list count item ih =>
    simp only [read] at h
    split at h
    · cases h
    · next n tail hn =>
      obtain ⟨new, rfl, rfl, hnew⟩ := length_writeMany_le (fun hv => ih hv) h
      have hcount := CountWidth.length_write_le hn
      rw [write, List.length_append]
      omega
  | mapped parts build take build_take take_build ih =>
    simp only [read] at h
    split at h
    · cases h
    · next a tail ha =>
      cases h
      rw [write, take_build a]
      exact ih ha

end Layout

end PackExchange
