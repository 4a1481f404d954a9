import Mathlib.Algebra.GroupWithZero.Nat
import Mathlib.Algebra.Order.BigOperators.Group.List
import Mathlib.Algebra.Order.Group.Nat
import PackExchange.Proofs.Wire.RoundTrip

/-!
# How much room values take

How many bytes a value is written in can be read off its layout, but for variable-length words and
the lengths of runs and lists, for which there is a bound.

* `VarInt.length_write32_le_five` — a variable-length word takes five bytes at most;
* `Scalar.room`, `Layout.room` — the room for a value;
* `Layout.length_write_le_room` — no value takes more.
-/

namespace PackExchange

namespace VarInt

theorem length_writeGroups_le_succ (more n : Nat) : (writeGroups more n).length ≤ more + 1 := by
  induction more generalizing n with
  | zero => exact Nat.le_refl _
  | succ more ih =>
    rw [writeGroups]
    split
    · exact Nat.le_add_left _ _
    · exact Nat.succ_le_succ (ih _)

theorem length_write32_le_five (v : UInt32) : (write32 v).length ≤ 5 :=
  length_writeGroups_le_succ 4 _

theorem length_write64_le_ten (v : UInt64) : (write64 v).length ≤ 10 :=
  length_writeGroups_le_succ 9 _

end VarInt

namespace Scalar

/-- The room for the value of a field. -/
@[simp] def room {α : Type} : Scalar α → α → Nat
  | byte, _ | flag, _ => 1
  | word16, _ => 2
  | word32, _ | int32, _ | int32BE, _ | float32, _ => 4
  | word64, _ | int64, _ => 8
  | varWord32, _ | varInt32, _ => 5
  | varWord64, _ | varInt64, _ => 10
  | uuid, _ => 16
  | blob, v => 5 + v.length
  | text, v => 5 + v.utf8ByteSize

theorem length_writeBlob_le_room (bs : Bytes) : (writeBlob bs).length ≤ 5 + bs.length := by
  rw [writeBlob, List.length_append]
  exact Nat.add_le_add_right (VarInt.length_write32_le_five _) _

theorem length_write_le_room {α : Type} (field : Scalar α) (v : α) :
    (field.write v).length ≤ field.room v := by
  cases field with
  | byte | flag => exact Nat.le_refl _
  | word16 | word32 | word64 | int32 | int64 | float32 =>
    exact Nat.le_of_eq (Bytes.length_little _ _)
  | int32BE =>
    rw [write, List.length_reverse]
    exact Nat.le_of_eq (Bytes.length_little _ _)
  | varWord32 | varInt32 => exact VarInt.length_write32_le_five _
  | varWord64 | varInt64 => exact VarInt.length_write64_le_ten _
  | uuid =>
    rw [write, List.length_append, Bytes.length_little, Bytes.length_little]
    exact Nat.le_refl _
  | blob => exact length_writeBlob_le_room v
  | text => exact length_writeBlob_le_room (Bytes.ofText v)

end Scalar

theorem CountWidth.length_write_le_five (width : CountWidth) (n : Nat) :
    (width.write n).length ≤ 5 := by
  cases width with
  | two | four =>
    rw [write, Bytes.length_little]
    decide
  | varying => exact VarInt.length_write32_le_five _

namespace Layout

/-- The room for a value. -/
@[simp] def room : {α : Type} → Layout α → α → Nat
  | _, scalar field, v => field.room v
  | _, always _, _ => 0
  | _, andThen first next, (a, b) => first.room a + (next a).room b
  | _, optional _, none => 1
  | _, optional value, some v => 1 + value.room v
  | _, list _ item, vs => 5 + (vs.map item.room).sum
  | _, mapped parts _ take _ _, v => parts.room (take v)

/-- **No value takes more bytes than there is room for.** -/
theorem length_write_le_room {α : Type} (l : Layout α) (v : α) : (l.write v).length ≤ l.room v := by
  induction l with
  | scalar field => exact field.length_write_le_room v
  | always value => exact Nat.le_refl _
  | andThen first next ihFirst ihNext =>
    obtain ⟨a, b⟩ := v
    rw [write, List.length_append]
    exact Nat.add_le_add (ihFirst a) (ihNext a b)
  | optional value ih =>
    cases v with
    | none => exact Nat.le_refl _
    | some v =>
      rw [write, List.length_append]
      exact Nat.add_le_add_left (ih v) 1
  | list count item ih =>
    rw [write, List.length_append, List.length_flatMap]
    exact Nat.add_le_add (count.length_write_le_five _) (List.sum_le_sum fun v _ => ih v)
  | mapped parts build take _ _ ih => exact ih (take v)

end Layout

end PackExchange
