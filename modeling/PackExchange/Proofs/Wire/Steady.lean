import PackExchange.Proofs.Wire.Sequence
import PackExchange.Proofs.Wire.VarInt

/-!
# Reading goes from front to back

A reader takes a value off the front and leaves the rest alone.  So what it says of some bytes it
says of more bytes too, unless it has asked for more.

* `Steady` — the law of such a reader, and `Steady.cut`, what it says of bytes that were cut off;
* `Steady.andThen` — two readers, one after the other;
* `Scalar.steady`, `CountWidth.steady`, `Layout.steady` — every reader of this library is one.
-/

namespace PackExchange

/-- Does the cause say that bytes are missing? -/
def WireError.missing : WireError → Bool
  | .notEnoughData .. => true
  | _ => false

/-- What the reader says of some bytes stays when more bytes follow: a value with its rest, and a
cause other than that bytes are missing. -/
structure Steady {α : Type} (read : Bytes → Except WireError (α × Bytes)) : Prop where
  value : ∀ {bs rest : Bytes} {v : α}, read bs = .ok (v, rest) →
    ∀ more, read (bs ++ more) = .ok (v, rest ++ more)
  fault : ∀ {bs : Bytes} {e : WireError}, read bs = .error e → e.missing = false →
    ∀ more, read (bs ++ more) = .error e

namespace Steady

variable {α β : Type}

/-- **What is left of bytes that were read** either holds the value whole, or bytes are missing. -/
theorem cut {read : Bytes → Except WireError (α × Bytes)} (h : Steady read) {front back rest : Bytes}
    {v : α} (hread : read (front ++ back) = .ok (v, rest)) :
    (∃ tail, rest = tail ++ back ∧ read front = .ok (v, tail)) ∨
      ∃ needed remaining, read front = .error (.notEnoughData needed remaining) := by
  cases hfront : read front with
  | ok r =>
    obtain ⟨w, tail⟩ := r
    rw [h.value hfront, Except.ok.injEq, Prod.mk.injEq] at hread
    obtain ⟨rfl, rfl⟩ := hread
    exact Or.inl ⟨tail, rfl, rfl⟩
  | error e =>
    cases e with
    | notEnoughData needed remaining => exact Or.inr ⟨needed, remaining, rfl⟩
    | _ =>
      rw [h.fault hfront rfl] at hread
      cases hread

/-- A reader that takes nothing. -/
theorem always (v : α) : Steady fun bs => .ok (v, bs) where
  value := by
    intro bs rest w hread more
    cases hread
    rfl
  fault := nofun

/-- A reader that refuses everything. -/
theorem never (e : WireError) : Steady (α := α) fun _ => .error e where
  value := nofun
  fault := fun hread _ _ => hread

/-- Two readers, one after the other. -/
theorem andThen {first : Bytes → Except WireError (α × Bytes)}
    {next : α → Bytes → Except WireError (β × Bytes)} {both : Bytes → Except WireError (β × Bytes)}
    (hfirst : Steady first) (hnext : ∀ a, Steady (next a))
    (hboth : ∀ bs, both bs = (first bs).bind fun r => next r.1 r.2) : Steady both where
  value := by
    intro bs rest v hread more
    rw [hboth] at hread ⊢
    cases hbs : first bs with
    | error e =>
      rw [hbs] at hread
      cases hread
    | ok r =>
      rw [hbs] at hread
      rw [hfirst.value hbs more]
      exact (hnext r.1).value hread more
  fault := by
    intro bs e hread hmissing more
    rw [hboth] at hread ⊢
    cases hbs : first bs with
    | error e' =>
      rw [hbs] at hread
      cases hread
      rw [hfirst.fault hbs hmissing more]
      rfl
    | ok r =>
      rw [hbs] at hread
      rw [hfirst.value hbs more]
      exact (hnext r.1).fault hread hmissing more

end Steady

/-! ### Integers -/

namespace VarInt

theorem steady_readGroups (most : Nat) : Steady (readGroups most) where
  value := fun hread more => readGroups_append hread more
  fault := by
    intro bs e hread hmissing more
    rcases readGroups_error hread with rfl | rfl
    · obtain ⟨hlength, hbytes⟩ := readGroups_tooBig.mp hread
      refine readGroups_tooBig.mpr ⟨?_, ?_⟩
      · rw [List.length_append]
        omega
      · rw [List.take_append_of_le_length hlength]
        exact hbytes
    · cases hmissing

theorem steady_read32 : Steady read32 := by
  refine (steady_readGroups 5).andThen (fun n => .always (UInt32.ofNat n)) fun bs => ?_
  rw [read32]
  cases readGroups 5 bs <;> rfl

theorem steady_read64 : Steady read64 := by
  refine (steady_readGroups 10).andThen (fun n => .always (UInt64.ofNat n)) fun bs => ?_
  rw [read64]
  cases readGroups 10 bs <;> rfl

end VarInt

/-! ### Fields -/

namespace Scalar

theorem steady_take (n : Nat) : Steady (take n) where
  value := by
    intro bs rest front hread more
    rw [take] at hread
    split at hread
    · next parts hsplit =>
      cases hread
      obtain ⟨hlength, rfl⟩ := Bytes.split?_eq_some_iff.mp hsplit
      rw [take, List.append_assoc, Bytes.split?_eq_some_iff.mpr ⟨hlength, rfl⟩]
    · cases hread
  fault := by
    intro bs e hread hmissing more
    rw [take] at hread
    split at hread
    · cases hread
    · cases hread
      cases hmissing

theorem steady_readFixed {α : Type} (n : Nat) (make : Bytes → α) : Steady (readFixed n make) := by
  refine (steady_take n).andThen (fun front => .always (make front)) fun bs => ?_
  rw [readFixed]
  cases take n bs <;> rfl

theorem steady_readVar32 {α : Type} (make : UInt32 → α) : Steady (readVar32 make) := by
  refine VarInt.steady_read32.andThen (fun v => .always (make v)) fun bs => ?_
  rw [readVar32]
  cases VarInt.read32 bs <;> rfl

theorem steady_readVar64 {α : Type} (make : UInt64 → α) : Steady (readVar64 make) := by
  refine VarInt.steady_read64.andThen (fun v => .always (make v)) fun bs => ?_
  rw [readVar64]
  cases VarInt.read64 bs <;> rfl

theorem steady_readBlob : Steady readBlob := by
  refine VarInt.steady_read32.andThen (fun n => steady_take n.toNat) fun bs => ?_
  rw [readBlob]
  cases VarInt.read32 bs <;> rfl

theorem steady_readText : Steady readText := by
  have htext : ∀ front : Bytes, Steady fun rest =>
      front.toText?.elim (.error .invalidUtf8) fun s => .ok (s, rest) := by
    intro front
    cases front.toText? with
    | none => exact .never .invalidUtf8
    | some s => exact .always s
  refine steady_readBlob.andThen htext fun bs => ?_
  rw [readText]
  cases readBlob bs with
  | error e => rfl
  | ok r =>
    simp only [Except.bind]
    cases r.1.toText? <;> rfl

/-- **Every field is read from front to back.** -/
theorem steady {α : Type} (field : Scalar α) : Steady field.read := by
  cases field with
  | varWord32 => exact steady_readVar32 id
  | varInt32 => exact steady_readVar32 VarInt.unfold32
  | varWord64 => exact steady_readVar64 id
  | varInt64 => exact steady_readVar64 VarInt.unfold64
  | blob => exact steady_readBlob
  | text => exact steady_readText
  | _ => exact steady_readFixed _ _

end Scalar

/-! ### Counts -/

namespace CountWidth

theorem steady_readRaw (width : CountWidth) : Steady width.readRaw := by
  cases width with
  | two | four => exact Scalar.steady_readFixed _ _
  | varying => exact Scalar.steady_readVar32 _

/-- A count that the bytes left can hold can be held by more bytes. -/
theorem steady_check (limits : Bool) (n : Nat) : Steady (check limits n) := by
  by_cases hlimit : limits ∧ countLimit < n
  · have hcheck : check limits n = fun _ => .error (.limitHit n countLimit) := by
      funext rest
      rw [check, if_pos hlimit]
    rw [hcheck]
    exact .never _
  · refine ⟨?_, ?_⟩
    · intro bs rest m hread more
      rw [check, if_neg hlimit] at hread ⊢
      cases htake : Scalar.take n bs with
      | error e => simp only [htake, reduceCtorEq] at hread
      | ok r =>
        simp only [htake] at hread
        cases hread
        simp only [(Scalar.steady_take n).value htake]
    · intro bs e hread hmissing more
      rw [check, if_neg hlimit] at hread ⊢
      cases htake : Scalar.take n bs with
      | error e' =>
        simp only [htake, Except.error.injEq] at hread
        subst hread
        simp only [(Scalar.steady_take n).fault htake hmissing]
      | ok r => simp only [htake, reduceCtorEq] at hread

theorem steady (limits : Bool) (width : CountWidth) : Steady (width.read limits) :=
  width.steady_readRaw.andThen (steady_check limits) (read_eq_bind limits width)

end CountWidth

/-! ### Layouts -/

namespace Layout

theorem steady_readMany {α : Type} {read : Bytes → Except WireError (α × Bytes)} (h : Steady read)
    (n : Nat) (done : List α) : Steady (readMany read n done) := by
  induction n generalizing done with
  | zero => exact .always done.reverse
  | succ n ih =>
    exact h.andThen (fun v => ih (v :: done)) fun bs => readMany_succ bs read n done

/-- **Every layout is read from front to back.** -/
theorem steady {α : Type} (l : Layout α) (limits : Bool) : Steady (l.read limits) := by
  induction l with
  | scalar field => exact field.steady
  | always value => exact .always value
  | @andThen α β first next ihFirst ihNext =>
    have hpair : ∀ a : α, Steady fun bs =>
        ((next a).read limits bs).bind fun r => .ok ((a, r.1), r.2) := fun a =>
      (ihNext a).andThen (fun b => .always (a, b)) fun _ => rfl
    exact ihFirst.andThen hpair fun bs => read_andThen limits bs first next
  | @optional α value ih =>
    have hpresent : ∀ present : Bool, Steady fun bs =>
        if present then (value.read limits bs).bind fun r => .ok (some r.1, r.2)
        else .ok (none, bs) := by
      intro present
      cases present with
      | false => exact .always none
      | true => exact ih.andThen (fun v => .always (some v)) fun _ => rfl
    exact (Scalar.steady .flag).andThen hpresent fun bs => read_optional limits bs value
  | list count item ih =>
    exact (count.steady limits).andThen (fun n => steady_readMany ih n []) fun bs =>
      read_list limits bs count item
  | mapped parts build take build_take take_build ih =>
    exact ih.andThen (fun a => .always (build a)) fun bs => read_mapped limits bs parts build take _ _

end Layout

end PackExchange
