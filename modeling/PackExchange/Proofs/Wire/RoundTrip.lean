import PackExchange.Wire.Layout

/-!
# What was written is what is read

A layout drops nothing as long as every length fits its prefix.  This file says which values
those are, layout by layout, and that they are exactly the values that reading can give.

* `Scalar.Fits` and `Layout.Fits` — the values that a field or a layout can carry: byte runs and
  texts below `2 ^ 32` bytes, lists within their count, and nothing but the known value where
  nothing is written;
* `Layout.Counted` — every element of a list takes a byte at least, which is what a reader relies
  on when it compares a count with the bytes left;
* `Layout.read_write` — a value that fits is read back, whatever follows it;
* `Layout.fits_of_read` — a value that was read fits.
-/

namespace PackExchange

/-! ### Fields -/

theorem Bytes.length_ofText (s : String) : (Bytes.ofText s).length = s.utf8ByteSize := rfl

namespace Scalar

/-- The values a field can carry.  Only lengths can be too large. -/
def Fits : {α : Type} → Scalar α → α → Prop
  | _, blob, v => v.length < UInt32.size
  | _, text, v => (Bytes.ofText v).length < UInt32.size
  | _, _, _ => True

theorem readFixed_append {α : Type} {n : Nat} {front : Bytes} (make : Bytes → α) (rest : Bytes)
    (h : front.length = n) : readFixed n make (front ++ rest) = .ok (make front, rest) := by
  subst h
  simp only [readFixed, take, Bytes.split?_append]

theorem readVar32_write32 {α : Type} (make : UInt32 → α) (v : UInt32) (rest : Bytes) :
    readVar32 make (VarInt.write32 v ++ rest) = .ok (make v, rest) := by
  simp only [readVar32, VarInt.read32_write32]

theorem readVar64_write64 {α : Type} (make : UInt64 → α) (v : UInt64) (rest : Bytes) :
    readVar64 make (VarInt.write64 v ++ rest) = .ok (make v, rest) := by
  simp only [readVar64, VarInt.read64_write64]

theorem readBlob_writeBlob (bs rest : Bytes) (h : bs.length < UInt32.size) :
    readBlob (writeBlob bs ++ rest) = .ok (bs, rest) := by
  have hlength : (UInt32.ofNat bs.length).toNat = bs.length := by
    rw [UInt32.toNat_ofNat']
    exact Nat.mod_eq_of_lt h
  rw [writeBlob, List.append_assoc, readBlob, VarInt.read32_write32]
  simp only [hlength, take, Bytes.split?_append]

theorem ofLittle_little16 (v : UInt16) :
    UInt16.ofNat (Bytes.ofLittle (Bytes.little 2 v.toNat)) = v := by
  have hv : v.toNat % Bytes.span 2 = v.toNat := Nat.mod_eq_of_lt v.toNat_lt
  rw [Bytes.ofLittle_little, hv, UInt16.ofNat_toNat]

theorem ofLittle_little32 (v : UInt32) :
    UInt32.ofNat (Bytes.ofLittle (Bytes.little 4 v.toNat)) = v := by
  have hv : v.toNat % Bytes.span 4 = v.toNat := Nat.mod_eq_of_lt v.toNat_lt
  rw [Bytes.ofLittle_little, hv, UInt32.ofNat_toNat]

theorem ofLittle_little64 (v : UInt64) :
    UInt64.ofNat (Bytes.ofLittle (Bytes.little 8 v.toNat)) = v := by
  have hv : v.toNat % Bytes.span 8 = v.toNat := Nat.mod_eq_of_lt v.toNat_lt
  rw [Bytes.ofLittle_little, hv, UInt64.ofNat_toNat]

theorem unfold32_fold32 (v : Int32) : VarInt.unfold32 (VarInt.fold32 v) = v := by
  have hlow := v.le_toInt
  have hhigh := v.toInt_lt
  have hfold : VarInt.fold v.toInt < UInt32.size := by
    unfold VarInt.fold
    split <;> simp only [UInt32.size] <;> omega
  rw [VarInt.unfold32, VarInt.fold32, UInt32.toNat_ofNat', Nat.mod_eq_of_lt hfold,
    VarInt.unfold_fold, Int32.ofInt_toInt]

theorem unfold64_fold64 (v : Int64) : VarInt.unfold64 (VarInt.fold64 v) = v := by
  have hlow := v.le_toInt
  have hhigh := v.toInt_lt
  have hfold : VarInt.fold v.toInt < UInt64.size := by
    unfold VarInt.fold
    split <;> simp only [UInt64.size] <;> omega
  rw [VarInt.unfold64, VarInt.fold64, UInt64.toNat_ofNat', Nat.mod_eq_of_lt hfold,
    VarInt.unfold_fold, Int64.ofInt_toInt]

/-- A field that fits is read back, whatever follows it. -/
theorem read_write {α : Type} (field : Scalar α) (v : α) (rest : Bytes) (h : field.Fits v) :
    field.read (field.write v ++ rest) = .ok (v, rest) := by
  cases field with
  | byte =>
    rw [read, write, readFixed_append _ _ (show [v].length = 1 from rfl)]
    simp [Bytes.ofLittle]
  | flag =>
    rw [read, write, readFixed_append _ _ (show [if v then 1 else 0].length = 1 from rfl)]
    cases v <;> rfl
  | word16 =>
    rw [read, write, readFixed_append _ _ (Bytes.length_little 2 _), ofLittle_little16]
  | word32 =>
    rw [read, write, readFixed_append _ _ (Bytes.length_little 4 _), ofLittle_little32]
  | word64 =>
    rw [read, write, readFixed_append _ _ (Bytes.length_little 8 _), ofLittle_little64]
  | int32 =>
    rw [read, write, readFixed_append _ _ (Bytes.length_little 4 _), ofLittle_little32,
      Int32.toInt32_toUInt32]
  | int32BE =>
    have hlength : ((Bytes.little 4 v.toUInt32.toNat).reverse).length = 4 := by
      rw [List.length_reverse, Bytes.length_little]
    rw [read, write, readFixed_append _ _ hlength, List.reverse_reverse, ofLittle_little32,
      Int32.toInt32_toUInt32]
  | int64 =>
    rw [read, write, readFixed_append _ _ (Bytes.length_little 8 _), ofLittle_little64,
      Int64.toInt64_toUInt64]
  | float32 =>
    rw [read, write, readFixed_append _ _ (Bytes.length_little 4 _), ofLittle_little32]
  | varWord32 => exact readVar32_write32 id v rest
  | varInt32 => rw [read, write, readVar32_write32, unfold32_fold32]
  | varWord64 => exact readVar64_write64 id v rest
  | varInt64 => rw [read, write, readVar64_write64, unfold64_fold64]
  | uuid =>
    have hlength : (Bytes.little 8 v.high.toNat ++ Bytes.little 8 v.low.toNat).length = 16 := by
      rw [List.length_append, Bytes.length_little, Bytes.length_little]
    have hhigh : (Bytes.little 8 v.high.toNat ++ Bytes.little 8 v.low.toNat).take 8
        = Bytes.little 8 v.high.toNat := List.take_left' (Bytes.length_little 8 _)
    have hlow : (Bytes.little 8 v.high.toNat ++ Bytes.little 8 v.low.toNat).drop 8
        = Bytes.little 8 v.low.toNat := List.drop_left' (Bytes.length_little 8 _)
    rw [read, write, readFixed_append _ _ hlength, hhigh, hlow, ofLittle_little64,
      ofLittle_little64]
  | blob => exact readBlob_writeBlob v rest h
  | text =>
    rw [read, write, readText, readBlob_writeBlob _ _ h]
    simp only [Bytes.toText?_ofText]

theorem length_of_readBlob {bs front rest : Bytes} (h : readBlob bs = .ok (front, rest)) :
    front.length < UInt32.size := by
  simp only [readBlob] at h
  split at h
  · cases h
  · next n tail _ =>
    simp only [take] at h
    split at h
    · next parts hparts =>
      cases h
      rw [(Bytes.split?_eq_some_iff.mp hparts).1]
      exact n.toNat_lt
    · cases h

/-- A value that was read fits. -/
theorem fits_of_read {α : Type} {field : Scalar α} {bs rest : Bytes} {v : α}
    (h : field.read bs = .ok (v, rest)) : field.Fits v := by
  cases field with
  | blob => exact length_of_readBlob h
  | text =>
    simp only [read, readText] at h
    split at h
    · cases h
    · next front tail hblob =>
      split at h
      · next s hs =>
        cases h
        show (Bytes.ofText v).length < UInt32.size
        rw [Bytes.ofText_of_toText? hs]
        exact length_of_readBlob hblob
      · cases h
  | _ => trivial

theorem length_write32_pos (v : UInt32) : 0 < (VarInt.write32 v).length := by
  have h := VarInt.read32_shorter (VarInt.read32_write32 v [])
  simpa using h

theorem length_write64_pos (v : UInt64) : 0 < (VarInt.write64 v).length := by
  rw [VarInt.write64, VarInt.writeGroups]
  split <;> simp

/-- Every field takes a byte at least. -/
theorem length_write_pos {α : Type} (field : Scalar α) (v : α) : 0 < (field.write v).length := by
  cases field with
  | varWord32 | varInt32 => exact length_write32_pos _
  | varWord64 | varInt64 => exact length_write64_pos _
  | blob | text =>
    rw [write, writeBlob, List.length_append]
    exact Nat.add_pos_left (length_write32_pos _) _
  | _ => simp [write]

end Scalar

/-! ### Counts -/

namespace CountWidth

/-- The largest count that a width holds. -/
def most : CountWidth → Nat
  | two => 65535
  | four | varying => 4294967295

/-- The counts that a reader takes, under limits or without. -/
def Admits (limits : Bool) (width : CountWidth) (n : Nat) : Prop :=
  n ≤ width.most ∧ (limits = true → n ≤ countLimit)

theorem readRaw_write (width : CountWidth) (n : Nat) (rest : Bytes) (h : n ≤ width.most) :
    width.readRaw (width.write n ++ rest) = .ok (n, rest) := by
  cases width with
  | two =>
    have hn : n % Bytes.span 2 = n := Nat.mod_eq_of_lt (Nat.lt_succ_of_le h)
    rw [readRaw, write, Scalar.readFixed_append _ _ (Bytes.length_little 2 n),
      Bytes.ofLittle_little, hn]
  | four =>
    have hn : n % Bytes.span 4 = n := Nat.mod_eq_of_lt (Nat.lt_succ_of_le h)
    rw [readRaw, write, Scalar.readFixed_append _ _ (Bytes.length_little 4 n),
      Bytes.ofLittle_little, hn]
  | varying =>
    have hn : n % 2 ^ 32 = n := Nat.mod_eq_of_lt (Nat.lt_succ_of_le h)
    rw [readRaw, write, Scalar.readVar32_write32, UInt32.toNat_ofNat', hn]

theorem length_write_pos (width : CountWidth) (n : Nat) : 0 < (width.write n).length := by
  cases width with
  | two => exact Nat.two_pos
  | four => exact Nat.succ_pos 3
  | varying => exact Scalar.length_write32_pos _

/-- A count is read back if the elements are there. -/
theorem read_write {limits : Bool} {width : CountWidth} {n : Nat} {rest : Bytes}
    (h : width.Admits limits n) (hrest : n ≤ rest.length) :
    width.read limits (width.write n ++ rest) = .ok (n, rest) := by
  have hlimit : ¬ (limits = true ∧ countLimit < n) := fun ⟨hl, hn⟩ =>
    absurd (h.2 hl) (Nat.not_le.mpr hn)
  have htake : Scalar.take n rest = .ok (rest.take n, rest.drop n) := by
    have hsplit : Bytes.split? n rest = some (rest.take n, rest.drop n) :=
      Bytes.split?_eq_some_iff.mpr
        ⟨List.length_take_of_le hrest, (List.take_append_drop n rest).symm⟩
    rw [Scalar.take, hsplit]
  simp only [read, readRaw_write width n rest h.1, if_neg hlimit, htake]

theorem le_most_of_readRaw {width : CountWidth} {n : Nat} {bs rest : Bytes}
    (h : width.readRaw bs = .ok (n, rest)) : n ≤ width.most := by
  have fixed : ∀ {width : Nat}, Scalar.readFixed width Bytes.ofLittle bs = .ok (n, rest) →
      n < Bytes.span width := by
    intro width h
    simp only [Scalar.readFixed, Scalar.take] at h
    split at h
    · cases h
    · next front tail htake =>
      cases h
      split at htake
      · next parts hparts =>
        cases htake
        rw [← (Bytes.split?_eq_some_iff.mp hparts).1]
        exact Bytes.ofLittle_lt front
      · cases htake
  cases width with
  | two => exact Nat.le_of_lt_succ (fixed h)
  | four => exact Nat.le_of_lt_succ (fixed h)
  | varying =>
    simp only [readRaw, Scalar.readVar32] at h
    split at h
    · cases h
    · next v tail _ =>
      cases h
      exact Nat.le_of_lt_succ v.toNat_lt

/-- A count that was read is one that a reader takes. -/
theorem admits_of_read {limits : Bool} {width : CountWidth} {n : Nat} {bs rest : Bytes}
    (h : width.read limits bs = .ok (n, rest)) : width.Admits limits n := by
  simp only [read] at h
  split at h
  · cases h
  · next m tail hraw =>
    split at h
    · cases h
    · next hlimit =>
      split at h
      · cases h
      · cases h
        refine ⟨le_most_of_readRaw hraw, fun hl => ?_⟩
        exact Nat.not_lt.mp fun hn => hlimit ⟨hl, hn⟩

/-- A count that is read under limits is read without. -/
theorem read_unlimited {limits : Bool} {width : CountWidth} {bs : Bytes} {v : Nat × Bytes}
    (h : width.read limits bs = .ok v) : width.read false bs = .ok v := by
  simp only [read] at h ⊢
  split at h
  · cases h
  · next n rest hraw =>
    simp only [Bool.false_eq_true, false_and, if_false]
    split at h
    · cases h
    · exact h

end CountWidth

/-! ### Layouts -/

namespace Layout

/-- The values a layout can carry, under limits or without. -/
def Fits (limits : Bool) : {α : Type} → Layout α → α → Prop
  | _, scalar field, v => field.Fits v
  | _, always value, v => v = value
  | _, andThen first next, (a, b) => first.Fits limits a ∧ (next a).Fits limits b
  | _, optional _, none => True
  | _, optional value, some v => value.Fits limits v
  | _, list count item, vs => count.Admits limits vs.length ∧ ∀ v ∈ vs, item.Fits limits v
  | _, mapped parts _ take _ _, v => parts.Fits limits (take v)

/-- Does a layout take a byte at least, whatever the value? -/
def Solid : {α : Type} → Layout α → Prop
  | _, scalar _ | _, optional _ | _, list _ _ => True
  | _, always _ => False
  | _, andThen first _ => first.Solid
  | _, mapped parts _ _ _ _ => parts.Solid

/-- Does every element of a list take a byte at least? -/
def Counted : {α : Type} → Layout α → Prop
  | _, scalar _ | _, always _ => True
  | _, andThen first next => first.Counted ∧ ∀ a, (next a).Counted
  | _, optional value => value.Counted
  | _, list _ item => item.Solid ∧ item.Counted
  | _, mapped parts _ _ _ _ => parts.Counted

theorem length_write_pos {α : Type} (l : Layout α) (v : α) (h : l.Solid) :
    0 < (l.write v).length := by
  induction l with
  | scalar field => exact field.length_write_pos v
  | always value => exact h.elim
  | andThen first next ihFirst _ =>
    rw [write, List.length_append]
    exact Nat.add_pos_left (ihFirst v.1 h) _
  | optional value _ =>
    cases v with
    | none => exact Nat.one_pos
    | some v => simp [write, Scalar.write]
  | list count item _ =>
    rw [write, List.length_append]
    exact Nat.add_pos_left (count.length_write_pos _) _
  | mapped parts build take _ _ ih => exact ih (take v) h

theorem length_le_flatMap_write {α : Type} (item : Layout α) (vs : List α) (h : item.Solid) :
    vs.length ≤ (vs.flatMap fun v => item.write v).length := by
  induction vs with
  | nil => exact Nat.le_refl 0
  | cons v vs ih =>
    have hv := item.length_write_pos v h
    rw [List.flatMap_cons, List.length_append, List.length_cons]
    omega

/-- Elements are read back on top of those already read. -/
theorem readMany_write {α : Type} (item : Layout α) (limits : Bool) (vs done : List α)
    (rest : Bytes)
    (h : ∀ v ∈ vs, ∀ rest, item.read limits (item.write v ++ rest) = .ok (v, rest)) :
    readMany (fun bs => item.read limits bs) vs.length done
      ((vs.flatMap fun v => item.write v) ++ rest) = .ok (done.reverse ++ vs, rest) := by
  induction vs generalizing done with
  | nil =>
    rw [List.append_nil]
    rfl
  | cons v vs ih =>
    have hv := h v List.mem_cons_self ((vs.flatMap fun v => item.write v) ++ rest)
    rw [List.length_cons, List.flatMap_cons, List.append_assoc, readMany, hv]
    show readMany _ vs.length (v :: done) _ = _
    rw [ih (v :: done) fun w hw => h w (List.mem_cons_of_mem v hw), List.reverse_cons,
      List.append_assoc, List.singleton_append]

/-- **A value that fits is read back**, whatever follows it. -/
theorem read_write {α : Type} (l : Layout α) (limits : Bool) (v : α) (rest : Bytes)
    (hcounted : l.Counted) (h : l.Fits limits v) :
    l.read limits (l.write v ++ rest) = .ok (v, rest) := by
  induction l generalizing rest with
  | scalar field => exact field.read_write v rest h
  | always value =>
    have hv : v = value := h
    rw [hv]
    rfl
  | andThen first next ihFirst ihNext =>
    obtain ⟨a, b⟩ := v
    have ha := ihFirst a ((next a).write b ++ rest) hcounted.1 h.1
    have hb := ihNext a b rest (hcounted.2 a) h.2
    simp only [write, List.append_assoc, read, ha, hb]
  | optional value ih =>
    cases v with
    | none =>
      rw [write, read, Scalar.read_write .flag false rest trivial]
    | some v =>
      have hflag := Scalar.read_write .flag true (value.write v ++ rest) trivial
      have hv := ih v rest hcounted h
      simp only [write, List.append_assoc, read, hflag, hv]
  | list count item ih =>
    have hitems : v.length ≤ ((v.flatMap fun v => item.write v) ++ rest).length := by
      rw [List.length_append]
      exact Nat.le_add_right_of_le (length_le_flatMap_write item v hcounted.1)
    rw [write, List.append_assoc, read, CountWidth.read_write h.1 hitems]
    show readMany _ v.length [] _ = _
    rw [readMany_write item limits v [] rest fun w hw rest => ih w rest hcounted.2 (h.2 w hw)]
    rfl
  | mapped parts build take build_take take_build ih =>
    rw [write, read, ih (take v) rest hcounted h]
    show Except.ok (build (take v), rest) = _
    rw [build_take v]

theorem fits_of_readMany {α : Type} {limits : Bool} {item : Layout α}
    (hread : ∀ {bs rest v}, item.read limits bs = .ok (v, rest) → item.Fits limits v) :
    ∀ {n : Nat} {done vs : List α} {bs rest : Bytes},
      readMany (fun bs => item.read limits bs) n done bs = .ok (vs, rest) →
      (∀ v ∈ done, item.Fits limits v) →
      vs.length = done.length + n ∧ ∀ v ∈ vs, item.Fits limits v := by
  intro n
  induction n with
  | zero =>
    intro done vs bs rest h hdone
    cases h
    exact ⟨List.length_reverse, fun v hv => hdone v (List.mem_reverse.mp hv)⟩
  | succ n ih =>
    intro done vs bs rest h hdone
    simp only [readMany] at h
    split at h
    · cases h
    · next v tail hv =>
      have hmore : ∀ w ∈ v :: done, item.Fits limits w := by
        intro w hw
        cases hw with
        | head => exact hread hv
        | tail _ hw => exact hdone w hw
      obtain ⟨hlength, hall⟩ := ih h hmore
      refine ⟨?_, hall⟩
      rw [hlength, List.length_cons]
      omega

/-- **A value that was read fits.** -/
theorem fits_of_read {α : Type} {l : Layout α} {limits : Bool} {v : α} {bs rest : Bytes}
    (h : l.read limits bs = .ok (v, rest)) : l.Fits limits v := by
  induction l generalizing bs rest with
  | scalar field => exact Scalar.fits_of_read h
  | always value =>
    cases h
    rfl
  | andThen first next ihFirst ihNext =>
    simp only [read] at h
    split at h
    · cases h
    · next a tail ha =>
      split at h
      · cases h
      · next b tail hb =>
        cases h
        exact ⟨ihFirst ha, ihNext a hb⟩
  | optional value ih =>
    simp only [read] at h
    split at h
    · cases h
    · cases h
      trivial
    · split at h
      · cases h
      · next w tail hw =>
        cases h
        exact ih hw
  | list count item ih =>
    simp only [read] at h
    split at h
    · cases h
    · next n tail hn =>
      obtain ⟨hlength, hall⟩ := fits_of_readMany (fun hv => ih hv) h fun v hv => nomatch hv
      refine ⟨?_, hall⟩
      rw [hlength, List.length_nil, Nat.zero_add]
      exact CountWidth.admits_of_read hn
  | mapped parts build take build_take take_build ih =>
    simp only [read] at h
    split at h
    · cases h
    · next a tail ha =>
      cases h
      show parts.Fits limits (take (build a))
      rw [take_build a]
      exact ih ha

/-- Elements that are read under limits are read without. -/
theorem readMany_unlimited {α : Type} {limits : Bool} {item : Layout α}
    (hread : ∀ {bs : Bytes} {v : α × Bytes},
      item.read limits bs = .ok v → item.read false bs = .ok v)
    {n : Nat} {done : List α} {bs : Bytes} {v : List α × Bytes}
    (h : readMany (fun bs => item.read limits bs) n done bs = .ok v) :
    readMany (fun bs => item.read false bs) n done bs = .ok v := by
  induction n generalizing done bs with
  | zero => exact h
  | succ n ih =>
    simp only [readMany] at h ⊢
    split at h
    · cases h
    · next a tail ha =>
      rw [hread ha]
      exact ih h

/-- **What is read under limits is read without.** -/
theorem read_unlimited {α : Type} {l : Layout α} {limits : Bool} {bs : Bytes} {v : α × Bytes}
    (h : l.read limits bs = .ok v) : l.read false bs = .ok v := by
  induction l generalizing bs with
  | scalar field => exact h
  | always value => exact h
  | andThen first next ihFirst ihNext =>
    simp only [read] at h ⊢
    split at h
    · cases h
    · next a tail ha =>
      split at h
      · cases h
      · next b rest hb =>
        cases h
        simp only [ihFirst ha, ihNext a hb]
  | optional value ih =>
    simp only [read] at h ⊢
    split at h
    · cases h
    · exact h
    · split at h
      · cases h
      · next w rest hw =>
        cases h
        simp only [ih hw]
  | list count item ih =>
    simp only [read] at h ⊢
    split at h
    · cases h
    · next n tail hn =>
      simp only [CountWidth.read_unlimited hn]
      exact readMany_unlimited (fun hv => ih hv) h
  | mapped parts build take build_take take_build ih =>
    simp only [read] at h ⊢
    split at h
    · cases h
    · next a tail ha =>
      cases h
      simp only [ih ha]

end Layout

end PackExchange
