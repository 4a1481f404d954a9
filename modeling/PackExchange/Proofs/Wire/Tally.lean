import Mathlib.Algebra.GroupWithZero.Nat
import PackExchange.Proofs.Wire.Sequence
import PackExchange.Proofs.Wire.Shortest

/-!
# The counts that a reader meets

A reader that goes through some bytes meets the counts of lists, one after another.  Limits do nothing
but refuse the first count that is too large, and any reader refuses a count that the bytes left cannot
hold.

* `Layout.tallies` — the counts that a reader without limits meets, each with the bytes left behind it;
* `Tally.Tallied` — how reading under limits and without belong together, given these counts, and
  `Layout.tallied`: this holds of every layout;
* `Layout.lengths` — how long the lists of a value are, and `Layout.counts_tallies`: these are the
  counts that were met when it was read;
* `Layout.lengths_le_length` — no more elements than bytes.
-/

namespace PackExchange

/-- A count as a reader meets it: how many elements it announces, and how many bytes are left behind
it. -/
structure Tally where
  count : Nat
  left : Nat
  deriving DecidableEq, Repr

namespace Tally

variable {α β : Type}

/-- Does a count go beyond what limits admit? -/
def exceeds (t : Tally) : Bool := CountWidth.countLimit < t.count

/-- The outcome of reading once the limit is enforced on the counts that were met: the first that goes
beyond it is refused. -/
def enforce (ts : List Tally) (outcome : Except WireError α) : Except WireError α :=
  match ts.find? exceeds with
  | some t => .error (.limitHit t.count CountWidth.countLimit)
  | none => outcome

/-- The counts that are met after something was read. -/
def after (outcome : Except WireError α) (tallies : α → List Tally) : List Tally :=
  match outcome with
  | .error _ => []
  | .ok a => tallies a

theorem after_nil (outcome : Except WireError α) : after outcome (fun _ => []) = [] := by
  cases outcome <;> rfl

/-- How the outcomes of reading under limits and without belong together, given the counts that were
met. -/
structure Tallied (ts : List Tally) (limited free : Except WireError α) : Prop where
  limited : limited = enforce ts free
  /-- A count that is larger than the bytes left is refused for that, before anything behind it is
  read. -/
  overrun : ∀ t ∈ ts, t.left < t.count → free = .error (.notEnoughData t.count t.left)

namespace Tallied

variable {ts : List Tally} {limited free : Except WireError α}

/-- Where no count is met, limits change nothing. -/
theorem same (outcome : Except WireError α) : Tallied [] outcome outcome := ⟨rfl, nofun⟩

/-- One reader after another. -/
theorem bind (h : Tallied ts limited free) {us : α → List Tally}
    {limited' free' : α → Except WireError β} (h' : ∀ a, Tallied (us a) (limited' a) (free' a)) :
    Tallied (ts ++ after free us) (limited.bind limited') (free.bind free') where
  limited := by
    rw [h.limited, enforce, enforce, List.find?_append]
    cases ts.find? exceeds with
    | some t => rfl
    | none =>
      cases free with
      | error e => rfl
      | ok a => exact (h' a).limited
  overrun := by
    intro t ht hmore
    rcases List.mem_append.mp ht with ht | ht
    · rw [h.overrun t ht hmore]
      rfl
    · cases free with
      | error e => cases ht
      | ok a => exact (h' a).overrun t ht hmore

/-- What is made of the value meets no counts. -/
theorem map (h : Tallied ts limited free) (make : α → Except WireError β) :
    Tallied ts (limited.bind make) (free.bind make) := by
  have hbind := h.bind fun a => same (make a)
  rwa [after_nil, List.append_nil] at hbind

end Tallied

end Tally

/-! ### Counts -/

namespace CountWidth

theorem check_false (n : Nat) (rest : Bytes) :
    check false n rest =
      if n ≤ rest.length then .ok (n, rest) else .error (.notEnoughData n rest.length) := by
  by_cases hroom : n ≤ rest.length
  · have hsplit : Bytes.split? n rest = some (rest.take n, rest.drop n) :=
      Bytes.split?_eq_some_iff.mpr
        ⟨List.length_take_of_le hroom, (List.take_append_drop n rest).symm⟩
    simp [check, Scalar.take, hsplit, hroom]
  · have hsplit : Bytes.split? n rest = none := Bytes.split?_eq_none_iff.mpr (by omega)
    simp [check, Scalar.take, hsplit, hroom]

/-- **The limit comes first**, and then the bytes left. -/
theorem tallied_check (n : Nat) (rest : Bytes) :
    Tally.Tallied [⟨n, rest.length⟩] (check true n rest) (check false n rest) where
  limited := by
    by_cases hlimit : countLimit < n <;>
      simp [Tally.enforce, Tally.exceeds, check, hlimit]
  overrun := by
    intro t ht hmore
    rw [List.mem_singleton] at ht
    subst ht
    rw [check_false, if_neg (Nat.not_le.mpr hmore)]

end CountWidth

/-! ### Layouts -/

namespace Layout

open Tally (after Tallied)

/-- The counts that a reader meets while it reads so many elements. -/
def talliesMany {α : Type} (tallies : Bytes → List Tally)
    (read : Bytes → Except WireError (α × Bytes)) : Nat → Bytes → List Tally
  | 0, _ => []
  | n + 1, bs => tallies bs ++ after (read bs) fun r => talliesMany tallies read n r.2

/-- The counts that a reader without limits meets, in order.  Behind a count that the bytes left cannot
hold there are no more. -/
def tallies : {α : Type} → Layout α → Bytes → List Tally
  | _, scalar _, _ | _, always _, _ => []
  | _, andThen first next, bs =>
    first.tallies bs ++ after (first.read false bs) fun r => (next r.1).tallies r.2
  | _, optional value, bs =>
    after (Scalar.read .flag bs) fun r => if r.1 then value.tallies r.2 else []
  | _, list count item, bs =>
    after (count.readRaw bs) fun r =>
      ⟨r.1, r.2.length⟩ ::
        if r.1 ≤ r.2.length then
          talliesMany (fun bs => item.tallies bs) (fun bs => item.read false bs) r.1 r.2
        else []
  | _, mapped parts _ _ _ _, bs => parts.tallies bs

theorem tallied_many {α : Type} {item : Layout α}
    (h : ∀ bs, Tallied (item.tallies bs) (item.read true bs) (item.read false bs)) (n : Nat)
    (done : List α) (bs : Bytes) :
    Tallied (talliesMany (fun bs => item.tallies bs) (fun bs => item.read false bs) n bs)
      (readMany (fun bs => item.read true bs) n done bs)
      (readMany (fun bs => item.read false bs) n done bs) := by
  induction n generalizing done bs with
  | zero => exact .same _
  | succ n ih =>
    rw [readMany_succ, readMany_succ]
    exact (h bs).bind fun r => ih (r.1 :: done) r.2

/-- **Limits do nothing but refuse counts.**  Reading under limits gives what reading without gives,
unless the latter meets a count beyond the limit: then the first such count is refused.  And a count
that the bytes left cannot hold is refused for that. -/
theorem tallied {α : Type} (l : Layout α) (bs : Bytes) :
    Tallied (l.tallies bs) (l.read true bs) (l.read false bs) := by
  induction l generalizing bs with
  | scalar field => exact .same _
  | always value => exact .same _
  | andThen first next ihFirst ihNext =>
    rw [read_andThen, read_andThen]
    exact (ihFirst bs).bind fun r => (ihNext r.1 r.2).map _
  | optional value ih =>
    rw [read_optional, read_optional]
    refine (Tallied.same (Scalar.read .flag bs)).bind fun r => ?_
    cases r.1 with
    | false => exact .same _
    | true => exact (ih r.2).map _
  | list count item ih =>
    have hread : ∀ limits, (list count item).read limits bs =
        (count.readRaw bs).bind fun r => (CountWidth.check limits r.1 r.2).bind fun s =>
          readMany (fun bs => item.read limits bs) s.1 [] s.2 := by
      intro limits
      rw [read_list, CountWidth.read_eq_bind]
      cases count.readRaw bs <;> rfl
    rw [hread, hread]
    refine (Tallied.same (count.readRaw bs)).bind fun r => ?_
    have hitems := (CountWidth.tallied_check r.1 r.2).bind fun s => tallied_many ih s.1 [] s.2
    rw [CountWidth.check_false] at hitems ⊢
    by_cases hroom : r.1 ≤ r.2.length
    · simp only [if_pos hroom] at hitems ⊢
      exact hitems
    · simp only [if_neg hroom] at hitems ⊢
      exact hitems
  | mapped parts build take build_take take_build ih =>
    rw [read_mapped, read_mapped]
    exact (ih bs).map _

/-! ### The lists of a value -/

/-- How long the lists of a value are, in the order of the bytes: a list comes before those inside its
elements. -/
def lengths : {α : Type} → Layout α → α → List Nat
  | _, scalar _, _ | _, always _, _ => []
  | _, andThen first next, (a, b) => first.lengths a ++ (next a).lengths b
  | _, optional _, none => []
  | _, optional value, some v => value.lengths v
  | _, list _ item, vs => vs.length :: vs.flatMap item.lengths
  | _, mapped parts _ take _ _, v => parts.lengths (take v)

theorem counts_talliesMany {α : Type} {item : Layout α}
    (h : ∀ {bs rest v}, item.read false bs = .ok (v, rest) →
      (item.tallies bs).map Tally.count = item.lengths v) {n : Nat} {done vs : List α}
    {bs rest : Bytes} (hread : readMany (fun bs => item.read false bs) n done bs = .ok (vs, rest)) :
    ∃ new, vs = done.reverse ++ new ∧ new.length = n ∧
      (talliesMany (fun bs => item.tallies bs) (fun bs => item.read false bs) n bs).map Tally.count =
        new.flatMap item.lengths := by
  induction n generalizing done bs with
  | zero =>
    cases hread
    exact ⟨[], by simp, rfl, rfl⟩
  | succ n ih =>
    simp only [readMany] at hread
    split at hread
    · cases hread
    · next v tail hv =>
      obtain ⟨new, rfl, hlength, hnew⟩ := ih hread
      refine ⟨v :: new, by simp, by simp [hlength], ?_⟩
      simp [talliesMany, hv, after, h hv, hnew]

/-- **The counts are the lengths of the lists** of the value that was read. -/
theorem counts_tallies {α : Type} {l : Layout α} {bs rest : Bytes} {v : α}
    (h : l.read false bs = .ok (v, rest)) : (l.tallies bs).map Tally.count = l.lengths v := by
  induction l generalizing bs rest with
  | scalar field => rfl
  | always value => rfl
  | andThen first next ihFirst ihNext =>
    simp only [read] at h
    split at h
    · cases h
    · next a tail ha =>
      split at h
      · cases h
      · next b tail' hb =>
        cases h
        simp [tallies, lengths, ha, after, ihFirst ha, ihNext a hb]
  | optional value ih =>
    simp only [read] at h
    split at h
    · cases h
    · next tail hflag =>
      cases h
      simp [tallies, lengths, hflag, after]
    · next tail hflag =>
      split at h
      · cases h
      · next w tail' hw =>
        cases h
        simp [tallies, lengths, hflag, after, ih hw]
  | list count item ih =>
    simp only [read] at h
    split at h
    · cases h
    · next n tail hn =>
      obtain ⟨new, rfl, rfl, hnew⟩ := counts_talliesMany (fun hv => ih hv) h
      obtain ⟨hraw, hroom⟩ := CountWidth.readRaw_of_read hn
      simp [tallies, lengths, hraw, after, hroom, hnew]
  | mapped parts build take build_take take_build ih =>
    simp only [read] at h
    split at h
    · cases h
    · next a tail ha =>
      cases h
      rw [tallies, lengths, take_build a]
      exact ih ha

theorem lengths_list_le {α : Type} {item : Layout α}
    (h : ∀ v, (item.lengths v).sum < (item.write v).length) (vs : List α) :
    vs.length + (vs.flatMap item.lengths).sum ≤ (vs.flatMap fun v => item.write v).length := by
  induction vs with
  | nil => simp
  | cons v vs ih =>
    have hv := h v
    simp only [List.length_cons, List.flatMap_cons, List.sum_append, List.length_append]
    omega

/-- **Every element takes a byte**, and a layout that always takes a byte takes one more. -/
theorem lengths_le_write {α : Type} (l : Layout α) (hcounted : l.Counted) (v : α) :
    (l.lengths v).sum ≤ (l.write v).length ∧
      (l.Solid → (l.lengths v).sum < (l.write v).length) := by
  induction l with
  | scalar field => exact ⟨Nat.zero_le _, fun _ => field.length_write_pos v⟩
  | always value => exact ⟨Nat.zero_le _, fun hsolid => hsolid.elim⟩
  | andThen first next ihFirst ihNext =>
    obtain ⟨a, b⟩ := v
    obtain ⟨hfirst, hfirst'⟩ := ihFirst hcounted.1 a
    obtain ⟨hnext, -⟩ := ihNext a (hcounted.2 a) b
    simp only [lengths, write, List.sum_append, List.length_append]
    refine ⟨by omega, fun hsolid => ?_⟩
    have hmore := hfirst' hsolid
    omega
  | optional value ih =>
    cases v with
    | none => simp [lengths, write, Scalar.write]
    | some v =>
      obtain ⟨hvalue, -⟩ := ih hcounted v
      simp only [lengths, write, Scalar.write, List.length_append, List.length_singleton]
      exact ⟨by omega, fun _ => by omega⟩
  | list count item ih =>
    have hitems := lengths_list_le (fun v => (ih hcounted.2 v).2 hcounted.1) v
    have hcount := count.length_write_pos v.length
    simp only [lengths, write, List.sum_cons, List.length_append]
    exact ⟨by omega, fun _ => by omega⟩
  | mapped parts build take _ _ ih => exact ih hcounted (take v)

/-- **A value has no more elements than it has bytes**, in the form in which it was read. -/
theorem lengths_le_length {α : Type} {l : Layout α} (hcounted : l.Counted) {limits : Bool}
    {bs rest : Bytes} {v : α} (h : l.read limits bs = .ok (v, rest)) :
    (l.lengths v).sum ≤ bs.length := by
  have hwritten := length_write_le h
  have hlengths := (l.lengths_le_write hcounted v).1
  omega

end Layout

end PackExchange
