import PackExchange.Wire.Layout

/-!
# Readers as sequences of readers

A composite layout is read by one reader after another.  The equations of this file say so with `bind`,
which is the form in which properties of readers are put together.

* `CountWidth.check` — what is done to a count once it is there, and `CountWidth.read_eq_bind`;
* `Layout.readMany_succ`, `Layout.read_andThen`, `Layout.read_optional`, `Layout.read_list`,
  `Layout.read_mapped` — one equation for each composite layout.
-/

namespace PackExchange

namespace CountWidth

/-- Checks a count against the limit and against the bytes left. -/
def check (limits : Bool) (n : Nat) (rest : Bytes) : Except WireError (Nat × Bytes) :=
  if limits ∧ countLimit < n then .error (.limitHit n countLimit)
  else
    match Scalar.take n rest with
    | .error e => .error e
    | .ok _ => .ok (n, rest)

theorem read_eq_bind (limits : Bool) (width : CountWidth) (bs : Bytes) :
    width.read limits bs = (width.readRaw bs).bind fun r => check limits r.1 r.2 := by
  rw [read]
  cases width.readRaw bs <;> rfl

end CountWidth

namespace Layout

variable {α β : Type} (limits : Bool) (bs : Bytes)

theorem readMany_succ (read : Bytes → Except WireError (α × Bytes)) (n : Nat) (done : List α) :
    readMany read (n + 1) done bs = (read bs).bind fun r => readMany read n (r.1 :: done) r.2 := by
  rw [readMany]
  cases read bs <;> rfl

theorem read_andThen (first : Layout α) (next : α → Layout β) :
    (andThen first next).read limits bs =
      (first.read limits bs).bind fun r => ((next r.1).read limits r.2).bind fun s =>
        .ok ((r.1, s.1), s.2) := by
  rw [read]
  cases first.read limits bs with
  | error e => rfl
  | ok r =>
    simp only [Except.bind]
    cases (next r.1).read limits r.2 <;> rfl

theorem read_optional (value : Layout α) :
    (optional value).read limits bs =
      (Scalar.read .flag bs).bind fun r =>
        if r.1 then (value.read limits r.2).bind fun s => .ok (some s.1, s.2)
        else .ok (none, r.2) := by
  rw [read]
  cases Scalar.read .flag bs with
  | error e => rfl
  | ok r =>
    obtain ⟨present, rest⟩ := r
    cases present with
    | false => rfl
    | true =>
      simp only [Except.bind, if_true]
      cases value.read limits rest <;> rfl

theorem read_list (count : CountWidth) (item : Layout α) :
    (list count item).read limits bs =
      (count.read limits bs).bind fun r => readMany (fun bs => item.read limits bs) r.1 [] r.2 := by
  rw [read]
  cases count.read limits bs <;> rfl

theorem read_mapped (parts : Layout α) (build : α → β) (take : β → α)
    (build_take : ∀ b, build (take b) = b) (take_build : ∀ a, take (build a) = a) :
    (mapped parts build take build_take take_build).read limits bs =
      (parts.read limits bs).bind fun r => .ok (build r.1, r.2) := by
  rw [read]
  cases parts.read limits bs <;> rfl

end Layout

end PackExchange
