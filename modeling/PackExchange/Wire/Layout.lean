import PackExchange.Wire.Scalar

/-!
# Layouts

A `Layout α` describes how a value of type `α` is laid out in bytes: which fields follow each
other, which are counted lists, and which depend on the value of an earlier one.  A layout is
data, so the writer and the reader are two functions of the same description and cannot
disagree about it.

* `Layout.write` — the bytes of a value;
* `Layout.read` — the value at the front of the bytes, and the bytes after it;
* `CountWidth` — how the count of a list is written, and `CountWidth.read`, which checks it.

A reader checks a count before it reads any element: first against `countLimit`, if limits are
on, and then against the bytes left, since every element takes at least one.
-/

namespace PackExchange

/-! ### Counts -/

/-- How the count of a list is written. -/
inductive CountWidth where
  | two
  | four
  | varying
  deriving DecidableEq, Repr

namespace CountWidth

/-- The most elements a list may have when limits are on. -/
def countLimit : Nat := 1024

/-- The bytes of a count; what does not fit the width is dropped. -/
def write : CountWidth → Nat → Bytes
  | two, n => Bytes.little 2 n
  | four, n => Bytes.little 4 n
  | varying, n => VarInt.write32 (UInt32.ofNat n)

/-- The count at the front of the bytes, before any check. -/
def readRaw : CountWidth → Bytes → Except WireError (Nat × Bytes)
  | two => Scalar.readFixed 2 Bytes.ofLittle
  | four => Scalar.readFixed 4 Bytes.ofLittle
  | varying => Scalar.readVar32 UInt32.toNat

/-- Reads a count that the limit admits and that the bytes left can hold. -/
def read (limits : Bool) (width : CountWidth) (bs : Bytes) : Except WireError (Nat × Bytes) :=
  match width.readRaw bs with
  | .error e => .error e
  | .ok (n, rest) =>
    if limits ∧ countLimit < n then .error (.limitHit n countLimit)
    else
      match Scalar.take n rest with
      | .error e => .error e
      | .ok _ => .ok (n, rest)

end CountWidth

/-! ### Layouts and their two readings -/

/-- How a value is laid out in bytes. -/
inductive Layout : Type → Type 1 where
  /-- One field. -/
  | scalar {α : Type} (field : Scalar α) : Layout α
  /-- No bytes at all: the value is known. -/
  | always {α : Type} (value : α) : Layout α
  /-- A part, and after it one whose layout may depend on the first value. -/
  | andThen {α β : Type} (first : Layout α) (next : α → Layout β) : Layout (α × β)
  /-- A flag, and after it the value if the flag is set. -/
  | optional {α : Type} (value : Layout α) : Layout (Option α)
  /-- A count, and after it that many elements. -/
  | list {α : Type} (count : CountWidth) (item : Layout α) : Layout (List α)
  /-- The same bytes, seen as a value of another type. -/
  | mapped {α β : Type} (parts : Layout α) (build : α → β) (take : β → α)
      (build_take : ∀ b, build (take b) = b) (take_build : ∀ a, take (build a) = a) : Layout β

namespace Layout

/-- Two parts, one after the other. -/
abbrev pair {α β : Type} (first : Layout α) (second : Layout β) : Layout (α × β) :=
  .andThen first fun _ => second

/-- The bytes of a value. -/
def write : {α : Type} → Layout α → α → Bytes
  | _, scalar field, v => field.write v
  | _, always _, _ => []
  | _, andThen first next, (a, b) => first.write a ++ (next a).write b
  | _, optional _, none => Scalar.write .flag false
  | _, optional value, some v => Scalar.write .flag true ++ value.write v
  | _, list count item, vs => count.write vs.length ++ vs.flatMap fun v => item.write v
  | _, mapped parts _ take _ _, v => parts.write (take v)

/-- Reads `n` values one after another, on top of those already read. -/
def readMany {α : Type} (read : Bytes → Except WireError (α × Bytes)) :
    Nat → List α → Bytes → Except WireError (List α × Bytes)
  | 0, done, bs => .ok (done.reverse, bs)
  | n + 1, done, bs =>
    match read bs with
    | .error e => .error e
    | .ok (v, rest) => readMany read n (v :: done) rest

/-- The value at the front of the bytes, and the bytes after it. -/
def read (limits : Bool) : {α : Type} → Layout α → Bytes → Except WireError (α × Bytes)
  | _, scalar field, bs => field.read bs
  | _, always v, bs => .ok (v, bs)
  | _, andThen first next, bs =>
    match first.read limits bs with
    | .error e => .error e
    | .ok (a, rest) =>
      match (next a).read limits rest with
      | .error e => .error e
      | .ok (b, rest) => .ok ((a, b), rest)
  | _, optional value, bs =>
    match Scalar.read .flag bs with
    | .error e => .error e
    | .ok (false, rest) => .ok (none, rest)
    | .ok (true, rest) =>
      match value.read limits rest with
      | .error e => .error e
      | .ok (v, rest) => .ok (some v, rest)
  | _, list count item, bs =>
    match count.read limits bs with
    | .error e => .error e
    | .ok (n, rest) => readMany (fun bs => item.read limits bs) n [] rest
  | _, mapped parts build _ _ _, bs =>
    match parts.read limits bs with
    | .error e => .error e
    | .ok (a, rest) => .ok (build a, rest)

end Layout

end PackExchange
