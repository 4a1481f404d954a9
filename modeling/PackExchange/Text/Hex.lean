/-!
# Hexadecimal digits

* `Hex.digit` — the lower-case digit of a number below sixteen;
* `Hex.value?` — the number of a digit, in either letter case;
* `Hex.digits` and `Hex.number?` — a number in a fixed count of digits, most significant
  first, and the number that digits denote.
-/

namespace PackExchange.Hex

/-- The lower-case digit of a number below sixteen. -/
def digit (n : Nat) : Char :=
  if n < 10 then Char.ofNat (48 + n) else Char.ofNat (87 + n)

/-- The number of a digit, in either letter case. -/
def value? (c : Char) : Option Nat :=
  let n := c.toNat
  if 48 ≤ n ∧ n ≤ 57 then some (n - 48)
  else if 97 ≤ n ∧ n ≤ 102 then some (n - 87)
  else if 65 ≤ n ∧ n ≤ 70 then some (n - 55)
  else none

/-- The lowest `width` digits of a number, most significant first. -/
def digits : Nat → Nat → List Char
  | 0, _ => []
  | width + 1, n => digits width (n / 16) ++ [digit (n % 16)]

/-- The number that digits denote, if all of them are digits. -/
def number? (cs : List Char) : Option Nat :=
  cs.foldl (fun sum c => do
    let n ← sum
    let d ← value? c
    pure (16 * n + d)) (some 0)

/-- A number without leading zeros; zero is the one digit `0`. -/
def numeral (n : Nat) : List Char :=
  match (digits 16 n).dropWhile (· = '0') with
  | [] => ['0']
  | cs => cs

@[simp] theorem length_digits (width n : Nat) : (digits width n).length = width := by
  induction width generalizing n with
  | zero => rfl
  | succ width ih => simp [digits, ih]

theorem value?_digit {n : Nat} (h : n < 16) : value? (digit n) = some n := by
  have all : ∀ k : Fin 16, value? (digit k) = some k.val := by decide
  exact all ⟨n, h⟩

theorem number?_append_digit (cs : List Char) (c : Char) :
    number? (cs ++ [c]) = (number? cs).bind fun n => (value? c).map fun d => 16 * n + d := by
  simp only [number?, List.foldl_append, List.foldl_cons, List.foldl_nil]
  cases List.foldl _ (some 0) cs with
  | none => rfl
  | some n => cases value? c <;> rfl

/-- How many numbers fit into so many digits. -/
def span : Nat → Nat
  | 0 => 1
  | width + 1 => 16 * span width

theorem number?_digits (width n : Nat) : number? (digits width n) = some (n % span width) := by
  induction width generalizing n with
  | zero => simp [digits, number?, span, Nat.mod_one]
  | succ width ih =>
    have hd : n % 16 < 16 := Nat.mod_lt _ (by decide)
    simp only [digits, number?_append_digit, ih, value?_digit hd, Option.bind_some, Option.map_some]
    rw [span, Nat.mod_mul, Nat.add_comm]

end PackExchange.Hex
