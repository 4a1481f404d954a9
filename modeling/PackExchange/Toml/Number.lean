import PackExchange.Toml.Text
import PackExchange.Toml.Value

/-!
# Numbers and points in time in a settings file

* `Toml.moment?` — a date, a time of day, or both, perhaps with an offset;
* `Toml.number?` — an integer in base 2, 8, 10 or 16, or a number with a fraction or an exponent.

Digits may be grouped by single underscores.  Integers have 64 bits, and a number with a fraction
must not be so large that a 64-bit floating-point number of it would be infinite.
-/

namespace PackExchange.Toml

/-! ### Digits -/

/-- The value of decimal digits. -/
def decimal (digits : List Char) : Nat := digits.foldl (fun n c => 10 * n + (c.toNat - 48)) 0

/-- The rest of some digits, in which an underscore stands only between two of them. -/
def moreDigits? (isDigit : Char → Bool) : List Char → List Char → Option (List Char × List Char)
  | '_' :: d :: cs, read =>
    if isDigit d then moreDigits? isDigit cs (d :: read) else none
  | '_' :: [], _ => none
  | c :: cs, read =>
    if isDigit c then moreDigits? isDigit cs (c :: read) else some (read.reverse, c :: cs)
  | [], read => some (read.reverse, [])

/-- One digit at least; underscores are left out. -/
def digits? (isDigit : Char → Bool) : List Char → Option (List Char × List Char)
  | d :: cs => if isDigit d then moreDigits? isDigit cs [d] else none
  | [] => none

/-- Exactly so many decimal digits, as a number between two bounds. -/
def field? (width least most : Nat) (cs : List Char) : Option (Nat × List Char) :=
  let digits := cs.take width
  if digits.length = width && digits.all Char.isDigit then
    let n := decimal digits
    if least ≤ n && n ≤ most then some (n, cs.drop width) else none
  else none

/-! ### Points in time -/

/-- The rest after a character. -/
def after? (c : Char) : List Char → Option (List Char)
  | d :: cs => if d == c then some cs else none
  | [] => none

/-- How many days a month has. -/
def daysIn (year month : Nat) : Nat :=
  if month = 2 then
    if year % 4 = 0 && (year % 100 ≠ 0 || year % 400 = 0) then 29 else 28
  else if month = 4 || month = 6 || month = 9 || month = 11 then 30
  else 31

/-- The rest after a date. -/
def date? (cs : List Char) : Option (List Char) := do
  let (year, cs) ← field? 4 0 9999 cs
  let cs ← after? '-' cs
  let (month, cs) ← field? 2 1 12 cs
  let cs ← after? '-' cs
  let (_, cs) ← field? 2 1 (daysIn year month) cs
  return cs

/-- The rest after a fraction of a second, if there is one. -/
def skipFraction (cs : List Char) : List Char :=
  match cs with
  | '.' :: d :: rest => if d.isDigit then rest.dropWhile Char.isDigit else cs
  | _ => cs

/-- The rest after a time of day. -/
def clock? (cs : List Char) : Option (List Char) := do
  let (_, cs) ← field? 2 0 23 cs
  let cs ← after? ':' cs
  let (_, cs) ← field? 2 0 59 cs
  let cs ← after? ':' cs
  let (_, cs) ← field? 2 0 60 cs
  return skipFraction cs

/-- The rest after an offset from universal time. -/
def offset? : List Char → Option (List Char)
  | 'Z' :: cs | 'z' :: cs => some cs
  | '+' :: cs | '-' :: cs => do
    let (_, cs) ← field? 2 0 23 cs
    let cs ← after? ':' cs
    let (_, cs) ← field? 2 0 59 cs
    return cs
  | _ => none

/-- The rest after the time of day that may follow a date. -/
def skipClock (cs : List Char) : List Char :=
  match cs with
  | 'T' :: rest | 't' :: rest | ' ' :: rest =>
    match clock? rest with
    | some rest => (offset? rest).getD rest
    | none => cs
  | _ => cs

/-- The rest after a point in time. -/
def skipMoment? (cs : List Char) : Option (List Char) :=
  match date? cs with
  | some rest => some (skipClock rest)
  | none => clock? cs

/-- The characters of which only a rest is left. -/
def consumed (cs rest : List Char) : String := String.ofList (cs.take (cs.length - rest.length))

/-- A point in time. -/
def moment? (cs : List Char) : Option (Toml × List Char) :=
  (skipMoment? cs).map fun rest => (.moment (consumed cs rest), rest)

/-! ### Numbers -/

/-- An integer, if it has 64 bits. -/
def integer? (n : Int) (rest : List Char) : Option (Toml × List Char) :=
  if Int64.minValue.toInt ≤ n ∧ n ≤ Int64.maxValue.toInt then some (.integer n, rest) else none

/-- An integer in another base than ten. -/
def based? (base : Nat) (isDigit : Char → Bool) (cs : List Char) : Option (Toml × List Char) := do
  let (digits, rest) ← digits? isDigit cs
  let n := digits.foldl (fun n c => base * n + (Hex.value? c).getD 0) 0
  integer? n rest

/-- Does a number of this many tens round to infinity?  The largest finite number is followed by
`2 ^ 1024` at a distance of `2 ^ 970`, and half of that is rounded up. -/
def overflows (mantissa : Nat) (exponent : Int) : Bool :=
  let digits : Int := (Nat.toDigits 10 mantissa).length
  let bound : Nat := (1 <<< 1024) - (1 <<< 970)
  if mantissa = 0 || digits + exponent < 300 then false
  else if 320 < digits + exponent then true
  else if 0 ≤ exponent then bound ≤ mantissa * Nat.pow 10 exponent.toNat
  else bound * Nat.pow 10 (-exponent).toNat ≤ mantissa

/-- The fraction of a number, if there is one: its digits. -/
def fraction? : List Char → Option (List Char × List Char)
  | '.' :: cs => digits? Char.isDigit cs
  | cs => some ([], cs)

/-- The exponent of a number, if there is one. -/
def exponent? (cs : List Char) : Option (Option Int × List Char) :=
  let read (negative : Bool) (cs : List Char) : Option (Option Int × List Char) := do
    let (digits, rest) ← digits? Char.isDigit cs
    let n : Int := decimal digits
    return (some (if negative then -n else n), rest)
  match cs with
  | e :: rest =>
    if e == 'e' || e == 'E' then
      match rest with
      | '+' :: rest => read false rest
      | '-' :: rest => read true rest
      | rest => read false rest
    else some (none, cs)
  | [] => some (none, cs)

/-- The digits before the point: a zero stands alone. -/
def whole? : List Char → Option (List Char × List Char)
  | '0' :: cs => some (['0'], cs)
  | cs => digits? Char.isDigit cs

/-- A number in base ten whose sign has been read; `cs` begins with the sign. -/
def decimalNumber? (cs unsigned : List Char) (negative : Bool) : Option (Toml × List Char) := do
  let (whole, rest) ← whole? unsigned
  let (fraction, after) ← fraction? rest
  let (exponent, after) ← exponent? after
  if fraction.isEmpty && exponent.isNone then
    let n : Int := decimal whole
    integer? (if negative then -n else n) rest
  else
    let scale := exponent.getD 0 - fraction.length
    if !negative && overflows (decimal (whole ++ fraction)) scale then none
    else return (.float (consumed cs after), after)

/-- A number whose sign has been read. -/
def signed? (cs unsigned : List Char) (negative : Bool) : Option (Toml × List Char) :=
  match unsigned with
  | 'i' :: 'n' :: 'f' :: rest | 'n' :: 'a' :: 'n' :: rest => some (.float (consumed cs rest), rest)
  | _ => decimalNumber? cs unsigned negative

/-- A number. -/
def number? (cs : List Char) : Option (Toml × List Char) :=
  match cs with
  | '0' :: 'x' :: rest => based? 16 (fun c => (Hex.value? c).isSome) rest
  | '0' :: 'o' :: rest => based? 8 (fun c => '0' ≤ c && c ≤ '7') rest
  | '0' :: 'b' :: rest => based? 2 (fun c => c == '0' || c == '1') rest
  | '+' :: rest => signed? cs rest false
  | '-' :: rest => signed? cs rest true
  | _ => signed? cs cs false

end PackExchange.Toml
