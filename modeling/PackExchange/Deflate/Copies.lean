import PackExchange.Deflate.Stored

/-!
# Compressing bytes

Bytes are compressed by naming runs that occurred before instead of writing them again.

* `Piece.ofBytes` — the bytes as literal bytes and copies, found with a table of recent runs;
* `squeezed` — the pieces as one block in the fixed codes;
* `deflate` — that block where it is shorter and expands to the bytes again, plain blocks otherwise.

What the search finds is not trusted: `inflate_deflate` rests on the check that `deflate` makes.
-/

namespace PackExchange.Deflate

namespace Piece

/-! ### Finding copies -/

/-- The size of the table of recent runs. -/
def tableSize : Nat := 16384

/-- The place in the table of the run of three bytes that starts at a position. -/
def slot (data : Array UInt8) (start : Nat) : Nat :=
  let byte (i : Nat) : Nat := (data.getD (start + i) 0).toNat
  (byte 0 * 4801 + byte 1 * 193 + byte 2) % tableSize

/-- How many bytes two positions have in common, at most `fuel`. -/
def common (data : Array UInt8) (earlier later : Nat) : Nat → Nat
  | 0 => 0
  | fuel + 1 =>
    if later < data.size && data.getD earlier 0 == data.getD later 0 then
      common data (earlier + 1) (later + 1) fuel + 1
    else 0

/-- Walks over the bytes, with the start of the latest run for each place in the table and the
pieces found so far, last first. -/
def find (data : Array UInt8) :
    Nat → Nat → Array (Option Nat) → List Piece → List Piece
  | 0, _, _, found => found.reverse
  | fuel + 1, start, table, found =>
    if h : start < data.size then
      let place := slot data start
      let earlier := table.getD place none
      let table := table.setIfInBounds place (some start)
      let literal := Piece.literal data[start]
      match earlier with
      | none => find data fuel (start + 1) table (literal :: found)
      | some earlier =>
        let length := common data earlier start 258
        if 3 ≤ length && start - earlier ≤ 32768 then
          find data fuel (start + length) table (.copy length (start - earlier) :: found)
        else find data fuel (start + 1) table (literal :: found)
    else found.reverse

/-- The bytes as literals and copies. -/
def ofBytes (bs : Bytes) : List Piece :=
  let data := bs.toArray
  find data data.size 0 (Array.replicate tableSize none) []

/-! ### The fixed codes -/

/-- The lowest bits of a number, lowest first. -/
def field (width n : Nat) : List Bool := (List.range width).map n.testBit

/-- The lowest bits of a number, highest first. -/
def word (width n : Nat) : List Bool := (field width n).reverse

/-- The word of a symbol in the fixed code for literals and copy lengths. -/
def literalWord (symbol : Nat) : List Bool :=
  if symbol < 144 then word 8 (0x30 + symbol)
  else if symbol < 256 then word 9 (0x190 + (symbol - 144))
  else if symbol < 280 then word 7 (symbol - 256)
  else word 8 (0xC0 + (symbol - 280))

/-- The symbol for a value, and the bits that are added to it. -/
def spanOf (spans : Array Span) (value : Nat) : Nat × List Bool :=
  let symbol := (spans.toList.takeWhile fun span => span.least ≤ value).length - 1
  match spans[symbol]? with
  | none => (symbol, [])
  | some span => (symbol, field span.width (value - span.least))

/-- A piece in the fixed codes. -/
def bits : Piece → List Bool
  | .literal byte => literalWord byte.toNat
  | .copy length distance =>
    let (lengthSymbol, lengthBits) := spanOf lengthSpans length
    let (distanceSymbol, distanceBits) := spanOf distanceSpans distance
    literalWord (257 + lengthSymbol) ++ lengthBits ++ word 5 distanceSymbol ++ distanceBits

end Piece

/-! ### Compressed runs -/

/-- The bytes as one block in the fixed codes. -/
def squeezed (bs : Bytes) : Bytes :=
  Bytes.ofBits ([true, true, false] ++ (Piece.ofBytes bs).flatMap Piece.bits ++ Piece.literalWord 256)

/-- Does a run expand to these bytes, if so many are allowed? -/
def standsFor (most : Nat) (run bs : Bytes) : Bool :=
  match expand most run with
  | .ok out => out == bs.toArray
  | .error _ => false

theorem inflate_of_standsFor {most : Nat} {run bs : Bytes} (h : standsFor most run bs = true) :
    inflate most run = .ok bs := by
  rw [standsFor] at h
  split at h
  · next out hexpand =>
    rw [inflate, hexpand, eq_of_beq h]
  · cases h

/-- Compresses bytes so that `inflate most` takes them back, unless there are more than `most` of
them.  A plain block takes five bytes more than it holds. -/
def deflate (most : Nat) (bs : Bytes) : Bytes :=
  let short := squeezed bs
  if short.length < bs.length + 5 && standsFor (max most bs.length) short bs then short
  else stored bs

/-- Expanding what was compressed gives the bytes back. -/
theorem inflate_deflate (most : Nat) (bs : Bytes) (h : bs.length ≤ most) :
    inflate most (deflate most bs) = .ok bs := by
  simp only [deflate, Nat.max_eq_left h]
  split
  · next hshort => exact inflate_of_standsFor (Bool.and_eq_true_iff.mp hshort).2
  · exact inflate_stored most bs h

end PackExchange.Deflate
