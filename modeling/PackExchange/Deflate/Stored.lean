import PackExchange.Deflate.Inflate

/-!
# Plain blocks

Any bytes can be written as blocks that hold them as they are.

* `stored` — the bytes as plain blocks of at most 65535 bytes each.

`inflate_stored` says that expanding gives the bytes back.
-/

namespace PackExchange.Deflate

/-- The most bytes that one plain block holds. -/
def blockSize : Nat := 65535

/-- One plain block. -/
def storedBlock (last : Bool) (bs : Bytes) : Bytes :=
  (if last then 1 else 0) :: Bytes.little 2 bs.length ++ Bytes.little 2 (0xFFFF - bs.length) ++ bs

/-- The bytes as `more` full blocks and a last one for the rest. -/
def storedBlocks : Nat → Bytes → Bytes
  | 0, bs => storedBlock true bs
  | more + 1, bs =>
    storedBlock false (bs.take blockSize) ++ storedBlocks more (bs.drop blockSize)

/-- The bytes as plain blocks. -/
def stored (bs : Bytes) : Bytes := storedBlocks ((bs.length - 1) / blockSize) bs

theorem length_storedBlock (last : Bool) (bs : Bytes) :
    (storedBlock last bs).length = bs.length + 5 := by
  simp [storedBlock]
  omega

theorem readPlainSize_little (bs rest : Bytes) (h : bs.length ≤ blockSize) :
    readPlainSize (Bytes.little 2 bs.length ++ Bytes.little 2 (0xFFFF - bs.length) ++ rest) =
      .ok (bs.length, rest) := by
  have hspan : Bytes.span 2 = 65536 := rfl
  have hsize : Bytes.ofLittle (Bytes.little 2 bs.length) = bs.length := by
    rw [Bytes.ofLittle_little, hspan]
    unfold blockSize at h
    omega
  have hrest : Bytes.ofLittle (Bytes.little 2 (0xFFFF - bs.length)) = 0xFFFF - bs.length := by
    rw [Bytes.ofLittle_little, hspan]
    omega
  simp only [Bytes.little] at hsize hrest
  simp only [readPlainSize, Bytes.little, List.cons_append, List.nil_append, hsize, hrest]
  unfold blockSize at h
  rw [if_neg (by omega)]

theorem readHeader_storedBlock (last : Bool) (bs rest : Bytes) (h : bs.length ≤ blockSize) :
    readHeader (.ofBytes (storedBlock last bs ++ rest)) =
      .ok (last, .plain bs.length, .ofBytes (bs ++ rest)) := by
  have hread := readPlainSize_little bs (bs ++ rest) h
  have hone : Nat.testBit 1 1 = false ∧ Nat.testBit 1 2 = false := by decide
  simp only [List.append_assoc] at hread
  cases last <;>
    simp [readHeader, storedBlock, BitStream.ofBytes, BitStream.bit, BitStream.number,
      BitStream.aligned, bitsOf, List.range_succ, bind, Except.bind, pure, Except.pure, hone, hread]

theorem readPlain_append (most : Nat) (bs rest : Bytes) (out : Array UInt8)
    (hmost : out.size + bs.length ≤ most) :
    readPlain most bs.length (bs ++ rest) out = .ok (out ++ bs.toArray, .ofBytes rest) := by
  have hfew : ¬ most < out.size + bs.length := by omega
  simp [readPlain, hfew]

theorem readBlock_storedBlock (most fuel : Nat) (last : Bool) (bs rest : Bytes)
    (out : Array UInt8) (h : bs.length ≤ blockSize) (hmost : out.size + bs.length ≤ most) :
    readBlock most fuel (.ofBytes (storedBlock last bs ++ rest)) out =
      .ok (last, out ++ bs.toArray, .ofBytes rest) := by
  have hread : readPlain most bs.length (BitStream.ofBytes (bs ++ rest)).bytes out =
      .ok (out ++ bs.toArray, .ofBytes rest) := readPlain_append most bs rest out hmost
  simp [readBlock, readHeader_storedBlock last bs rest h, readContent, hread, bind, Except.bind,
    pure, Except.pure]

theorem lt_length_storedBlocks (more : Nat) (bs : Bytes) :
    more < (storedBlocks more bs).length := by
  induction more generalizing bs with
  | zero => simp only [storedBlocks, length_storedBlock]; omega
  | succ more ih =>
    have := ih (bs.drop blockSize)
    simp only [storedBlocks, List.length_append, length_storedBlock]
    omega

theorem readBlocks_storedBlocks (most more fuel : Nat) (bs : Bytes) (out : Array UInt8)
    (hfuel : more < fuel) (hlength : bs.length ≤ (more + 1) * blockSize)
    (hmost : out.size + bs.length ≤ most) :
    readBlocks most fuel (.ofBytes (storedBlocks more bs)) out = .ok (out ++ bs.toArray) := by
  induction more generalizing fuel bs out with
  | zero =>
    obtain ⟨fuel, rfl⟩ : ∃ n, fuel = n + 1 := ⟨fuel - 1, by omega⟩
    have hread := readBlock_storedBlock most fuel true bs [] out (by simpa using hlength) hmost
    simp only [List.append_nil] at hread
    simp [readBlocks, storedBlocks, hread, bind, Except.bind, pure, Except.pure]
  | succ more ih =>
    obtain ⟨fuel, rfl⟩ : ∃ n, fuel = n + 1 := ⟨fuel - 1, by omega⟩
    have htake : (bs.take blockSize).length ≤ blockSize ∧ (bs.take blockSize).length ≤ bs.length := by
      simp only [List.length_take]
      omega
    have hread := readBlock_storedBlock most fuel false (bs.take blockSize)
      (storedBlocks more (bs.drop blockSize)) out htake.1 (by omega)
    have hrest := ih fuel (bs.drop blockSize) (out ++ (bs.take blockSize).toArray) (by omega)
      (by rw [Nat.add_mul] at hlength; simp; omega) (by simp; omega)
    simp [readBlocks, storedBlocks, hread, hrest, bind, Except.bind, Array.append_assoc]

/-- Expanding plain blocks gives the bytes back. -/
theorem inflate_stored (most : Nat) (bs : Bytes) (h : bs.length ≤ most) :
    inflate most (stored bs) = .ok bs := by
  have hmore := lt_length_storedBlocks ((bs.length - 1) / blockSize) bs
  have hlength : bs.length ≤ ((bs.length - 1) / blockSize + 1) * blockSize := by
    unfold blockSize
    omega
  have hread := readBlocks_storedBlocks most ((bs.length - 1) / blockSize)
    (8 * (stored bs).length + 1) bs #[] (by unfold stored; omega) hlength (by simpa using h)
  unfold inflate expand stored at *
  simp [hread]

end PackExchange.Deflate
