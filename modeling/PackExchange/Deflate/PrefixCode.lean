import PackExchange.Deflate.BitStream

/-!
# Prefix codes

A code is given by the length of each symbol's word alone: words of one length are consecutive
numbers, in the order of their symbols, and longer words start where shorter ones left off.

* `PrefixCode.ofLengths` — the code with the given word lengths;
* `PrefixCode.symbol` — the symbol whose word comes next in a stream;
* `PrefixCode.isSound` — whether the words use up all there are, which a code of one bit need not.
-/

namespace PackExchange.Deflate

/-- A prefix code: how many words there are of each length, from one up to the longest, and the
symbols in the order of their words. -/
structure PrefixCode where
  counts : List Nat
  symbols : Array Nat
  deriving Repr

namespace PrefixCode

/-- The length of the longest words that a code may have. -/
def longest : Nat := 15

/-- The code in which symbol `i` has a word of length `lengths[i]`, and none if that is zero.  Even
a code without words looks at a bit before it refuses a stream. -/
def ofLengths (lengths : List Nat) : PrefixCode :=
  let widths := (List.range (lengths.foldl max 1)).map (· + 1)
  let numbered := lengths.zipIdx
  { counts := widths.map fun width => lengths.count width
    symbols := (widths.flatMap fun width =>
      (numbered.filter fun entry => entry.1 = width).map Prod.snd).toArray }

/-- How many words of the longest kind begin with a word of the given length. -/
def extensions (width : Nat) : Nat := 1 <<< (longest - width)

/-- How many of the longest words begin with one of the words of these lengths. -/
def share (lengths : List Nat) : Nat :=
  (lengths.filter (0 < ·)).foldl (fun sum width => sum + extensions width) 0

/-- Whether the lengths leave no word unused and use none twice.  A code without words, or with
one word of a single bit, is sound as well, unless every word has to be `used`. -/
def isSound (used : Bool) (lengths : List Nat) : Bool :=
  share lengths = extensions 0 || (!used && [[], [1]].contains (lengths.filter (0 < ·)))

/-- Follows the words of each length in turn: `offset` is how far the bits read so far lie beyond
the words of smaller length, `index` how many those are.  Beyond the longest words nothing follows. -/
def search (symbols : Array Nat) :
    List Nat → Nat → Nat → BitStream → Except InflateError (Nat × BitStream)
  | [], _, _, _ => .error .malformed
  | count :: counts, offset, index, s => do
    let (b, s) ← s.bit
    let offset := 2 * offset + b.toNat
    if offset < count then return (symbols.getD (index + offset) 0, s)
    search symbols counts (offset - count) (index + count) s

/-- The symbol whose word comes next.  A stream is refused as soon as no word can follow. -/
def symbol (c : PrefixCode) (s : BitStream) : Except InflateError (Nat × BitStream) :=
  search c.symbols c.counts 0 0 s

end PrefixCode

end PackExchange.Deflate
