import PackExchange.Deflate.PrefixCode

/-!
# Expanding a compressed run

A compressed run is a sequence of blocks, the last one marked.  A block holds its bytes as they
are, or as literal bytes and copies of earlier output, written in a fixed pair of codes or in a
pair that the block itself describes.

* `Piece` — a part of the output, with `Piece.expand`;
* `expand` — the bytes that a run stands for, or the `Halt` that expanding comes to;
* `inflate` — the bytes that a run stands for, up to a given number of them;
* `overflow` — what is wrong with a run that stands for more.

Output is taken to be preceded by zeros, so that a copy may reach back beyond its start, and
bytes after the last block are not looked at.

A run is read part by part and its output handed on window by window, so a little more than what
is allowed may be expanded before the excess is noticed.  What is met before that counts instead.
-/

namespace PackExchange.Deflate

/-! ### Pieces -/

/-- What a symbol stands for beside itself: the least value, and how many bits are added to it. -/
structure Span where
  least : Nat
  width : Nat
  deriving DecidableEq, Repr

/-- The lengths of copies, from symbol 257 on. -/
def lengthSpans : Array Span :=
  #[⟨3, 0⟩, ⟨4, 0⟩, ⟨5, 0⟩, ⟨6, 0⟩, ⟨7, 0⟩, ⟨8, 0⟩, ⟨9, 0⟩, ⟨10, 0⟩, ⟨11, 1⟩, ⟨13, 1⟩, ⟨15, 1⟩,
    ⟨17, 1⟩, ⟨19, 2⟩, ⟨23, 2⟩, ⟨27, 2⟩, ⟨31, 2⟩, ⟨35, 3⟩, ⟨43, 3⟩, ⟨51, 3⟩, ⟨59, 3⟩, ⟨67, 4⟩,
    ⟨83, 4⟩, ⟨99, 4⟩, ⟨115, 4⟩, ⟨131, 5⟩, ⟨163, 5⟩, ⟨195, 5⟩, ⟨227, 5⟩, ⟨258, 0⟩]

/-- How far back copies reach. -/
def distanceSpans : Array Span :=
  #[⟨1, 0⟩, ⟨2, 0⟩, ⟨3, 0⟩, ⟨4, 0⟩, ⟨5, 1⟩, ⟨7, 1⟩, ⟨9, 2⟩, ⟨13, 2⟩, ⟨17, 3⟩, ⟨25, 3⟩, ⟨33, 4⟩,
    ⟨49, 4⟩, ⟨65, 5⟩, ⟨97, 5⟩, ⟨129, 6⟩, ⟨193, 6⟩, ⟨257, 7⟩, ⟨385, 7⟩, ⟨513, 8⟩, ⟨769, 8⟩,
    ⟨1025, 9⟩, ⟨1537, 9⟩, ⟨2049, 10⟩, ⟨3073, 10⟩, ⟨4097, 11⟩, ⟨6145, 11⟩, ⟨8193, 12⟩, ⟨12289, 12⟩,
    ⟨16385, 13⟩, ⟨24577, 13⟩]

/-- Reads the value that a symbol and the bits after it stand for. -/
def readSpan (spans : Array Span) (symbol : Nat) (s : BitStream) :
    Except InflateError (Nat × BitStream) :=
  match spans[symbol]? with
  | none => .error .malformed
  | some span => do
    let (n, s) ← s.number span.width
    return (span.least + n, s)

/-- Appends bytes one by one, each the one that stands `distance` bytes before it. -/
def copyBack (distance : Nat) : Nat → Array UInt8 → Array UInt8
  | 0, out => out
  | length + 1, out =>
    let byte := if distance ≤ out.size then out.getD (out.size - distance) 0 else 0
    copyBack distance length (out.push byte)

/-- A part of the output: a byte, or a copy of earlier output. -/
inductive Piece where
  | literal (byte : UInt8)
  | copy (length distance : Nat)
  deriving DecidableEq, Repr

/-- Appends a piece to the output before it. -/
def Piece.expand : Piece → Array UInt8 → Array UInt8
  | .literal byte, out => out.push byte
  | .copy length distance, out => copyBack distance length out

/-- Reads a piece, or the end mark, which is symbol 256. -/
def readPiece (literals distances : PrefixCode) (s : BitStream) :
    Except InflateError (Option Piece × BitStream) := do
  let (symbol, s) ← literals.symbol s
  if symbol < 256 then return (some (.literal (UInt8.ofNat symbol)), s)
  else if symbol = 256 then return (none, s)
  else
    let (length, s) ← readSpan lengthSpans (symbol - 257) s
    let (symbol, s) ← distances.symbol s
    let (distance, s) ← readSpan distanceSpans symbol s
    return (some (.copy length distance), s)

/-! ### Codes -/

/-- The word lengths of the fixed code for literals and copy lengths. -/
def fixedLiteralLengths : List Nat :=
  List.replicate 144 8 ++ List.replicate 112 9 ++ List.replicate 24 7 ++ List.replicate 8 8

/-- The fixed code for literals and copy lengths. -/
def fixedLiterals : PrefixCode := .ofLengths fixedLiteralLengths

/-- The fixed code for distances. -/
def fixedDistances : PrefixCode := .ofLengths (List.replicate 32 5)

/-- The order in which the word lengths of the code for word lengths are written. -/
def widthOrder : List Nat := [16, 17, 18, 0, 8, 7, 9, 6, 10, 5, 11, 4, 12, 3, 13, 2, 14, 1, 15]

/-- Reads numbers of three bits each. -/
def readWidths : Nat → BitStream → Except InflateError (List Nat × BitStream)
  | 0, s => .ok ([], s)
  | count + 1, s => do
    let (n, s) ← s.number 3
    let (ns, s) ← readWidths count s
    return (n :: ns, s)

/-- Reads `left` word lengths onto those already read, last first.  A symbol below 16 is a length;
16 repeats the one before, 17 and 18 stand for runs of zeros. -/
def readLengths (code : PrefixCode) :
    Nat → Nat → List Nat → BitStream → Except InflateError (List Nat × BitStream)
  | 0, left, done, s => if left = 0 then .ok (done.reverse, s) else .error .malformed
  | fuel + 1, left, done, s =>
    if left = 0 then .ok (done.reverse, s)
    else do
      let (symbol, s) ← code.symbol s
      let (length, count, s) ←
        if symbol < 16 then .ok (symbol, 1, s)
        else if symbol = 16 then
          match done with
          | [] => .error .malformed
          | last :: _ => do
            let (n, s) ← s.number 2
            .ok (last, 3 + n, s)
        else if symbol = 17 then do
          let (n, s) ← s.number 3
          .ok (0, 3 + n, s)
        else do
          let (n, s) ← s.number 7
          .ok (0, 11 + n, s)
      if left < count then .error .malformed
      else readLengths code fuel (left - count) (List.replicate count length ++ done) s

/-- Reads the pair of codes that a block describes. -/
def readCodes (s : BitStream) : Except InflateError (PrefixCode × PrefixCode × BitStream) := do
  let (n, s) ← s.number 5
  let (m, s) ← s.number 5
  let (k, s) ← s.number 4
  let literals := n + 257
  let distances := m + 1
  if 286 < literals || 30 < distances then .error .malformed
  let (widths, s) ← readWidths (k + 4) s
  let ordered := widthOrder.zip widths
  let widths := (List.range 19).map fun symbol => (ordered.lookup symbol).getD 0
  if !PrefixCode.isSound true widths then .error .malformed
  let total := literals + distances
  let (lengths, s) ← readLengths (.ofLengths widths) total total [] s
  let forLiterals := lengths.take literals
  let forDistances := lengths.drop literals
  if !PrefixCode.isSound false forLiterals || !PrefixCode.isSound false forDistances then
    .error .malformed
  return (.ofLengths forLiterals, .ofLengths forDistances, s)

/-! ### Blocks -/

/-- What a block holds. -/
inductive Content where
  /-- So many plain bytes. -/
  | plain (size : Nat)
  /-- Pieces in a pair of codes. -/
  | coded (literals distances : PrefixCode)

/-- Reads how many plain bytes follow: their number and its complement. -/
def readPlainSize : Bytes → Except InflateError (Nat × Bytes)
  | a :: b :: c :: d :: rest =>
    let size := Bytes.ofLittle [a, b]
    if size + Bytes.ofLittle [c, d] ≠ 0xFFFF then .error .malformed else .ok (size, rest)
  | _ => .error .truncated

/-- Reads what a block begins with: whether it is the last one, and what it holds. -/
def readHeader (s : BitStream) : Except InflateError (Bool × Content × BitStream) := do
  let (last, s) ← s.bit
  let (kind, s) ← s.number 2
  if kind = 0 then
    let (size, rest) ← readPlainSize s.aligned
    return (last, .plain size, .ofBytes rest)
  else if kind = 1 then return (last, .coded fixedLiterals fixedDistances, s)
  else if kind = 2 then
    let (literals, distances, s) ← readCodes s
    return (last, .coded literals distances, s)
  else .error .malformed

/-- Why expanding stops short. -/
inductive Halt where
  /-- The run cannot be expanded any further. -/
  | broken (cause : InflateError)
  /-- More bytes come than are allowed, with so many bytes of the run not read yet. -/
  | full (left : Nat)
  deriving DecidableEq, Repr

/-- Reads pieces onto the output so far, up to the end mark. -/
def readPieces (most : Nat) (literals distances : PrefixCode) :
    Nat → BitStream → Array UInt8 → Except Halt (Array UInt8 × BitStream)
  | 0, _, _ => .error (.broken .truncated)
  | fuel + 1, s, out =>
    match readPiece literals distances s with
    | .error e => .error (.broken e)
    | .ok (none, s) => .ok (out, s)
    | .ok (some piece, s) =>
      let out := piece.expand out
      if most < out.size then .error (.full s.bytes.length)
      else readPieces most literals distances fuel s out

/-- Reads so many plain bytes onto the output so far. -/
def readPlain (most size : Nat) (bytes : Bytes) (out : Array UInt8) :
    Except Halt (Array UInt8 × BitStream) :=
  let front := bytes.take size
  if most < out.size + front.length then .error (.full (bytes.length - (most - out.size)))
  else if front.length < size then .error (.broken .truncated)
  else .ok (out ++ front.toArray, .ofBytes (bytes.drop size))

/-- Reads what a block holds onto the output so far. -/
def readContent (most fuel : Nat) (s : BitStream) (out : Array UInt8) :
    Content → Except Halt (Array UInt8 × BitStream)
  | .plain size => readPlain most size s.bytes out
  | .coded literals distances => readPieces most literals distances fuel s out

/-- Reads one block onto the output so far, and whether it is the last. -/
def readBlock (most fuel : Nat) (s : BitStream) (out : Array UInt8) :
    Except Halt (Bool × Array UInt8 × BitStream) :=
  match readHeader s with
  | .error e => .error (.broken e)
  | .ok (last, content, s) => do
    let (out, s) ← readContent most fuel s out content
    return (last, out, s)

/-- Reads blocks up to the last one. -/
def readBlocks (most : Nat) : Nat → BitStream → Array UInt8 → Except Halt (Array UInt8)
  | 0, _, _ => .error (.broken .truncated)
  | fuel + 1, s, out => do
    let (last, out, s) ← readBlock most fuel s out
    if last then return out
    readBlocks most fuel s out

/-! ### Whole runs -/

/-- The bytes that a run stands for, at most `most` of them.  Every block and every piece takes up
a bit at least, so there are never more steps than bits. -/
def expand (most : Nat) (bs : Bytes) : Except Halt (Array UInt8) :=
  readBlocks most (8 * bs.length + 1) (.ofBytes bs) #[]

/-- A run is read in parts of so many bytes, and its output handed on in windows of as many. -/
def windowSize : Nat := 32768

/-- Where the window, or the part, ends that holds the byte at a position. -/
def horizon (position : Nat) : Nat := (position / windowSize + 1) * windowSize

/-- What is wrong with a run that stands for more than `most` bytes, where the first byte too many
comes with `left` bytes not read yet.  That byte is handed on when its window is full or when the
part at hand is used up, and a rule broken before that counts instead.  With nothing left to read
there is no such part, and then it counts as well that the run has no end. -/
def overflow (most : Nat) (bs : Bytes) (left : Nat) : InflateError :=
  match expand (horizon most) (bs.take (horizon (bs.length - left))) with
  | .error (.broken .malformed) => .malformed
  | .error (.broken .truncated) => if left = 0 then .truncated else .tooLarge
  | _ => .tooLarge

/-- The bytes that a run stands for, at most `most` of them. -/
def inflate (most : Nat) (bs : Bytes) : Except InflateError Bytes :=
  match expand most bs with
  | .ok out => .ok out.toList
  | .error (.broken cause) => .error cause
  | .error (.full left) => .error (overflow most bs left)

end PackExchange.Deflate
