import InterceptingProxy.Text

set_option autoImplicit false

/-! # Deflate

A deflated text is a string of bits, the lowest bit of each byte first. It consists of blocks:
stored bytes, or symbols under a fixed or a given pair of prefix codes. A symbol is a byte, the end
of the block, or the length of a repetition, which the symbol of a distance follows.

`inflate` reads any such text; `deflate` writes one block of bytes under the fixed code. -/

namespace InterceptingProxy.Deflate

/-- Bits in the order in which they are read. -/
abbrev Bits := List Bool

/-- Why a text cannot be inflated. -/
inductive Fault where
  /-- It ends too early. -/
  | truncated
  /-- No deflated text starts like that. -/
  | corrupt
  deriving DecidableEq, Repr

/-! ## Bits -/

/-- The bits of a byte, lowest first. -/
def bitsOfByte (b : UInt8) : Bits := (List.range 8).map fun i => b.toNat.testBit i

/-- The bits of a byte string. -/
def bitsOfBytes (bytes : Bytes) : Bits := bytes.flatMap bitsOfByte

/-- The number that bits denote, lowest first. -/
def valueOfBits : Bits → Nat
  | [] => 0
  | b :: rest => b.toNat + 2 * valueOfBits rest

/-- The low bits of a number, highest first. -/
def codeBits (width n : Nat) : Bits := ((List.range width).map fun i => n.testBit i).reverse

/-- The bytes of a string of bits; the last byte is filled with zeros. -/
def bytesOfBits : Bits → Bytes
  | [] => []
  | b :: rest => (valueOfBits (b :: rest.take 7)).toUInt8 :: bytesOfBits (rest.drop 7)
  termination_by bits => bits.length
  decreasing_by
    rw [List.length_drop, List.length_cons]
    omega

/-- Reads a number of the given width. -/
def take (width : Nat) (bits : Bits) : Except Fault (Nat × Bits) :=
  if bits.length < width then .error .truncated
  else .ok (valueOfBits (bits.take width), bits.drop width)

/-! ## Prefix codes -/

/-- A canonical prefix code: how many symbols have codes of one, two, three… bits, and the symbols
    in the order of their codes. -/
structure Code where
  counts : List Nat
  symbols : List Nat
  deriving DecidableEq, Repr

/-- Most bits of a code. -/
def maxCodeLength : Nat := 15

/-- Codes that are left after those of each length were given away; `none` if there were not
    enough. -/
def codesLeft (counts : List Nat) : Option Nat :=
  counts.foldl (fun left count => left.bind fun left =>
    if count ≤ 2 * left then some (2 * left - count) else none) (some 1)

/-- The code in which symbol `i` has a code of `lengths[i]` bits, or none if that is zero. At most
    one code may be missing some of its bit strings: that of a single symbol. -/
def Code.ofLengths (lengths : List Nat) : Except Fault Code :=
  let ofLength (n : Nat) := (lengths.zipIdx.filter fun s => s.1 = n).map Prod.snd
  let sorted := (List.range maxCodeLength).map fun i => ofLength (i + 1)
  let code : Code := ⟨sorted.map List.length, sorted.flatten⟩
  match codesLeft code.counts with
  | none => .error .corrupt
  | some left =>
    if left > 0 ∧ code.symbols.length > 1 then .error .corrupt else .ok code

/-- Reads one symbol: `code` and `first` are the bits so far and the first code of this length,
    `index` counts the symbols with shorter codes. -/
def readSymbol (symbols : List Nat) :
    List Nat → Nat → Nat → Nat → Bits → Except Fault (Nat × Bits)
  | [], _, _, _, _ => .error .corrupt
  | _, _, _, _, [] => .error .truncated
  | count :: counts, code, first, index, b :: bits =>
    let code := 2 * code + b.toNat
    let first := 2 * first
    if code < first + count then
      match symbols[index + (code - first)]? with
      | some s => .ok (s, bits)
      | none => .error .corrupt
    else readSymbol symbols counts code (first + count) (index + count) bits

/-- Reads one symbol of a code. -/
def Code.read (c : Code) (bits : Bits) : Except Fault (Nat × Bits) :=
  readSymbol c.symbols c.counts 0 0 0 bits

/-- The lengths of the fixed code for bytes and lengths. -/
def fixedLengths : List Nat :=
  List.replicate 144 8 ++ List.replicate 112 9 ++ List.replicate 24 7 ++ List.replicate 8 8

/-- The fixed code for distances. Two bit strings are left over, so lengths do not make it. -/
def fixedDistances : Code := ⟨[0, 0, 0, 0, 30], List.range 30⟩

/-! ## Repetitions -/

/-- The shortest length of each length symbol, with the width of what is added to it. -/
def lengthTable : List (Nat × Nat) :=
  [(3, 0), (4, 0), (5, 0), (6, 0), (7, 0), (8, 0), (9, 0), (10, 0), (11, 1), (13, 1), (15, 1),
    (17, 1), (19, 2), (23, 2), (27, 2), (31, 2), (35, 3), (43, 3), (51, 3), (59, 3), (67, 4),
    (83, 4), (99, 4), (115, 4), (131, 5), (163, 5), (195, 5), (227, 5), (258, 0)]

/-- The same for distances. -/
def distanceTable : List (Nat × Nat) :=
  [(1, 0), (2, 0), (3, 0), (4, 0), (5, 1), (7, 1), (9, 2), (13, 2), (17, 3), (25, 3), (33, 4),
    (49, 4), (65, 5), (97, 5), (129, 6), (193, 6), (257, 7), (385, 7), (513, 8), (769, 8),
    (1025, 9), (1537, 9), (2049, 10), (3073, 10), (4097, 11), (6145, 11), (8193, 12), (12289, 12),
    (16385, 13), (24577, 13)]

/-- Reads the number that a symbol of a table stands for. -/
def readNumber (table : List (Nat × Nat)) (symbol : Nat) (bits : Bits) :
    Except Fault (Nat × Bits) :=
  match table[symbol]? with
  | none => .error .corrupt
  | some (base, width) => do
    let (extra, bits) ← take width bits
    return (base + extra, bits)

/-- Repeats what stands `distance` bytes before the end. -/
def copyBack (distance : Nat) : Nat → Array UInt8 → Array UInt8
  | 0, out => out
  | n + 1, out => copyBack distance n (out.push (out[out.size - distance]?.getD 0))

/-! ## Blocks -/

/-- The first symbol that is no byte: the end of the block. -/
def endOfBlock : Nat := 256

/-- Reads the symbols of a block. Every symbol takes a bit, so the bits bound their number. -/
def readSymbols (lits dists : Code) :
    Nat → Bits → Array UInt8 → Except Fault (Array UInt8 × Bits)
  | 0, _, _ => .error .truncated
  | fuel + 1, bits, out => do
    let (symbol, bits) ← lits.read bits
    if symbol < endOfBlock then readSymbols lits dists fuel bits (out.push symbol.toUInt8)
    else if symbol = endOfBlock then return (out, bits)
    else
      let (length, bits) ← readNumber lengthTable (symbol - endOfBlock - 1) bits
      let (symbol, bits) ← dists.read bits
      let (distance, bits) ← readNumber distanceTable symbol bits
      if out.size < distance then throw .corrupt
      readSymbols lits dists fuel bits (copyBack distance length out)

/-- The order in which the lengths of the code for code lengths are written. -/
def lengthOrder : List Nat := [16, 17, 18, 0, 8, 7, 9, 6, 10, 5, 11, 4, 12, 3, 13, 2, 14, 1, 15]

/-- Reads numbers of three bits. -/
def readTriples : Nat → Bits → Except Fault (List Nat × Bits)
  | 0, bits => .ok ([], bits)
  | n + 1, bits => do
    let (x, bits) ← take 3 bits
    let (rest, bits) ← readTriples n bits
    return (x :: rest, bits)

/-- Reads `wanted` code lengths; symbols above fifteen repeat the last length or zero. -/
def readLengths (code : Code) (wanted : Nat) :
    Nat → Bits → List Nat → Except Fault (List Nat × Bits)
  | 0, _, _ => .error .truncated
  | fuel + 1, bits, read =>
    if read.length = wanted then .ok (read, bits)
    else if read.length > wanted then .error .corrupt
    else do
      let (symbol, bits) ← code.read bits
      if symbol ≤ maxCodeLength then readLengths code wanted fuel bits (read ++ [symbol])
      else
        let (base, width) := if symbol = 16 then (3, 2) else if symbol = 17 then (3, 3) else (11, 7)
        let (extra, bits) ← take width bits
        let repeated ← match symbol, read.getLast? with
          | 16, none => throw .corrupt
          | 16, some last => pure last
          | _, _ => pure 0
        readLengths code wanted fuel bits (read ++ List.replicate (base + extra) repeated)

/-- Reads the two codes at the start of a block. -/
def readCodes (bits : Bits) : Except Fault ((Code × Code) × Bits) := do
  let (lits, bits) ← take 5 bits
  let (dists, bits) ← take 5 bits
  let (lengths, bits) ← take 4 bits
  let (lits, dists) := (lits + 257, dists + 1)
  if lits > 286 ∨ dists > 30 then throw .corrupt
  let (written, bits) ← readTriples (lengths + 4) bits
  let lengthOf (symbol : Nat) : Nat := ((lengthOrder.zip written).lookup symbol).getD 0
  let code ← Code.ofLengths ((List.range 19).map lengthOf)
  let (all, bits) ← readLengths code (lits + dists) (bits.length + 1) bits []
  let litCode ← Code.ofLengths (all.take lits)
  let distCode ← Code.ofLengths (all.drop lits)
  return ((litCode, distCode), bits)

/-- Reads stored bytes, which start at a whole byte. -/
def readStored (bits : Bits) (out : Array UInt8) : Except Fault (Array UInt8 × Bits) := do
  let bits := bits.drop (bits.length % 8)
  let (length, bits) ← take 16 bits
  let (inverted, bits) ← take 16 bits
  if length + inverted ≠ 65535 then throw .corrupt
  if bits.length < 8 * length then throw .truncated
  return (out ++ (bytesOfBits (bits.take (8 * length))).toArray, bits.drop (8 * length))

/-- Reads one block after its first bit. -/
def readBlock (bits : Bits) (out : Array UInt8) : Except Fault (Array UInt8 × Bits) := do
  let (kind, bits) ← take 2 bits
  match kind with
  | 0 => readStored bits out
  | 1 =>
    readSymbols (← Code.ofLengths fixedLengths) fixedDistances (bits.length + 1) bits out
  | 2 =>
    let ((lits, dists), bits) ← readCodes bits
    readSymbols lits dists (bits.length + 1) bits out
  | _ => throw .corrupt

/-- Reads blocks up to the last one. Every block takes a bit, so the bits bound their number. -/
def readBlocks : Nat → Bits → Array UInt8 → Except Fault (Array UInt8 × Bits)
  | 0, _, _ => .error .truncated
  | fuel + 1, bits, out => do
    let (last, bits) ← take 1 bits
    let (out, bits) ← readBlock bits out
    if last = 1 then return (out, bits) else readBlocks fuel bits out

/-- Inflates the text at the start of a byte string. Also tells how many bytes it takes. -/
def inflate (bytes : Bytes) : Except Fault (Bytes × Nat) := do
  let bits := bitsOfBytes bytes
  let (out, rest) ← readBlocks (bits.length + 1) bits #[]
  return (out.toList, bytes.length - rest.length / 8)

/-! ## Writing -/

/-- The fixed code of a byte. -/
def literalBits (b : UInt8) : Bits :=
  let n := b.toNat
  if n < 144 then codeBits 8 (0x30 + n) else codeBits 9 (0x190 + (n - 144))

/-- One block that holds the bytes as they are, under the fixed code. -/
def deflate (bytes : Bytes) : Bytes :=
  bytesOfBits ([true, true, false] ++ bytes.flatMap literalBits ++ List.replicate 7 false)

end InterceptingProxy.Deflate
