/-!
# Deflated data

The decoding of deflated data: blocks of literal bytes and of copies from what was decoded before,
under prefix codes that are fixed or sent with the block.  What a copy takes from before the first
byte is zero.
-/

namespace ModCatalog.Archive.Inflate

/-- The bit at an offset, lowest bit of each byte first. -/
def bit? (bytes : ByteArray) (offset : Nat) : Option Nat :=
  if offset / 8 < bytes.size then some ((bytes.get! (offset / 8)).toNat >>> (offset % 8) % 2)
  else none

/-- The number of `width` bits from an offset on, lowest bit first. -/
def bits? (bytes : ByteArray) (offset : Nat) : Nat → Option Nat
  | 0 => some 0
  | width + 1 => do
      let low ← bit? bytes offset
      let high ← bits? bytes (offset + 1) width
      return low + 2 * high

/-- A prefix code: how many words of each length from one on, and the symbols in order of their
words. -/
structure Code where
  counts : List Nat
  symbols : Array Nat
deriving DecidableEq, Repr

namespace Code

/-- The longest word of a code. -/
def maxLength : Nat := 15

def symbolsOfLength (lengths : List Nat) (length : Nat) : List Nat :=
  (lengths.zipIdx.filter fun entry => entry.1 = length).map Prod.snd

/-- The share of all words of the longest length that words of the given counts use up. -/
def usedWords (counts : List Nat) : Nat :=
  (counts.zipIdx.map fun entry => entry.1 <<< (maxLength - 1 - entry.2)).foldr (· + ·) 0

/-- Whether words of the given counts use up all words there are. -/
def isComplete (counts : List Nat) : Bool := usedWords counts == 1 <<< maxLength

/-- The words of given lengths, in which a symbol of length zero has none. -/
def ofLengths (lengths : List Nat) : Code :=
  let groups := (List.range maxLength).map fun n => symbolsOfLength lengths (n + 1)
  ⟨groups.map List.length, groups.flatten.toArray⟩

/-- The code with words of given lengths, if they use up all words there are. -/
def complete? (lengths : List Nat) : Option Code :=
  let code := ofLengths lengths
  if isComplete code.counts then some code else none

/-- Whether there is no word, or a single one of one bit. -/
def isTrivial (counts : List Nat) : Bool :=
  let words := counts.foldr (· + ·) 0
  words = counts.headD 0 && words ≤ 1

/-- The code with words of given lengths, if they use up all words there are or are too few to do
so. -/
def ofLengths? (lengths : List Nat) : Option Code :=
  let code := ofLengths lengths
  if isComplete code.counts || isTrivial code.counts then some code else none

/--
The symbol whose word starts at an offset, with the offset after it.  `value` is the word read so
far, `first` the first word of the next length, and `index` the number of shorter words.
-/
def decodeFrom (bytes : ByteArray) (symbols : Array Nat) : List Nat → Nat → Nat → Nat → Nat →
    Option (Nat × Nat)
  | [], _, _, _, _ => none
  | count :: counts, value, first, index, offset => do
      let bit ← bit? bytes offset
      let value := 2 * value + bit
      let first := 2 * first
      if first ≤ value ∧ value < first + count then
        return (← symbols[index + (value - first)]?, offset + 1)
      else decodeFrom bytes symbols counts value (first + count) (index + count) (offset + 1)

/-- The symbol whose word starts at an offset, with the offset after it. -/
def decode (code : Code) (bytes : ByteArray) (offset : Nat) : Option (Nat × Nat) :=
  decodeFrom bytes code.symbols code.counts 0 0 0 offset

end Code

/-- The least length and the extra bits of each length symbol from 257 on. -/
def lengthTable : Array (Nat × Nat) := #[
  (3, 0), (4, 0), (5, 0), (6, 0), (7, 0), (8, 0), (9, 0), (10, 0), (11, 1), (13, 1), (15, 1),
  (17, 1), (19, 2), (23, 2), (27, 2), (31, 2), (35, 3), (43, 3), (51, 3), (59, 3), (67, 4),
  (83, 4), (99, 4), (115, 4), (131, 5), (163, 5), (195, 5), (227, 5), (258, 0)]

/-- The least distance and the extra bits of each distance symbol. -/
def distanceTable : Array (Nat × Nat) := #[
  (1, 0), (2, 0), (3, 0), (4, 0), (5, 1), (7, 1), (9, 2), (13, 2), (17, 3), (25, 3), (33, 4),
  (49, 4), (65, 5), (97, 5), (129, 6), (193, 6), (257, 7), (385, 7), (513, 8), (769, 8),
  (1025, 9), (1537, 9), (2049, 10), (3073, 10), (4097, 11), (6145, 11), (8193, 12), (12289, 12),
  (16385, 13), (24577, 13)]

/-- The value of a symbol of a table with its extra bits, with the offset after them. -/
def extended? (table : Array (Nat × Nat)) (bytes : ByteArray) (symbol offset : Nat) :
    Option (Nat × Nat) := do
  let (base, width) ← table[symbol]?
  let extra ← bits? bytes offset width
  return (base + extra, offset + width)

/-- The byte that stands `distance` before the end; zero before the first one. -/
def byteBack (distance : Nat) (output : ByteArray) : UInt8 :=
  if output.size < distance then 0 else output.get! (output.size - distance)

/-- Repeat bytes that stand `distance` before the end. -/
def copyBack (distance : Nat) : Nat → ByteArray → ByteArray
  | 0, output => output
  | length + 1, output => copyBack distance length (output.push (byteBack distance output))

/-- Literals and copies up to the end of a block; a symbol takes at least one bit. -/
def codedBlock (bytes : ByteArray) (literals distances : Code) : Nat → Nat → ByteArray →
    Option (Nat × ByteArray)
  | 0, _, _ => none
  | bound + 1, offset, output => do
      let (symbol, offset) ← literals.decode bytes offset
      if symbol < 256 then
        codedBlock bytes literals distances bound offset (output.push (UInt8.ofNat symbol))
      else if symbol = 256 then return (offset, output)
      else
        let (length, offset) ← extended? lengthTable bytes (symbol - 257) offset
        let (symbol, offset) ← distances.decode bytes offset
        let (distance, offset) ← extended? distanceTable bytes symbol offset
        codedBlock bytes literals distances bound offset (copyBack distance length output)

def storedBlock (bytes : ByteArray) (offset : Nat) (output : ByteArray) :
    Option (Nat × ByteArray) := do
  let start := (offset + 7) / 8
  let length ← bits? bytes (8 * start) 16
  let complement ← bits? bytes (8 * start + 16) 16
  if length + complement ≠ 0xFFFF then none
  if bytes.size < start + 4 + length then none
  return (8 * (start + 4 + length), output ++ bytes.extract (start + 4) (start + 4 + length))

def fixedLiterals : Option Code :=
  Code.ofLengths? (List.replicate 144 8 ++ List.replicate 112 9 ++ List.replicate 24 7 ++
    List.replicate 8 8)

def fixedDistances : Option Code := Code.ofLengths? (List.replicate 32 5)

/-- The symbols of the code of code lengths in the order in which their own lengths are sent. -/
def lengthOrder : List Nat := [16, 17, 18, 0, 8, 7, 9, 6, 10, 5, 11, 4, 12, 3, 13, 2, 14, 1, 15]

def threeBitNumbers (bytes : ByteArray) : Nat → Nat → Option (List Nat)
  | 0, _ => some []
  | count + 1, offset => do
      let first ← bits? bytes offset 3
      let others ← threeBitNumbers bytes count (offset + 3)
      return first :: others

/--
Code lengths until there are `total` of them, with runs of repeated lengths; the lengths read so far
stand last first.
-/
def codeLengths (bytes : ByteArray) (code : Code) (total : Nat) : Nat → Nat → List Nat →
    Option (List Nat × Nat)
  | 0, _, _ => none
  | bound + 1, offset, lengths =>
      if lengths.length = total then some (lengths.reverse, offset)
      else if total < lengths.length then none
      else do
        let (symbol, offset) ← code.decode bytes offset
        if symbol < 16 then codeLengths bytes code total bound offset (symbol :: lengths)
        else if symbol = 16 then
          let last ← lengths.head?
          let extra ← bits? bytes offset 2
          codeLengths bytes code total bound (offset + 2)
            (List.replicate (3 + extra) last ++ lengths)
        else if symbol = 17 then
          let extra ← bits? bytes offset 3
          codeLengths bytes code total bound (offset + 3) (List.replicate (3 + extra) 0 ++ lengths)
        else
          let extra ← bits? bytes offset 7
          codeLengths bytes code total bound (offset + 7) (List.replicate (11 + extra) 0 ++ lengths)

/-- The codes that are sent in front of a block, with the offset after them. -/
def sentCodes (bytes : ByteArray) (offset : Nat) : Option (Code × Code × Nat) := do
  let literalCount := 257 + (← bits? bytes offset 5)
  let distanceCount := 1 + (← bits? bytes (offset + 5) 5)
  let lengthCount := 4 + (← bits? bytes (offset + 10) 4)
  if 286 < literalCount ∨ 30 < distanceCount then none
  let sent ← threeBitNumbers bytes lengthCount (offset + 14)
  let pairs := lengthOrder.zip sent
  let code ← Code.complete? ((List.range 19).map fun symbol => (pairs.lookup symbol).getD 0)
  let total := literalCount + distanceCount
  let (lengths, offset) ←
    codeLengths bytes code total (total + 1) (offset + 14 + 3 * lengthCount) []
  let literals ← Code.ofLengths? (lengths.take literalCount)
  let distances ← Code.ofLengths? (lengths.drop literalCount)
  return (literals, distances, offset)

/-- The blocks up to the last one; a block takes at least three bits. -/
def blocks (bytes : ByteArray) : Nat → Nat → ByteArray → Option ByteArray
  | 0, _, _ => none
  | bound + 1, offset, output => do
      let last ← bit? bytes offset
      let kind ← bits? bytes (offset + 1) 2
      let (offset, output) ← match kind with
        | 0 => storedBlock bytes (offset + 3) output
        | 1 => do
            codedBlock bytes (← fixedLiterals) (← fixedDistances) (8 * bytes.size) (offset + 3)
              output
        | 2 => do
            let (literals, distances, offset) ← sentCodes bytes (offset + 3)
            codedBlock bytes literals distances (8 * bytes.size) offset output
        | _ => none
      if last = 1 then return output else blocks bytes bound offset output

/-- What deflated data stand for; none if they are damaged or end too early. -/
def inflate? (bytes : ByteArray) : Option ByteArray :=
  blocks bytes (8 * bytes.size) 0 ByteArray.empty

end ModCatalog.Archive.Inflate
