/-!
# Compressed data

Compressed data is a sequence of blocks. A block holds bytes as they are, or symbols in a code that
may come with the block: a byte, the end of the block, or the length of a copy of what has been
written before, whose distance follows in a code of its own. Bits are taken from the lowest of each
byte on. Checksums are not looked at.
-/

namespace ScreenScript.Deflate

abbrev Reading := StateT Nat Option

def bit (bytes : ByteArray) : Reading Nat := fun position =>
  (bytes[position / 8]?).map fun byte => (byte.toNat >>> (position % 8) % 2, position + 1)

def number (bytes : ByteArray) : Nat → Reading Nat
  | 0 => pure 0
  | n + 1 => do
    let low ← bit bytes
    return low + 2 * (← number bytes n)

/-! ## Codes -/

/-- A code in which the words of a length are consecutive numbers, and follow those of shorter ones. -/
structure Code where
  /-- How many words there are of each length, from one bit on. -/
  counts : List Nat
  symbols : Array Nat

namespace Code

def maxLength : Nat := 15

/-- The code in which symbols have words of these lengths; a symbol of length zero has none. -/
def ofLengths (lengths : List Nat) : Code :=
  let groups := (List.range maxLength).map fun n =>
    (lengths.zipIdx.filter fun (length, _) => length = n + 1).map Prod.snd
  { counts := groups.map List.length, symbols := groups.flatten.toArray }

/--
The symbol of the next word. Of the length read so far, `word` are the bits, `first` is the word after
all shorter ones and `index` the number of those.
-/
def readFrom (bytes : ByteArray) (symbols : Array Nat) (word first index : Nat) :
    List Nat → Reading Nat
  | [] => failure
  | count :: longer => do
    let word := 2 * word + (← bit bytes)
    let first := 2 * first
    if word < first + count then liftOption symbols[index + (word - first)]?
    else readFrom bytes symbols word (first + count) (index + count) longer
where
  liftOption : Option Nat → Reading Nat
    | some n => pure n
    | none => failure

def read (bytes : ByteArray) (code : Code) : Reading Nat :=
  readFrom bytes code.symbols 0 0 0 code.counts

end Code

/-! ## Blocks -/

/-- The smallest value of each symbol of a length, with the count of bits that are added to it. -/
def lengthRanges : Array (Nat × Nat) :=
  #[(3, 0), (4, 0), (5, 0), (6, 0), (7, 0), (8, 0), (9, 0), (10, 0), (11, 1), (13, 1), (15, 1),
    (17, 1), (19, 2), (23, 2), (27, 2), (31, 2), (35, 3), (43, 3), (51, 3), (59, 3), (67, 4),
    (83, 4), (99, 4), (115, 4), (131, 5), (163, 5), (195, 5), (227, 5), (258, 0)]

/-- The smallest value of each symbol of a distance, with the count of bits that are added to it. -/
def distanceRanges : Array (Nat × Nat) :=
  #[(1, 0), (2, 0), (3, 0), (4, 0), (5, 1), (7, 1), (9, 2), (13, 2), (17, 3), (25, 3), (33, 4),
    (49, 4), (65, 5), (97, 5), (129, 6), (193, 6), (257, 7), (385, 7), (513, 8), (769, 8),
    (1025, 9), (1537, 9), (2049, 10), (3073, 10), (4097, 11), (6145, 11), (8193, 12), (12289, 12),
    (16385, 13), (24577, 13)]

def extended (bytes : ByteArray) (ranges : Array (Nat × Nat)) (symbol : Nat) : Reading Nat :=
  match ranges[symbol]? with
  | some (least, count) => do return least + (← number bytes count)
  | none => failure

def copy (length distance : Nat) (output : ByteArray) : ByteArray :=
  length.fold (fun _ _ output => output.push ((output[output.size - distance]?).getD 0)) output

def symbols (bytes : ByteArray) (literals distances : Code) : Nat → ByteArray → Reading ByteArray
  | 0, _ => failure
  | steps + 1, output => do
    let symbol ← literals.read bytes
    if symbol < 256 then symbols bytes literals distances steps (output.push symbol.toUInt8)
    else if symbol = 256 then return output
    else
      let length ← extended bytes lengthRanges (symbol - 257)
      let distance ← extended bytes distanceRanges (← distances.read bytes)
      if output.size < distance then failure
      symbols bytes literals distances steps (copy length distance output)

/-- Reads a block of bytes as they are, which starts at the next whole byte with its length. -/
def stored (bytes output : ByteArray) : Reading ByteArray := do
  modify fun position => (position + 7) / 8 * 8
  let length ← number bytes 16
  let _ ← number bytes 16
  let start := (← get) / 8
  if bytes.size < start + length then failure
  set (8 * (start + length))
  return output ++ bytes.extract start (start + length)

def fixedCodes : Code × Code :=
  (.ofLengths (List.replicate 144 8 ++ List.replicate 112 9 ++ List.replicate 24 7 ++
    List.replicate 8 8), .ofLengths (List.replicate 30 5))

def lengthOrder : List Nat :=
  [16, 17, 18, 0, 8, 7, 9, 6, 10, 5, 11, 4, 12, 3, 13, 2, 14, 1, 15]

def lengthsOf (bytes : ByteArray) (last symbol : Nat) : Reading (List Nat) :=
  match symbol with
  | 16 => do return List.replicate (3 + (← number bytes 2)) last
  | 17 => do return List.replicate (3 + (← number bytes 3)) 0
  | 18 => do return List.replicate (11 + (← number bytes 7)) 0
  | length => return [length]

/-- Reads lengths until there are `count`, after those that are `done`, which are in reverse order. -/
def wordLengths (bytes : ByteArray) (code : Code) (count : Nat) : Nat → List Nat → Reading (List Nat)
  | 0, done => if done.length = count then return done.reverse else failure
  | steps + 1, done => do
    if done.length = count then return done.reverse
    let more ← lengthsOf bytes (done.headD 0) (← code.read bytes)
    wordLengths bytes code count steps (more ++ done)

def ownCodes (bytes : ByteArray) : Reading (Code × Code) := do
  let literals := 257 + (← number bytes 5)
  let distances := 1 + (← number bytes 5)
  let given := 4 + (← number bytes 4)
  let lengths ← (lengthOrder.take given).mapM fun symbol => do return (symbol, ← number bytes 3)
  let code := Code.ofLengths ((List.range 19).map fun symbol => (lengths.lookup symbol).getD 0)
  let all ← wordLengths bytes code (literals + distances) (literals + distances) []
  return (.ofLengths (all.take literals), .ofLengths (all.drop literals))

def block (bytes output : ByteArray) (kind : Nat) : Reading ByteArray := do
  let steps := 8 * bytes.size
  match kind with
  | 0 => stored bytes output
  | 1 => symbols bytes fixedCodes.1 fixedCodes.2 steps output
  | 2 =>
    let (literals, distances) ← ownCodes bytes
    symbols bytes literals distances steps output
  | _ => failure

def blocks (bytes : ByteArray) : Nat → ByteArray → Reading ByteArray
  | 0, _ => failure
  | steps + 1, output => do
    let last ← bit bytes
    let output ← block bytes output (← number bytes 2)
    if last = 1 then return output else blocks bytes steps output

def headerLength : Nat := 16

def inflate? (bytes : ByteArray) : Option ByteArray :=
  (blocks bytes (8 * bytes.size) .empty headerLength).map Prod.fst

end ScreenScript.Deflate
