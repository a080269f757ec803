import Palmtop.Archive.Codec.Bits
import Palmtop.Archive.Codec.Checksum
import Palmtop.Archive.Codec.Rotation
import Palmtop.Archive.Stream

/-! # Bzip2

A file is a header, blocks, and an end mark with a checksum over the checksums of the blocks.  A
block holds content that went through run-length coding, block sorting, moving to the front, a
coding of zero runs and up to six Huffman codes that change every fifty symbols.

**What a broken input still delivers.**  The checksum of a block is tested when its last byte is
handed on, in the same call, so a block with a wrong checksum delivers all but its last byte.  So
does the last sound block when the fault behind it lies in the same 8 KiB chunk of the input: the
decoder goes straight on to what follows.  Input that merely ends too early delivers all blocks
decoded.

`encode` writes small blocks, each with two equal codes in which all symbols have the same length.
-/
namespace Palmtop.Archive.Codec.Bzip2

/-! ## Reading -/

/-- The state of a decoder: the input, the next bit, and the content of the blocks decoded so far.
-/
structure State where
  bytes : ByteArray
  pos : Nat
  out : ByteArray := .empty
  /-- The position behind the last block decoded. -/
  blockEnd : Nat := 0
  /-- The checksum over the checksums of the blocks. -/
  combined : UInt32 := 0
  /-- The last byte of the last block is withheld, its checksum being wrong. -/
  withheld : Bool := false

/-- A step of the decoder. -/
abbrev Decode := ExceptT Fault (StateM State)

/-- The next `n` bits as a number. -/
def bits (n : Nat) : Decode Nat := do
  let s ← get
  if hasBits s.bytes n s.pos then
    set { s with pos := s.pos + n }
    pure (valueHigh s.bytes n s.pos 0)
  else
    set { s with pos := 8 * s.bytes.size }
    throw .truncated

/-- A code: for each length the codes of that length end before `limits`, and `symbols` lists the
symbols by length and value. -/
structure Code where
  least : Nat
  counts : List Nat
  symbols : Array Nat

/-- The code in which symbol `i` has `lengths[i]` bits. -/
def Code.ofLengths (lengths : Array Nat) : Code :=
  let withLength (n : Nat) := (List.range lengths.size).filter fun i => lengths.getD i 0 == n
  let bySize := (List.range 20).map fun n => withLength (n + 1)
  { least := lengths.foldl min 32
    counts := bySize.map (·.length)
    symbols := bySize.flatten.toArray }

/-- The symbol at the front.  `code` and `first` are the bits read and the first code of the present
length, `index` counts the symbols of shorter codes. -/
def Code.next (symbols : Array Nat) : List Nat → (code first index : Nat) → Decode Nat
  | [], _, _, _ => throw .corrupt
  | count :: counts, code, first, index => do
    let code := code + (← bits 1)
    if code < first + count then
      if code < first then throw .corrupt
      match symbols[index + (code - first)]? with
      | some value => pure value
      | none => throw .corrupt
    else next symbols counts (2 * code) (2 * (first + count)) (index + count)

/-- How many bits in a row are set, up to the first that is not; fewer than `bound`. -/
def unary (bound : Nat) : (limit n : Nat) → Decode Nat
  | 0, _ => throw .corrupt
  | limit + 1, n => do
    if (← bits 1) = 0 then pure n
    else if n + 1 ≥ bound then throw .corrupt
    else unary bound limit (n + 1)

/-- `n` times a step, the answers in order. -/
def times {α : Type} (step : Decode α) : (n : Nat) → Array α → Decode (Array α)
  | 0, out => pure out
  | n + 1, out => do
    let a ← step
    times step n (out.push a)

/-- Takes the element at `i` to the front. -/
def toFront {α : Type} (l : List α) (i : Nat) : List α :=
  match l[i]? with
  | some a => a :: l.eraseIdx i
  | none => l

/-- Undoes moving to the front for the choice of codes. -/
def choices : List Nat → List Nat → Array Nat → Array Nat
  | [], _, out => out
  | i :: rest, l, out => choices rest (toFront l i) (out.push (l.getD i 0))

/-- The length of one symbol's code, starting from the length before it; `limit` bounds the steps.
-/
def codeLength : (limit length : Nat) → Decode Nat
  | 0, _ => throw .corrupt
  | limit + 1, length => do
    if length < 1 ∨ length > 20 then throw .corrupt
    if (← bits 1) = 0 then pure length
    else if (← bits 1) = 0 then codeLength limit (length + 1)
    else codeLength limit (length - 1)

/-- The lengths of `n` codes, each starting from the one before. -/
def codeLengths : (n length : Nat) → Array Nat → Decode (Array Nat)
  | 0, _, out => pure out
  | n + 1, length, out => do
    let s ← get
    let length ← codeLength (8 * s.bytes.size) length
    codeLengths n length (out.push length)

/-- One code for `size` symbols. -/
def code (size : Nat) : Decode Code := do
  let length ← bits 5
  pure (.ofLengths (← codeLengths size length #[]))

/-- The byte values used in a block: which groups of sixteen, then which of each group. -/
def usedBytes : Decode (List UInt8) := do
  let groups ← times (bits 1) 16 #[]
  let rec ofGroups : List Nat → (base : Nat) → Decode (List UInt8)
    | [], _ => pure []
    | 0 :: rest, base => ofGroups rest (base + 16)
    | _ :: rest, base => do
      let marks ← times (bits 1) 16 #[]
      let here := (List.range 16).filter fun i => marks.getD i 0 == 1
      let further ← ofGroups rest (base + 16)
      pure (here.map (fun i => UInt8.ofNat (base + i)) ++ further)
  ofGroups groups.toList 0

/-- Reads symbols with codes that change every fifty symbols. -/
structure Coding where
  codes : Array Code
  selectors : Array Nat

/-- Symbol number `n` of a block. -/
def Coding.symbol (c : Coding) (n : Nat) : Decode Nat := do
  match c.selectors[n / 50]? with
  | none => throw .corrupt
  | some i =>
    match c.codes[i]? with
    | none => throw .corrupt
    | some code => Code.next code.symbols code.counts 0 0 0

/-- `n` copies of a byte behind the bytes. -/
def pushCopies (b : UInt8) : (n : Nat) → ByteArray → ByteArray
  | 0, out => out
  | n + 1, out => pushCopies b n (out.push b)

/-- The sorted column: symbols up to the end mark, zero runs spread out and moving to the front
undone. `run` and `weight` are the length of the zero run so far and the weight of its next digit.
-/
def column (c : Coding) (endMark most : Nat) :
    (limit n run weight : Nat) → List UInt8 → ByteArray → Decode ByteArray
  | 0, _, _, _, _, _ => throw .corrupt
  | limit + 1, n, run, weight, front, out => do
    let value ← c.symbol n
    if value ≤ 1 then
      if weight ≥ 2 * 1024 * 1024 then throw .corrupt
      column c endMark most limit (n + 1) (run + (value + 1) * weight) (2 * weight) front out
    else
      if out.size + run > most then throw .corrupt
      let out := pushCopies (front.headD 0) run out
      if value = endMark then pure out
      else
        if out.size ≥ most then throw .corrupt
        let front := toFront front (value - 1)
        column c endMark most limit (n + 1) 0 1 front (out.push (front.headD 0))

/-- Undoes the run-length coding: after four equal bytes the next one counts further copies.
`seen` is the length of the present run of `prev`. -/
def spread : List UInt8 → (prev : UInt8) → (seen : Nat) → ByteArray → ByteArray
  | [], _, _, out => out
  | b :: rest, prev, seen, out =>
    if seen = 4 then spread rest prev 0 (pushCopies prev b.toNat out)
    else if seen ≠ 0 ∧ b = prev then spread rest b (seen + 1) (out.push b)
    else spread rest b 1 (out.push b)

/-- One block behind its mark; `most` bounds its size before it is spread out. -/
def block (most : Nat) : Decode Unit := do
  let stored ← bits 32
  let randomised ← bits 1
  let origin ← bits 24
  if randomised = 1 ∨ origin > 10 + most then throw .corrupt
  let used ← usedBytes
  if used.isEmpty then throw .corrupt
  let size := used.length + 2
  let count ← bits 3
  if count < 2 ∨ count > 6 then throw .corrupt
  let selectors ← bits 15
  if selectors < 1 then throw .corrupt
  let chosen ← times (unary count (count + 1) 0) selectors #[]
  let codes ← times (code size) count #[]
  let coding := { codes, selectors := choices chosen.toList (List.range count) #[] }
  let limit := 8 * (← get).bytes.size
  let last ← column coding (used.length + 1) most limit 0 0 1 used .empty
  if origin ≥ last.size then throw .corrupt
  let content := spread (Rotation.restore last origin).data.toList 0 0 .empty
  let sum := content.foldl stepHigh 0xFFFFFFFF ^^^ 0xFFFFFFFF
  let sound := sum.toNat = stored
  modify fun s =>
    { s with
      out := s.out ++ content
      blockEnd := s.pos
      combined := ((s.combined <<< 1) ||| (s.combined >>> 31)) ^^^ sum
      withheld := !decide sound }
  if !decide sound then throw .corrupt

/-- The mark in front of a block: the digits of the circle number. -/
def blockMark : Nat := 0x314159265359

/-- The mark at the end: the digits of its square root. -/
def endMark : Nat := 0x177245385090

/-- A mark, read byte by byte so that a wrong one is noticed at its first wrong byte. -/
def mark : (n : Nat) → (candidates : List Nat) → Decode Nat
  | 0, candidates => pure (candidates.headD 0)
  | n + 1, candidates => do
    let b ← bits 8
    let left := candidates.filter fun m => m / 256 ^ n % 256 == b
    if left.isEmpty then throw .corrupt
    mark n left

/-- Blocks up to the end mark; `limit` bounds their number. -/
def blocks (most : Nat) : (limit : Nat) → Decode Unit
  | 0 => throw .truncated
  | limit + 1 => do
    let m ← mark 6 [blockMark, endMark]
    if m = endMark then
      let stored ← bits 32
      if stored ≠ (← get).combined.toNat then throw .corrupt
    else
      block most
      blocks most limit

/-- A whole file. -/
def file : Decode Unit := do
  let magic ← bits 24
  let level ← bits 8
  if magic ≠ 0x425A68 ∨ level < 49 ∨ level > 57 then throw .corrupt
  let limit := 8 * (← get).bytes.size
  blocks (100000 * (level - 48)) limit

/-- The size of the input chunks. -/
def chunk : Nat := 8192

/-- What a bzip2 file delivers. -/
def decode (bytes : ByteArray) : Stream :=
  match file.run.run { bytes, pos := 0 } with
  | (.ok (), s) => ⟨s.out, false⟩
  | (.error .truncated, s) => ⟨s.out, true⟩
  | (.error .corrupt, s) =>
    let sameChunk := (s.pos - 1) / (8 * chunk) = (s.blockEnd - 1) / (8 * chunk)
    if s.withheld ∨ sameChunk then ⟨s.out.extract 0 (s.out.size - 1), true⟩ else ⟨s.out, true⟩

/-! ## Writing -/

/-- The lowest `n` bits of a number, the highest first. -/
def bitsOf (value : Nat) : (n : Nat) → List Bool
  | 0 => []
  | n + 1 => (value / 2 ^ n % 2 == 1) :: bitsOf value n

/-- Run-length coding: at most 255 further copies behind four equal bytes.  `seen` counts the run of
`prev` so far, beyond four. -/
def gather : List UInt8 → (prev : UInt8) → (seen : Nat) → List UInt8
  | [], _, seen => if 4 ≤ seen then [UInt8.ofNat (seen - 4)] else []
  | b :: rest, prev, seen =>
    if seen ≠ 0 ∧ b = prev ∧ seen < 259 then
      if seen < 4 then b :: gather rest b (seen + 1) else gather rest b (seen + 1)
    else
      let close := if 4 ≤ seen then [UInt8.ofNat (seen - 4)] else []
      close ++ b :: gather rest b 1

/-- A run of `n` zeros in the digits one and two, the lowest first; `limit` bounds the digits. -/
def zeroRun : (limit n : Nat) → List Nat
  | 0, _ | _, 0 => []
  | limit + 1, n + 1 => n % 2 :: zeroRun limit (n / 2)

/-- The symbols of a sorted column, `zeros` of which are waiting. -/
def columnSymbols : List UInt8 → (front : List UInt8) → (zeros : Nat) → List Nat
  | [], front, zeros => zeroRun (zeros + 1) zeros ++ [front.length + 1]
  | b :: rest, front, zeros =>
    match front.findIdx (· == b) with
    | 0 => columnSymbols rest front (zeros + 1)
    | i + 1 =>
      zeroRun (zeros + 1) zeros ++ (i + 2) :: columnSymbols rest (toFront front (i + 1)) 0

/-- One block with this content. -/
def blockBits (content : ByteArray) : List Bool × UInt32 :=
  let sum := content.foldl stepHigh 0xFFFFFFFF ^^^ 0xFFFFFFFF
  let gathered : ByteArray := ⟨(gather content.data.toList 0 0).toArray⟩
  let (last, origin) := Rotation.sorted gathered
  let used := (List.range 256).filter fun i => gathered.data.toList.contains (UInt8.ofNat i)
  let groups := (List.range 16).map fun g => used.any fun i => i / 16 == g
  let marks := (List.range 16).flatMap fun g =>
    if used.any fun i => i / 16 == g then
      (List.range 16).map fun i => used.contains (16 * g + i)
    else []
  let symbols := columnSymbols last.data.toList (used.map UInt8.ofNat) 0
  let size := used.length + 2
  let width := max 1 (Nat.log2 (size - 1) + 1)
  let selectors := (symbols.length + 49) / 50
  let code := bitsOf width 5 ++ List.replicate size false
  (bitsOf blockMark 48 ++ bitsOf sum.toNat 32 ++ [false] ++ bitsOf origin 24 ++ groups ++ marks
    ++ bitsOf 2 3 ++ bitsOf selectors 15 ++ List.replicate selectors false ++ code ++ code
    ++ symbols.flatMap fun value => bitsOf value width, sum)

/-- The size of the blocks written. -/
def blockSize : Nat := 500

/-- The bits of a file from byte `start` on; `n` more blocks are to come. -/
def fileBits (bytes : ByteArray) : (n start : Nat) → (combined : UInt32) → List Bool → List Bool
  | 0, _, combined, out =>
    out.reverse ++ bitsOf endMark 48 ++ bitsOf combined.toNat 32
  | n + 1, start, combined, out =>
    let (bits, sum) := blockBits (bytes.extract start (start + blockSize))
    fileBits bytes n (start + blockSize) (((combined <<< 1) ||| (combined >>> 31)) ^^^ sum)
      (bits.reverseAux out)

/-- Eight bits a byte, the last byte filled up with zeros; `acc` holds the first `n` bits of a
byte. -/
def pack : List Bool → (n acc : Nat) → ByteArray → ByteArray
  | [], n, acc, out => if n = 0 then out else out.push (UInt8.ofNat (acc * 2 ^ (8 - n)))
  | b :: rest, n, acc, out =>
    let acc := 2 * acc + (if b then 1 else 0)
    if n = 7 then pack rest 0 0 (out.push (UInt8.ofNat acc)) else pack rest (n + 1) acc out

/-- A bzip2 file with this content. -/
def encode (bytes : ByteArray) : ByteArray :=
  pack (fileBits bytes ((bytes.size + blockSize - 1) / blockSize) 0 0 []) 0 0
    ⟨#[0x42, 0x5A, 0x68, 0x39]⟩

end Palmtop.Archive.Codec.Bzip2
