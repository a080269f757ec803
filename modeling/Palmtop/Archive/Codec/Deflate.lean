import Palmtop.Archive.Codec.Bits

/-! # Deflate

The inflater reads the three kinds of blocks: stored bytes, fixed codes, and codes described in
front of the block.  A code is canonical, so the count of codes of each length and the symbols in
code order determine it; a code has to be complete unless it has at most one symbol.

**What a broken input still delivers.**  Output is handed on in batches.  A batch ends when a
window of 32 KiB is full and more is to be written, and when the decoder runs out of a 32 KiB chunk
of its input. A corrupt input delivers the batches before the one in which the fault lies
(`handedOn`); an input that merely ends too early delivers everything decoded.

`store` writes the simplest stream that inflates to given bytes: stored blocks alone.
-/
namespace Palmtop.Archive.Codec.Deflate

/-! ## Codes -/

/-- A canonical code: how many codes there are of each length from one on, and the symbols in order
of their codes. -/
structure Code where
  counts : List Nat
  symbols : Array Nat

/-- The code in which symbol `i` has length `lengths[i]`, zero meaning that it does not occur. -/
def Code.ofLengths (lengths : Array Nat) : Code :=
  let withLength (n : Nat) := (List.range lengths.size).filter fun i => lengths.getD i 0 == n
  let bySize := (List.range 15).map fun n => withLength (n + 1)
  ⟨bySize.map (·.length), bySize.flatten.toArray⟩

/-- How much of the code space is used; a complete code uses all of it. -/
def Code.space (c : Code) : Nat :=
  c.counts.zipIdx.foldr (fun p n => p.1 <<< (14 - p.2) + n) 0

/-- Whether the code is complete or has at most one symbol. -/
def Code.isUsable (c : Code) : Bool := c.space == 1 <<< 15 || c.symbols.size ≤ 1

/-- The symbol whose code stands at the front, and the number of its bits.  `code` and `first` are
the bits read and the first code of the present length, `index` counts the symbols of shorter
codes. -/
def Code.find (bytes : ByteArray) (symbols : Array Nat) :
    List Nat → (pos used code first index : Nat) → Except Fault (Nat × Nat)
  | [], _, _, _, _, _ => .error .corrupt
  | count :: counts, pos, used, code, first, index =>
    if hasBits bytes 1 pos then
      let code := code + bitLow bytes pos
      if code < first + count then .ok (symbols.getD (index + (code - first)) 0, used + 1)
      else
        find bytes symbols counts (pos + 1) (used + 1) (2 * code) (2 * (first + count))
          (index + count)
    else .error .truncated

/-- The code of the fixed blocks for literals and lengths. -/
def fixedLiterals : Code :=
  .ofLengths (Array.replicate 144 8 ++ Array.replicate 112 9 ++ Array.replicate 24 7
    ++ Array.replicate 8 8)

/-- The code of the fixed blocks for distances. -/
def fixedDistances : Code := .ofLengths (Array.replicate 32 5)

/-- Base and extra bits of the length symbols, from 257 on. -/
def lengthForms : Array (Nat × Nat) :=
  #[(3, 0), (4, 0), (5, 0), (6, 0), (7, 0), (8, 0), (9, 0), (10, 0), (11, 1), (13, 1), (15, 1),
    (17, 1), (19, 2), (23, 2), (27, 2), (31, 2), (35, 3), (43, 3), (51, 3), (59, 3), (67, 4),
    (83, 4), (99, 4), (115, 4), (131, 5), (163, 5), (195, 5), (227, 5), (258, 0)]

/-- Base and extra bits of the distance symbols. -/
def distanceForms : Array (Nat × Nat) :=
  #[(1, 0), (2, 0), (3, 0), (4, 0), (5, 1), (7, 1), (9, 2), (13, 2), (17, 3), (25, 3), (33, 4),
    (49, 4), (65, 5), (97, 5), (129, 6), (193, 6), (257, 7), (385, 7), (513, 8), (769, 8), (1025, 9),
    (1537, 9), (2049, 10), (3073, 10), (4097, 11), (6145, 11), (8193, 12), (12289, 12), (16385, 13),
    (24577, 13)]

/-- The order in which the lengths of the code for code lengths are given. -/
def lengthOrder : List Nat := [16, 17, 18, 0, 8, 7, 9, 6, 10, 5, 11, 4, 12, 3, 13, 2, 14, 1, 15]

/-! ## The inflater -/

/-- The size of the output window and of the input chunks. -/
def window : Nat := 32768

/-- The state of an inflater. -/
structure State where
  bytes : ByteArray
  /-- The next bit to read. -/
  pos : Nat
  out : ByteArray := .empty
  /-- How much of the output belongs to batches already handed on. -/
  handedOn : Nat := 0

/-- A step of the inflater. -/
abbrev Inflate := ExceptT Fault (StateM State)

/-- Moves on to bit `pos`; if that takes the first bits of a new chunk of input, all output so far
was handed on before. -/
def moveTo (pos : Nat) : Inflate Unit := do
  let s ← get
  let chunk (p : Nat) := (p - 1) / (8 * window)
  if chunk pos > chunk s.pos then set { s with pos, handedOn := s.out.size }
  else set { s with pos }

/-- The next `n` bits as a number. -/
def bits (n : Nat) : Inflate Nat := do
  let s ← get
  if hasBits s.bytes n s.pos then
    moveTo (s.pos + n)
    pure (valueLow s.bytes n s.pos)
  else throw .truncated

/-- The next symbol of a code. -/
def symbol (c : Code) : Inflate Nat := do
  let s ← get
  match Code.find s.bytes c.symbols c.counts s.pos 0 0 0 0 with
  | .ok (value, used) => moveTo (s.pos + used); pure value
  | .error fault => throw fault

/-- Writes one byte; a full window is handed on first. -/
def emit (b : UInt8) : Inflate Unit :=
  modify fun s =>
    let size := s.out.size
    let handedOn := if size % window = 0 then max s.handedOn size else s.handedOn
    { s with out := s.out.push b, handedOn }

/-- Repeats `n` bytes from `distance` bytes back; what lies before the start counts as zero. -/
def repeatFrom (distance : Nat) : Nat → Inflate Unit
  | 0 => pure ()
  | n + 1 => do
    let s ← get
    let b := if distance ≤ s.out.size then byteAt s.out (s.out.size - distance) else 0
    emit (UInt8.ofNat b)
    repeatFrom distance n

/-- The bytes of a stored block. -/
def stored : Nat → Inflate Unit
  | 0 => pure ()
  | n + 1 => do
    let b ← bits 8
    emit (UInt8.ofNat b)
    stored n

/-- Symbols up to the end of the block; `limit` bounds their number. -/
def symbols (literals distances : Code) : (limit : Nat) → Inflate Unit
  | 0 => throw .truncated
  | limit + 1 => do
    let value ← symbol literals
    if value < 256 then
      emit (UInt8.ofNat value)
      symbols literals distances limit
    else if value = 256 then pure ()
    else match lengthForms[value - 257]? with
      | none => throw .corrupt
      | some (base, extra) =>
        let more ← bits extra
        let d ← symbol distances
        match distanceForms[d]? with
        | none => throw .corrupt
        | some (start, extra) =>
          let further ← bits extra
          repeatFrom (start + further) (base + more)
          symbols literals distances limit

/-- The lengths of the code for code lengths, put at their places. -/
def metaLengths : List Nat → Array Nat → Inflate (Array Nat)
  | [], lengths => pure lengths
  | i :: rest, lengths => do
    let n ← bits 3
    metaLengths rest (lengths.set! i n)

/-- The lengths of the two codes of a block, `total` of them; `limit` bounds the number of steps. -/
def codeLengths (c : Code) (total : Nat) : (limit : Nat) → Array Nat → Inflate (Array Nat)
  | 0, lengths => pure lengths
  | limit + 1, lengths => do
    if total ≤ lengths.size then
      if lengths.size = total then pure lengths else throw .corrupt
    else
      let value ← symbol c
      if value < 16 then codeLengths c total limit (lengths.push value)
      else if value = 16 then
        match lengths.back? with
        | none => throw .corrupt
        | some last =>
          let n ← bits 2
          codeLengths c total limit (lengths ++ Array.replicate (n + 3) last)
      else
        let n ← if value = 17 then bits 3 else bits 7
        let least := if value = 17 then 3 else 11
        codeLengths c total limit (lengths ++ Array.replicate (n + least) 0)

/-- The two codes described in front of a block. -/
def dynamicCodes : Inflate (Code × Code) := do
  let literals := (← bits 5) + 257
  let distances := (← bits 5) + 1
  let given := (← bits 4) + 4
  if literals > 286 ∨ distances > 30 then throw .corrupt
  let lengths ← metaLengths (lengthOrder.take given) (Array.replicate 19 0)
  let c := Code.ofLengths lengths
  if !c.isUsable then throw .corrupt
  let lengths ← codeLengths c (literals + distances) (literals + distances + 1) #[]
  let first := Code.ofLengths (lengths.extract 0 literals)
  let second := Code.ofLengths (lengths.extract literals lengths.size)
  if !first.isUsable || !second.isUsable then throw .corrupt
  pure (first, second)

/-- Moves on to the next whole byte. -/
def align : Inflate Unit := do
  let s ← get
  moveTo (8 * ((s.pos + 7) / 8))

/-- One block; answers whether it was the last. -/
def block : Inflate Bool := do
  let last ← bits 1
  let kind ← bits 2
  let s ← get
  let limit := 8 * s.bytes.size - s.pos + 1
  if kind = 0 then
    align
    let n ← bits 16
    let complement ← bits 16
    if n + complement ≠ 65535 then throw .corrupt
    stored n
  else if kind = 1 then symbols fixedLiterals fixedDistances limit
  else if kind = 2 then
    let (literals, distances) ← dynamicCodes
    symbols literals distances limit
  else throw .corrupt
  pure (last == 1)

/-- Blocks up to the last; `limit` bounds their number. -/
def blocks : (limit : Nat) → Inflate Unit
  | 0 => throw .truncated
  | limit + 1 => do
    if ← block then align else blocks limit

/-- Inflates the stream that starts at byte `start`. -/
def inflate (bytes : ByteArray) (start : Nat) : Except Fault Unit × State :=
  (blocks (8 * bytes.size + 1)).run.run { bytes, pos := 8 * start }

/-! ## Storing -/

/-- Two bytes, the lower first. -/
def twoBytes (n : Nat) : ByteArray := ⟨#[UInt8.ofNat n, UInt8.ofNat (n / 256)]⟩

/-- The greatest size of a stored block. -/
def storedLimit : Nat := 65535

/-- One stored block. -/
def storedBlock (last : Bool) (bytes : ByteArray) : ByteArray :=
  ⟨#[if last then 1 else 0]⟩ ++ twoBytes bytes.size ++ twoBytes (65535 - bytes.size) ++ bytes

/-- Stored blocks for the bytes from `start` on; `n` more than full blocks are left. -/
def storeFrom (bytes : ByteArray) : (n start : Nat) → ByteArray → ByteArray
  | 0, start, out => out ++ storedBlock true (bytes.extract start bytes.size)
  | n + 1, start, out =>
    let full := bytes.extract start (start + storedLimit)
    storeFrom bytes n (start + storedLimit) (out ++ storedBlock false full)

/-- A stream of stored blocks that inflates to these bytes. -/
def store (bytes : ByteArray) : ByteArray := storeFrom bytes (bytes.size / storedLimit) 0 .empty

end Palmtop.Archive.Codec.Deflate
