/-! # Cyclic checksums

The 32-bit checksum over the polynomial `04C11DB7`, in its two bit orders: lowest bit first, as gzip
uses it, and highest bit first, as bzip2 does.  Both are computed a byte at a time from a table of
the 256 single-byte remainders.
-/
namespace Palmtop.Archive.Codec

/-- Divides `n` more bits, lowest first. -/
def remainderLow : Nat → UInt32 → UInt32
  | 0, r => r
  | n + 1, r => remainderLow n (if r &&& 1 = 1 then (r >>> 1) ^^^ 0xEDB88320 else r >>> 1)

/-- Divides `n` more bits, highest first. -/
def remainderHigh : Nat → UInt32 → UInt32
  | 0, r => r
  | n + 1, r =>
    remainderHigh n (if r &&& 0x80000000 = 0 then r <<< 1 else (r <<< 1) ^^^ 0x04C11DB7)

/-- The remainders of the single bytes, lowest bit first. -/
def tableLow : Array UInt32 := (Array.range 256).map fun i => remainderLow 8 (UInt32.ofNat i)

/-- The remainders of the single bytes, highest bit first. -/
def tableHigh : Array UInt32 :=
  (Array.range 256).map fun i => remainderHigh 8 (UInt32.ofNat i <<< 24)

/-- One more byte into a running remainder, lowest bit first. -/
def stepLow (r : UInt32) (b : UInt8) : UInt32 :=
  (r >>> 8) ^^^ tableLow.getD ((r ^^^ b.toUInt32) &&& 0xFF).toNat 0

/-- One more byte into a running remainder, highest bit first. -/
def stepHigh (r : UInt32) (b : UInt8) : UInt32 :=
  (r <<< 8) ^^^ tableHigh.getD ((r >>> 24) ^^^ b.toUInt32).toNat 0

/-- The checksum of bytes, lowest bit first. -/
def checksumLow (bytes : ByteArray) : UInt32 := bytes.foldl stepLow 0xFFFFFFFF ^^^ 0xFFFFFFFF

end Palmtop.Archive.Codec
