/-! # Reading bits

Decoders read bits off a byte string from a position counted in bits.  A decoder stops for one of
two reasons: the input is used up, or it breaks the rules of its format; what was produced up to
there stays in the decoder's state.
-/
namespace Palmtop.Archive.Codec

/-- Why a decoder stopped early. -/
inductive Fault where
  /-- The input ends in the middle. -/
  | truncated
  /-- The input breaks the format. -/
  | corrupt
  deriving DecidableEq

/-- The byte at `i`, zero behind the end. -/
def byteAt (bytes : ByteArray) (i : Nat) : Nat :=
  if h : i < bytes.size then bytes[i].toNat else 0

/-- The bit at `pos` of bytes that hold their lowest bit first. -/
def bitLow (bytes : ByteArray) (pos : Nat) : Nat := (byteAt bytes (pos / 8) >>> (pos % 8)) % 2

/-- The bit at `pos` of bytes that hold their highest bit first. -/
def bitHigh (bytes : ByteArray) (pos : Nat) : Nat :=
  (byteAt bytes (pos / 8) >>> (7 - pos % 8)) % 2

/-- The `n` bits from `pos` on as a number, the first bit lowest. -/
def valueLow (bytes : ByteArray) : (n pos : Nat) → Nat
  | 0, _ => 0
  | n + 1, pos => bitLow bytes pos + 2 * valueLow bytes n (pos + 1)

/-- The `n` bits from `pos` on behind the number `acc`, the first bit highest. -/
def valueHigh (bytes : ByteArray) : (n pos acc : Nat) → Nat
  | 0, _, acc => acc
  | n + 1, pos, acc => valueHigh bytes n (pos + 1) (2 * acc + bitHigh bytes pos)

/-- Whether `n` more bits follow `pos`. -/
def hasBits (bytes : ByteArray) (n pos : Nat) : Bool := pos + n ≤ 8 * bytes.size

end Palmtop.Archive.Codec
