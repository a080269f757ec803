import Palmtop.Archive.Codec.Checksum
import Palmtop.Archive.Codec.Deflate
import Palmtop.Archive.Stream

/-! # Gzip

A header with optional parts, one deflate stream, and a trailer with the checksum and the size of
the content.  Only the first member of a file counts; what follows it is not read.  A wrong trailer
is noticed behind the last byte, so all content is delivered before the damage.
-/
namespace Palmtop.Archive.Codec.Gzip

/-- The number written in `n` bytes from `i` on, lowest byte first. -/
def number (bytes : ByteArray) (i : Nat) : (n : Nat) → Nat
  | 0 => 0
  | n + 1 => byteAt bytes i + 256 * number bytes (i + 1) n

/-- The index behind the next zero byte; `limit` bounds the search. -/
def afterZero (bytes : ByteArray) : (limit i : Nat) → Option Nat
  | 0, _ => none
  | limit + 1, i =>
    if i < bytes.size then
      if byteAt bytes i = 0 then some (i + 1) else afterZero bytes limit (i + 1)
    else none

/-- Where the content starts, if the header is sound. -/
def headerEnd? (bytes : ByteArray) : Option Nat := do
  let flags := byteAt bytes 3
  let has (bit : Nat) := (flags >>> bit) % 2 == 1
  if bytes.size < 10 ∨ number bytes 0 2 ≠ 0x8B1F ∨ byteAt bytes 2 ≠ 8 ∨ flags ≥ 32 then none
  let i := 10
  let i ← if has 2 then
      if i + 2 ≤ bytes.size then some (i + 2 + number bytes i 2) else none
    else some i
  let i ← if has 3 then afterZero bytes bytes.size i else some i
  let i ← if has 4 then afterZero bytes bytes.size i else some i
  let i ← if has 1 then
      let sum := (checksumLow (bytes.extract 0 i)).toNat % 65536
      if i + 2 ≤ bytes.size ∧ number bytes i 2 = sum then some (i + 2) else none
    else some i
  if i ≤ bytes.size then some i else none

/-- What a gzip file delivers. -/
def decode (bytes : ByteArray) : Stream :=
  match headerEnd? bytes with
  | none => ⟨.empty, true⟩
  | some start =>
    match Deflate.inflate bytes start with
    | (.error .truncated, s) => ⟨s.out, true⟩
    | (.error .corrupt, s) => ⟨s.out.extract 0 s.handedOn, true⟩
    | (.ok (), s) =>
      let i := s.pos / 8
      let sound := i + 8 ≤ bytes.size ∧ number bytes i 4 = (checksumLow s.out).toNat
        ∧ number bytes (i + 4) 4 = s.out.size % UInt32.size
      ⟨s.out, !decide sound⟩

/-- Four bytes, the lowest first. -/
def fourBytes (n : Nat) : ByteArray := Deflate.twoBytes n ++ Deflate.twoBytes (n / 65536)

/-- A gzip file with this content. -/
def encode (bytes : ByteArray) : ByteArray :=
  ⟨#[0x1F, 0x8B, 8, 0, 0, 0, 0, 0, 2, 255]⟩ ++ Deflate.store bytes
    ++ fourBytes (checksumLow bytes).toNat ++ fourBytes bytes.size

end Palmtop.Archive.Codec.Gzip
