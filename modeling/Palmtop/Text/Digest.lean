import Palmtop.Text.Digits

/-! # Bytes in brief

Bytes are shown as hexadecimal digits, two to a byte; long ones by their number and a hash that
tells different contents apart.
-/
namespace Palmtop.Text

/-- Two digits for each byte. -/
def hexBytes (b : ByteArray) : String :=
  String.ofList (b.data.toList.flatMap fun x => padded 16 2 x.toNat)

/-- The bytes of hexadecimal digits, in pairs; what is no digit counts as zero. -/
def bytesOfHex (cs : List Char) : ByteArray :=
  go cs .empty
where
  go : List Char → ByteArray → ByteArray
    | a :: b :: rest, out =>
      let value (c : Char) := (digitIn? 16 c).getD 0
      go rest (out.push (UInt8.ofNat (16 * value a + value b)))
    | _, out => out

/-- A hash of 64 bits: each byte is mixed in and the whole multiplied by a prime. -/
def hash (b : ByteArray) : UInt64 :=
  b.foldl (fun h x => (h ^^^ x.toUInt64) * 0x100000001b3) 0xcbf29ce484222325

/-- The digits of at most 64 bytes; of more, their number and hash. -/
def brief (b : ByteArray) : String :=
  if b.size ≤ 64 then hexBytes b
  else s!"len={b.size} fnv={String.ofList (padded 16 16 (hash b).toNat)}"

end Palmtop.Text
