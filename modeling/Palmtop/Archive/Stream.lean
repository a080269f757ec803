/-! # Byte streams

What can be read from a file through its decoder: the bytes that come out, and whether something
other than the end comes after them, an unreadable file or a decoder that gave up.
-/
namespace Palmtop.Archive

/-- The bytes delivered, and whether they end in an error. -/
structure Stream where
  bytes : ByteArray
  damaged : Bool := false

end Palmtop.Archive
