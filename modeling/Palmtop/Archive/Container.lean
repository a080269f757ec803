import Palmtop.Archive.Codec.Bzip2
import Palmtop.Archive.Codec.Gzip
import Palmtop.Archive.Compression
import Palmtop.Archive.Tar
import Palmtop.Files

/-! # Archive files

An archive file is a tar file behind its compression.  `Compression.wrap` and `Compression.unwrap`
are the two directions of the compression, `load` reads the members of the file at a path.  A
directory can be opened like a file but not read, so it loads as a file that breaks off at once.
-/
namespace Palmtop.Archive

/-- The file with this tar file inside. -/
def Compression.wrap : Compression → ByteArray → ByteArray
  | .plain, bytes => bytes
  | .gzip, bytes => Codec.Gzip.encode bytes
  | .bzip2, bytes => Codec.Bzip2.encode bytes

/-- The tar file inside a file. -/
def Compression.unwrap : Compression → ByteArray → Stream
  | .plain, bytes => ⟨bytes, false⟩
  | .gzip, bytes => Codec.Gzip.decode bytes
  | .bzip2, bytes => Codec.Bzip2.decode bytes

/-- The members of the archive at a path. -/
def load (files : Files) (path : Path) : Except Error Tar.Contents :=
  match files.node path with
  | .error .notFound => .error (.notFound path)
  | .error .failed => .error .io
  | .ok .directory => .ok (Tar.read ⟨.empty, true⟩)
  | .ok (.file bytes) => .ok (Tar.read ((Compression.ofPath path).unwrap bytes))

end Palmtop.Archive
