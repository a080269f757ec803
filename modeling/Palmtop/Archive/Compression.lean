import Palmtop.Archive.Error

/-! # Compression

An archive is a plain tar file or one that is compressed as a whole.  Which it is follows from the
extension of the file name, in either case.
-/
namespace Palmtop.Archive

/-- How the tar file is wrapped. -/
inductive Compression where
  | plain
  | gzip
  | bzip2
  deriving DecidableEq

namespace Compression

/-- Every way to wrap. -/
def all : List Compression := [.plain, .gzip, .bzip2]

/-- The name in settings files and for the user. -/
def key : Compression → String
  | .plain => "none"
  | .gzip => "gzip"
  | .bzip2 => "bzip2"

/-- The extension of a file, without the dot in front. -/
def extension : Compression → String
  | .plain => "tar"
  | .gzip => "tar.gz"
  | .bzip2 => "tar.bz2"

/-- The compression with exactly this name. -/
def ofKey? (key : String) : Option Compression := all.find? (·.key == key)

/-- The compression a file extension stands for, in either case of its letters. -/
def ofExtension (ext : String) : Compression :=
  let ext := ext.toLower
  if ext = "gz" ∨ ext = "tgz" then .gzip
  else if ext = "bz2" ∨ ext = "tbz2" then .bzip2
  else .plain

/-- The compression of the archive at a path. -/
def ofPath (path : Path) : Compression :=
  match path.extension? with
  | some ext => ofExtension ext
  | none => .plain

/-- The compression a user names, in either case of its letters. -/
def parse (text : String) : Except Error Compression :=
  let lower := text.toLower
  if lower = "none" ∨ lower = "tar" then .ok .plain
  else if lower = "gz" ∨ lower = "gzip" then .ok .gzip
  else if lower = "bz2" ∨ lower = "bzip2" then .ok .bzip2
  else .error (.unsupportedFormat text)

theorem ofKey?_key (c : Compression) : ofKey? c.key = some c := by cases c <;> decide

end Compression

end Palmtop.Archive
