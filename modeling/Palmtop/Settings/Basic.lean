import Palmtop.Archive.Compression
import Palmtop.Device.Writer
import Palmtop.Settings.Error

/-! # Settings

Five settings: where archives go and how they are compressed, how many records go by between two
progress reports, how restored records are merged, and which databases are loaded ahead.
-/
namespace Palmtop

/-- What a user can set. -/
structure Settings where
  archiveDir : Path
  compression : Archive.Compression := .gzip
  /-- Records between two progress reports. -/
  blockSize : UInt64 := 25
  writeMode : WriteMode := .eraseAll
  /-- Databases to load ahead. -/
  prefill : List String := []
  deriving DecidableEq

namespace Settings

/-- The settings, unless a value is out of range. -/
def validate (s : Settings) : Except Error Unit :=
  if s.blockSize = 0 then .error (.invalid "block_size must be greater than zero")
  else if s.archiveDir.text.isEmpty then .error (.invalid "archive_dir must not be empty")
  else match s.prefill.find? Text.isBlank with
    | some name => .error (.invalid s!"prefill contains a blank database name: {Text.quoted name}")
    | none => .ok ()

end Settings

end Palmtop
