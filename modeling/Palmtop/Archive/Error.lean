import Palmtop.Path
import Palmtop.Text.Fields

/-! # Archive errors -/
namespace Palmtop.Archive

/-- Why an archive could not be written or read. -/
inductive Error where
  /-- There is no such file. -/
  | notFound (path : Path)
  /-- An operation on the file failed. -/
  | io
  /-- The file is truncated, corrupt or no archive. -/
  | invalidData
  /-- A record cannot be represented as an entry. -/
  | invalidEntry (reason : String)
  | unsupportedFormat (text : String)
  deriving DecidableEq

namespace Error

/-- The line for the user. -/
def message : Error → String
  | .notFound path => s!"archive not found: {path.text}"
  | .io => "I/O error"
  | .invalidData => "invalid or corrupted archive"
  | .invalidEntry reason => s!"cannot archive record: {reason}"
  | .unsupportedFormat text => s!"unsupported format: {text}"

/-- The name of the cause, for programs that tell errors apart. -/
def kind : Error → String
  | .notFound _ => "NotFound"
  | .io => "Io"
  | .invalidData => "InvalidData"
  | .invalidEntry _ => "InvalidEntry"
  | .unsupportedFormat _ => "UnsupportedFormat"

/-- Whether trying again might succeed. -/
def isRetryable : Error → Bool
  | .io => true
  | _ => false

end Error

end Palmtop.Archive
