import Palmtop.Path

/-! # Errors of settings -/
namespace Palmtop.Settings

/-- Why no settings could be had. -/
inductive Error where
  /-- A source of settings cannot be read, or a value in it is of the wrong type. -/
  | load
  /-- The extension of the file stands for no format. -/
  | unsupportedFormat (path : Path)
  /-- A value is of the right type and out of range. -/
  | invalid (reason : String)
  deriving DecidableEq

namespace Error

/-- The line for the user. -/
def message : Error → String
  | .load => "could not load configuration"
  | .unsupportedFormat path => s!"unsupported config format: {path.text}"
  | .invalid reason => s!"invalid configuration: {reason}"

/-- The name of the cause, for programs that tell errors apart. -/
def kind : Error → String
  | .load => "Load"
  | .unsupportedFormat _ => "UnsupportedFormat"
  | .invalid _ => "Invalid"

/-- Whether trying again might succeed: settings stay what they are. -/
def isRetryable : Error → Bool
  | .load | .unsupportedFormat _ | .invalid _ => false

end Error

end Palmtop.Settings
