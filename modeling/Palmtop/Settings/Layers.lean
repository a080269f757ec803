import Palmtop.Files
import Palmtop.Settings.Basic
import Palmtop.Settings.Format.Json
import Palmtop.Settings.Format.Toml.Document
import Palmtop.Settings.Format.Yaml.Document
import Palmtop.Settings.Variables

/-! # Layers of settings

Settings come in three layers: what is compiled in, a file, and the environment.  A setting has the
value of the uppermost layer that says anything about it, so a value that makes no sense does no
harm under one that does.
-/
namespace Palmtop.Settings

/-! ## Settings and fields -/

/-- The settings as fields. -/
def toFields (s : Settings) : Fields :=
  Fields.ofList [
    ("archive_dir", .text s.archiveDir.text),
    ("compression", .text s.compression.key),
    ("block_size", .int s.blockSize.toNat),
    ("write_mode", .text s.writeMode.key),
    ("prefill", .list (s.prefill.map .text))]

/-- The settings with these values by key, if there is a value of the right type for each.  Other
keys are never looked at. -/
def ofValues? (value? : String → Option Value) : Option Settings := do
  return {
    archiveDir := ⟨← (← value? "archive_dir").text?⟩
    compression := ← Archive.Compression.ofKey? (← (← value? "compression").choice?)
    blockSize := ← (← value? "block_size").word?
    writeMode := ← WriteMode.ofKey? (← (← value? "write_mode").choice?)
    prefill := ← (← value? "prefill").texts? }

/-! ## Files -/

/-- A format of files. -/
inductive Format where
  | toml | yaml | json
  deriving DecidableEq

namespace Format

/-- The format a file extension stands for, in either case of its letters. -/
def ofExtension? (ext : String) : Option Format :=
  let ext := ext.toLower
  if ext = "toml" then some .toml
  else if ext = "yaml" ∨ ext = "yml" then some .yaml
  else if ext = "json" then some .json
  else none

/-- The fields of the table a text holds. -/
def parse? : Format → String → Option Fields
  | .toml => Toml.parse?
  | .yaml => Yaml.parse?
  | .json => Json.parse?

end Format

/-- The fields in a file. -/
def readFile (files : Files) (path : Path) : Except Error Fields :=
  match path.extension?.bind Format.ofExtension? with
  | none => .error (.unsupportedFormat path)
  | some format =>
    match files.node path with
    | .ok (.file bytes) =>
      match (String.fromUTF8? bytes).bind format.parse? with
      | some fields => .ok fields
      | none => .error .load
    | .ok .directory | .error _ => .error .load

/-! ## Places -/

/-- Where settings come from. -/
structure Surroundings where
  files : Files
  environment : Variables
  /-- The home of the user as the system has it on record. -/
  recordedHome : Path

namespace Surroundings

/-- The home of the user. -/
def home (s : Surroundings) : Path :=
  match s.environment.lookup "HOME" with
  | some text => if text.isEmpty then s.recordedHome else ⟨text⟩
  | none => s.recordedHome

/-- The directory that the variable `name` holds as an absolute path, or else `fallback` at home. -/
def place (s : Surroundings) (name fallback : String) : Path :=
  match s.environment.lookup name with
  | some text => if Path.isAbsolute ⟨text⟩ then ⟨text⟩ else s.home.join fallback
  | none => s.home.join fallback

/-- The settings compiled in. -/
def defaults (s : Surroundings) : Settings where
  archiveDir := ((s.place "XDG_DATA_HOME" ".local/share").join "handheld").join "archives"

/-- The file that is read if no other one is named. -/
def usualFile (s : Surroundings) : Path :=
  ((s.place "XDG_CONFIG_HOME" ".config").join "handheld").join "handheld.toml"

/-- The fields of the file named, or of the usual one if it is there. -/
def fileFields (s : Surroundings) (path? : Option Path) : Except Error Fields :=
  match path? with
  | some path => readFile s.files path
  | none =>
    match s.files.node s.usualFile with
    | .ok (.file _) => readFile s.files s.usualFile
    | _ => .ok []

end Surroundings

/-! ## Layers -/

/-- The three layers, the lowest first. -/
structure Layers where
  defaults : Fields
  file : Fields
  environment : Fields

namespace Layers

/-- All layers as one. -/
def merged (l : Layers) : Fields :=
  Value.overlayFields (Value.overlayFields l.defaults l.file) l.environment

/-- The value of the uppermost layer that has one. -/
def effective? (l : Layers) (key : String) : Option Value :=
  (l.environment.get? key).orElse fun _ => (l.file.get? key).orElse fun _ => l.defaults.get? key

/-- The settings that the layers make together. -/
def settings (l : Layers) : Except Error Settings :=
  match ofValues? l.merged.get? with
  | none => .error .load
  | some s => s.validate.map fun _ => s

end Layers

/-- The settings in force. -/
def load (s : Surroundings) (path? : Option Path) : Except Error Settings :=
  (s.fileFields path?).bind fun file =>
    Layers.settings ⟨s.defaults.toFields, file, s.environment.fields⟩

end Palmtop.Settings
