import Palmtop.Device.Info

/-! # Device errors

Each cause is one constructor; the words for it are in `Error.message`.  An error is *fatal* when
the connection itself is unusable, so that trying the next command or database is pointless.
-/
namespace Palmtop.Device

/-- Why a device command, or connecting to a device, failed. -/
inductive Error where
  /-- The session is not open. -/
  | notConnected
  /-- The link to the device failed. -/
  | unreachable (reason : String)
  /-- No device with this PIN is on the bus. -/
  | unknownDevice (pin : Pin)
  /-- The device is locked and was given no password. -/
  | passwordRequired (tries : Nat)
  /-- The device is locked and was given a wrong password. -/
  | badPassword (tries : Nat)
  /-- The device accepts no further attempt. -/
  | passwordExhausted
  | databaseNotFound (name : String)
  /-- The slot is empty. -/
  | noSuchRecord (slot : UInt32)
  /-- The database takes no writes. -/
  | readOnly (name : String)
  /-- The device refused the command. -/
  | rejected (reason : String)
  deriving DecidableEq

namespace Error

/-- The line for the user. -/
def message : Error → String
  | .notConnected => "device session is not open"
  | .unreachable reason => s!"device unreachable: {reason}"
  | .unknownDevice pin => s!"no device with PIN {Text.hex8 pin.toNat}"
  | .passwordRequired tries => s!"password required ({tries} tries remaining)"
  | .badPassword tries => s!"bad password ({tries} tries remaining)"
  | .passwordExhausted => "password attempts exhausted"
  | .databaseNotFound name => s!"database not found: {name}"
  | .noSuchRecord slot => s!"no record at state index {slot}"
  | .readOnly name => s!"database is read-only: {name}"
  | .rejected reason => s!"device rejected command: {reason}"

/-- The form for diagnosis. -/
def shown : Error → Text.Shown
  | .notConnected => .word "NotConnected"
  | .unreachable reason => .tuple "Unreachable" [.text reason]
  | .unknownDevice pin => .tuple "UnknownDevice" [.number pin.toNat]
  | .passwordRequired tries => .block "PasswordRequired" [("remaining_tries", .number tries)] false
  | .badPassword tries => .block "BadPassword" [("remaining_tries", .number tries)] false
  | .passwordExhausted => .word "PasswordExhausted"
  | .databaseNotFound name => .tuple "DatabaseNotFound" [.text name]
  | .noSuchRecord slot => .tuple "NoSuchRecord" [.number slot.toNat]
  | .readOnly name => .tuple "ReadOnly" [.text name]
  | .rejected reason => .tuple "Rejected" [.text reason]

/-- The name of the cause, for programs that tell errors apart. -/
def kind (e : Error) : String := e.shown.name

/-- Whether trying again might succeed. -/
def isRetryable : Error → Bool
  | .unreachable _ => true
  | _ => false

/-- Whether a write failed because its database takes none. -/
def isReadOnly : Error → Bool
  | .readOnly _ => true
  | _ => false

/-- Whether the connection itself is unusable. -/
def isFatal : Error → Bool
  | .notConnected | .unreachable _ | .unknownDevice _ | .passwordExhausted => true
  | _ => false

/-- The attempts left, when the error asks for a password. -/
def passwordTries : Error → Option Nat
  | .passwordRequired tries | .badPassword tries => some tries
  | _ => none

end Error

end Palmtop.Device
