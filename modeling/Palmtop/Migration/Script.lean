import Palmtop.Migration.Attendant

/-! # Scripted users

A user who answers from two lists and remembers what was asked and said.  A list that is used up
declines.
-/
namespace Palmtop.Migration

/-- A destination, and the devices the user unplugs before naming it. -/
structure Choice where
  destination : DeviceInfo
  unplugged : List Pin := []

/-- What a user is asked or told. -/
inductive Call where
  | password (device : DeviceInfo) (tries : Nat)
  | choose (source : DeviceInfo) (candidates : List DeviceInfo)
  | status (text : String) (processed total : Nat)
  | error (text : String)
  deriving DecidableEq

/-- The answers to come and the calls so far, the latest first. -/
structure Script where
  passwords : List (Option String) := []
  choices : List (Option Choice) := []
  calls : List Call := []

namespace Script

/-- The script with one more call. -/
def note (s : Script) (call : Call) : Script := { s with calls := call :: s.calls }

/-- The user who follows the script. -/
def prompter : Prompter Script where
  password device tries s :=
    (s.passwords.headD none, { s.note (.password device tries) with passwords := s.passwords.tail })
  choose source candidates s bus :=
    let after := { s.note (.choose source candidates) with choices := s.choices.tail }
    match s.choices.headD none with
    | none => (none, after, bus)
    | some choice => (some choice.destination, after, choice.unplugged.foldl Device.Bus.unplug bus)
  status text processed total s := s.note (.status text processed total)
  error text s := s.note (.error text)

/-- A number of times after which the user has answered or declined. -/
def patience (s : Script) : Nat := s.choices.length + 1

end Script

end Palmtop.Migration
