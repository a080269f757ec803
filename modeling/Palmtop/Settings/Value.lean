import Palmtop.Archive.Compression
import Palmtop.Device.Writer

/-! # Values

What a file of settings or a variable says, whatever its format: a tree of tables and lists.  Tables
are kept in the order of their keys, each key once.

Laying one value over another keeps both where both are tables and otherwise the upper one; a
setting is thereby found where it was set last.
-/
namespace Palmtop.Settings

/-- How many numbers 64 bits with a sign hold on each side of zero. -/
def signedBound : Nat := UInt64.size / 2

/-- A value of some format. -/
inductive Value where
  | null
  | bool (b : Bool)
  | int (n : Int)
  /-- A scalar no setting takes: a number that is no integer, a date. -/
  | other
  | text (s : String)
  | list (items : List Value)
  | table (fields : List (String × Value))

/-- The fields of a table. -/
abbrev Fields := List (String × Value)

namespace Fields

/-- The value of a field. -/
def get? (fields : Fields) (key : String) : Option Value := fields.lookup key

/-- The fields with `value` at `key`. -/
def put (key : String) (value : Value) : Fields → Fields
  | [] => [(key, value)]
  | (k, v) :: rest =>
    if key < k then (key, value) :: (k, v) :: rest
    else if key = k then (key, value) :: rest
    else (k, v) :: put key value rest

/-- The fields with these values; of two with one key the later counts. -/
def ofList (l : List (String × Value)) : Fields :=
  l.foldl (fun fields p => put p.1 p.2 fields) []

end Fields

namespace Value

mutual

/-- `upper` laid over `lower`. -/
def overlay (lower : Value) : Value → Value
  | .table fields =>
    match lower with
    | .table under => .table (overlayFields under fields)
    | _ => .table fields
  | upper => upper

/-- The fields of the upper table laid over those of the lower one. -/
def overlayFields (under : Fields) : Fields → Fields
  | [] => under
  | (key, value) :: rest =>
    let value := match Fields.get? under key with
      | some lower => overlay lower value
      | none => value
    overlayFields (Fields.put key value under) rest

end

/-! ## Typed readings -/

/-- A whole number of 64 bits, not negative. -/
def word? : Value → Option UInt64
  | .int n => if 0 ≤ n ∧ n < UInt64.size then some (UInt64.ofNat n.toNat) else none
  | _ => none

/-- Text. -/
def text? : Value → Option String
  | .text s => some s
  | _ => none

/-- A list of texts. -/
def texts? : Value → Option (List String)
  | .list items => items.mapM text?
  | _ => none

/-- The name of a choice: a text, or the first key of a table that holds nothing. -/
def choice? : Value → Option String
  | .text s => some s
  | .table ((key, .null) :: _) => some key
  | _ => none

end Value

end Palmtop.Settings
