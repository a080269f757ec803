/-! # Sorting by rotation

The block-sorting transform of a byte string: all its rotations are sorted, the last bytes of the
rows are kept, together with the row at which the string itself stands.  `restore` walks the rows
back: the row of the next rotation is found by counting how many bytes are smaller and how many
equal ones stand above.
-/
namespace Palmtop.Archive.Codec.Rotation

/-- Whether the rotation at `i` comes before or at the rotation at `j`, compared over `n` bytes. -/
def le (bytes : ByteArray) : (n i j : Nat) → Bool
  | 0, _, _ => true
  | n + 1, i, j =>
    let x := bytes.get! (i % bytes.size)
    let y := bytes.get! (j % bytes.size)
    if x < y then true else if y < x then false else le bytes n (i + 1) (j + 1)

/-- The starts of the rotations in sorted order. -/
def order (bytes : ByteArray) : List Nat :=
  (List.range bytes.size).mergeSort fun i j => le bytes bytes.size i j

/-- The last bytes of the sorted rotations, and the row of the string itself. -/
def sorted (bytes : ByteArray) : ByteArray × Nat :=
  let starts := order bytes
  let last := starts.map fun i => bytes.get! ((i + bytes.size - 1) % bytes.size)
  (⟨last.toArray⟩, starts.findIdx (· == 0))

/-- How often each byte value occurs. -/
def tally (bytes : ByteArray) : Array Nat :=
  bytes.foldl (fun counts b => counts.modify b.toNat (· + 1)) (Array.replicate 256 0)

/-- The sums of the counts in front of each. -/
def sumsBefore (counts : Array Nat) : Array Nat :=
  (counts.foldl (fun (p : Array Nat × Nat) n => (p.1.push p.2, p.2 + n)) (#[], 0)).1

/-- For each sorted row, the row that its successor rotation came from. -/
def links (last : ByteArray) : Array Nat :=
  let start := sumsBefore (tally last)
  let step (p : Array Nat × Array Nat × Nat) (b : UInt8) : Array Nat × Array Nat × Nat :=
    let (links, places, row) := p
    (links.set! (places.getD b.toNat 0) row, places.modify b.toNat (· + 1), row + 1)
  (last.foldl step (Array.replicate last.size 0, start, 0)).1

/-- The bytes met on a walk of `n` steps along the links. -/
def walk (last : ByteArray) (links : Array Nat) : (n row : Nat) → ByteArray → ByteArray
  | 0, _, out => out
  | n + 1, row, out =>
    let row := links.getD row 0
    walk last links n row (out.push (last.get! row))

/-- The string whose sorted rotations end in `last` and which stands at row `origin`. -/
def restore (last : ByteArray) (origin : Nat) : ByteArray :=
  walk last (links last) last.size origin .empty

end Palmtop.Archive.Codec.Rotation
