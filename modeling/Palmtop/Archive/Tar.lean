import Palmtop.Archive.Stream
import Palmtop.Path
import Palmtop.Text.Blank

/-! # Tar files

A tar file is a sequence of members in blocks of 512 bytes: a header with a name, a size and a kind,
then the content, filled up to a whole block.  A block of zeros ends the file.

**Reading** gives the members in order and whether the file breaks off (`Contents`).  Names longer
than the header's field come in a member of their own in front (kind `L`), as do extended
attributes (kind `x`), of which `path` and `size` count.  A member that is cut off by the end of
the file is still given, with the bytes there are; the breaking off then shows behind it.  A
checksum that does not fit, a number that is none, an attribute member without a member to
describe: all end the file as broken.

**Writing** is for plain files only: `member?` gives the blocks of one, with a long-name member in
front when the name does not fit.
-/
namespace Palmtop.Archive.Tar

/-- The size of a block. -/
def blockSize : Nat := 512

/-- The bound for sizes and positions. -/
def sizeBound : Nat := UInt64.size

/-! ## Header fields -/

/-- The field of `n` bytes at `i`. -/
def field (block : ByteArray) (i n : Nat) : List UInt8 := (block.extract i (i + n)).data.toList

/-- A field up to its first zero byte. -/
def upToZero (bytes : List UInt8) : List UInt8 := bytes.takeWhile (· != 0)

/-- A number in octal digits, with blanks around it and an optional plus sign. -/
def octal? (bytes : List UInt8) : Option Nat := do
  let text ← String.fromUTF8? ⟨(upToZero bytes).toArray⟩
  Text.readNumber? 8 sizeBound (Text.trimBlank text.toList)

/-- A number field: octal digits, or the plain number when the highest bit of the field is set; of
the plain number the last eight bytes count. -/
def number? (bytes : List UInt8) : Option Nat :=
  match bytes with
  | b :: rest =>
    if b < 128 then octal? bytes
    else
      let bytes := if bytes.length ≤ 8 then (b - 128) :: rest else bytes.drop (bytes.length - 8)
      some (bytes.foldl (fun n b => 256 * n + b.toNat) 0)
  | [] => none

/-- The families of headers; only the later two know members that describe the next one. -/
inductive Family where
  | old
  | ustar
  | gnu
  deriving DecidableEq

/-- The family of a header by its magic. -/
def family (block : ByteArray) : Family :=
  let magic := field block 257 8
  if magic = "ustar  \x00".toUTF8.data.toList then .gnu
  else if magic = "ustar\x0000".toUTF8.data.toList then .ustar
  else .old

/-- The sum of the bytes of a header, its own sum counting as blanks. -/
def checksum (block : ByteArray) : Nat :=
  (field block 0 148 ++ field block 156 356).foldr (·.toNat + ·) 0 + 8 * 32

/-- A header that was read. -/
structure Header where
  family : Family
  /-- The name, without a long name or attribute in front. -/
  name : List UInt8
  mode : Option Nat
  size : Nat
  kind : UInt8

/-- The name in a header, with the directory part the later family keeps apart. -/
def headerName (block : ByteArray) (family : Family) : List UInt8 :=
  let name := upToZero (field block 0 100)
  let directory := upToZero (field block 345 155)
  if family = .ustar ∧ directory ≠ [] then directory ++ 47 :: name else name

/-- Reads a header block. -/
def Header.read? (block : ByteArray) : Option Header := do
  let sum ← octal? (field block 148 8)
  if sum % UInt32.size ≠ checksum block then none
  let size ← number? (field block 124 12)
  let magic := Tar.family block
  pure {
    family := magic
    name := headerName block magic
    mode := octal? (field block 100 8)
    size
    kind := (field block 156 1).headD 0 }

/-! ## Extended attributes -/

/-- The parts between line ends. -/
def lines : List UInt8 → List (List UInt8)
  | [] => [[]]
  | b :: rest =>
    if b = 10 then [] :: lines rest
    else match lines rest with
      | line :: more => (b :: line) :: more
      | [] => [[b]]

/-- `bytes` cut at the first `sep`. -/
def cutAt? (sep : UInt8) : List UInt8 → Option (List UInt8 × List UInt8)
  | [] => none
  | b :: rest => if b = sep then some ([], rest) else (cutAt? sep rest).map fun p => (b :: p.1, p.2)

/-- An attribute line: its own length, a blank, the key, an equals sign, the value. -/
def attribute? (line : List UInt8) : Option (List UInt8 × List UInt8) := do
  let (length, rest) ← cutAt? 32 line
  let text ← String.fromUTF8? ⟨length.toArray⟩
  let n ← Text.readNumber? 10 sizeBound text.toList
  if n = line.length + 1 then cutAt? 61 rest else none

/-- The attributes, up to the first empty line; a malformed one gives nothing. -/
def attributes (bytes : List UInt8) : List (Option (List UInt8 × List UInt8)) :=
  ((lines bytes).takeWhile (· != [])).map attribute?

/-- The value of the first sound attribute with this key. -/
def attributeValue? (key : List UInt8) (bytes : List UInt8) : Option (List UInt8) :=
  ((attributes bytes).reduceOption.find? fun p => p.1 == key).map (·.2)

/-- The size given by the attributes, unless a malformed one stands before it. -/
def attributeSize? (bytes : List UInt8) : Option Nat := do
  let sound := (attributes bytes).takeWhile Option.isSome
  let (_, value) ← sound.reduceOption.find? fun p => p.1 == "size".toUTF8.data.toList
  let text ← String.fromUTF8? ⟨value.toArray⟩
  Text.readNumber? 10 sizeBound text.toList

/-! ## Reading -/

/-- A member of a tar file. -/
structure Member where
  name : ByteArray
  mode : Option Nat
  /-- The size its header claims. -/
  size : Nat
  isFile : Bool
  /-- The content, as far as the file holds it. -/
  data : ByteArray

/-- What a tar file holds: its members, and whether it breaks off behind them. -/
structure Contents where
  members : List Member
  broken : Bool

/-- What was read in front of a member about that member. -/
structure Description where
  longName : Option (List UInt8) := none
  longLink : Option (List UInt8) := none
  attributes : Option (List UInt8) := none

/-- Whether nothing was read. -/
def Description.isEmpty (d : Description) : Bool :=
  d.longName.isNone && d.longLink.isNone && d.attributes.isNone

/-- The name of a member: the long name without its closing zero, the attribute `path`, or the
header's own. -/
def Description.nameOf (d : Description) (h : Header) : List UInt8 :=
  match d.longName with
  | some bytes => if bytes.getLast? = some 0 then bytes.dropLast else bytes
  | none =>
    match d.attributes.bind (attributeValue? "path".toUTF8.data.toList) with
    | some path => path
    | none => h.name

/-- The size of a member: the one among the attributes, or the header's own. -/
def Description.sizeOf (d : Description) (h : Header) : Nat :=
  (d.attributes.bind attributeSize?).getD h.size

/-- `n` rounded up to whole blocks. -/
def roundUp (n : Nat) : Nat := (n + (blockSize - 1)) / blockSize * blockSize

/-- Whether a block holds zeros alone. -/
def isZeroBlock (block : ByteArray) : Bool := block.data.all (· == 0)

/-- The member with this header, its content at `start`. -/
def memberAt (bytes : ByteArray) (d : Description) (h : Header) (start : Nat) : Member where
  name := ⟨(d.nameOf h).toArray⟩
  mode := h.mode
  size := d.sizeOf h
  isFile := h.kind == 0 || h.kind == 48
  data := bytes.extract start (start + d.sizeOf h)

/-- The description with one more member that describes the next; nothing if there is one of its
kind already. -/
def Description.extend? (d : Description) (h : Header) (data : List UInt8) : Option Description :=
  if h.kind = 76 then if d.longName.isSome then none else some { d with longName := some data }
  else if h.kind = 75 then if d.longLink.isSome then none else some { d with longLink := some data }
  else if d.attributes.isSome then none else some { d with attributes := some data }

/-- Whether a member describes the next one. -/
def Header.describes (h : Header) : Bool :=
  h.family != .old && (h.kind == 76 || h.kind == 75 || h.kind == 120)

/-! Sparse members name the parts of the file that are not zeros; only whether that is done by the
rules matters here.
-/

/-- The state of walking through the parts of a sparse member: the end of the last part, and how
much of the stored content is left. -/
structure SparseWalk where
  reached : Nat := 0
  left : Nat

/-- Walks through the parts listed in a header, `n` of them from byte `i` on. -/
def SparseWalk.parts (block : ByteArray) (stored : Nat) :
    (n i : Nat) → SparseWalk → Option SparseWalk
  | 0, _, w => some w
  | n + 1, i, w =>
    let offsetField := field block i 12
    let lengthField := field block (i + 12) 12
    if offsetField.headD 0 = 0 ∨ lengthField.headD 0 = 0 then parts block stored n (i + 24) w
    else
      match number? offsetField, number? lengthField with
      | some offset, some length =>
        if length ≠ 0 ∧ (stored - w.left) % blockSize ≠ 0 then none
        else if offset < w.reached ∨ sizeBound ≤ offset + length ∨ w.left < length then none
        else parts block stored n (i + 24) ⟨offset + length, w.left - length⟩
      | _, _ => none

/-- Walks through the blocks that go on with the list of parts; `limit` bounds their number.
Answers the walk and the position behind them. -/
def SparseWalk.further (bytes : ByteArray) (stored : Nat) :
    (limit pos : Nat) → SparseWalk → Option (SparseWalk × Nat)
  | 0, _, _ => none
  | limit + 1, pos, w =>
    if pos + blockSize ≤ bytes.size then
      let block := bytes.extract pos (pos + blockSize)
      match SparseWalk.parts block stored 21 0 w with
      | none => none
      | some w =>
        if byteIs block 504 1 then further bytes stored limit (pos + blockSize) w
        else some (w, pos + blockSize)
    else none
where
  /-- Whether the byte at `i` is `b`. -/
  byteIs (block : ByteArray) (i : Nat) (b : UInt8) : Bool := field block i 1 == [b]

/-- How many bytes of further lists stand between the header of a sparse member and its content, if
the lists are sound. -/
def sparseLists? (bytes block : ByteArray) (h : Header) (start : Nat) : Option Nat := do
  if h.family ≠ .gnu then none
  let w ← SparseWalk.parts block h.size 4 386 ⟨0, h.size⟩
  let (w, pos) ← if field block 482 1 == [1] then
      SparseWalk.further bytes h.size (bytes.size / blockSize + 1) start w
    else some (w, start)
  let whole ← number? (field block 483 12)
  if w.reached = whole ∧ w.left = 0 then some (pos - start) else none

/-- What one header leads to; `next` is where the header after it stands. -/
inductive Step where
  /-- The file ends or breaks off. -/
  | stop (broken : Bool)
  /-- The member describes the one after it. -/
  | described (d : Description) (next : Nat)
  | found (m : Member) (next : Nat)

/-- What the header block at `pos` leads to, `d` describing its member. -/
def stepHeader (bytes : ByteArray) (pos : Nat) (d : Description) (block : ByteArray) (h : Header) :
    Step :=
  let start := pos + blockSize
  let size := d.sizeOf h
  let next := start + roundUp size
  if sizeBound ≤ size + (blockSize - 1) ∨ sizeBound ≤ next then .stop true
  else if h.describes then
    match d.extend? h (bytes.extract start (start + size)).data.toList with
    | some d => if bytes.size < start + size then .stop true else .described d next
    | none => .stop true
  else if h.kind = 83 then
    match sparseLists? bytes block h start with
    | some lists => .found (memberAt bytes d h start) (next + lists)
    | none => .stop true
  else .found (memberAt bytes d h start) next

/-- What stands at `pos`, `d` describing the member there. -/
def step (s : Stream) (pos : Nat) (d : Description) : Step :=
  if pos + blockSize ≤ s.bytes.size then
    let block := s.bytes.extract pos (pos + blockSize)
    if isZeroBlock block then .stop (!d.isEmpty)
    else match Header.read? block with
      | some h => stepHeader s.bytes pos d block h
      | none => .stop true
  else .stop (pos ≠ s.bytes.size || s.damaged || !d.isEmpty)

/-- The members from `pos` on, the first of which `d` describes; `limit` bounds the number of
headers. -/
def membersFrom (s : Stream) : (limit pos : Nat) → Description → Contents
  | 0, _, _ => ⟨[], true⟩
  | limit + 1, pos, d =>
    match step s pos d with
    | .stop broken => ⟨[], broken⟩
    | .described d next => membersFrom s limit next d
    | .found m next =>
      let rest := membersFrom s limit next {}
      ⟨m :: rest.members, rest.broken⟩

/-- What a tar file holds. -/
def read (s : Stream) : Contents := membersFrom s (s.bytes.size / blockSize + 1) 0 {}

/-! ## Writing -/

/-- `bytes` filled up with zeros to `n`. -/
def fill (n : Nat) (bytes : List UInt8) : List UInt8 := bytes ++ List.replicate (n - bytes.length) 0

/-- The bytes of a text. -/
def ascii (cs : List Char) : List UInt8 := cs.map fun c => UInt8.ofNat c.toNat

/-- A number in a field of `n` bytes: octal digits and a zero byte. -/
def octalField (n value : Nat) : List UInt8 := ascii (Text.padded 8 (n - 1) value) ++ [0]

/-- A size field: octal digits if eleven places suffice, the plain number otherwise. -/
def sizeField (value : Nat) : List UInt8 :=
  if value < 1 <<< 33 then octalField 12 value
  else
    let low := (List.range 8).map fun i => UInt8.ofNat (value >>> (8 * (7 - i)))
    128 :: 0 :: 0 :: 0 :: low

/-- A header in front of its sum. -/
def headerBytes (name : List UInt8) (size : Nat) (kind : UInt8) (sum : List UInt8) : List UInt8 :=
  fill 100 name ++ octalField 8 0o644 ++ octalField 8 0 ++ octalField 8 0 ++ sizeField size
    ++ octalField 12 0 ++ sum ++ [kind] ++ List.replicate 100 0
    ++ ascii ['u', 's', 't', 'a', 'r', ' ', ' ', '\x00'] ++ List.replicate 247 0

/-- A header block. -/
def headerBlock (name : List UInt8) (size : Nat) (kind : UInt8) : ByteArray :=
  let blank := List.replicate 8 32
  let sum := (headerBytes name size kind blank).foldr (·.toNat + ·) 0
  ⟨(headerBytes name size kind (octalField 8 sum)).toArray⟩

/-- Zeros up to a whole block behind `n` bytes. -/
def padding (n : Nat) : ByteArray := ⟨Array.replicate (roundUp n - n) 0⟩

/-- Whether a name can be stored: it is relative, does not lead upwards and has a component. -/
def isStorablePath (name : Path) : Bool :=
  !name.isAbsolute && !name.components.isEmpty && !name.components.contains ".."

/-- The name as it is stored: components that are a single dot are left out. -/
def storedName (name : Path) : String := "/".intercalate name.components

/-- The first at most `n` bytes of a text that are whole characters. -/
def firstBytes (n : Nat) : List Char → List UInt8
  | [] => []
  | c :: rest =>
    let bytes := (String.singleton c).toUTF8.data.toList
    if bytes.length ≤ n then bytes ++ firstBytes (n - bytes.length) rest else []

/-- The name of the member that holds a long name. -/
def longNameMember : List UInt8 :=
  ascii ['.', '/', '.', '/', '@', 'L', 'o', 'n', 'g', 'L', 'i', 'n', 'k']

/-- The blocks of a plain file, if its name can be stored. -/
def member? (name : String) (payload : ByteArray) : Option ByteArray :=
  if !isStorablePath ⟨name⟩ then none
  else
    let bytes := (storedName ⟨name⟩).toUTF8
    let content := payload ++ padding payload.size
    if bytes.size ≤ 100 then
      some (headerBlock bytes.data.toList payload.size 48 ++ content)
    else
      let long := name.toUTF8.push 0
      some (headerBlock longNameMember long.size 76 ++ long ++ padding long.size
        ++ headerBlock (firstBytes 100 name.toList) payload.size 48 ++ content)

/-- The blocks that end a file. -/
def trailer : ByteArray := ⟨Array.replicate (2 * blockSize) 0⟩

end Palmtop.Archive.Tar
