import Palmtop.Archive.Tar
import Palmtop.Proofs.Text.Digits
import Palmtop.Proofs.Text.Utf8

/-! # Laws of header blocks

A header that was written is read back as it is (`read?_headerBlock`), for every name that fits and
every size below the bound, be it written with octal digits or plainly.
-/
namespace Palmtop.Archive.Tar

/-! ## Fields -/

theorem field_eq {block : ByteArray} {mid : List UInt8} {i n : Nat} (front back : List UInt8)
    (h : block.data.toList = front ++ (mid ++ back)) (hi : front.length = i)
    (hn : mid.length = n) : field block i n = mid := by
  subst hi hn
  rw [field, ByteArray.data_extract, Array.toList_extract, h]
  simp [List.extract_eq_take_drop]

theorem upToZero_append {bytes : List UInt8} (h : 0 ∉ bytes) (zeros : Nat) :
    upToZero (bytes ++ List.replicate zeros 0) = bytes := by
  have hne : ∀ b ∈ bytes, (b != 0) = true := fun b hb => by
    simpa using fun he : b = 0 => h (he ▸ hb)
  rw [upToZero, List.takeWhile_append_of_pos hne]
  cases zeros <;> simp [List.replicate_succ]

theorem length_fill {n : Nat} {bytes : List UInt8} (h : bytes.length ≤ n) :
    (fill n bytes).length = n := by
  simp only [fill, List.length_append, List.length_replicate]
  omega

/-! ## Numbers -/

theorem trimBlank_of_visible {cs : List Char} (h : ∀ c ∈ cs, Text.isBlankChar c = false) :
    Text.trimBlank cs = cs := by
  have hdrop {l : List Char} (h : ∀ c ∈ l, Text.isBlankChar c = false) :
      l.dropWhile Text.isBlankChar = l := by
    cases l with
    | nil => rfl
    | cons c l => rw [List.dropWhile_cons_of_neg (by simp [h c List.mem_cons_self])]
  rw [Text.trimBlank, hdrop h, hdrop fun c hc => h c (List.mem_reverse.mp hc), List.reverse_reverse]

theorem digit_plain_all : ∀ d < 16, (Nat.digitChar d).toNat < 128 ∧ 0 < (Nat.digitChar d).toNat ∧
    Text.isBlankChar (Nat.digitChar d) = false := by decide

/-- A number in octal digits is read back. -/
theorem octal?_octalField {value : Nat} (h : value < sizeBound) (n : Nat) :
    octal? (octalField n value) = some value := by
  have hplain : ∀ c ∈ Text.padded 8 (n - 1) value, c.toNat < 128 ∧ 0 < c.toNat ∧
      Text.isBlankChar c = false := by
    intro c hc
    obtain ⟨d, hd, rfl⟩ := Text.mem_padded (by decide) hc
    exact digit_plain_all d (by omega)
  -- the field ends with a zero, and so there must be none among the digits
  have hzero : 0 ∉ ascii (Text.padded 8 (n - 1) value) := by
    intro hm
    obtain ⟨c, hc, h0⟩ := List.mem_map.mp hm
    have h0 := congrArg UInt8.toNat h0
    obtain ⟨h1, h2, -⟩ := hplain c hc
    rw [UInt8.toNat_ofNat', UInt8.toNat_zero] at h0
    omega
  have htext : String.fromUTF8? ⟨(ascii (Text.padded 8 (n - 1) value)).toArray⟩
      = some (String.ofList (Text.padded 8 (n - 1) value)) := by
    rw [ascii, ← Text.utf8Encode_of_plain fun c hc => (hplain c hc).1, Text.fromUTF8?_utf8Encode]
  have hup : upToZero (octalField n value) = ascii (Text.padded 8 (n - 1) value) :=
    upToZero_append hzero 1
  rw [octal?, hup, htext]
  simp [trimBlank_of_visible fun c hc => (hplain c hc).2.2,
    Text.readNumber?_padded (show 1 < 8 by decide) (by decide) h]

theorem length_octalField {n value : Nat} (hn : 1 < n) (h : value < 8 ^ (n - 1)) :
    (octalField n value).length = n := by
  rw [octalField, ascii, List.length_append, List.length_map,
    Text.length_padded (by decide) (by omega) h, List.length_singleton]
  omega

theorem octalField_head (n value : Nat) :
    ∃ b rest, octalField n value = b :: rest ∧ b < 128 := by
  cases hp : Text.padded 8 (n - 1) value with
  | nil => exact ⟨0, [], by simp [octalField, ascii, hp], by decide⟩
  | cons c cs =>
    refine ⟨UInt8.ofNat c.toNat, ascii cs ++ [0], by simp [octalField, ascii, hp], ?_⟩
    obtain ⟨d, hd, rfl⟩ := Text.mem_padded (by decide) (hp ▸ List.mem_cons_self)
    have := (digit_plain_all d (by omega)).1
    rw [UInt8.lt_iff_toNat_lt, UInt8.toNat_ofNat']
    change _ < 128
    omega

/-- A size is read back, however it is written. -/
theorem number?_sizeField {value : Nat} (h : value < sizeBound) :
    number? (sizeField value) = some value := by
  unfold sizeField
  split
  · obtain ⟨b, rest, hb, hlt⟩ := octalField_head 12 value
    rw [hb, number?, if_pos hlt, ← hb, octal?_octalField h]
  · -- eight bytes behind a mark, the highest first
    have hbound : value < 2 ^ 64 := h
    have hbyte (k : Nat) : (UInt8.ofNat (value >>> k)).toNat = value / 2 ^ k % 256 := by
      rw [UInt8.toNat_ofNat', Nat.shiftRight_eq_div_pow]
    have hlow : ((List.range 8).map fun i => UInt8.ofNat (value >>> (8 * (7 - i)))).foldl
        (fun n b => 256 * n + b.toNat) 0 = value := by
      simp only [List.range, List.range.loop, List.map_cons, List.map_nil, List.foldl_cons,
        List.foldl_nil, hbyte]
      omega
    exact congrArg some hlow

theorem length_sizeField {value : Nat} : (sizeField value).length = 12 := by
  unfold sizeField
  split
  · rename_i h
    exact length_octalField (by decide) h
  · simp

/-! ## The sum -/

/-- The sum of bytes. -/
def total (bytes : List UInt8) : Nat := bytes.foldr (·.toNat + ·) 0

@[simp] theorem total_nil : total [] = 0 := rfl

@[simp] theorem total_cons (b : UInt8) (bytes : List UInt8) :
    total (b :: bytes) = b.toNat + total bytes := rfl

theorem total_append (as bs : List UInt8) : total (as ++ bs) = total as + total bs := by
  induction as with
  | nil => simp
  | cons a as ih => simp [ih, Nat.add_assoc]

theorem total_le (bytes : List UInt8) : total bytes ≤ 255 * bytes.length := by
  induction bytes with
  | nil => simp
  | cons b bytes ih =>
    have := b.toNat_lt
    simp only [total_cons, List.length_cons]
    omega

/-! ## The header -/

section header
variable {name : List UInt8} {size : Nat} {kind : UInt8}

/-- What stands in front of the sum. -/
def beforeSum (name : List UInt8) (size : Nat) : List UInt8 :=
  fill 100 name ++ octalField 8 0o644 ++ octalField 8 0 ++ octalField 8 0 ++ sizeField size
    ++ octalField 12 0

/-- What stands behind the sum. -/
def behindSum (kind : UInt8) : List UInt8 :=
  [kind] ++ List.replicate 100 0 ++ ascii ['u', 's', 't', 'a', 'r', ' ', ' ', '\x00']
    ++ List.replicate 247 0

theorem headerBytes_eq (name : List UInt8) (size : Nat) (kind : UInt8) (sum : List UInt8) :
    headerBytes name size kind sum = beforeSum name size ++ (sum ++ behindSum kind) := by
  simp [headerBytes, beforeSum, behindSum]

theorem length_beforeSum (h : name.length ≤ 100) : (beforeSum name size).length = 148 := by
  simp only [beforeSum, List.length_append, length_fill h, length_sizeField,
    length_octalField (n := 8) (by decide) (show 0o644 < 8 ^ 7 by decide),
    length_octalField (n := 8) (by decide) (show 0 < 8 ^ 7 by decide),
    length_octalField (n := 12) (by decide) (show 0 < 8 ^ 11 by decide)]

theorem length_behindSum (kind : UInt8) : (behindSum kind).length = 356 := by
  simp only [behindSum, ascii, List.length_append, List.length_singleton, List.length_replicate,
    List.length_map]
  rfl

/-- The sum in a header, its own field counting as blanks. -/
def headerSum (name : List UInt8) (size : Nat) (kind : UInt8) : Nat :=
  total (beforeSum name size) + total (behindSum kind) + 256

theorem headerSum_lt (h : name.length ≤ 100) : headerSum name size kind < 8 ^ 7 := by
  have h1 := total_le (beforeSum name size)
  have h2 := total_le (behindSum kind)
  rw [length_beforeSum h] at h1
  rw [length_behindSum] at h2
  rw [headerSum]
  omega

theorem data_headerBlock (name : List UInt8) (size : Nat) (kind : UInt8) :
    (headerBlock name size kind).data.toList = beforeSum name size
      ++ (octalField 8 (headerSum name size kind) ++ behindSum kind) := by
  have hsum : (headerBytes name size kind (List.replicate 8 32)).foldr (·.toNat + ·) 0
      = headerSum name size kind := by
    change total _ = _
    rw [headerBytes_eq, total_append, total_append, headerSum]
    have hblank : total (List.replicate 8 32) = 256 := by decide
    omega
  rw [headerBlock, hsum, headerBytes_eq]

theorem length_sumField (h : name.length ≤ 100) :
    (octalField 8 (headerSum name size kind)).length = 8 :=
  length_octalField (by decide) (headerSum_lt h)

theorem size_headerBlock (h : name.length ≤ 100) (size : Nat) (kind : UInt8) :
    (headerBlock name size kind).size = blockSize := by
  rw [← ByteArray.size_data, ← Array.length_toList, data_headerBlock, List.length_append,
    List.length_append, length_beforeSum h, length_sumField h, length_behindSum]
  rfl

theorem isZeroBlock_headerBlock (name : List UInt8) (size : Nat) (kind : UInt8) :
    isZeroBlock (headerBlock name size kind) = false := by
  -- the first letter of the magic
  have hletter : (117 : UInt8) ∈ (headerBlock name size kind).data.toList := by
    rw [data_headerBlock]
    exact List.mem_append_right _ (List.mem_append_right _ (List.mem_append_left _
      (List.mem_append_right _ (by decide))))
  rw [isZeroBlock, ← Array.all_toList, List.all_eq_false]
  exact ⟨117, hletter, by decide⟩

theorem checksum_headerBlock (h : name.length ≤ 100) :
    checksum (headerBlock name size kind) = headerSum name size kind := by
  have hbefore : field (headerBlock name size kind) 0 148 = beforeSum name size :=
    field_eq [] _ (data_headerBlock name size kind) rfl (length_beforeSum h)
  have hbehind : field (headerBlock name size kind) 156 356 = behindSum kind := by
    refine field_eq (beforeSum name size ++ octalField 8 (headerSum name size kind)) [] ?_ ?_
      (length_behindSum kind)
    · rw [data_headerBlock, List.append_nil, List.append_assoc]
    · rw [List.length_append, length_beforeSum h, length_sumField h]
  rw [checksum, hbefore, hbehind]
  change total _ + _ = _
  rw [total_append, headerSum]

/-- A header that was written is read back. -/
theorem read?_headerBlock (hzero : 0 ∉ name) (h : name.length ≤ 100) (hsize : size < sizeBound) :
    Header.read? (headerBlock name size kind)
      = some { family := .gnu, name, mode := some 0o644, size, kind } := by
  have hdata := data_headerBlock name size kind
  have h644 : (octalField 8 0o644).length = 8 := length_octalField (by decide) (by decide)
  have h0 : (octalField 8 0).length = 8 := length_octalField (by decide) (by decide)
  have h0' : (octalField 12 0).length = 12 := length_octalField (by decide) (by decide)
  have hfill := length_fill h
  -- the fields in the order of the block
  have hname : field (headerBlock name size kind) 0 100 = fill 100 name :=
    field_eq [] _ (by rw [hdata, beforeSum]; simp only [List.append_assoc, List.nil_append]; rfl)
      rfl hfill
  have hmode : field (headerBlock name size kind) 100 8 = octalField 8 0o644 :=
    field_eq (fill 100 name) _ (by rw [hdata, beforeSum]; simp only [List.append_assoc]; rfl) hfill
      h644
  have hsizeField : field (headerBlock name size kind) 124 12 = sizeField size :=
    field_eq (fill 100 name ++ octalField 8 0o644 ++ octalField 8 0 ++ octalField 8 0) _
      (by rw [hdata, beforeSum]; simp only [List.append_assoc]; rfl)
      (by simp only [List.length_append, hfill, h644, h0]) length_sizeField
  have hsum : field (headerBlock name size kind) 148 8
      = octalField 8 (headerSum name size kind) :=
    field_eq (beforeSum name size) _ hdata (length_beforeSum h) (length_sumField h)
  have hkind : field (headerBlock name size kind) 156 1 = [kind] :=
    field_eq (beforeSum name size ++ octalField 8 (headerSum name size kind)) _
      (by rw [hdata, behindSum]; simp only [List.append_assoc]; rfl)
      (by simp only [List.length_append, length_beforeSum h, length_sumField h]) rfl
  have hmagic : field (headerBlock name size kind) 257 8
      = ascii ['u', 's', 't', 'a', 'r', ' ', ' ', '\x00'] :=
    field_eq (beforeSum name size ++ octalField 8 (headerSum name size kind) ++ [kind]
        ++ List.replicate 100 0) _
      (by rw [hdata, behindSum]; simp only [List.append_assoc]; rfl)
      (by simp only [List.length_append, length_beforeSum h, length_sumField h,
        List.length_singleton, List.length_replicate]) rfl
  have hsmall : headerSum name size kind < UInt32.size :=
    Nat.lt_trans (headerSum_lt h) (by decide)
  have hfamily : family (headerBlock name size kind) = .gnu := by
    rw [family, hmagic]
    decide
  have hread : octal? (octalField 8 (headerSum name size kind))
      = some (headerSum name size kind) :=
    octal?_octalField (Nat.lt_trans (headerSum_lt h) (by decide)) 8
  have hup : upToZero (fill 100 name) = name := upToZero_append hzero _
  simp only [Header.read?, hsum, hread, hsizeField, number?_sizeField hsize, hfamily, headerName,
    hname, hup, hmode, hkind, octal?_octalField (show 0o644 < sizeBound by decide),
    checksum_headerBlock h]
  simpa using hsmall

end header

end Palmtop.Archive.Tar
