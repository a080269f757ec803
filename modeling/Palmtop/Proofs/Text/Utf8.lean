import Palmtop.Text.Utf8

/-! # Laws of text and bytes

Text written out and read back is unchanged, whether it is read strictly (`fromUTF8?_toUTF8`) or in
any case (`lossy_toUTF8`).  Text of plain characters has one byte for each of them
(`utf8Encode_of_plain`), any other at most four (`size_toUTF8_le`), and no byte of a text is zero
unless one of its characters is (`zero_notMem_utf8Encode`).
-/
namespace Palmtop.Text

theorem fromUTF8?_toUTF8 (s : String) : String.fromUTF8? s.toUTF8 = some s := by
  have hvalid : s.toUTF8.IsValidUTF8 := s.isValidUTF8
  rw [String.fromUTF8?, dif_pos hvalid]
  rfl

theorem lossy_toUTF8 (s : String) : lossy s.toUTF8 = s := by
  rw [lossy, fromUTF8?_toUTF8]

theorem fromUTF8?_utf8Encode (cs : List Char) :
    String.fromUTF8? cs.utf8Encode = some (String.ofList cs) := by
  have h := fromUTF8?_toUTF8 (String.ofList cs)
  rwa [String.toUTF8_eq_toByteArray, String.toByteArray_ofList] at h

/-- A character outside the first half of the bytes is written with bytes of the other half. -/
theorem utf8EncodeChar_of_large {c : Char} (h : 128 ≤ c.toNat) :
    ∀ b ∈ String.utf8EncodeChar c, 128 ≤ b.toNat := by
  have hlarge : ∀ n : Nat, 128 ≤ n % 256 → 128 ≤ (UInt8.ofNat n).toNat := fun n hn => by
    rwa [UInt8.toNat_ofNat']
  intro b hb
  have hv : ¬ c.val.toNat ≤ 127 := by
    change 128 ≤ c.val.toNat at h
    omega
  rw [String.utf8EncodeChar, if_neg hv] at hb
  split at hb
  · simp only [List.mem_cons, List.not_mem_nil, or_false] at hb
    rcases hb with rfl | rfl <;> exact hlarge _ (by omega)
  · split at hb
    · simp only [List.mem_cons, List.not_mem_nil, or_false] at hb
      rcases hb with rfl | rfl | rfl <;> exact hlarge _ (by omega)
    · simp only [List.mem_cons, List.not_mem_nil, or_false] at hb
      rcases hb with rfl | rfl | rfl | rfl <;> exact hlarge _ (by omega)

theorem utf8EncodeChar_of_plain {c : Char} (h : c.toNat < 128) :
    String.utf8EncodeChar c = [UInt8.ofNat c.toNat] := by
  have hv : c.val.toNat ≤ 127 := Nat.le_of_lt_succ h
  rw [String.utf8EncodeChar, if_pos hv]
  rfl

theorem utf8Encode_of_plain {cs : List Char} (h : ∀ c ∈ cs, c.toNat < 128) :
    cs.utf8Encode = ⟨(cs.map fun c => UInt8.ofNat c.toNat).toArray⟩ := by
  have hflat : cs.flatMap String.utf8EncodeChar = cs.map fun c => UInt8.ofNat c.toNat := by
    induction cs with
    | nil => rfl
    | cons c cs ih =>
      rw [List.flatMap_cons, utf8EncodeChar_of_plain (h c List.mem_cons_self),
        ih fun x hx => h x (List.mem_cons_of_mem _ hx)]
      rfl
  rw [List.utf8Encode, hflat]
  exact ByteArray.ext List.data_toByteArray

/-- The bytes of a text, character by character. -/
theorem data_utf8Encode (cs : List Char) :
    cs.utf8Encode.data.toList = cs.flatMap String.utf8EncodeChar := by
  rw [List.utf8Encode, List.data_toByteArray]

/-- No character has more than four bytes. -/
theorem size_toUTF8_le (cs : List Char) : (String.ofList cs).toUTF8.size ≤ 4 * cs.length := by
  rw [String.toUTF8_eq_toByteArray, String.toByteArray_ofList, ← ByteArray.size_data,
    ← Array.length_toList, data_utf8Encode]
  induction cs with
  | nil => exact Nat.le_refl 0
  | cons c cs ih =>
    have hc : (String.utf8EncodeChar c).length ≤ 4 := by
      rw [String.length_utf8EncodeChar]
      exact Char.utf8Size_le_four c
    rw [List.flatMap_cons, List.length_append, List.length_cons]
    omega

/-- Only the zero character has a zero byte. -/
theorem zero_notMem_utf8Encode {cs : List Char} (h : '\x00' ∉ cs) :
    0 ∉ cs.utf8Encode.data.toList := by
  rw [data_utf8Encode]
  intro hm
  obtain ⟨c, hc, hb⟩ := List.mem_flatMap.mp hm
  by_cases hlarge : 128 ≤ c.toNat
  · exact absurd (utf8EncodeChar_of_large hlarge 0 hb) (by decide)
  · rw [utf8EncodeChar_of_plain (by omega), List.mem_singleton] at hb
    have hzero : c.toNat = 0 := by
      have := congrArg UInt8.toNat hb
      rw [UInt8.toNat_ofNat'] at this
      simp only [UInt8.toNat_zero] at this
      omega
    exact h ((Char.toNat_inj.mp hzero : c = '\x00') ▸ hc)

end Palmtop.Text
