import Palmtop.Proofs.Archive.Header

/-! # Laws of tar files

Blocks *read as* members when a reader that comes to them, wherever they stand, hands out these
members and goes on behind them (`ReadsAs`).  The blocks of a plain file read as one member
(`readsAs_member`), be its name short or long, and blocks one behind the other read as the members
one behind the other (`ReadsAs.append`); so a whole tar file is read as the files written
(`ReadsAs.read`).

Of a file that was not written here it is still known that no member is cut off unless the file
breaks off behind it (`read_whole`).
-/
namespace Palmtop.Archive.Tar

/-! ## Sizes -/

theorem le_roundUp (n : Nat) : n ≤ roundUp n := by
  simp only [roundUp, blockSize]
  omega

theorem size_padding (n : Nat) : n + (padding n).size = roundUp n := by
  have h := le_roundUp n
  have hs : (padding n).size = roundUp n - n := Array.size_replicate
  omega

theorem size_trailer : trailer.size = 2 * blockSize := Array.size_replicate

/-! ## Pieces -/

theorem extract_behind (front back : ByteArray) (n : Nat) :
    (front ++ back).extract front.size (front.size + n) = back.extract 0 n := by
  have hskip := ByteArray.extract_append_size_add (a := front) (b := back) (i := 0) (j := n)
  rwa [Nat.add_zero] at hskip

theorem extract_of_append {bytes front mid : ByteArray} (back : ByteArray)
    (h : bytes = front ++ (mid ++ back)) :
    bytes.extract front.size (front.size + mid.size) = mid := by
  rw [h, extract_behind, ByteArray.extract_append_eq_left rfl]

theorem size_of_append {bytes front mid back : ByteArray} (h : bytes = front ++ (mid ++ back)) :
    front.size + mid.size ≤ bytes.size := by
  rw [h, ByteArray.size_append, ByteArray.size_append]
  omega

section piece
variable {s : Stream} {front back : ByteArray} {name : List UInt8} {size : Nat} {kind : UInt8}
  {d : Description}

/-- At a header block the reader reads the header. -/
theorem step_headerBlock (hzero : 0 ∉ name) (hname : name.length ≤ 100) (hsize : size < sizeBound)
    (h : s.bytes = front ++ (headerBlock name size kind ++ back)) :
    step s front.size d = stepHeader s.bytes front.size d (headerBlock name size kind)
      { family := .gnu, name, mode := some 0o644, size, kind } := by
  have hlen := size_headerBlock hname size kind
  have hextract := extract_of_append _ h
  have hle := size_of_append h
  rw [hlen] at hextract hle
  simp only [step, if_pos hle, hextract, isZeroBlock_headerBlock, Bool.false_eq_true, if_false,
    read?_headerBlock hzero hname hsize]

/-- Content between its header block and its padding is found there, and is not too large. -/
theorem content_found {content : ByteArray} (hname : name.length ≤ 100)
    (h : s.bytes = front ++ (headerBlock name content.size kind
      ++ (content ++ (padding content.size ++ back))))
    (hbound : s.bytes.size < sizeBound) :
    s.bytes.extract (front.size + blockSize) (front.size + blockSize + content.size) = content ∧
      front.size + blockSize + roundUp content.size ≤ s.bytes.size ∧
      ¬ (sizeBound ≤ content.size + (blockSize - 1) ∨
        sizeBound ≤ front.size + blockSize + roundUp content.size) := by
  have hlen := size_headerBlock hname content.size kind
  have htotal : s.bytes.size
      = front.size + (blockSize + (content.size + ((padding content.size).size + back.size))) := by
    rw [h]
    simp only [ByteArray.size_append, hlen]
  have hpad := size_padding content.size
  have hblock : blockSize = 512 := rfl
  refine ⟨?_, by omega, by omega⟩
  rw [← hlen, ← ByteArray.size_append]
  exact extract_of_append (padding content.size ++ back)
    (by rw [h]; simp only [ByteArray.append_assoc])

/-- A plain file. -/
theorem step_file {payload : ByteArray} (hzero : 0 ∉ name) (hname : name.length ≤ 100)
    (h : s.bytes = front ++ (headerBlock name payload.size 48
      ++ (payload ++ (padding payload.size ++ back))))
    (hbound : s.bytes.size < sizeBound) (hd : d.attributes = none) :
    step s front.size d = .found
      ⟨⟨(d.nameOf ⟨.gnu, name, some 0o644, payload.size, 48⟩).toArray⟩, some 0o644, payload.size,
        true, payload⟩ (front.size + blockSize + roundUp payload.size) := by
  obtain ⟨hdata, hend, hfits⟩ := content_found hname h hbound
  have hround := le_roundUp payload.size
  have hsizeOf : d.sizeOf ⟨.gnu, name, some 0o644, payload.size, 48⟩ = payload.size := by
    simp [Description.sizeOf, hd]
  rw [step_headerBlock hzero hname (by omega) h, stepHeader]
  simp only [hsizeOf, if_neg hfits, memberAt, hdata]
  simp [Header.describes]

/-- A member that holds a long name. -/
theorem step_longName {long : ByteArray} (hzero : 0 ∉ name) (hname : name.length ≤ 100)
    (h : s.bytes = front ++ (headerBlock name long.size 76
      ++ (long ++ (padding long.size ++ back))))
    (hbound : s.bytes.size < sizeBound) :
    step s front.size {} = .described { longName := some long.data.toList }
      (front.size + blockSize + roundUp long.size) := by
  obtain ⟨hdata, hend, hfits⟩ := content_found hname h hbound
  have hround := le_roundUp long.size
  have hsizeOf : Description.sizeOf {} ⟨.gnu, name, some 0o644, long.size, 76⟩ = long.size := rfl
  have hwhole : ¬ s.bytes.size < front.size + blockSize + long.size := by omega
  rw [step_headerBlock hzero hname (by omega) h, stepHeader]
  simp only [hsizeOf, if_neg hfits, hdata]
  simp [Header.describes, Description.extend?, hwhole]

end piece

/-! ## Blocks that read as members -/

/-- Wherever these blocks stand, they are read as these members.  A limit is enough when it bounds
the number of blocks to come. -/
def ReadsAs (blocks : ByteArray) (members : List Member) : Prop :=
  ∀ (s : Stream) (front back : ByteArray) (limit : Nat), s.bytes = front ++ (blocks ++ back) →
    s.bytes.size < sizeBound → s.bytes.size < front.size + limit * blockSize →
    ∃ limit', s.bytes.size < front.size + blocks.size + limit' * blockSize ∧
      membersFrom s limit front.size {} =
        ⟨members ++ (membersFrom s limit' (front.size + blocks.size) {}).members,
          (membersFrom s limit' (front.size + blocks.size) {}).broken⟩

theorem readsAs_empty : ReadsAs .empty [] := by
  intro s front back limit _ _ hlimit
  exact ⟨limit, by simpa using hlimit, rfl⟩

theorem ReadsAs.append {as bs : ByteArray} {ms ns : List Member} (ha : ReadsAs as ms)
    (hb : ReadsAs bs ns) : ReadsAs (as ++ bs) (ms ++ ns) := by
  intro s front back limit h hbound hlimit
  obtain ⟨limit₁, hlimit₁, hread₁⟩ := ha s front (bs ++ back) limit
    (by rw [h, ByteArray.append_assoc]) hbound hlimit
  rw [← ByteArray.size_append] at hlimit₁ hread₁
  obtain ⟨limit₂, hlimit₂, hread₂⟩ := hb s (front ++ as) back limit₁
    (by rw [h]; simp only [ByteArray.append_assoc]) hbound hlimit₁
  have hsize : (front ++ as).size + bs.size = front.size + (as ++ bs).size := by
    simp only [ByteArray.size_append, Nat.add_assoc]
  rw [hsize] at hlimit₂ hread₂
  exact ⟨limit₂, hlimit₂, by rw [hread₁, hread₂, List.append_assoc]⟩

/-- The member of a plain file. -/
def fileMember (name : String) (payload : ByteArray) : Member :=
  ⟨name.toUTF8, some 0o644, payload.size, true, payload⟩

/-- What is kept of a long name in the header proper. -/
theorem firstBytes_spec {cs : List Char} (h : '\x00' ∉ cs) (n : Nat) :
    0 ∉ firstBytes n cs ∧ (firstBytes n cs).length ≤ n := by
  induction cs generalizing n with
  | nil => simp [firstBytes]
  | cons c cs ih =>
    rw [List.mem_cons, not_or] at h
    have hc : (0 : UInt8) ∉ (String.singleton c).toUTF8.data.toList := by
      rw [String.toUTF8_eq_toByteArray, ← String.utf8Encode_toList, String.toList_singleton]
      exact Text.zero_notMem_utf8Encode (by simpa using h.1)
    simp only [firstBytes]
    split
    · rename_i hle
      obtain ⟨hzero, hlen⟩ := ih h.2 (n - (String.singleton c).toUTF8.data.toList.length)
      refine ⟨fun hm => (List.mem_append.mp hm).elim hc hzero, ?_⟩
      rw [List.length_append]
      omega
    · exact ⟨List.not_mem_nil, Nat.zero_le _⟩

/-- A file whose name has room in its header. -/
theorem readsAs_short {name : String} {payload : ByteArray}
    (hzero : (0 : UInt8) ∉ name.toUTF8.data.toList) (hname : name.toUTF8.data.toList.length ≤ 100) :
    ReadsAs (headerBlock name.toUTF8.data.toList payload.size 48
      ++ (payload ++ padding payload.size)) [fileMember name payload] := by
  intro s front back limit h hbound hlimit
  have hblock : blockSize = 512 := rfl
  have hpad := size_padding payload.size
  have hlen := size_headerBlock hname payload.size 48
  have hat : s.bytes = front ++ (headerBlock name.toUTF8.data.toList payload.size 48
      ++ (payload ++ (padding payload.size ++ back))) := by
    rw [h]
    simp only [ByteArray.append_assoc]
  have hstep := step_file (d := {}) hzero hname hat hbound rfl
  have htotal := size_of_append h
  simp only [ByteArray.size_append, hlen] at htotal ⊢
  cases limit with
  | zero => omega
  | succ limit =>
    rw [Nat.succ_mul] at hlimit
    refine ⟨limit, by omega, ?_⟩
    have hnext : front.size + (blockSize + (payload.size + (padding payload.size).size))
        = front.size + blockSize + roundUp payload.size := by omega
    rw [hnext, membersFrom, hstep]
    rfl

/-- A file whose name stands in a member of its own. -/
theorem readsAs_long {name : String} {payload : ByteArray} (hzero : '\x00' ∉ name.toList) :
    ReadsAs (headerBlock longNameMember (name.toUTF8.push 0).size 76
      ++ name.toUTF8.push 0 ++ padding (name.toUTF8.push 0).size
      ++ headerBlock (firstBytes 100 name.toList) payload.size 48
      ++ (payload ++ padding payload.size)) [fileMember name payload] := by
  intro s front back limit h hbound hlimit
  generalize hlong : name.toUTF8.push 0 = long at h ⊢
  have hblock : blockSize = 512 := rfl
  have hpad := size_padding payload.size
  have hlongPad := size_padding long.size
  obtain ⟨hfirst, hname⟩ := firstBytes_spec hzero 100
  have hlongMember : 0 ∉ longNameMember ∧ longNameMember.length ≤ 100 := by decide
  have hlen₁ := size_headerBlock hlongMember.2 long.size 76
  have hlen₂ := size_headerBlock hname payload.size 48
  -- the member with the long name, then the file
  have hat₁ : s.bytes = front ++ (headerBlock longNameMember long.size 76
      ++ (long ++ (padding long.size ++ (headerBlock (firstBytes 100 name.toList) payload.size 48
        ++ (payload ++ (padding payload.size ++ back)))))) := by
    rw [h]
    simp only [ByteArray.append_assoc]
  have hat₂ : s.bytes = (front ++ (headerBlock longNameMember long.size 76
      ++ (long ++ padding long.size))) ++ (headerBlock (firstBytes 100 name.toList) payload.size
        48 ++ (payload ++ (padding payload.size ++ back))) := by
    rw [h]
    simp only [ByteArray.append_assoc]
  have hstep₁ := step_longName hlongMember.1 hlongMember.2 hat₁ hbound
  have hstep₂ := step_file (d := { longName := some long.data.toList }) hfirst hname hat₂ hbound
    rfl
  have htotal := size_of_append h
  simp only [ByteArray.size_append, hlen₁, hlen₂] at htotal hstep₂ ⊢
  rcases limit with _ | _ | limit
  · omega
  · omega
  · rw [Nat.succ_mul, Nat.succ_mul] at hlimit
    refine ⟨limit, by omega, ?_⟩
    have hnext₁ : front.size + blockSize + roundUp long.size
        = front.size + (blockSize + (long.size + (padding long.size).size)) := by omega
    have hnext₂ : front.size + (blockSize + long.size + (padding long.size).size + blockSize
          + (payload.size + (padding payload.size).size))
        = front.size + (blockSize + (long.size + (padding long.size).size)) + blockSize
          + roundUp payload.size := by omega
    -- the name kept is the one of the member in front, less its closing zero
    have hnameOf : (⟨(Description.nameOf { longName := some long.data.toList }
        ⟨.gnu, firstBytes 100 name.toList, some 0o644, payload.size, 48⟩).toArray⟩ : ByteArray)
        = name.toUTF8 := by
      rw [← hlong]
      simp [Description.nameOf]
    rw [membersFrom, hstep₁]
    simp only
    rw [hnext₁, membersFrom, hstep₂, hnext₂, hnameOf]
    rfl

/-- The blocks of a plain file are read as the file, where its name is stored as it is or has room
in the header. -/
theorem readsAs_member {name : String} {payload blocks : ByteArray}
    (h : member? name payload = some blocks)
    (hstored : storedName ⟨name⟩ = name ∨ (storedName ⟨name⟩).toUTF8.size ≤ 100)
    (hzero : '\x00' ∉ (storedName ⟨name⟩).toList) :
    ReadsAs blocks [fileMember (storedName ⟨name⟩) payload] := by
  have hbytes : (0 : UInt8) ∉ (storedName ⟨name⟩).toUTF8.data.toList := by
    rw [String.toUTF8_eq_toByteArray, ← String.utf8Encode_toList]
    exact Text.zero_notMem_utf8Encode hzero
  unfold member? at h
  split at h
  · cases h
  simp only at h
  split at h
  · rename_i hshort
    obtain rfl := Option.some.inj h
    exact readsAs_short hbytes hshort
  · rename_i hlong
    obtain rfl := Option.some.inj h
    have hname := hstored.resolve_right hlong
    rw [hname] at hzero ⊢
    exact readsAs_long hzero

/-- A plain file takes its name, its content and at most four blocks more. -/
theorem size_member {name : String} {payload blocks : ByteArray}
    (h : member? name payload = some blocks) (hzero : '\x00' ∉ name.toList) :
    blocks.size ≤ name.toUTF8.size + payload.size + 4 * blockSize := by
  have hblock : blockSize = 512 := rfl
  have hround (n : Nat) : roundUp n ≤ n + 511 := by
    simp only [roundUp, hblock]
    omega
  have hpad := size_padding payload.size
  have hpayload := hround payload.size
  unfold member? at h
  split at h
  · cases h
  simp only at h
  split at h
  · rename_i hshort
    have hname : (storedName ⟨name⟩).toUTF8.data.toList.length ≤ 100 := hshort
    obtain rfl := Option.some.inj h
    rw [ByteArray.size_append, size_headerBlock hname, ByteArray.size_append]
    omega
  · obtain rfl := Option.some.inj h
    have hlong := hround (name.toUTF8.push 0).size
    have hlongPad := size_padding (name.toUTF8.push 0).size
    have hlongMember : longNameMember.length ≤ 100 := by decide
    have hpush : (name.toUTF8.push 0).size = name.toUTF8.size + 1 := ByteArray.size_push
    simp only [ByteArray.size_append, size_headerBlock hlongMember,
      size_headerBlock (firstBytes_spec hzero 100).2]
    omega

/-- A name that can be stored is stored, whatever the payload. -/
theorem exists_member {name : String} (payload : ByteArray)
    (h : isStorablePath ⟨name⟩ = true) : ∃ blocks, member? name payload = some blocks := by
  rw [member?, h, if_neg (by decide)]
  dsimp only
  split
  · exact ⟨_, rfl⟩
  · exact ⟨_, rfl⟩

/-- A tar file is read to its end. -/
theorem ReadsAs.read {blocks : ByteArray} {members : List Member} (h : ReadsAs blocks members)
    (hbound : (blocks ++ trailer).size < sizeBound) :
    Tar.read ⟨blocks ++ trailer, false⟩ = ⟨members, false⟩ := by
  have hblock : blockSize = 512 := rfl
  have hsize : (blocks ++ trailer).size = blocks.size + 2 * blockSize := by
    rw [ByteArray.size_append, size_trailer]
  obtain ⟨limit, hlimit, hread⟩ := h ⟨blocks ++ trailer, false⟩ .empty trailer
    ((blocks ++ trailer).size / blockSize + 1) (by simp) hbound (by
      simp only [ByteArray.size_empty, hblock]
      omega)
  rw [ByteArray.size_empty, Nat.zero_add] at hlimit hread
  simp only [hsize] at hlimit
  rw [Tar.read, hread]
  -- behind the members stands a block of zeros
  cases limit with
  | zero => omega
  | succ limit =>
    have hend : step ⟨blocks ++ trailer, false⟩ blocks.size {} = .stop false := by
      have hle : blocks.size + blockSize ≤ (blocks ++ trailer).size := by omega
      have hzeros : isZeroBlock ((blocks ++ trailer).extract blocks.size
          (blocks.size + blockSize)) = true := by
        rw [extract_behind, isZeroBlock, ByteArray.data_extract, trailer, Array.extract_replicate,
          Array.all_eq_true']
        intro b hb
        simpa using (Array.mem_replicate.mp hb).2
      simp only [step, if_pos hle, hzeros, if_true]
      rfl
    simp [membersFrom, hend]

/-! ## Whole members -/

/-- A member stands in front of what is read next. -/
theorem step_found {s : Stream} {pos next : Nat} {d : Description} {m : Member}
    (h : step s pos d = .found m next) :
    ∃ start, m.data = s.bytes.extract start (start + m.size) ∧ start + m.size ≤ next := by
  unfold step at h
  split at h
  · simp only at h
    split at h
    · cases h
    split at h
    · rename_i header _
      have hround := le_roundUp (d.sizeOf header)
      unfold stepHeader at h
      simp only at h
      split at h
      · cases h
      split at h
      · split at h
        · split at h <;> cases h
        · cases h
      split at h
      · split at h
        · obtain ⟨rfl, rfl⟩ := Step.found.inj h
          exact ⟨_, rfl, by simp only [memberAt]; omega⟩
        · cases h
      · obtain ⟨rfl, rfl⟩ := Step.found.inj h
        exact ⟨_, rfl, by simp only [memberAt]; omega⟩
    · cases h
  · cases h

/-- A reading that does not break off starts inside the file. -/
theorem pos_le_of_sound {s : Stream} {limit pos : Nat} {d : Description}
    (h : (membersFrom s limit pos d).broken = false) : pos ≤ s.bytes.size := by
  by_cases hle : pos + blockSize ≤ s.bytes.size
  · omega
  · cases limit with
    | zero => cases h
    | succ limit =>
      simp only [membersFrom, step, if_neg hle, Bool.or_eq_false_iff,
        decide_eq_false_iff_not] at h
      omega

theorem membersFrom_whole {s : Stream} {limit pos : Nat} {d : Description}
    (h : (membersFrom s limit pos d).broken = false) :
    ∀ m ∈ (membersFrom s limit pos d).members, m.data.size = m.size := by
  induction limit generalizing pos d with
  | zero => cases h
  | succ limit ih =>
    unfold membersFrom at h ⊢
    cases hstep : step s pos d with
    | stop broken =>
      simp only
      exact nofun
    | described d next =>
      rw [hstep] at h
      exact ih h
    | found m next =>
      rw [hstep] at h
      obtain ⟨start, hdata, hend⟩ := step_found hstep
      have hnext : next ≤ s.bytes.size := pos_le_of_sound h
      refine List.forall_mem_cons.mpr ⟨?_, ih h⟩
      rw [hdata, ByteArray.size_extract]
      omega

/-- A file that is read to a sound end has every member in full. -/
theorem read_whole {s : Stream} (h : (Tar.read s).broken = false) :
    ∀ m ∈ (Tar.read s).members, m.data.size = m.size :=
  membersFrom_whole h

end Palmtop.Archive.Tar
