import Mathlib.Data.List.Forall2
import Mathlib.Data.Nat.Digits.Defs
import Palmtop.Text.Digits

/-! # Laws of numbers in a base

A number below the bound that was written in a base up to sixteen is read back
(`readNumber?_padded`), however many zeros stand in front of it.  What is read at all is a numeral
of the base, for its value and no other number (`readNumber?_eq_some_iff`).
-/
namespace Palmtop.Text

variable {base bound width n d : Nat} {c : Char} {cs : List Char}

/-! ## Digits -/

theorem digitValue_digitChar_all : ∀ d < 16, digitValue (Nat.digitChar d) = some d := by decide

theorem digitIn?_digitChar {d : Nat} (hd : d < base) (hb : base ≤ 16) :
    digitIn? base (Nat.digitChar d) = some d := by
  rw [digitIn?, digitValue_digitChar_all d (by omega)]
  simpa using hd

/-- The characters of a number are digits. -/
theorem mem_toDigits (hb : 1 < base) {c : Char} (h : c ∈ Nat.toDigits base n) :
    ∃ d < base, c = Nat.digitChar d := by
  induction n using Nat.strongRecOn with
  | ind n ih =>
    rw [Nat.toDigits_eq_if hb] at h
    split at h
    · rename_i hlt
      exact ⟨n, hlt, List.mem_singleton.mp h⟩
    · rename_i hge
      rcases List.mem_append.mp h with h | h
      · exact ih (n / base) (Nat.div_lt_self (by omega) hb) h
      · exact ⟨n % base, Nat.mod_lt _ (by omega), List.mem_singleton.mp h⟩

theorem mem_padded (hb : 1 < base) {c : Char} (h : c ∈ padded base width n) :
    ∃ d < base, c = Nat.digitChar d := by
  rcases List.mem_append.mp h with h | h
  · exact ⟨0, by omega, List.eq_of_mem_replicate h⟩
  · exact mem_toDigits hb h

/-- A character that is no digit does not stand in a number. -/
theorem notMem_padded (hb : 1 < base) (hb' : base ≤ 16) {c : Char}
    (hc : ∀ d < 16, c ≠ Nat.digitChar d) : c ∉ padded base width n := by
  intro h
  obtain ⟨d, hd, rfl⟩ := mem_padded hb h
  exact hc d (by omega) rfl

theorem length_padded (hb : 1 < base) (hw : 0 < width) (hn : n < base ^ width) :
    (padded base width n).length = width := by
  have := (Nat.length_toDigits_le_iff hb hw).mpr hn
  simp only [padded, List.length_append, List.length_replicate]
  omega

/-- Without a least width there are no zeros in front. -/
theorem padded_zero (base n : Nat) : padded base 0 n = Nat.toDigits base n := by
  simp [padded]

/-! ## Reading -/

theorem readDigitsFrom?_append (base acc : Nat) (cs ds : List Char) :
    readDigitsFrom? base acc (cs ++ ds)
      = (readDigitsFrom? base acc cs).bind fun acc => readDigitsFrom? base acc ds := by
  induction cs generalizing acc with
  | nil => rfl
  | cons c cs ih =>
    simp only [List.cons_append, readDigitsFrom?]
    cases digitIn? base c with
    | none => rfl
    | some d => exact ih _

theorem readDigitsFrom?_toDigits (hb : 1 < base) (hb' : base ≤ 16) (n : Nat) :
    readDigitsFrom? base 0 (Nat.toDigits base n) = some n := by
  induction n using Nat.strongRecOn with
  | ind n ih =>
    rw [Nat.toDigits_eq_if hb]
    split
    · rename_i hlt
      simp [readDigitsFrom?, digitIn?_digitChar hlt hb']
    · rename_i hge
      have hdiv : n / base * base + n % base = n := Nat.div_add_mod' n base
      rw [readDigitsFrom?_append, ih (n / base) (Nat.div_lt_self (by omega) hb)]
      simp [readDigitsFrom?, digitIn?_digitChar (Nat.mod_lt n (by omega)) hb', hdiv]

theorem readDigitsFrom?_zeros (hb : 1 < base) (hb' : base ≤ 16) (k : Nat) :
    readDigitsFrom? base 0 (List.replicate k '0') = some 0 := by
  have hzero : digitIn? base '0' = some 0 := digitIn?_digitChar (d := 0) (by omega) hb'
  induction k with
  | zero => rfl
  | succ k ih => simp [List.replicate_succ, readDigitsFrom?, hzero, ih]

theorem readDigits?_padded (hb : 1 < base) (hb' : base ≤ 16) (width n : Nat) :
    readDigits? base (padded base width n) = some n := by
  have hread : readDigitsFrom? base 0 (padded base width n) = some n := by
    rw [padded, readDigitsFrom?_append, readDigitsFrom?_zeros hb hb', Option.bind_some,
      readDigitsFrom?_toDigits hb hb']
  cases h : padded base width n with
  | nil => simp [padded] at h
  | cons c cs => rw [readDigits?, ← h, hread]; nofun

/-- Different numbers are written differently. -/
theorem padded_inj (hb : 1 < base) (hb' : base ≤ 16) {m : Nat} :
    padded base width m = padded base width n ↔ m = n := by
  refine ⟨fun h => ?_, fun h => h ▸ rfl⟩
  have hread := readDigits?_padded hb hb' width m
  rw [h, readDigits?_padded hb hb'] at hread
  exact (Option.some.inj hread).symm

/-- Without a plus sign all of it is digits. -/
theorem readNumber?_of_notMem (h : '+' ∉ cs) :
    readNumber? base bound cs = (readDigits? base cs).filter (· < bound) := by
  unfold readNumber?
  split
  · exact absurd List.mem_cons_self h
  · rfl

/-- A number written with digits is read back. -/
theorem readNumber?_padded (hb : 1 < base) (hb' : base ≤ 16) (hn : n < bound) (width : Nat) :
    readNumber? base bound (padded base width n) = some n := by
  rw [readNumber?_of_notMem (notMem_padded hb hb' (by decide)), readDigits?_padded hb hb']
  simp [hn]

/-! ## Numerals -/

/-- `c` is the digit for `d`, in either case. -/
def IsDigit (c : Char) (d : Nat) : Prop := c = Nat.digitChar d ∨ c = (Nat.digitChar d).toUpper

instance (c : Char) (d : Nat) : Decidable (IsDigit c d) := inferInstanceAs (Decidable (_ ∨ _))

/-- A numeral of the base for `n`: one or more digits, the highest first, and perhaps a plus sign in
front. -/
def Numeral (base : Nat) (cs : List Char) (n : Nat) : Prop :=
  ∃ digits ds, (cs = digits ∨ cs = '+' :: digits) ∧ digits ≠ [] ∧
    List.Forall₂ IsDigit digits ds ∧ (∀ d ∈ ds, d < base) ∧ n = Nat.ofDigits base ds.reverse

/-- All digits are ASCII. -/
theorem toNat_lt_of_digitValue (h : digitValue c = some d) : c.toNat < 128 := by
  have hle {bound : Char} (hc : c ≤ bound) : c.toNat ≤ bound.toNat := hc
  unfold digitValue at h
  split at h
  · rename_i hc
    exact Nat.lt_of_le_of_lt (hle hc.2) (by decide)
  split at h
  · rename_i hc
    exact Nat.lt_of_le_of_lt (hle hc.2) (by decide)
  split at h
  · rename_i hc
    exact Nat.lt_of_le_of_lt (hle hc.2) (by decide)
  · cases h

theorem digitValue_eq_some_iff (hd : d < 16) : digitValue c = some d ↔ IsDigit c d := by
  constructor
  · intro h
    have hall : ∀ k < 128, ∀ d < 16,
        digitValue (Char.ofNat k) = some d → IsDigit (Char.ofNat k) d := by decide +kernel
    have hof := hall c.toNat (toNat_lt_of_digitValue h) d hd
    rw [Char.ofNat_toNat] at hof
    exact hof h
  · have hall : ∀ d < 16, digitValue (Nat.digitChar d).toUpper = some d := by decide
    rintro (rfl | rfl)
    · exact digitValue_digitChar_all d hd
    · exact hall d hd

theorem digitIn?_eq_some_iff (hb : base ≤ 16) :
    digitIn? base c = some d ↔ d < base ∧ IsDigit c d := by
  rw [digitIn?, Option.filter_eq_some_iff]
  constructor
  · rintro ⟨hvalue, hlt⟩
    have hlt := of_decide_eq_true hlt
    exact ⟨hlt, (digitValue_eq_some_iff (by omega)).mp hvalue⟩
  · rintro ⟨hlt, hdigit⟩
    exact ⟨(digitValue_eq_some_iff (by omega)).mpr hdigit, decide_eq_true hlt⟩

/-- Digits are read from the highest on. -/
theorem readDigitsFrom?_eq_some_iff (hb : base ≤ 16) {acc : Nat} :
    readDigitsFrom? base acc cs = some n ↔ ∃ ds, List.Forall₂ IsDigit cs ds ∧
      (∀ d ∈ ds, d < base) ∧ n = ds.foldl (fun acc d => acc * base + d) acc := by
  induction cs generalizing acc with
  | nil => simp [readDigitsFrom?, List.forall₂_nil_left_iff, eq_comm]
  | cons c cs ih =>
    rw [readDigitsFrom?]
    constructor
    · intro h
      split at h
      · rename_i d hd
        obtain ⟨hlt, hdigit⟩ := (digitIn?_eq_some_iff hb).mp hd
        obtain ⟨ds, hds, hall, rfl⟩ := ih.mp h
        exact ⟨d :: ds, .cons hdigit hds, List.forall_mem_cons.mpr ⟨hlt, hall⟩, rfl⟩
      · cases h
    · rintro ⟨ds, hds, hall, rfl⟩
      cases hds with
      | cons hdigit hds =>
        obtain ⟨hlt, hall⟩ := List.forall_mem_cons.mp hall
        rw [(digitIn?_eq_some_iff hb).mpr ⟨hlt, hdigit⟩]
        exact ih.mpr ⟨_, hds, hall, rfl⟩

/-- Digit by digit, the highest first. -/
theorem ofDigits_reverse (base : Nat) (ds : List Nat) :
    Nat.ofDigits base ds.reverse = ds.foldl (fun acc d => acc * base + d) 0 := by
  rw [Nat.ofDigits_eq_foldr, List.foldr_reverse]
  simp [Nat.add_comm, Nat.mul_comm]

/-- A character that is no digit is not among digits. -/
theorem notMem_digits {ds : List Nat} (h : List.Forall₂ IsDigit cs ds) (hall : ∀ d ∈ ds, d < base)
    (hc : ∀ d < base, ¬ IsDigit c d) : c ∉ cs := by
  induction h with
  | nil => exact List.not_mem_nil
  | cons hdigit _ ih =>
    obtain ⟨hlt, hall⟩ := List.forall_mem_cons.mp hall
    rw [List.mem_cons, not_or]
    exact ⟨fun he => hc _ hlt (he ▸ hdigit), ih hall⟩

theorem readDigits?_eq_some_iff (hb : base ≤ 16) :
    readDigits? base cs = some n ↔ cs ≠ [] ∧ ∃ ds, List.Forall₂ IsDigit cs ds ∧
      (∀ d ∈ ds, d < base) ∧ n = Nat.ofDigits base ds.reverse := by
  simp only [ofDigits_reverse]
  cases cs with
  | nil => simp [readDigits?]
  | cons c cs =>
    rw [readDigits?, readDigitsFrom?_eq_some_iff hb]
    · exact (and_iff_right (List.cons_ne_nil c cs)).symm
    · exact List.cons_ne_nil c cs

/-- The numerals below the bound are read, and nothing else is. -/
theorem readNumber?_eq_some_iff (hb : base ≤ 16) :
    readNumber? base bound cs = some n ↔ Numeral base cs n ∧ n < bound := by
  constructor
  · intro h
    unfold readNumber? at h
    obtain ⟨h, hn⟩ := Option.filter_eq_some_iff.mp h
    obtain ⟨hne, ds, hds, hall, hvalue⟩ := (readDigits?_eq_some_iff hb).mp h
    refine ⟨⟨_, ds, ?_, hne, hds, hall, hvalue⟩, of_decide_eq_true hn⟩
    split
    · exact Or.inr rfl
    · exact Or.inl rfl
  · rintro ⟨⟨digits, ds, hcs, hne, hds, hall, hvalue⟩, hn⟩
    have hread : readNumber? base bound cs = (readDigits? base digits).filter (· < bound) := by
      have hplus : ∀ d < 16, ¬ IsDigit '+' d := by decide
      rcases hcs with rfl | rfl
      · exact readNumber?_of_notMem (notMem_digits hds hall fun d hd => hplus d (by omega))
      · rfl
    rw [hread, (readDigits?_eq_some_iff hb).mpr ⟨hne, ds, hds, hall, hvalue⟩]
    simp [hn]

/-- A character that is neither a digit nor a plus sign does not stand in a numeral. -/
theorem Numeral.notMem (hb : base ≤ 16) (h : Numeral base cs n) (hplus : c ≠ '+')
    (hc : ∀ d < 16, ¬ IsDigit c d) : c ∉ cs := by
  obtain ⟨digits, ds, hcs, -, hds, hall, -⟩ := h
  have hnot : c ∉ digits := notMem_digits hds hall fun d hd => hc d (by omega)
  rcases hcs with rfl | rfl
  · exact hnot
  · simpa [hplus] using hnot

end Palmtop.Text
