/-
# Decimal text

`append_u64` and `parse_u64` of `text.cpp`.  A string of digits has a value (`decimalValue`).  The
extraction loop spells the value that it is given, without a zero in front (`extractDigits_spec`),
and the accumulation loop accepts exactly the strings whose value fits in 64 bits, since its test
for overflow is exact (`overflows_iff`).
-/
import ElephantFlow.ByteCodec
import ElephantFlow.Checked

namespace EFG

open ByteCodec

/-! ## Printing and parsing -/

/-- `'0' + digit`. -/
def digitChar (digit : UInt64) : UInt8 := 48 + digit.toUInt8

/-- The loop of `append_u64`: `index` places are left in front of what is written in `scratch`. -/
def extractDigits : ℕ → UInt64 → Bytes → Bytes
  | 0, _, written => written
  | index + 1, value, written =>
    if value = 0 then written else extractDigits index (value / 10) (digitChar (value % 10) :: written)

/-- `append_u64`. -/
def appendU64 (out : Bytes) (value : UInt64) : Bytes :=
  if value = 0 then out ++ [48] else out ++ extractDigits 20 value []

/-- The loop of `parse_u64`. -/
def parseDigits : Bytes → UInt64 → Option UInt64
  | [], value => some value
  | c :: rest, value =>
    if c < 48 ∨ c > 57 then none
    else if value > (u64Max - (c - 48).toUInt64) / 10 then none
    else parseDigits rest (value * 10 + (c - 48).toUInt64)

/-- `parse_u64`. -/
def parseU64 (text : Bytes) : Option UInt64 :=
  if text = [] ∨ text.length > 20 then none else parseDigits text 0

/-! ## The value of a string of digits -/

/-- The byte is a decimal digit. -/
def IsDigit (c : UInt8) : Prop := 48 ≤ c ∧ c ≤ 57

instance : DecidablePred IsDigit := fun c => inferInstanceAs (Decidable (48 ≤ c ∧ c ≤ 57))

/-- The value of digits behind digits of the given value. -/
def decimalFrom (value : ℕ) (text : Bytes) : ℕ :=
  text.foldl (fun n c => n * 10 + (c - 48).toNat) value

/-- The value of a string of digits. -/
def decimalValue (text : Bytes) : ℕ := decimalFrom 0 text

theorem decimalFrom_append (value : ℕ) (text text' : Bytes) :
    decimalFrom value (text ++ text') = decimalFrom (decimalFrom value text) text' :=
  List.foldl_append

theorem le_decimalFrom (value : ℕ) (text : Bytes) : value ≤ decimalFrom value text := by
  induction text generalizing value with
  | nil => exact le_refl _
  | cons c rest ih =>
    have hstep := ih (value * 10 + (c - 48).toNat)
    show value ≤ decimalFrom (value * 10 + (c - 48).toNat) rest
    omega

theorem IsDigit.toNat_sub {c : UInt8} (h : IsDigit c) : (c - 48).toNat ≤ 9 := by
  have hge : 48 ≤ c.toNat := UInt8.le_iff_toNat_le.mp h.1
  have hle : c.toNat ≤ 57 := UInt8.le_iff_toNat_le.mp h.2
  rw [UInt8.toNat_sub_of_le c 48 h.1]
  show c.toNat - 48 ≤ 9
  omega

/-! ## Printing -/

section Digit

variable {d : UInt64} (h : d.toNat < 10)
include h

theorem digitChar_toNat : (digitChar d).toNat = 48 + d.toNat := by
  unfold digitChar
  rw [UInt8.toNat_add, UInt64.toNat_toUInt8]
  show (48 + d.toNat % 256) % 256 = _
  omega

theorem isDigit_digitChar : IsDigit (digitChar d) := by
  have hd := digitChar_toNat h
  refine ⟨UInt8.le_iff_toNat_le.mpr ?_, UInt8.le_iff_toNat_le.mpr ?_⟩
  · show 48 ≤ (digitChar d).toNat
    omega
  · show (digitChar d).toNat ≤ 57
    omega

theorem digitChar_sub : (digitChar d - 48).toNat = d.toNat := by
  rw [UInt8.toNat_sub_of_le _ _ (isDigit_digitChar h).1, digitChar_toNat h]
  exact Nat.add_sub_cancel_left ..

end Digit

/-- The loop spells the value in front of what was written, without a leading zero, as long as the
buffer has a place for every digit. -/
theorem extractDigits_spec (index : ℕ) {value : UInt64} (written : Bytes)
    (h : value.toNat < 10 ^ index) :
    ∃ digits, extractDigits index value written = digits ++ written ∧ digits.length ≤ index ∧
      (∀ c ∈ digits, IsDigit c) ∧ decimalValue digits = value.toNat ∧ digits.head? ≠ some 48 := by
  induction index generalizing value written with
  | zero =>
    have hzero : value.toNat = 0 := Nat.lt_one_iff.mp h
    exact ⟨[], rfl, le_refl _, by simp, hzero.symm, by simp⟩
  | succ index ih =>
    unfold extractDigits
    by_cases hvalue : value = 0
    · rw [if_pos hvalue, hvalue]
      exact ⟨[], rfl, Nat.zero_le _, by simp, rfl, by simp⟩
    rw [if_neg hvalue]
    have hdiv : (value / 10).toNat = value.toNat / 10 := UInt64.toNat_div _ _
    have hmod : (value % 10).toNat = value.toNat % 10 := UInt64.toNat_mod _ _
    have hdigit : (value % 10).toNat < 10 := by omega
    obtain ⟨digits, heq, hlength, hdigits, hdecimal, hhead⟩ :=
      @ih (value / 10) (digitChar (value % 10) :: written) (by rw [hdiv]; omega)
    refine ⟨digits ++ [digitChar (value % 10)], ?_, ?_, ?_, ?_, ?_⟩
    · rw [heq, List.append_assoc, List.singleton_append]
    · rw [List.length_append, List.length_singleton]
      omega
    · intro c hc
      rcases List.mem_append.mp hc with hc | hc
      · exact hdigits c hc
      · rw [List.mem_singleton.mp hc]
        exact isDigit_digitChar hdigit
    · rw [decimalValue, decimalFrom_append, ← decimalValue, hdecimal, hdiv]
      show value.toNat / 10 * 10 + (digitChar (value % 10) - 48).toNat = value.toNat
      rw [digitChar_sub hdigit, hmod]
      omega
    · rcases digits with _ | ⟨c, rest⟩
      · -- the only digit is the value
        have hquotient : value.toNat / 10 = 0 := by rw [← hdiv, ← hdecimal]; rfl
        have hne : value.toNat ≠ 0 := fun hzero => hvalue (UInt64.toNat_inj.mp hzero)
        intro hzero
        have hchar := digitChar_toNat hdigit
        rw [Option.some.inj hzero, hmod] at hchar
        have h48 : (48 : UInt8).toNat = 48 := rfl
        omega
      · exact hhead

/-- What `append_u64` appends. -/
theorem appendU64_spec (out : Bytes) (value : UInt64) :
    ∃ printed, appendU64 out value = out ++ printed ∧ printed ≠ [] ∧ printed.length ≤ 20 ∧
      (∀ c ∈ printed, IsDigit c) ∧ decimalValue printed = value.toNat ∧
      (printed.head? = some 48 → value = 0 ∧ printed = [48]) := by
  unfold appendU64
  by_cases hvalue : value = 0
  · rw [if_pos hvalue, hvalue]
    refine ⟨[48], rfl, by simp, by simp, fun c hc => ?_, rfl, fun _ => ⟨rfl, rfl⟩⟩
    rw [List.mem_singleton.mp hc]
    decide
  rw [if_neg hvalue]
  have hlt : value.toNat < 10 ^ 20 := lt_trans value.toNat_lt (by decide)
  obtain ⟨digits, heq, hlength, hdigits, hdecimal, hhead⟩ := extractDigits_spec 20 [] hlt
  refine ⟨digits, by rw [heq, List.append_nil], ?_, hlength, hdigits, hdecimal,
    fun hzero => absurd hzero hhead⟩
  rintro rfl
  exact hvalue (UInt64.toNat_inj.mp hdecimal.symm)

/-! ## Parsing -/

/-- The overflow test of `parse_u64` is exact. -/
theorem overflows_iff {value d : UInt64} (hd : d.toNat ≤ 9) :
    value > (u64Max - d) / 10 ↔ 2 ^ 64 ≤ value.toNat * 10 + d.toNat := by
  have hmax : u64Max.toNat = 2 ^ 64 - 1 := rfl
  have hle : d ≤ u64Max := UInt64.le_iff_toNat_le.mpr (by omega)
  have hten : (10 : UInt64).toNat = 10 := rfl
  rw [gt_iff_lt, UInt64.lt_iff_toNat_lt, UInt64.toNat_div, UInt64.toNat_sub_of_le _ _ hle, hmax, hten]
  omega

/-- The loop returns the value of the digits behind the value so far, if that fits in 64 bits. -/
theorem parseDigits_eq_some_iff {text : Bytes} {value v : UInt64} :
    parseDigits text value = some v ↔
      (∀ c ∈ text, IsDigit c) ∧ decimalFrom value.toNat text = v.toNat := by
  induction text generalizing value with
  | nil => simp [parseDigits, decimalFrom, UInt64.toNat_inj]
  | cons c rest ih =>
    unfold parseDigits
    rw [List.forall_mem_cons]
    by_cases hc : IsDigit c
    swap
    · have hrefused : c < 48 ∨ c > 57 := by
        rw [IsDigit, not_and_or, UInt8.not_le, UInt8.not_le] at hc
        exact hc
      rw [if_pos hrefused]
      exact iff_of_false nofun fun h => hc h.1.1
    have hin : ¬ (c < 48 ∨ c > 57) := by
      rw [not_or, UInt8.not_lt, gt_iff_lt, UInt8.not_lt]
      exact hc
    have hdigit : (c - 48).toUInt64.toNat = (c - 48).toNat := UInt8.toNat_toUInt64 _
    have hnine := hc.toNat_sub
    have hover := @overflows_iff value _ (hdigit.le.trans hnine)
    rw [hdigit] at hover
    rw [if_neg hin]
    show _ ↔ (IsDigit c ∧ ∀ x ∈ rest, IsDigit x) ∧
      decimalFrom (value.toNat * 10 + (c - 48).toNat) rest = v.toNat
    by_cases hlarge : value > (u64Max - (c - 48).toUInt64) / 10
    · rw [if_pos hlarge]
      refine iff_of_false nofun ?_
      rintro ⟨-, heq⟩
      have hge := le_decimalFrom (value.toNat * 10 + (c - 48).toNat) rest
      have hlt := v.toNat_lt
      have hsum := hover.mp hlarge
      omega
    · have hsum : (value * 10 + (c - 48).toUInt64).toNat = value.toNat * 10 + (c - 48).toNat := by
        rw [hover] at hlarge
        have hten : (10 : UInt64).toNat = 10 := rfl
        rw [UInt64.toNat_add, UInt64.toNat_mul, hdigit, hten]
        omega
      rw [if_neg hlarge, ih, hsum]
      exact ⟨fun h => ⟨⟨hc, h.1⟩, h.2⟩, fun h => ⟨h.1.2, h.2⟩⟩

theorem parseU64_eq_some_iff {text : Bytes} {v : UInt64} :
    parseU64 text = some v ↔ (1 ≤ text.length ∧ text.length ≤ 20) ∧ (∀ c ∈ text, IsDigit c) ∧
      decimalValue text = v.toNat := by
  unfold parseU64
  by_cases hlength : text = [] ∨ text.length > 20
  · rw [if_pos hlength]
    refine iff_of_false nofun ?_
    rintro ⟨⟨hpos, hmax⟩, -⟩
    rcases hlength with rfl | hlong
    · exact absurd hpos (by decide)
    · omega
  · rw [if_neg hlength, parseDigits_eq_some_iff]
    rw [not_or, ← List.length_eq_zero_iff] at hlength
    exact ⟨fun h => ⟨by omega, h⟩, And.right⟩

/-- `parse_u64` accepts exactly the strings of 1 to 20 digits whose value is below 2^64, and returns
the value; and it reads back what `append_u64` prints, which has no leading zero unless it is the
digit 0. -/
theorem decimal_round_trip :
    (∀ text : Bytes, parseU64 text =
      if (1 ≤ text.length ∧ text.length ≤ 20) ∧ (∀ c ∈ text, IsDigit c) ∧ decimalValue text < 2 ^ 64 then
        some (UInt64.ofNat (decimalValue text)) else none) ∧
    ∀ (out : Bytes) (v : UInt64), ∃ printed, appendU64 out v = out ++ printed ∧
      parseU64 printed = some v ∧ (printed.head? = some 48 → v = 0 ∧ printed = [48]) := by
  refine ⟨fun text => ?_, fun out v => ?_⟩
  · split_ifs with h
    · obtain ⟨hlength, hdigits, hlt⟩ := h
      exact parseU64_eq_some_iff.mpr ⟨hlength, hdigits, (UInt64.toNat_ofNat_of_lt' hlt).symm⟩
    · rcases hparse : parseU64 text with _ | v
      · rfl
      · obtain ⟨hlength, hdigits, hvalue⟩ := parseU64_eq_some_iff.mp hparse
        exact absurd ⟨hlength, hdigits, hvalue ▸ v.toNat_lt⟩ h
  · obtain ⟨printed, heq, hne, hlength, hdigits, hvalue, hhead⟩ := appendU64_spec out v
    have hpos : 1 ≤ printed.length := List.length_pos_iff.mpr hne
    exact ⟨printed, heq, parseU64_eq_some_iff.mpr ⟨⟨hpos, hlength⟩, hdigits, hvalue⟩, hhead⟩

end EFG
