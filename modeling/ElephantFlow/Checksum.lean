/-
# What the checksum detects

The CRC-32C of the journal, one byte at a time.  A bit step is linear in the
exclusive or and loses nothing (`crcBit_xor`, `crcBit_injective`), and the table
step is eight bit steps of the state with the byte added (`crcByte_eq`).  So a
change of one byte always changes the checksum (`crc32c_ne_of_byte_ne`), and the
table computes what the shift register does bit by bit (`crc32c_is_serial`).
-/
import ElephantFlow.Hash

namespace EFG

open ByteCodec

/-! ## One bit -/

theorem xor_and_distrib (a b c : UInt32) : (a ^^^ b) &&& c = (a &&& c) ^^^ (b &&& c) := by
  apply UInt32.toBitVec_inj.mp
  ext i
  simp only [UInt32.toBitVec_and, UInt32.toBitVec_xor, BitVec.getElem_and, BitVec.getElem_xor]
  cases c.toBitVec[i]
  · simp
  · simp

theorem and_one_toNat (a : UInt32) : (a &&& 1).toNat = a.toNat % 2 := by
  rw [UInt32.toNat_and]
  exact Nat.and_one_is_mod a.toNat

theorem and_one_cases (a : UInt32) : a &&& 1 = 0 ∨ a &&& 1 = 1 := by
  have h := and_one_toNat a
  rcases Nat.mod_two_eq_zero_or_one a.toNat with h₀ | h₁
  · left
    apply UInt32.toNat_inj.mp
    rw [h, h₀]
    rfl
  · right
    apply UInt32.toNat_inj.mp
    rw [h, h₁]
    rfl

/-- A bit step as a shift and a conditional term. -/
theorem crcBit_eq (a : UInt32) :
    crcBit a = (a >>> 1) ^^^ (if a &&& 1 = 1 then kCrc32cPolynomial else 0) := by
  unfold crcBit
  rcases and_one_cases a with h | h
  · simp [h]
  · simp [h]

theorem crcBit_xor (a b : UInt32) : crcBit (a ^^^ b) = crcBit a ^^^ crcBit b := by
  have hbit : (if (a ^^^ b) &&& 1 = 1 then kCrc32cPolynomial else 0) =
      (if a &&& 1 = 1 then kCrc32cPolynomial else 0) ^^^
        (if b &&& 1 = 1 then kCrc32cPolynomial else 0) := by
    rw [xor_and_distrib]
    rcases and_one_cases a with ha | ha
    · rcases and_one_cases b with hb | hb
      · simp [ha, hb]
      · simp [ha, hb]
    · rcases and_one_cases b with hb | hb
      · simp [ha, hb]
      · simp [ha, hb]
  rw [crcBit_eq, crcBit_eq, crcBit_eq, hbit, UInt32.shiftRight_xor]
  ac_rfl

/-- The polynomial has its highest bit set, so no bit step is lost. -/
theorem crcBit_eq_zero {a : UInt32} (h : crcBit a = 0) : a = 0 := by
  have hshift : (a >>> 1).toNat = a.toNat / 2 := by
    rw [UInt32.toNat_shiftRight]
    exact Nat.shiftRight_one _
  have hlt := a.toNat_lt
  rw [crcBit_eq] at h
  rcases and_one_cases a with hbit | hbit
  · rw [hbit, if_neg (by decide), UInt32.xor_zero] at h
    have hmod := and_one_toNat a
    rw [hbit] at hmod
    rw [h] at hshift
    have hzero : a.toNat = 0 := by
      have h₁ : (0 : UInt32).toNat = 0 := rfl
      omega
    exact UInt32.toNat_inj.mp hzero
  · exfalso
    rw [if_pos hbit] at h
    have heq := UInt32.xor_eq_zero_iff.mp h
    rw [heq] at hshift
    have hpoly : kCrc32cPolynomial.toNat = 2197175160 := rfl
    omega

theorem crcBit_injective : Function.Injective crcBit := by
  intro a b h
  apply UInt32.xor_eq_zero_iff.mp
  apply crcBit_eq_zero
  rw [crcBit_xor, h, UInt32.xor_self]

/-! ## One byte -/

theorem iterate_crcBit_xor (n : ℕ) (a b : UInt32) :
    crcBit^[n] (a ^^^ b) = crcBit^[n] a ^^^ crcBit^[n] b := by
  induction n generalizing a b with
  | zero => rfl
  | succ n ih => rw [Function.iterate_succ_apply, Function.iterate_succ_apply,
      Function.iterate_succ_apply, crcBit_xor, ih]

/-- Bits that are clear are only shifted out. -/
theorem iterate_crcBit_toNat (n : ℕ) (a : UInt32) (h : a.toNat % 2 ^ n = 0) :
    (crcBit^[n] a).toNat = a.toNat / 2 ^ n := by
  induction n generalizing a with
  | zero => simp
  | succ n ih =>
    have heven : a.toNat % 2 = 0 := by
      have hdvd : 2 ^ (n + 1) ∣ a.toNat := Nat.dvd_of_mod_eq_zero h
      exact Nat.mod_eq_zero_of_dvd (dvd_trans (dvd_pow_self 2 (Nat.succ_ne_zero n)) hdvd)
    have hbit : a &&& 1 ≠ 1 := by
      intro hone
      have hmod := and_one_toNat a
      rw [hone, heven] at hmod
      cases hmod
    have hstep : (crcBit a).toNat = a.toNat / 2 := by
      rw [crcBit_eq, if_neg hbit, UInt32.xor_zero, UInt32.toNat_shiftRight]
      exact Nat.shiftRight_one _
    rw [Function.iterate_succ_apply, ih, hstep, Nat.div_div_eq_div_mul, pow_succ']
    rw [hstep]
    obtain ⟨k, hk⟩ := Nat.dvd_of_mod_eq_zero h
    rw [hk, pow_succ', mul_assoc, Nat.mul_div_cancel_left _ (by decide), Nat.mul_mod_right]

/-- The table step is eight bit steps of the state with the byte added. -/
theorem crcByte_eq (crc : UInt32) (b : UInt8) :
    crcByte crc b = crcBit^[8] (crc ^^^ b.toUInt32) := by
  have hlow : ((crc ^^^ b.toUInt32) &&& 0xFF).toUInt8.toUInt32 = (crc ^^^ b.toUInt32) &&& 0xFF := by
    apply UInt32.toNat_inj.mp
    have hand : ((crc ^^^ b.toUInt32) &&& 0xFF).toNat ≤ 255 := by
      rw [UInt32.toNat_and]
      exact Nat.and_le_right
    rw [UInt8.toNat_toUInt32, UInt32.toNat_toUInt8]
    omega
  have hb : b.toUInt32 >>> 8 = 0 := by
    apply UInt32.toNat_inj.mp
    have hlt := b.toNat_lt
    rw [UInt32.toNat_shiftRight, UInt8.toNat_toUInt32, Nat.shiftRight_eq_div_pow]
    show b.toNat / 2 ^ 8 = 0
    omega
  have hsplit : crc ^^^ b.toUInt32 = ((crc ^^^ b.toUInt32) &&& 0xFF) ^^^
      ((crc ^^^ b.toUInt32) &&& 0xFFFFFF00) := by
    generalize crc ^^^ b.toUInt32 = z
    rw [UInt32.and_comm z 0xFF, UInt32.and_comm z 0xFFFFFF00, ← xor_and_distrib]
    show z = 0xFFFFFFFF &&& z
    rw [UInt32.and_comm]
    exact UInt32.and_neg_one.symm
  have hhigh : crcBit^[8] ((crc ^^^ b.toUInt32) &&& 0xFFFFFF00) = crc >>> 8 := by
    have hshift : (crc ^^^ b.toUInt32) >>> 8 = crc >>> 8 := by
      rw [UInt32.shiftRight_xor, hb, UInt32.xor_zero]
    rw [← hshift]
    generalize crc ^^^ b.toUInt32 = z
    have hand : (z &&& 0xFFFFFF00).toNat = z.toNat &&& 4294967040 := UInt32.toNat_and _ _
    have hzero : (z &&& 0xFFFFFF00).toNat % 2 ^ 8 = 0 := by
      rw [hand, Nat.and_mod_two_pow]
      exact Nat.and_zero _
    have hlt := z.toNat_lt
    apply UInt32.toNat_inj.mp
    rw [iterate_crcBit_toNat 8 _ hzero, hand, Nat.and_div_two_pow, UInt32.toNat_shiftRight,
      Nat.shiftRight_eq_div_pow]
    show z.toNat / 2 ^ 8 &&& 2 ^ 24 - 1 = z.toNat / 2 ^ 8
    rw [Nat.and_two_pow_sub_one_eq_mod]
    omega
  rw [hsplit, iterate_crcBit_xor, hhigh]
  unfold crcByte crcTableEntry
  rw [hlow]

theorem crcByte_injective_left (b : UInt8) : Function.Injective (crcByte · b) := by
  intro x y h
  simp only [crcByte_eq] at h
  exact (UInt32.xor_left_inj _).mp (crcBit_injective.iterate 8 h)

theorem crcByte_injective_right (crc : UInt32) : Function.Injective (crcByte crc) := by
  intro x y h
  rw [crcByte_eq, crcByte_eq] at h
  have heq := (UInt32.xor_right_inj _).mp (crcBit_injective.iterate 8 h)
  apply UInt8.toNat_inj.mp
  rw [← UInt8.toNat_toUInt32, ← UInt8.toNat_toUInt32, heq]

/-! ## One changed byte -/

theorem foldl_crcByte_injective (bs : Bytes) : Function.Injective (bs.foldl crcByte) := by
  induction bs with
  | nil => exact fun _ _ h => h
  | cons b bs ih =>
    intro x y h
    exact crcByte_injective_left b (ih h)

/-- A change of one byte changes the checksum. -/
theorem crc32c_ne_of_byte_ne (front back : Bytes) {x y : UInt8} (h : x ≠ y) :
    crc32c (front ++ x :: back) ≠ crc32c (front ++ y :: back) := by
  unfold crc32c
  intro heq
  have hfold := (UInt32.xor_left_inj _).mp heq
  rw [List.foldl_append, List.foldl_append, List.foldl_cons, List.foldl_cons] at hfold
  exact h (crcByte_injective_right _ (foldl_crcByte_injective back hfold))

/-- The same for a byte of a list that is replaced in place. -/
theorem crc32c_set_ne {bs : Bytes} {i : ℕ} {b : UInt8} (h : bs.set i b ≠ bs) :
    crc32c (bs.set i b) ≠ crc32c bs := by
  have hi : i < bs.length := by
    by_contra hge
    exact h (List.set_eq_of_length_le (not_lt.mp hge))
  have hbs : bs = bs.take i ++ bs[i] :: bs.drop (i + 1) := by
    rw [List.getElem_cons_drop, List.take_append_drop]
  have hset : bs.set i b = bs.take i ++ b :: bs.drop (i + 1) := List.set_eq_take_append_cons_drop ..
    |>.trans (if_pos hi)
  have hne : b ≠ bs[i] := by
    intro heq
    apply h
    rw [heq]
    exact List.set_getElem_self hi
  rw [hset]
  conv_rhs => rw [hbs]
  exact crc32c_ne_of_byte_ne _ _ hne

/-! ## The bit-serial register -/

/-- The Castagnoli polynomial, reflected. -/
def castagnoli : UInt32 := ⟨(0x1EDC6F41#32).reverse⟩

/-- One message bit: it is added to the lowest bit of the register, and what is shifted out decides
whether the polynomial is added. -/
def serialBit (crc : UInt32) (bit : Bool) : UInt32 :=
  if (decide (crc &&& 1 = 1) ^^ bit) = true then (crc >>> 1) ^^^ castagnoli else crc >>> 1

/-- The bits of a byte, the lowest first. -/
def bitsOf (b : UInt8) : List Bool := (List.range 8).map b.toNat.testBit

/-- CRC-32C, one message bit after another. -/
def crc32cSerial (bytes : Bytes) : UInt32 :=
  (bytes.flatMap bitsOf).foldl serialBit 0xFFFFFFFF ^^^ 0xFFFFFFFF

theorem kCrc32cPolynomial_eq : kCrc32cPolynomial = castagnoli := by decide +kernel

theorem serialBit_eq (crc : UInt32) (bit : Bool) :
    serialBit crc bit = crcBit crc ^^^ (if bit = true then kCrc32cPolynomial else 0) := by
  unfold serialBit
  rw [crcBit_eq, ← kCrc32cPolynomial_eq]
  by_cases hlow : crc &&& 1 = 1
  · cases bit with
    | false => simp [hlow]
    | true => simp [hlow]
  · cases bit with
    | false => simp [hlow]
    | true => simp [hlow]

/-- A bit step of a register to which a number was added: its lowest bit is the message bit. -/
theorem crcBit_xor_ofNat {v : ℕ} (hv : v < 2 ^ 32) (crc : UInt32) :
    crcBit (crc ^^^ UInt32.ofNat v) = serialBit crc (v.testBit 0) ^^^ UInt32.ofNat (v / 2) := by
  have hv' : (UInt32.ofNat v).toNat = v := UInt32.toNat_ofNat_of_lt' hv
  have hshift : UInt32.ofNat v >>> 1 = UInt32.ofNat (v / 2) := by
    apply UInt32.toNat_inj.mp
    rw [UInt32.toNat_shiftRight, hv', UInt32.toNat_ofNat_of_lt' (lt_of_le_of_lt (Nat.div_le_self v 2) hv)]
    exact Nat.shiftRight_one v
  have hlow : UInt32.ofNat v &&& 1 = 1 ↔ v.testBit 0 = true := by
    rw [← UInt32.toNat_inj, and_one_toNat, hv', Nat.testBit_zero, decide_eq_true_eq]
    rfl
  rw [crcBit_xor, crcBit_eq (UInt32.ofNat v), hshift, serialBit_eq]
  simp only [hlow]
  ac_rfl

/-- The bits of a number that was added to the register are taken up one after another. -/
theorem iterate_crcBit_ofNat (n : ℕ) {v : ℕ} (hv : v < 2 ^ n) (hn : n ≤ 32) (crc : UInt32) :
    crcBit^[n] (crc ^^^ UInt32.ofNat v) = ((List.range n).map v.testBit).foldl serialBit crc := by
  induction n generalizing v crc with
  | zero =>
    obtain rfl : v = 0 := by omega
    show crc ^^^ 0 = crc
    rw [UInt32.xor_zero]
  | succ n ih =>
    have hlt : v < 2 ^ 32 := lt_of_lt_of_le hv (Nat.pow_le_pow_right (by decide) hn)
    have htail : (v / 2).testBit = v.testBit ∘ Nat.succ := by
      funext i
      exact (Nat.testBit_succ v i).symm
    rw [Function.iterate_succ_apply, crcBit_xor_ofNat hlt, ih (by omega) (by omega), htail,
      List.range_succ_eq_map, List.map_cons, List.map_map, List.foldl_cons]

theorem crcByte_serial (crc : UInt32) (b : UInt8) : crcByte crc b = (bitsOf b).foldl serialBit crc := by
  have hb : b.toUInt32 = UInt32.ofNat b.toNat := by
    apply UInt32.toNat_inj.mp
    rw [UInt8.toNat_toUInt32, UInt32.toNat_ofNat_of_lt' (lt_trans b.toNat_lt (by decide))]
  rw [crcByte_eq, hb]
  exact iterate_crcBit_ofNat 8 b.toNat_lt (by decide) crc

theorem foldl_crcByte_serial (bytes : Bytes) (crc : UInt32) :
    bytes.foldl crcByte crc = (bytes.flatMap bitsOf).foldl serialBit crc := by
  induction bytes generalizing crc with
  | nil => rfl
  | cons b bytes ih =>
    rw [List.foldl_cons, List.flatMap_cons, List.foldl_append, ih, crcByte_serial]

/-- What has been fed to a checksum before stands in its value. -/
theorem Crc32c.update_value (chunks : List Bytes) (c : Crc32c) :
    (chunks.foldl Crc32c.update c).value =
      chunks.flatten.foldl crcByte (c.value ^^^ 0xFFFFFFFF) ^^^ 0xFFFFFFFF := by
  induction chunks generalizing c with
  | nil =>
    show c.value = c.value ^^^ 0xFFFFFFFF ^^^ 0xFFFFFFFF
    rw [UInt32.xor_assoc, UInt32.xor_self, UInt32.xor_zero]
  | cons chunk chunks ih =>
    rw [List.foldl_cons, ih, List.flatten_cons, List.foldl_append]
    unfold Crc32c.update
    rw [UInt32.xor_assoc, UInt32.xor_self, UInt32.xor_zero]

/-- `crc32c` is the bit-serial CRC-32C, and so is what `Crc32c::update` gives for the same bytes in
any chunks. -/
theorem crc32c_is_serial (bytes : Bytes) :
    crc32c bytes = crc32cSerial bytes ∧
      ∀ chunks : List Bytes, chunks.flatten = bytes →
        (chunks.foldl Crc32c.update {}).value = crc32c bytes := by
  constructor
  · unfold crc32c crc32cSerial
    rw [foldl_crcByte_serial]
  · rintro chunks rfl
    rw [Crc32c.update_value, crc32c]
    rfl

end EFG
