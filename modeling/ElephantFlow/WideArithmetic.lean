/-
# Products and quotients over 128 bits

What `mul_div` and the functions below it compute, compared with the integers
(`exactMulDiv`, `exactDivMod`).  The product of two words is exact
(`wideningMul_exact`).  The division is not: `divmod128` starts its remainder at
the high word and then feeds the high word in again, so that the remainder
outgrows every divisor within the first 64 rounds and the function gives up
(`divmod128Loop_high`).  It answers only where the high word is zero, and
`mul_div` answers only where a shortcut applies or the product fits in one word.
-/
import ElephantFlow.Checked
import Mathlib.Tactic.Ring

namespace EFG

/-! ## Words -/

theorem toNat_u64Max : u64Max.toNat = 2 ^ 64 - 1 := by decide

theorem toNat_lowHalf (a : UInt64) : (a &&& 0xFFFFFFFF).toNat = a.toNat % 2 ^ 32 := by
  rw [UInt64.toNat_and]
  exact Nat.and_two_pow_sub_one_eq_mod a.toNat 32

theorem toNat_highHalf (a : UInt64) : (a >>> 32).toNat = a.toNat / 2 ^ 32 := by
  rw [UInt64.toNat_shiftRight]
  exact Nat.shiftRight_eq_div_pow a.toNat 32

/-- Two halves put together. -/
theorem toNat_joinHalves (mid low : UInt64) (h : low.toNat < 2 ^ 32) :
    ((mid <<< 32) ||| low).toNat = mid.toNat % 2 ^ 32 * 2 ^ 32 + low.toNat := by
  have hshift : (mid <<< 32).toNat = 2 ^ 32 * (mid.toNat % 2 ^ 32) := by
    rw [UInt64.toNat_shiftLeft]
    show mid.toNat <<< 32 % 2 ^ 64 = _
    rw [Nat.shiftLeft_eq]
    omega
  rw [UInt64.toNat_or, hshift, ← Nat.two_pow_add_eq_or_of_lt h]
  omega

/-- A product of halves fits in a word. -/
theorem toNat_mul_halves {x y : UInt64} (hx : x.toNat < 2 ^ 32) (hy : y.toNat < 2 ^ 32) :
    (x * y).toNat = x.toNat * y.toNat := by
  have hlt : x.toNat * y.toNat < 2 ^ 32 * 2 ^ 32 := Nat.mul_lt_mul'' hx hy
  rw [UInt64.toNat_mul]
  exact Nat.mod_eq_of_lt hlt

/-- The partial products put together, where the sum fits in two words. -/
theorem joinPartials {p0 p1 p2 p3 mid : UInt64} {n : ℕ}
    (hmid : mid = (p0 >>> 32) + (p1 &&& 0xFFFFFFFF) + (p2 &&& 0xFFFFFFFF))
    (hn : n = p3.toNat * 2 ^ 64 + (p1.toNat + p2.toNat) * 2 ^ 32 + p0.toNat)
    (hlt : n < 2 ^ 64 * 2 ^ 64) :
    (p3 + (p1 >>> 32) + (p2 >>> 32) + (mid >>> 32)).toNat * 2 ^ 64 +
      ((mid <<< 32) ||| (p0 &&& 0xFFFFFFFF)).toNat = n := by
  have h0 := p0.toNat_lt
  have h1 := p1.toNat_lt
  have h2 := p2.toNat_lt
  have hmid' : mid.toNat = p0.toNat / 2 ^ 32 + p1.toNat % 2 ^ 32 + p2.toNat % 2 ^ 32 := by
    rw [hmid, UInt64.toNat_add, UInt64.toNat_add, toNat_highHalf, toNat_lowHalf, toNat_lowHalf]
    omega
  have hlow : (p0 &&& 0xFFFFFFFF).toNat < 2 ^ 32 := by
    rw [toNat_lowHalf]
    omega
  rw [toNat_joinHalves _ _ hlow, toNat_lowHalf, UInt64.toNat_add, UInt64.toNat_add,
    UInt64.toNat_add, toNat_highHalf, toNat_highHalf, toNat_highHalf, hmid']
  omega

/-- The two words of `widening_mul` are the product. -/
theorem wideningMul_exact (a b : UInt64) :
    (wideningMul a b).1.toNat * 2 ^ 64 + (wideningMul a b).2.toNat = a.toNat * b.toNat := by
  have ha := a.toNat_lt
  have hb := b.toNat_lt
  have haLo := toNat_lowHalf a
  have haHi := toNat_highHalf a
  have hbLo := toNat_lowHalf b
  have hbHi := toNat_highHalf b
  refine joinPartials rfl ?_ (Nat.mul_lt_mul'' ha hb)
  rw [toNat_mul_halves (by omega) (by omega), toNat_mul_halves (by omega) (by omega),
    toNat_mul_halves (by omega) (by omega), toNat_mul_halves (by omega) (by omega), haLo, haHi,
    hbLo, hbHi]
  -- both factors split into their halves
  have hasplit : a.toNat = a.toNat / 2 ^ 32 * 2 ^ 32 + a.toNat % 2 ^ 32 := by omega
  have hbsplit : b.toNat = b.toNat / 2 ^ 32 * 2 ^ 32 + b.toNat % 2 ^ 32 := by omega
  generalize a.toNat / 2 ^ 32 = aHi at hasplit ⊢
  generalize a.toNat % 2 ^ 32 = aLo at hasplit ⊢
  generalize b.toNat / 2 ^ 32 = bHi at hbsplit ⊢
  generalize b.toNat % 2 ^ 32 = bLo at hbsplit ⊢
  rw [hasplit, hbsplit]
  ring

/-! ## Division -/

/-- The bit that the loop of `divmod128` reads from the high word. -/
theorem toNat_highBit (hi : UInt64) {n : ℕ} (hn : n < 64) :
    ((hi >>> UInt64.ofNat n) &&& 1).toNat = hi.toNat / 2 ^ n % 2 := by
  have hmod : (UInt64.ofNat n).toNat % 64 = n := by
    rw [UInt64.toNat_ofNat']
    omega
  rw [UInt64.toNat_and, UInt64.toNat_shiftRight, hmod, Nat.shiftRight_eq_div_pow]
  exact Nat.and_one_is_mod _

theorem toNat_shiftIn {r bit : UInt64} (hr : r.toNat < 2 ^ 63) (hbit : bit.toNat < 2) :
    ((r <<< 1) ||| bit).toNat = 2 * r.toNat + bit.toNat := by
  have hshift : (r <<< 1).toNat = 2 ^ 1 * r.toNat := by
    rw [UInt64.toNat_shiftLeft]
    show r.toNat <<< 1 % 2 ^ 64 = _
    rw [Nat.shiftLeft_eq]
    omega
  rw [UInt64.toNat_or, hshift, ← Nat.two_pow_add_eq_or_of_lt hbit]

theorem lt_of_carry_eq_zero {r : UInt64} (h : r >>> 63 = 0) : r.toNat < 2 ^ 63 := by
  have hzero := congrArg UInt64.toNat h
  rw [UInt64.toNat_shiftRight, UInt64.toNat_zero] at hzero
  have hdiv : r.toNat / 2 ^ 63 = 0 := by
    rw [← Nat.shiftRight_eq_div_pow]
    exact hzero
  omega

/-- The first 64 rounds of the division loop on a high word that is not zero.  With `n` of them left
the remainder holds the high word followed by its own leading bits, so it does not fit in a word
when none is left, and before that a round that subtracts gives up. -/
theorem divmod128Loop_high {hi : UInt64} (lo divisor : UInt64) (hhi : hi ≠ 0) (n : ℕ) (hn : n ≤ 64)
    (q r : UInt64) (hr : r.toNat = hi.toNat * 2 ^ (64 - n) + hi.toNat / 2 ^ n) :
    divmod128Loop hi lo divisor (n + 64) q r = none := by
  induction n generalizing r with
  | zero =>
    have hpos : 0 < hi.toNat := by
      by_contra hzero
      exact hhi (UInt64.toNat_inj.mp ((Nat.eq_zero_of_not_pos hzero).trans UInt64.toNat_zero.symm))
    have hlt := r.toNat_lt
    simp only [Nat.sub_zero] at hr
    omega
  | succ n ih =>
    have hbit := toNat_highBit hi (n := n) (by omega)
    rw [show n + 1 + 64 = (n + 64) + 1 by omega, divmod128Loop]
    simp only [show n + 64 ≥ 64 by omega, if_true, Nat.add_sub_cancel,
      show ¬ n + 64 < 64 by omega, if_false]
    split_ifs with hgives
    · rfl
    rw [not_or, not_not] at hgives
    apply ih (by omega)
    have hroom := lt_of_carry_eq_zero hgives.1
    rw [toNat_shiftIn hroom (by rw [hbit]; omega), hbit, hr,
      show 64 - n = (64 - (n + 1)) + 1 by omega]
    have hdiv : hi.toNat / 2 ^ (n + 1) = hi.toNat / 2 ^ n / 2 := by
      rw [Nat.div_div_eq_div_mul, Nat.pow_succ]
    rw [hdiv, Nat.pow_succ]
    have hcomm : hi.toNat * (2 ^ (64 - (n + 1)) * 2) = 2 * (hi.toNat * 2 ^ (64 - (n + 1))) := by
      ring
    rw [hcomm]
    omega

/-- `divmod128` divides one-word dividends and gives up on all others. -/
theorem divmod128_eq (hi lo divisor : UInt64) :
    divmod128 hi lo divisor =
      if divisor ≠ 0 ∧ hi = 0 then some (lo / divisor, lo % divisor) else none := by
  unfold divmod128
  by_cases hd : divisor = 0
  · rw [if_pos hd, if_neg (by simp [hd])]
  rw [if_neg hd]
  by_cases hhi : hi = 0
  · rw [if_pos hhi, if_pos ⟨hd, hhi⟩]
  have hno : ¬ (divisor ≠ 0 ∧ hi = 0) := fun h => hhi h.2
  rw [if_neg hhi, if_neg hno]
  split_ifs
  · rfl
  · have hstart : hi.toNat = hi.toNat * 2 ^ (64 - 64) + hi.toNat / 2 ^ 64 := by
      have hlt := hi.toNat_lt
      rw [Nat.div_eq_of_lt hlt]
      simp
    exact divmod128Loop_high lo divisor hhi 64 (by omega) 0 hi hstart

/-! ## Exactness -/

/-- The quotient of a product over the integers, where it fits in one word. -/
def exactMulDiv (a b divisor : ℕ) : Option ℕ :=
  if divisor ≠ 0 ∧ a * b / divisor < 2 ^ 64 then some (a * b / divisor) else none

/-- Quotient and remainder over the integers, where the quotient fits in one word. -/
def exactDivMod (n divisor : ℕ) : Option (ℕ × ℕ) :=
  if divisor ≠ 0 ∧ n / divisor < 2 ^ 64 then some (n / divisor, n % divisor) else none

theorem toNat_eq_zero_iff {x : UInt64} : x.toNat = 0 ↔ x = 0 :=
  ⟨fun h => UInt64.toNat_inj.mp (h.trans UInt64.toNat_zero.symm), fun h => by rw [h, UInt64.toNat_zero]⟩

/-- `mul_overflow` reports exactly the products that do not fit. -/
theorem map_mulOverflow (a b : UInt64) :
    (mulOverflow a b).map UInt64.toNat =
      if a.toNat * b.toNat < 2 ^ 64 then some (a.toNat * b.toNat) else none := by
  have hover : (a ≠ 0 ∧ b > u64Max / a) ↔ ¬ a.toNat * b.toNat < 2 ^ 64 := by
    by_cases ha : a = 0
    · rw [ha, UInt64.toNat_zero]
      simp
    have hpos : 0 < a.toNat := Nat.pos_of_ne_zero fun h => ha (toNat_eq_zero_iff.mp h)
    rw [gt_iff_lt, UInt64.lt_iff_toNat_lt, UInt64.toNat_div, toNat_u64Max,
      Nat.div_lt_iff_lt_mul hpos, Nat.mul_comm b.toNat]
    constructor
    · intro h
      omega
    · intro h
      exact ⟨ha, by omega⟩
  unfold mulOverflow
  by_cases hlt : a.toNat * b.toNat < 2 ^ 64
  · rw [if_pos hlt, if_neg (fun h => hover.mp h hlt), Option.map_some, UInt64.toNat_mul,
      Nat.mod_eq_of_lt hlt]
  · rw [if_neg hlt, if_pos (hover.mpr hlt)]
    rfl

theorem mod_eq_zero_iff {a divisor : UInt64} : a % divisor = 0 ↔ divisor.toNat ∣ a.toNat := by
  rw [← toNat_eq_zero_iff, UInt64.toNat_mod, Nat.dvd_iff_mod_eq_zero]

/-- The shortcut of `mul_div` for a factor that the divisor divides. -/
theorem map_mulOverflow_div {a divisor : UInt64} (b : UInt64) (hd : divisor ≠ 0)
    (hdvd : divisor.toNat ∣ a.toNat) :
    (mulOverflow (a / divisor) b).map UInt64.toNat =
      exactMulDiv a.toNat b.toNat divisor.toNat := by
  have hquotient : a.toNat * b.toNat / divisor.toNat = a.toNat / divisor.toNat * b.toNat := by
    rw [Nat.mul_comm, Nat.mul_div_assoc _ hdvd, Nat.mul_comm]
  have hne : divisor.toNat ≠ 0 := fun h => hd (toNat_eq_zero_iff.mp h)
  rw [map_mulOverflow, UInt64.toNat_div, ← hquotient]
  unfold exactMulDiv
  by_cases hlt : a.toNat * b.toNat / divisor.toNat < 2 ^ 64
  · rw [if_pos hlt, if_pos ⟨hne, hlt⟩]
  · rw [if_neg hlt, if_neg (fun h => hlt h.2)]

/-- The division of the whole product. -/
theorem map_divmod128_wideningMul (a b divisor : UInt64) (hd : divisor ≠ 0) :
    ((divmod128 (wideningMul a b).1 (wideningMul a b).2 divisor).map Prod.fst).map UInt64.toNat =
      if a.toNat * b.toNat < 2 ^ 64 then exactMulDiv a.toNat b.toNat divisor.toNat else none := by
  have hexact := wideningMul_exact a b
  have hlow := (wideningMul a b).2.toNat_lt
  have hne : divisor.toNat ≠ 0 := fun h => hd (toNat_eq_zero_iff.mp h)
  rw [divmod128_eq]
  by_cases hhigh : (wideningMul a b).1 = 0
  · rw [hhigh, UInt64.toNat_zero] at hexact
    have hproduct : (wideningMul a b).2.toNat = a.toNat * b.toNat := by omega
    have hle := Nat.div_le_self (a.toNat * b.toNat) divisor.toNat
    rw [if_pos ⟨hd, hhigh⟩, if_pos (by omega), Option.map_some, Option.map_some, UInt64.toNat_div,
      hproduct, exactMulDiv, if_pos ⟨hne, by omega⟩]
  · have hpos : (wideningMul a b).1.toNat ≠ 0 := fun h => hhigh (toNat_eq_zero_iff.mp h)
    rw [if_neg (fun h => hhigh h.2), if_neg (by omega)]
    rfl

/-- What `mul_div` computes: the quotient where it fits, and the divisor divides a factor or the
product fits. -/
theorem map_mulDiv (a b divisor : UInt64) :
    (mulDiv a b divisor).map UInt64.toNat =
      if divisor.toNat ∣ a.toNat ∨ divisor.toNat ∣ b.toNat ∨ a.toNat * b.toNat < 2 ^ 64 then
        exactMulDiv a.toNat b.toNat divisor.toNat
      else none := by
  unfold mulDiv
  by_cases hd : divisor = 0
  · rw [if_pos hd, hd]
    have hnone : exactMulDiv a.toNat b.toNat (0 : UInt64).toNat = none := by
      unfold exactMulDiv
      rw [if_neg (fun h => h.1 UInt64.toNat_zero)]
    rw [hnone, ite_self]
    rfl
  have hne : divisor.toNat ≠ 0 := fun h => hd (toNat_eq_zero_iff.mp h)
  rw [if_neg hd]
  by_cases hzero : a = 0 ∨ b = 0
  · have hproduct : a.toNat * b.toNat = 0 := by
      rcases hzero with rfl | rfl
      · rw [UInt64.toNat_zero, Nat.zero_mul]
      · rw [UInt64.toNat_zero, Nat.mul_zero]
    rw [if_pos hzero, if_pos (.inr (.inr (by omega)))]
    unfold exactMulDiv
    rw [hproduct, Nat.zero_div, if_pos ⟨hne, by omega⟩]
    rfl
  rw [if_neg hzero]
  by_cases ha : a % divisor = 0
  · rw [if_pos ha, if_pos (.inl (mod_eq_zero_iff.mp ha))]
    exact map_mulOverflow_div b hd (mod_eq_zero_iff.mp ha)
  rw [if_neg ha]
  by_cases hb : b % divisor = 0
  · rw [if_pos hb, if_pos (.inr (.inl (mod_eq_zero_iff.mp hb))),
      map_mulOverflow_div a hd (mod_eq_zero_iff.mp hb)]
    unfold exactMulDiv
    rw [Nat.mul_comm]
  rw [if_neg hb, map_divmod128_wideningMul a b divisor hd]
  have hna : ¬ divisor.toNat ∣ a.toNat := fun h => ha (mod_eq_zero_iff.mpr h)
  have hnb : ¬ divisor.toNat ∣ b.toNat := fun h => hb (mod_eq_zero_iff.mpr h)
  simp only [hna, hnb, false_or]

/-- `mul_div` is exact exactly where the divisor is zero or divides a factor, the product fits in
one word, or the quotient does not; `divmod128` exactly where the divisor is zero, the high word is
zero, or the quotient does not fit. -/
theorem mulDiv_exact_iff (a b hi lo divisor : UInt64) :
    ((mulDiv a b divisor).map UInt64.toNat = exactMulDiv a.toNat b.toNat divisor.toNat ↔
      divisor = 0 ∨ divisor.toNat ∣ a.toNat ∨ divisor.toNat ∣ b.toNat ∨
        a.toNat * b.toNat < 2 ^ 64 ∨ 2 ^ 64 ≤ a.toNat * b.toNat / divisor.toNat) ∧
    ((divmod128 hi lo divisor).map (Prod.map UInt64.toNat UInt64.toNat) =
        exactDivMod (hi.toNat * 2 ^ 64 + lo.toNat) divisor.toNat ↔
      divisor = 0 ∨ hi = 0 ∨ divisor ≤ hi) := by
  constructor
  · rw [map_mulDiv]
    by_cases hanswers : divisor.toNat ∣ a.toNat ∨ divisor.toNat ∣ b.toNat ∨
        a.toNat * b.toNat < 2 ^ 64
    · rw [if_pos hanswers]
      simp only [true_iff]
      tauto
    · rw [if_neg hanswers]
      unfold exactMulDiv
      by_cases hfits : divisor.toNat ≠ 0 ∧ a.toNat * b.toNat / divisor.toNat < 2 ^ 64
      · rw [if_pos hfits]
        have hd : divisor ≠ 0 := fun h => hfits.1 (toNat_eq_zero_iff.mpr h)
        have hlt := hfits.2
        simp only [reduceCtorEq, false_iff]
        rintro (h | h | h | h | h)
        · exact hd h
        · exact hanswers (.inl h)
        · exact hanswers (.inr (.inl h))
        · exact hanswers (.inr (.inr h))
        · omega
      · rw [if_neg hfits]
        simp only [true_iff]
        by_cases hd : divisor = 0
        · exact .inl hd
        · have hne : divisor.toNat ≠ 0 := fun h => hd (toNat_eq_zero_iff.mp h)
          have hge : ¬ a.toNat * b.toNat / divisor.toNat < 2 ^ 64 := fun h => hfits ⟨hne, h⟩
          exact .inr (.inr (.inr (.inr (by omega))))
  · have hlo := lo.toNat_lt
    rw [divmod128_eq]
    unfold exactDivMod
    by_cases hd : divisor = 0
    · rw [if_neg (fun h => h.1 hd), if_neg (fun h => h.1 (toNat_eq_zero_iff.mpr hd))]
      simp [hd]
    have hpos : 0 < divisor.toNat := Nat.pos_of_ne_zero fun h => hd (toNat_eq_zero_iff.mp h)
    by_cases hhi : hi = 0
    · have hle := Nat.div_le_self lo.toNat divisor.toNat
      rw [if_pos ⟨hd, hhi⟩, hhi, UInt64.toNat_zero, Nat.zero_mul, Nat.zero_add,
        if_pos ⟨by omega, by omega⟩]
      simp [UInt64.toNat_div, UInt64.toNat_mod]
    -- the high word decides whether the quotient fits
    have hfits : (hi.toNat * 2 ^ 64 + lo.toNat) / divisor.toNat < 2 ^ 64 ↔ ¬ divisor ≤ hi := by
      rw [Nat.div_lt_iff_lt_mul hpos, UInt64.le_iff_toNat_le]
      omega
    rw [if_neg (fun h => hhi h.2)]
    by_cases hge : divisor ≤ hi
    · rw [if_neg (fun h => hfits.mp h.2 hge)]
      simp [hge]
    · rw [if_pos ⟨by omega, hfits.mpr hge⟩]
      simp [hd, hhi, hge]

/-- Three halves of a word's range divided by five: the quotient fits and `mul_div` reports that it
does not. -/
theorem mulDiv_gives_up :
    mulDiv 0x8000000000000000 3 5 = none ∧
      exactMulDiv (0x8000000000000000 : UInt64).toNat 3 5 = some (3 * 2 ^ 63 / 5) := by
  decide +kernel

end EFG
