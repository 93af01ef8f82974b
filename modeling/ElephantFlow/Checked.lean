/-
# Checked 64-bit arithmetic

The helpers of `checked.hpp`.  A `bool f(.., u64& out)` of the source that
reports success is `Option UInt64` here; one that reports the failure
(`add_overflow` and its siblings) is `none` exactly when it returns `true`.
-/
import ElephantFlow.Identity

namespace EFG

/-- Basis points: one ten-thousandth. -/
abbrev BasisPoints := UInt32

/-- Bytes per one thousand logical ticks. -/
abbrev KiloTickRate := UInt64

def kBasisPointsScale : BasisPoints := 10000
def kKiloTickScale : UInt64 := 1000

/-- `add_overflow`. -/
def addOverflow (a b : UInt64) : Option UInt64 :=
  if a > u64Max - b then none else some (a + b)

/-- `sub_overflow`. -/
def subOverflow (a b : UInt64) : Option UInt64 :=
  if b > a then none else some (a - b)

/-- `mul_overflow`. -/
def mulOverflow (a b : UInt64) : Option UInt64 :=
  if a ≠ 0 ∧ b > u64Max / a then none else some (a * b)

/-- `widening_mul`: the 128-bit product as its high and low words, from 32-bit limbs. -/
def wideningMul (a b : UInt64) : UInt64 × UInt64 :=
  let aLo := a &&& 0xFFFFFFFF
  let aHi := a >>> 32
  let bLo := b &&& 0xFFFFFFFF
  let bHi := b >>> 32
  let p0 := aLo * bLo
  let p1 := aLo * bHi
  let p2 := aHi * bLo
  let p3 := aHi * bHi
  let mid := (p0 >>> 32) + (p1 &&& 0xFFFFFFFF) + (p2 &&& 0xFFFFFFFF)
  (p3 + (p1 >>> 32) + (p2 >>> 32) + (mid >>> 32), (mid <<< 32) ||| (p0 &&& 0xFFFFFFFF))

/-- The loop of `divmod128`: `n` bits are left, the next one is bit `n - 1`. -/
def divmod128Loop (hi lo divisor : UInt64) : ℕ → UInt64 → UInt64 → Option (UInt64 × UInt64)
  | 0, q, r => some (q, r)
  | bit + 1, q, r =>
    let nextBit :=
      if bit ≥ 64 then (hi >>> UInt64.ofNat (bit - 64)) &&& 1
      else (lo >>> UInt64.ofNat bit) &&& 1
    let carry := r >>> 63
    let r := (r <<< 1) ||| nextBit
    if carry ≠ 0 ∨ r ≥ divisor then
      if bit < 64 then
        divmod128Loop hi lo divisor bit (q ||| ((1 : UInt64) <<< UInt64.ofNat bit)) (r - divisor)
      else none
    else divmod128Loop hi lo divisor bit q r

/-- `divmod128`: quotient and remainder of the 128-bit `hi:lo`. -/
def divmod128 (hi lo divisor : UInt64) : Option (UInt64 × UInt64) :=
  if divisor = 0 then none
  else if hi = 0 then some (lo / divisor, lo % divisor)
  else if hi ≥ divisor then none
  else divmod128Loop hi lo divisor 128 0 hi

/-- `mul_div`: `a * b / divisor`, or `none` when it does not fit. -/
def mulDiv (a b divisor : UInt64) : Option UInt64 :=
  if divisor = 0 then none
  else if a = 0 ∨ b = 0 then some 0
  else if a % divisor = 0 then mulOverflow (a / divisor) b
  else if b % divisor = 0 then mulOverflow (b / divisor) a
  else (divmod128 (wideningMul a b).1 (wideningMul a b).2 divisor).map Prod.fst

/-- `saturating_add`. -/
def saturatingAdd (a b : UInt64) : UInt64 := (addOverflow a b).getD u64Max

/-- `min_of`. -/
def minOf (a b : UInt64) : UInt64 := if a < b then a else b

/-- `max_of`. -/
def maxOf (a b : UInt64) : UInt64 := if a > b then a else b

/-- `apply_basis_points`. -/
def applyBasisPoints (total : UInt64) (bp : BasisPoints) : Option UInt64 :=
  if bp > kBasisPointsScale then none
  else mulDiv total bp.toUInt64 kBasisPointsScale.toUInt64

/-- `to_basis_points`: "part of whole", saturating at 10000. -/
def toBasisPoints (part whole : UInt64) : BasisPoints :=
  if whole = 0 then 0
  else if part ≥ whole then kBasisPointsScale
  else
    match mulDiv part kBasisPointsScale.toUInt64 whole with
    | none => kBasisPointsScale
    | some out => if out > kBasisPointsScale.toUInt64 then kBasisPointsScale else out.toUInt32

section

variable (a b : UInt64)

theorem le_maxOf_right : b ≤ maxOf a b := by
  unfold maxOf
  grind

theorem minOf_le_left : minOf a b ≤ a := by
  unfold minOf
  split_ifs with h
  · exact UInt64.le_refl _
  · exact UInt64.not_lt.mp h

theorem minOf_le_right : minOf a b ≤ b := by
  unfold minOf
  split_ifs with h
  · exact UInt64.le_of_lt h
  · exact UInt64.le_refl _

theorem toNat_saturatingAdd : (saturatingAdd a b).toNat = min (a.toNat + b.toNat) (2 ^ 64 - 1) := by
  have ha := a.toNat_lt
  have hb := b.toNat_lt
  have hmax : u64Max.toNat = 2 ^ 64 - 1 := by decide
  have hsub : (u64Max - b).toNat = 2 ^ 64 - 1 - b.toNat := by
    rw [UInt64.toNat_sub_of_le _ _ (by rw [UInt64.le_iff_toNat_le, hmax]; omega), hmax]
  unfold saturatingAdd addOverflow
  split_ifs with h
  · rw [gt_iff_lt, UInt64.lt_iff_toNat_lt, hsub] at h
    rw [Option.getD_none, hmax]
    omega
  · rw [gt_iff_lt, UInt64.lt_iff_toNat_lt, hsub] at h
    rw [Option.getD_some, UInt64.toNat_add]
    omega

theorem le_saturatingAdd_left : a ≤ saturatingAdd a b := by
  rw [UInt64.le_iff_toNat_le, toNat_saturatingAdd]
  have := a.toNat_lt
  omega

theorem saturatingAdd_sub_le : saturatingAdd a b - a ≤ b := by
  rw [UInt64.le_iff_toNat_le, UInt64.toNat_sub_of_le _ _ (le_saturatingAdd_left a b),
    toNat_saturatingAdd]
  omega

end

end EFG
