/-
# Shares in basis points

`to_basis_points` is `mul_div` with a saturating fallback.  Since `mul_div` gives
up on products beyond one word, a part whose ten-thousandfold does not fit counts
as the whole (`toNat_toBasisPoints`).  The share is therefore not exact over the
full range, but it is still monotone: the fallback is the largest share, and it is
taken from some part on.  The shares that `compose_measurements` reports inherit
that (`composeMeasurements_shares`).
-/
import ElephantFlow.Support
import ElephantFlow.WideArithmetic

namespace EFG

/-! ## Basis points -/

theorem toNat_kBasisPointsScale : kBasisPointsScale.toNat = 10000 := rfl

/-- What `mul_div` returns for a part that is below the whole. -/
theorem mulDiv_scale {part whole : UInt64} (hlt : part < whole) :
    (mulDiv part kBasisPointsScale.toUInt64 whole).map UInt64.toNat =
      if part.toNat * 10000 < 2 ^ 64 then some (part.toNat * 10000 / whole.toNat) else none := by
  have hlt' := UInt64.lt_iff_toNat_lt.mp hlt
  have hquotient : part.toNat * 10000 / whole.toNat < 10000 := by
    rw [Nat.div_lt_iff_lt_mul (by omega)]
    omega
  have hscale : (kBasisPointsScale.toUInt64).toNat = 10000 := rfl
  rw [map_mulDiv, hscale]
  by_cases hfits : part.toNat * 10000 < 2 ^ 64
  · rw [if_pos (.inr (.inr hfits)), if_pos hfits, exactMulDiv, if_pos ⟨by omega, by omega⟩]
  · -- neither shortcut applies: the part is below the whole, and the scale is small
    have hpart : ¬ whole.toNat ∣ part.toNat := by
      intro hdvd
      have hle := Nat.le_of_dvd (by omega) hdvd
      omega
    have hwhole : ¬ whole.toNat ∣ 10000 := by
      intro hdvd
      have hle := Nat.le_of_dvd (by omega) hdvd
      omega
    rw [if_neg hfits, if_neg]
    rintro (h | h | h)
    · exact hpart h
    · exact hwhole h
    · exact hfits h

/-- The share in basis points: everything from the whole on, and every part whose ten-thousandfold
does not fit in a word, counts as the whole. -/
theorem toNat_toBasisPoints (part : UInt64) {whole : UInt64} (hwhole : whole ≠ 0) :
    (toBasisPoints part whole).toNat =
      if whole ≤ part ∨ 2 ^ 64 ≤ part.toNat * 10000 then 10000
      else part.toNat * 10000 / whole.toNat := by
  unfold toBasisPoints
  rw [if_neg hwhole]
  by_cases hge : whole ≤ part
  · rw [if_pos hge, if_pos (.inl hge), toNat_kBasisPointsScale]
  have hlt := UInt64.not_le.mp hge
  have hlt' := UInt64.lt_iff_toNat_lt.mp hlt
  have hmul := mulDiv_scale hlt
  rw [if_neg hge]
  rcases hdiv : mulDiv part kBasisPointsScale.toUInt64 whole with _ | out
  · rw [hdiv, Option.map_none] at hmul
    split_ifs at hmul with hfits
    rw [if_pos (.inr (by omega))]
    rfl
  · rw [hdiv, Option.map_some] at hmul
    split_ifs at hmul with hfits
    rw [Option.some.injEq] at hmul
    have hquotient : part.toNat * 10000 / whole.toNat < 10000 := by
      rw [Nat.div_lt_iff_lt_mul (by omega)]
      omega
    have hscale : (kBasisPointsScale.toUInt64).toNat = 10000 := rfl
    have hsmall : ¬ out > kBasisPointsScale.toUInt64 := by
      rw [gt_iff_lt, UInt64.lt_iff_toNat_lt, hscale]
      omega
    rw [if_neg (by rintro (h | h) <;> [exact hge h; omega])]
    simp only [if_neg hsmall]
    rw [UInt64.toNat_toUInt32, hmul]
    omega

/-- The share over the integers. -/
def exactShare (part whole : ℕ) : ℕ := min 10000 (part * 10000 / whole)

theorem toBasisPoints_le (part whole : UInt64) : (toBasisPoints part whole).toNat ≤ 10000 := by
  by_cases hwhole : whole = 0
  · rw [toBasisPoints, if_pos hwhole]
    decide
  rw [toNat_toBasisPoints part hwhole]
  split_ifs with h
  · exact le_refl _
  · rw [not_or, UInt64.not_le, UInt64.lt_iff_toNat_lt] at h
    have hlt : part.toNat * 10000 / whole.toNat < 10000 := by
      rw [Nat.div_lt_iff_lt_mul (by omega)]
      omega
    exact le_of_lt hlt

theorem toBasisPoints_eq_exactShare_iff (part : UInt64) {whole : UInt64} (hwhole : whole ≠ 0) :
    (toBasisPoints part whole).toNat = exactShare part.toNat whole.toNat ↔
      whole ≤ part ∨ part.toNat * 10000 < 2 ^ 64 := by
  have hpos : 0 < whole.toNat := Nat.pos_of_ne_zero fun h => hwhole (toNat_eq_zero_iff.mp h)
  rw [toNat_toBasisPoints part hwhole]
  unfold exactShare
  by_cases hge : whole ≤ part
  · have hquotient : 10000 ≤ part.toNat * 10000 / whole.toNat := by
      rw [Nat.le_div_iff_mul_le hpos]
      have hle := UInt64.le_iff_toNat_le.mp hge
      omega
    rw [if_pos (.inl hge)]
    simp only [hge, true_or, iff_true]
    omega
  have hlt := UInt64.lt_iff_toNat_lt.mp (UInt64.not_le.mp hge)
  have hquotient : part.toNat * 10000 / whole.toNat < 10000 := by
    rw [Nat.div_lt_iff_lt_mul hpos]
    omega
  by_cases hfits : part.toNat * 10000 < 2 ^ 64
  · rw [if_neg (by rintro (h | h) <;> [exact hge h; omega])]
    simp only [hfits, or_true, iff_true]
    omega
  · rw [if_pos (.inr (by omega))]
    simp only [hge, hfits, or_self, iff_false]
    omega

/-- A larger part has no smaller share. -/
theorem toBasisPoints_mono {part part' : UInt64} (h : part ≤ part') (whole : UInt64) :
    toBasisPoints part whole ≤ toBasisPoints part' whole := by
  by_cases hwhole : whole = 0
  · rw [toBasisPoints, toBasisPoints, if_pos hwhole, if_pos hwhole]
    exact UInt32.le_refl 0
  have hle := UInt64.le_iff_toNat_le.mp h
  have hbound := toBasisPoints_le part whole
  rw [UInt32.le_iff_toNat_le]
  rw [toNat_toBasisPoints part' hwhole]
  split_ifs with hfull
  · exact hbound
  · rw [not_or, UInt64.not_le, UInt64.lt_iff_toNat_lt] at hfull
    rw [toNat_toBasisPoints part hwhole, if_neg]
    · exact Nat.div_le_div_right (by omega)
    · rw [UInt64.le_iff_toNat_le]
      omega

/-- A larger whole gives no larger share. -/
theorem toBasisPoints_antitone (part : UInt64) {whole whole' : UInt64} (hwhole : whole ≠ 0)
    (h : whole ≤ whole') : toBasisPoints part whole' ≤ toBasisPoints part whole := by
  have hle := UInt64.le_iff_toNat_le.mp h
  have hpos : 0 < whole.toNat := Nat.pos_of_ne_zero fun h => hwhole (toNat_eq_zero_iff.mp h)
  have hwhole' : whole' ≠ 0 := fun h => by
    rw [h, UInt64.toNat_zero] at hle
    omega
  have hbound := toBasisPoints_le part whole'
  rw [UInt32.le_iff_toNat_le]
  rw [toNat_toBasisPoints part hwhole]
  split_ifs with hfull
  · exact hbound
  · rw [not_or, UInt64.not_le, UInt64.lt_iff_toNat_lt] at hfull
    rw [toNat_toBasisPoints part hwhole', if_neg]
    · exact Nat.div_le_div_left hle hpos
    · rw [UInt64.le_iff_toNat_le]
      omega

/-! ## The shares of the measurements -/

theorem measurements_unbound (l : FlowLedger) :
    l.measurements.capacityKnown = false ∧ l.measurements.excessOverGuarantee = 0 := by
  unfold FlowLedger.measurements
  rcases h : deriveMeasurements l.samples l.limits l.completed l.gapDetected l.droppedWindows
    with e | m
  · exact ⟨rfl, rfl⟩
  unfold deriveMeasurements at h
  split at h
  · -- every early return is an error
    simp only at h
    split at h
    · cases h
    split at h
    · cases h
    split at h
    · cases h
    split at h
    · cases h
    cases h
    exact ⟨rfl, rfl⟩
  · cases h
    exact ⟨rfl, rfl⟩

theorem toNat_availability (c : ResourceCapacity) :
    (availability c).toNat = c.capacity.toNat - c.reserved.toNat := by
  unfold availability ResourceCapacity.available subOverflow
  split_ifs with h
  · have hlt := UInt64.lt_iff_toNat_lt.mp h
    show (0 : UInt64).toNat = _
    rw [UInt64.toNat_zero]
    omega
  · exact UInt64.toNat_sub_of_le _ _ (UInt64.not_lt.mp h)

theorem composeMeasurements_shares {ledger : FlowLedger} {path : Option PathDescriptor}
    {capacities : CapacityTable} {flows elephants : UInt32} {required : Bool}
    {m : FlowMeasurements}
    (h : composeMeasurements ledger path capacities flows elephants required = .ok m)
    (hknown : m.capacityKnown = true) :
    m.shareOfCapacity = toBasisPoints m.sustainedRate m.resourceCapacity ∧
      m.shareOfAvailable = Governor.shareOf m.sustainedRate m.resourceAvailable ∧
      m.resourceAvailable.toNat = m.resourceCapacity.toNat - m.resourceReserved.toNat := by
  have hunknown := (measurements_unbound ledger).1
  unfold composeMeasurements at h
  rcases path with _ | p
  · simp only at h
    split_ifs at h
    · cases h
    · cases h
      rw [hunknown] at hknown
      cases hknown
  rcases hb : resolveBinding (some p) capacities false 0 with _ | ⟨resource, capacity⟩
  · simp only [hb] at h
    split_ifs at h
    · cases h
    · cases h
      rw [hunknown] at hknown
      cases hknown
  · simp only [hb] at h
    cases h
    exact ⟨rfl, rfl, toNat_availability capacity⟩

/-- The share of the unreserved capacity without the cut at the whole. -/
theorem shareOf_eq (rate available : KiloTickRate) :
    Governor.shareOf rate available =
      if available = 0 then (if rate > 0 then kBasisPointsScale else 0)
      else toBasisPoints rate available := by
  unfold Governor.shareOf
  by_cases hzero : available = 0
  · rw [if_pos hzero, if_neg (by rw [hzero]; exact UInt64.lt_irrefl 0)]
  have hpos : available > 0 := by
    rw [gt_iff_lt, UInt64.lt_iff_toNat_lt, UInt64.toNat_zero]
    exact Nat.pos_of_ne_zero fun h => hzero (toNat_eq_zero_iff.mp h)
  rw [if_pos hpos, if_neg hzero]
  unfold minOf
  split_ifs with hlt
  · rfl
  · -- from the whole on both shares are the whole
    rw [toBasisPoints, toBasisPoints, if_neg hzero, if_neg hzero, if_pos (UInt64.le_refl _),
      if_pos (UInt64.not_lt.mp hlt)]

theorem toBasisPoints_zero (whole : UInt64) : toBasisPoints 0 whole = 0 := by
  by_cases hwhole : whole = 0
  · rw [toBasisPoints, if_pos hwhole]
  have hpos : 0 < whole.toNat := Nat.pos_of_ne_zero fun h => hwhole (toNat_eq_zero_iff.mp h)
  apply UInt32.toNat_inj.mp
  rw [toNat_toBasisPoints 0 hwhole, if_neg, UInt64.toNat_zero, Nat.zero_mul, Nat.zero_div]
  · rfl
  · rw [UInt64.le_iff_toNat_le, UInt64.toNat_zero]
    omega

theorem shareOf_mono {rate rate' : KiloTickRate} (h : rate ≤ rate') (available : KiloTickRate) :
    Governor.shareOf rate available ≤ Governor.shareOf rate' available := by
  rw [shareOf_eq, shareOf_eq]
  by_cases hzero : available = 0
  · rw [if_pos hzero, if_pos hzero]
    split_ifs with hrate hrate' hrate'
    · exact UInt32.le_refl _
    · exact absurd (UInt64.lt_of_lt_of_le hrate h) hrate'
    · decide
    · exact UInt32.le_refl _
  · rw [if_neg hzero, if_neg hzero]
    exact toBasisPoints_mono h available

theorem shareOf_antitone (rate : KiloTickRate) {available available' : KiloTickRate}
    (h : available ≤ available') :
    Governor.shareOf rate available' ≤ Governor.shareOf rate available := by
  have hscale : ∀ a, toBasisPoints rate a ≤ kBasisPointsScale := fun a =>
    UInt32.le_iff_toNat_le.mpr (toBasisPoints_le rate a)
  rw [shareOf_eq, shareOf_eq]
  by_cases hzero : available = 0
  · rw [if_pos hzero]
    by_cases hrate : rate > 0
    · rw [if_pos hrate]
      split_ifs
      · exact UInt32.le_refl _
      · exact hscale available'
    · have hnone : rate = 0 := by
        rw [gt_iff_lt, UInt64.lt_iff_toNat_lt, UInt64.toNat_zero] at hrate
        exact toNat_eq_zero_iff.mp (by omega)
      rw [if_neg hrate, hnone, toBasisPoints_zero, ite_self]
      exact UInt32.le_refl 0
  · have hzero' : available' ≠ 0 := fun h' => by
      rw [h', UInt64.le_iff_toNat_le, UInt64.toNat_zero] at h
      exact hzero (toNat_eq_zero_iff.mp (by omega))
    rw [if_neg hzero, if_neg hzero']
    exact toBasisPoints_antitone rate hzero h

/-- The share is exact exactly for parts that reach the whole or whose ten-thousandfold fits in a
word.  The reported shares are nevertheless monotone over the full range: they do not fall with the
sustained rate and do not rise with the capacity of the resource. -/
theorem shares_exact_iff_and_monotone (part whole : UInt64) :
    (whole ≠ 0 → ((toBasisPoints part whole).toNat = exactShare part.toNat whole.toNat ↔
      whole ≤ part ∨ part.toNat * 10000 < 2 ^ 64)) ∧
    (∀ (ledger ledger' : FlowLedger) (path path' : Option PathDescriptor)
      (capacities capacities' : CapacityTable) (flows flows' elephants elephants' : UInt32)
      (required required' : Bool) (m m' : FlowMeasurements),
      composeMeasurements ledger path capacities flows elephants required = .ok m →
      composeMeasurements ledger' path' capacities' flows' elephants' required' = .ok m' →
      m.capacityKnown = true → m'.capacityKnown = true →
      m.resourceReserved = m'.resourceReserved →
      (m.resourceCapacity = m'.resourceCapacity → m.sustainedRate ≤ m'.sustainedRate →
        m.shareOfCapacity ≤ m'.shareOfCapacity ∧ m.shareOfAvailable ≤ m'.shareOfAvailable) ∧
      (m.resourceCapacity ≠ 0 → m.resourceCapacity ≤ m'.resourceCapacity →
        m.sustainedRate = m'.sustainedRate →
        m'.shareOfCapacity ≤ m.shareOfCapacity ∧ m'.shareOfAvailable ≤ m.shareOfAvailable)) := by
  refine ⟨fun hwhole => toBasisPoints_eq_exactShare_iff part hwhole, ?_⟩
  intro ledger ledger' path path' capacities capacities' flows flows' elephants elephants' required
    required' m m' hm hm' hknown hknown' hreserved
  obtain ⟨hshare, havailable, hrest⟩ := composeMeasurements_shares hm hknown
  obtain ⟨hshare', havailable', hrest'⟩ := composeMeasurements_shares hm' hknown'
  rw [← hreserved] at hrest'
  constructor
  · intro hcapacity hrate
    have hsame : m'.resourceAvailable = m.resourceAvailable := by
      apply UInt64.toNat_inj.mp
      rw [hrest', hrest, hcapacity]
    rw [hshare, hshare', havailable, havailable', hsame, ← hcapacity]
    exact ⟨toBasisPoints_mono hrate _, shareOf_mono hrate _⟩
  · intro hpositive hcapacity hrate
    have hmore : m.resourceAvailable ≤ m'.resourceAvailable := by
      have hle := UInt64.le_iff_toNat_le.mp hcapacity
      rw [UInt64.le_iff_toNat_le, hrest, hrest']
      omega
    rw [hshare, hshare', havailable, havailable', ← hrate]
    exact ⟨toBasisPoints_antitone _ hpositive hcapacity, shareOf_antitone _ hmore⟩

/-- A part of one two-thousandth of a very large whole counts as all of it. -/
theorem toBasisPoints_saturates :
    toBasisPoints 0x8000000000000 0x3E80000000000000 = 10000 ∧
      exactShare (0x8000000000000 : UInt64).toNat (0x3E80000000000000 : UInt64).toNat = 5 := by
  decide +kernel

end EFG
