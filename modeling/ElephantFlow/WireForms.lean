/-
# The wire forms: round trips, truncation and canonicity

Every type with an encoder and a decoder in `codec.cpp` is read back as it was
written, whatever follows it, and no proper prefix of an encoding is accepted.

In the other direction, the bytes that a decoder accepts are the encoding of the
value that it returns, with one exception.  The reader of a priority ignores the
level byte behind a cleared flag, so that samples, measurements and
classifications have several spellings when their priority is unknown.
-/
import ElephantFlow.Codec
import ElephantFlow.Spelling

namespace EFG

open ByteCodec

/-! ## Small readers -/

instance (ceiling : ℕ) : Spells (readCount ceiling) fun n => le32 (UInt32.ofNat n) where
  spelledBy := by
    refine Spells.bind fun count => ?_
    split_ifs
    · exact Spelt.refuse _ _ _
    · refine Spelt.pure ?_
      show le32 count = le32 (UInt32.ofNat count.toNat)
      rw [UInt32.ofNat_toNat]

theorem spelledBy_readEnum {α : Type} {limit : UInt8} {cast : UInt8 → α} {toU8 : α → UInt8}
    (h : ∀ i < limit.toNat, toU8 (cast (UInt8.ofNat i)) = UInt8.ofNat i) :
    SpelledBy (readEnum limit cast) fun a => [toU8 a] := by
  refine (spelledBy_u8 _).bind fun raw => ?_
  split_ifs with hge
  · exact Spelt.refuse _ _ _
  · refine Spelt.pure ?_
    have hraw := h raw.toNat (UInt8.lt_iff_toNat_lt.mp (UInt8.not_le.mp hge))
    rw [UInt8.ofNat_toNat] at hraw
    show [raw] = [toU8 (cast raw)]
    rw [hraw]

instance : Spells (readEnum 6 ServiceClass.ofU8) fun a => [a.toU8] :=
  ⟨spelledBy_readEnum (by decide)⟩

instance : Spells (readEnum 4 ProtectionState.ofU8) fun a => [a.toU8] :=
  ⟨spelledBy_readEnum (by decide)⟩

instance : Spells (readEnum 16 ThresholdKind.ofU8) fun a => [a.toU8] :=
  ⟨spelledBy_readEnum (by decide)⟩

instance : Spells (readEnum 4 RuleKind.ofU8) fun a => [a.toU8] := ⟨spelledBy_readEnum (by decide)⟩

instance : Spells (readEnum 3 Tri.ofU8) fun a => [a.toU8] := ⟨spelledBy_readEnum (by decide)⟩

instance : Spells (readEnum 4 ElephantState.ofU8) fun a => [a.toU8] :=
  ⟨spelledBy_readEnum (by decide)⟩

instance : Spells (readEnum 3 AuthorityLevel.ofU8) fun a => [a.toU8] :=
  ⟨spelledBy_readEnum (by decide)⟩

instance : Spells (readEnum 7 IntentKind.ofU8) fun a => [a.toU8] := ⟨spelledBy_readEnum (by decide)⟩

instance : Spells (readEnum 8 IntentState.ofU8) fun a => [a.toU8] :=
  ⟨spelledBy_readEnum (by decide)⟩

instance (ceiling : ℕ) : Sequential (readCount ceiling) := by
  unfold readCount
  infer_instance

instance {α : Type} (limit : UInt8) (cast : UInt8 → α) : Sequential (readEnum limit cast) := by
  unfold readEnum
  infer_instance

instance (e₁ e₂ e₃ : Status) : Sequential (decodePriority e₁ e₂ e₃) := by
  unfold decodePriority
  infer_instance

/-! ## Round trips -/

instance : Sequential (decode : Decoder Status TickSpan) :=
  inferInstanceAs (Sequential (_ >>= _))

instance : Sequential (decode : Decoder Status ValidityWindow) :=
  inferInstanceAs (Sequential (_ >>= _))

instance : Sequential (decode : Decoder Status Provenance) :=
  inferInstanceAs (Sequential (_ >>= _))

instance : Sequential (decode : Decoder Status Threshold) :=
  inferInstanceAs (Sequential (_ >>= _))

instance : Sequential (decode : Decoder Status UInt32) :=
  inferInstanceAs (Sequential (Decoder.u32 _))

instance : Sequential (decode : Decoder Status RuleNode) :=
  inferInstanceAs (Sequential (_ >>= _))

instance : Sequential (decode : Decoder Status RuleSet) :=
  inferInstanceAs (Sequential (_ >>= _))

instance : Sequential (decode : Decoder Status HysteresisSpec) :=
  inferInstanceAs (Sequential (_ >>= _))

instance : Sequential (decode : Decoder Status IntentAuthorization) :=
  inferInstanceAs (Sequential (_ >>= _))

instance : Sequential (decode : Decoder Status PolicyDocument) :=
  inferInstanceAs (Sequential (_ >>= _))

instance : Sequential (decode : Decoder Status FlowSample) :=
  inferInstanceAs (Sequential (_ >>= _))

instance : Sequential (decode : Decoder Status FlowMeasurements) :=
  inferInstanceAs (Sequential (_ >>= _))

instance : Sequential (decode : Decoder Status ResourceCapacity) :=
  inferInstanceAs (Sequential (_ >>= _))

instance : Sequential (decode : Decoder Status ResourceId) :=
  inferInstanceAs (Sequential (_ >>= _))

instance : Sequential (decode : Decoder Status PathDescriptor) :=
  inferInstanceAs (Sequential (_ >>= _))

instance : Sequential (decode : Decoder Status ImpactAssessment) :=
  inferInstanceAs (Sequential (_ >>= _))

instance : Sequential (decode : Decoder Status AuthorityVector) :=
  inferInstanceAs (Sequential (_ >>= _))

instance : Sequential (decode : Decoder Status ThresholdTraceEntry) :=
  inferInstanceAs (Sequential (_ >>= _))

instance : Sequential (decode : Decoder Status FlowClassification) :=
  inferInstanceAs (Sequential (_ >>= _))

instance : Sequential (decode : Decoder Status ClassificationTransition) :=
  inferInstanceAs (Sequential (_ >>= _))

instance : Sequential (decode : Decoder Status IntentBounds) :=
  inferInstanceAs (Sequential (_ >>= _))

instance : Sequential (decode : Decoder Status GovernanceIntent) :=
  inferInstanceAs (Sequential (_ >>= _))

/-- What fits the format is read back as it was written, whatever follows it, and no proper prefix
of its encoding is accepted. -/
def RoundTrips (α : Type) [Wire Status α] : Prop :=
  ∀ x : α, Fits x → (∀ rest, decode (encoded x ++ rest) = .ok (x, rest)) ∧
    ∀ p, p <+: encoded x → p ≠ encoded x → ∃ e : Status, (decode : Decoder Status α) p = .error e

theorem roundTrips {α : Type} [Wire Status α] [Sequential (decode : Decoder Status α)] :
    RoundTrips α := by
  intro x hx
  exact ⟨decodes_encoded hx, fun p hp hne => Sequential.refuses_prefix (decodes_encoded hx) hp hne⟩

/-- Every durable and wire type round-trips, and a truncated encoding is refused. -/
theorem wire_types_round_trip :
    RoundTrips FlowSample ∧ RoundTrips FlowMeasurements ∧ RoundTrips ResourceCapacity ∧
    RoundTrips PathDescriptor ∧ RoundTrips RuleSet ∧ RoundTrips PolicyDocument ∧
    RoundTrips AuthorityVector ∧ RoundTrips FlowClassification ∧
    RoundTrips ClassificationTransition ∧ RoundTrips GovernanceIntent :=
  ⟨roundTrips, roundTrips, roundTrips, roundTrips, roundTrips, roundTrips, roundTrips, roundTrips,
    roundTrips, roundTrips⟩

/-- A sample of the highest priority, in front of one more byte. -/
theorem sample_round_trip : Fits ({ priority := some 7 } : FlowSample) ∧
    decode (encoded ({ priority := some 7 } : FlowSample) ++ [1]) =
      .ok (({ priority := some 7 } : FlowSample), [1]) := by
  have hfits : Fits ({ priority := some 7 } : FlowSample) := by
    rintro level ⟨⟩
    exact UInt8.le_refl 7
  exact ⟨hfits, (wire_types_round_trip.1 _ hfits).1 [1]⟩

/-! ## Canonical types -/

instance : Canonical TickSpan where

instance : Canonical ValidityWindow where

instance : Canonical Provenance where

instance : Canonical Threshold where

instance : Canonical UInt32 where
  spelled := by
    intro bs child rest h
    obtain ⟨_, rfl, rfl⟩ := Spells.spelledBy (d := Decoder.u32 _) bs child rest h
    exact ⟨_, rfl, by simp [encoded, encode]⟩

instance : Canonical RuleNode where
  spelled := by
    iterate 2 refine Spells.bind fun _ => ?_
    refine Spells.bind fun count => ?_
    refine Spelt.bind (Canonical.times count) ?_
    rintro children _ ⟨rfl, rfl⟩
    exact Spelt.pure (by simp [encoded, encode])

instance : Canonical RuleSet where
  spelled := by
    refine Spells.bind fun count => ?_
    refine Spells.bind fun _ => ?_
    refine Spelt.bind (Canonical.times count) ?_
    rintro nodes _ ⟨rfl, rfl⟩
    exact Spelt.pure (by simp [encoded, encode])

instance : Canonical HysteresisSpec where

instance : Canonical IntentAuthorization where

instance : Canonical PolicyDocument where

instance : Canonical ResourceCapacity where

instance : Canonical ResourceId where

instance : Canonical PathDescriptor where
  spelled := by
    iterate 2 refine Spells.bind fun _ => ?_
    refine Spells.bind fun count => ?_
    refine Spelt.bind (Canonical.times count) ?_
    rintro resources _ ⟨rfl, rfl⟩
    iterate 2 refine Spells.bind fun _ => ?_
    exact Spelt.pure (by simp [encoded, encode])

instance : Canonical ImpactAssessment where

instance : Canonical AuthorityVector where

instance : Canonical ThresholdTraceEntry where

instance : Canonical ClassificationTransition where

instance : Canonical IntentBounds where

instance : Canonical GovernanceIntent where

/-! ## Priorities -/

/-- `w` is `canon` up to the level byte of the priority `p`, whose flag stands at offset `n`: the
byte is the level when the flag is set, and any byte when it is not. -/
def LooseLevel (n : ℕ) (p : Priority) (canon w : Bytes) : Prop :=
  ∃ front back level, front.length = n ∧ w = front ++ leBool p.known ++ level :: back ∧
    canon = front ++ leBool p.known ++ p.level :: back ∧ (p = none ∨ p = some level)

/-- The byte behind a cleared flag at offset `n` is zero. -/
def LevelBlank (n : ℕ) (bs : Bytes) : Prop := bs[n]? = some 0 → bs[n + 1]? = some 0

instance (n : ℕ) (bs : Bytes) : Decidable (LevelBlank n bs) :=
  inferInstanceAs (Decidable (_ → _))

theorem LooseLevel.append {n : ℕ} {p : Priority} {canon w : Bytes} (h : LooseLevel n p canon w)
    (front back : Bytes) :
    LooseLevel (front.length + n) p (front ++ canon ++ back) (front ++ w ++ back) := by
  obtain ⟨front', back', level, rfl, rfl, rfl, hp⟩ := h
  exact ⟨front ++ front', back' ++ back, level, List.length_append, by simp, by simp, hp⟩

/-- A loose spelling is the canonical one exactly when it has no stray level. -/
theorem LooseLevel.eq_iff {n : ℕ} {p : Priority} {canon w : Bytes} (h : LooseLevel n p canon w)
    (rest : Bytes) : w ++ rest = canon ++ rest ↔ LevelBlank n (w ++ rest) := by
  obtain ⟨front, back, level, rfl, rfl, rfl, hp⟩ := h
  rcases hp with rfl | rfl
  · simp [LevelBlank, leBool, Priority.known, Priority.level]
  · simp [LevelBlank, leBool, Priority.known, Priority.level]

theorem spelt_decodePriority (e₁ e₂ e₃ : Status) :
    Spelt [] (decodePriority e₁ e₂ e₃) fun p used => ∃ level,
      used = leBool p.known ++ [level] ∧ (p = none ∨ p = some level) := by
  refine Spells.bind fun known => ?_
  refine (spelledBy_u8 _).bind fun level => ?_
  split_ifs with hrange hknown
  · exact Spelt.refuse _ _ _
  · refine Spelt.pure ⟨level, ?_, Or.inr rfl⟩
    rw [hknown]
    rfl
  · refine Spelt.pure ⟨level, ?_, Or.inl rfl⟩
    rw [Bool.eq_false_of_not_eq_true hknown]
    rfl

/-- A sample is spelled up to its level byte, whose flag is its byte 81. -/
theorem spelt_flowSample :
    Spelt [] (decode : Decoder Status FlowSample) fun s used =>
      LooseLevel 81 s.priority (encoded s) used := by
  refine Spells.bind fun flow => ?_
  refine Spells.bind fun flowGeneration => ?_
  refine Spells.bind fun path => ?_
  refine Spells.bind fun pathGeneration => ?_
  refine Spells.bind fun window => ?_
  refine Spells.bind fun windowSequence => ?_
  refine Spells.bind fun span => ?_
  refine Spells.bind fun cumulativeBytes => ?_
  refine Spells.bind fun windowBytes => ?_
  refine Spells.bind fun serviceClass => ?_
  refine Spelt.bind (spelt_decodePriority _ _ _) ?_
  rintro priority _ ⟨level, rfl, hlevel⟩
  refine Spells.bind fun protection => ?_
  refine Spells.bind fun reservation => ?_
  refine Spells.bind fun tenant => ?_
  refine Spells.bind fun validity => ?_
  refine Spells.bind fun provenance => ?_
  refine Spelt.pure ⟨le64 flow ++ le64 flowGeneration ++ le64 path ++ le64 pathGeneration ++
    le64 window ++ le64 windowSequence ++ encoded span ++ le64 cumulativeBytes ++
    le64 windowBytes ++ [serviceClass.toU8], [protection.toU8] ++ le64 reservation ++ le64 tenant ++
    encoded validity ++ encoded provenance, level, ?_, ?_, ?_, hlevel⟩
  · simp [encoded, encode]
  · simp
  · simp [encoded, encode, encodePriority]

/-- Measurements are spelled up to their level byte, whose flag is their byte 86. -/
theorem spelt_flowMeasurements :
    Spelt [] (decode : Decoder Status FlowMeasurements) fun m used =>
      LooseLevel 86 m.priority (encoded m) used := by
  refine Spells.bind fun evidencePresent => ?_
  refine Spells.bind fun evidenceContiguous => ?_
  refine Spells.bind fun gapDetected => ?_
  refine Spells.bind fun capacityKnown => ?_
  refine Spells.bind fun pathKnown => ?_
  refine Spells.bind fun observed => ?_
  refine Spells.bind fun durationTicks => ?_
  refine Spells.bind fun cumulativeBytes => ?_
  refine Spells.bind fun retainedWindowBytes => ?_
  refine Spells.bind fun sustainedRate => ?_
  refine Spells.bind fun peakWindowRate => ?_
  refine Spells.bind fun sampleCount => ?_
  refine Spells.bind fun windowCount => ?_
  refine Spells.bind fun droppedWindows => ?_
  refine Spells.bind fun serviceClass => ?_
  refine Spelt.bind (spelt_decodePriority _ _ _) ?_
  rintro priority _ ⟨level, rfl, hlevel⟩
  refine Spells.bind fun protection => ?_
  refine Spells.bind fun reservation => ?_
  refine Spells.bind fun hasReservation => ?_
  refine Spells.bind fun tenant => ?_
  refine Spells.bind fun completed => ?_
  refine Spells.bind fun bindingResource => ?_
  refine Spells.bind fun resourceCapacity => ?_
  refine Spells.bind fun resourceReserved => ?_
  refine Spells.bind fun resourceAvailable => ?_
  refine Spells.bind fun shareOfCapacity => ?_
  refine Spells.bind fun shareOfAvailable => ?_
  refine Spells.bind fun competingFlows => ?_
  refine Spells.bind fun competingElephants => ?_
  refine Spells.bind fun excessOverGuarantee => ?_
  refine Spells.bind fun fieldsComplete => ?_
  refine Spelt.pure ⟨leBool evidencePresent ++ leBool evidenceContiguous ++ leBool gapDetected ++
    leBool capacityKnown ++ leBool pathKnown ++ encoded observed ++ le64 durationTicks ++
    le64 cumulativeBytes ++ le64 retainedWindowBytes ++ le64 sustainedRate ++
    le64 peakWindowRate ++ le64 sampleCount ++ le64 windowCount ++ le64 droppedWindows ++
    [serviceClass.toU8], [protection.toU8] ++ le64 reservation ++ leBool hasReservation ++
    le64 tenant ++ leBool completed ++ le64 bindingResource ++ le64 resourceCapacity ++
    le64 resourceReserved ++ le64 resourceAvailable ++ le32 shareOfCapacity ++
    le32 shareOfAvailable ++ le32 competingFlows ++ le32 competingElephants ++
    le64 excessOverGuarantee ++ leBool fieldsComplete, level, ?_, ?_, ?_, hlevel⟩
  · simp [encoded, encode]
  · simp
  · simp [encoded, encode, encodePriority]

/-- A classification is spelled up to the level byte of its measurements, which start at its byte
206. -/
theorem spelt_flowClassification :
    Spelt [] (decode : Decoder Status FlowClassification) fun c used =>
      LooseLevel 292 c.measurements.priority (encoded c) used := by
  refine Spells.bind fun id => ?_
  refine Spells.bind fun generation => ?_
  refine Spells.bind fun flow => ?_
  refine Spells.bind fun flowGeneration => ?_
  refine Spells.bind fun state => ?_
  refine Spells.bind fun authority => ?_
  refine Spells.bind fun authorityVector => ?_
  refine Spells.bind fun reasons => ?_
  refine Spells.bind fun decidedAt => ?_
  refine Spells.bind fun validity => ?_
  refine Spelt.bind spelt_flowMeasurements ?_
  intro measurements spelling hmeasurements
  refine Spells.bind fun impact => ?_
  refine Spells.bind fun count => ?_
  refine Spelt.bind (Canonical.times count) ?_
  rintro trace _ ⟨rfl, rfl⟩
  refine Spells.bind fun traceTruncated => ?_
  refine Spells.bind fun enterStreak => ?_
  refine Spells.bind fun exitStreak => ?_
  refine Spells.bind fun historyDigest => ?_
  refine Spells.bind fun digest => ?_
  refine Spelt.pure ?_
  have hloose := hmeasurements.append
    (le64 id ++ le64 generation ++ le64 flow ++ le64 flowGeneration ++ [state.toU8] ++
      [authority.toU8] ++ encoded authorityVector ++ le64 reasons ++ le64 decidedAt ++
      encoded validity)
    (encoded impact ++ le32 (UInt32.ofNat trace.length) ++ (trace.flatMap encode).flatten ++
      leBool traceTruncated ++ le32 enterStreak ++ le32 exitStreak ++ le64 historyDigest ++
      le64 digest)
  convert hloose using 1
  · simp [encoded, encode]
  · simp [encoded, encode]
  · simp

/-! ## Canonicity -/

/-- Re-encoding what is accepted from the input gives back the bytes that were read exactly under
the condition, and under it every other input with the same value consumed the same bytes. -/
def CanonicalWhen (bs : Bytes) (α : Type) [Wire Status α] (cond : Bytes → Prop) : Prop :=
  (∀ (a : α) rest, decode bs = .ok (a, rest) → (bs = encoded a ++ rest ↔ cond bs)) ∧
  ∀ bs' (a : α) rest rest', decode bs = .ok (a, rest) → decode bs' = .ok (a, rest') →
    cond bs → cond bs' → ∃ used, bs = used ++ rest ∧ bs' = used ++ rest'

theorem CanonicalWhen.of_iff {α : Type} [Wire Status α] {cond : Bytes → Prop}
    (h : ∀ bs (a : α) rest, decode bs = .ok (a, rest) → (bs = encoded a ++ rest ↔ cond bs))
    (bs : Bytes) : CanonicalWhen bs α cond := by
  refine ⟨h bs, ?_⟩
  intro bs' a rest rest' hbs hbs' hcond hcond'
  exact ⟨encoded a, (h bs a rest hbs).mpr hcond, (h bs' a rest' hbs').mpr hcond'⟩

theorem canonicalWhen_of_canonical {α : Type} [Wire Status α] [hc : Canonical α] (bs : Bytes) :
    CanonicalWhen bs α fun _ => True := by
  refine .of_iff (fun bs a rest h => ?_) bs
  obtain ⟨_, rfl, rfl⟩ := hc.spelled bs a rest h
  exact ⟨fun _ => trivial, fun _ => rfl⟩

theorem canonicalWhen_of_looseLevel {α : Type} [Wire Status α] {n : ℕ} {priority : α → Priority}
    (hs : Spelt [] (decode : Decoder Status α) fun a used =>
      LooseLevel n (priority a) (encoded a) used) (bs : Bytes) :
    CanonicalWhen bs α (LevelBlank n) := by
  refine .of_iff (fun bs a rest h => ?_) bs
  obtain ⟨used, rfl, hloose⟩ := hs bs a rest h
  exact hloose.eq_iff rest

/-- The encodings are canonical but for the level byte behind a cleared priority flag. -/
theorem encodings_canonical_iff (bs : Bytes) :
    (CanonicalWhen bs TickSpan (fun _ => True) ∧ CanonicalWhen bs ValidityWindow (fun _ => True) ∧
      CanonicalWhen bs Provenance (fun _ => True) ∧ CanonicalWhen bs Threshold (fun _ => True) ∧
      CanonicalWhen bs RuleNode (fun _ => True) ∧ CanonicalWhen bs RuleSet (fun _ => True) ∧
      CanonicalWhen bs HysteresisSpec (fun _ => True) ∧
      CanonicalWhen bs IntentAuthorization (fun _ => True) ∧
      CanonicalWhen bs PolicyDocument (fun _ => True) ∧
      CanonicalWhen bs ResourceCapacity (fun _ => True) ∧
      CanonicalWhen bs PathDescriptor (fun _ => True) ∧
      CanonicalWhen bs ImpactAssessment (fun _ => True) ∧
      CanonicalWhen bs AuthorityVector (fun _ => True) ∧
      CanonicalWhen bs ThresholdTraceEntry (fun _ => True) ∧
      CanonicalWhen bs ClassificationTransition (fun _ => True) ∧
      CanonicalWhen bs IntentBounds (fun _ => True) ∧
      CanonicalWhen bs GovernanceIntent (fun _ => True)) ∧
    CanonicalWhen bs FlowSample (LevelBlank 81) ∧
    CanonicalWhen bs FlowMeasurements (LevelBlank 86) ∧
    CanonicalWhen bs FlowClassification (LevelBlank 292) := by
  refine ⟨?_, canonicalWhen_of_looseLevel spelt_flowSample bs,
    canonicalWhen_of_looseLevel spelt_flowMeasurements bs,
    canonicalWhen_of_looseLevel spelt_flowClassification bs⟩
  refine ⟨?_, ?_, ?_, ?_, ?_, ?_, ?_, ?_, ?_, ?_, ?_, ?_, ?_, ?_, ?_, ?_, ?_⟩
  all_goals exact canonicalWhen_of_canonical bs

/-- The encoding of a sample without a priority, with a stray level behind the cleared flag. -/
def strayLevel : Bytes := (encoded ({} : FlowSample)).set 82 5

/-- Two byte strings decode to one sample, and re-encoding it does not give back the first. -/
theorem stray_level_accepted :
    decode strayLevel = .ok (({} : FlowSample), []) ∧
    decode (encoded ({} : FlowSample)) = .ok (({} : FlowSample), []) ∧
    strayLevel ≠ encoded ({} : FlowSample) ∧ ¬ LevelBlank 81 strayLevel := by
  decide +kernel

end EFG
