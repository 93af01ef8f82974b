/-
# A durable write that fails

`record_policy`, `record_capacity` and `record_path` apply their input to the
governor in memory before they append it to the journal, `record_tick` appends
first.  For each of them this module says when an error leaves the governor as it
was: `record_error_unchanged_iff`.
-/
import ElephantFlow.JournalFacts
import ElephantFlow.Justification

namespace EFG

namespace Governor

variable {g g' : Governor} {p : PolicyDocument} {now : Tick} {reason : ReasonCode}

/-- The two governors agree on policy, tables, flow records and intents. -/
structure SameSurface (g g' : Governor) : Prop where
  policy : g'.policy = g.policy
  capacities : g'.capacities = g.capacities
  paths : g'.paths = g.paths
  flows : g'.flows = g.flows
  intents : g'.intents = g.intents

theorem SameSurface.refl (g : Governor) : SameSurface g g := ⟨rfl, rfl, rfl, rfl, rfl⟩

theorem sameSurface_counters (g : Governor) (counters : GovernorCounters) :
    SameSurface g { g with counters := counters } := ⟨rfl, rfl, rfl, rfl, rfl⟩

/-! ## Capacities, paths and ticks -/

/-- The table takes the value and is not the same afterwards. -/
def Alters {α : Type} (submitted : Except Status α) (table : α) : Prop :=
  ∃ table', submitted = .ok table' ∧ table' ≠ table

theorem submitCapacity_cases (g : Governor) (c : ResourceCapacity) :
    (∃ e counters, g.submitCapacity c = (.error e, { g with counters := counters })) ∨
    ∃ table counters, g.capacities.submit c = .ok table ∧
      g.submitCapacity c = (.ok (), { g with capacities := table, counters := counters }) := by
  unfold submitCapacity
  rcases g.capacities.submit c with e | table
  · exact .inl ⟨e, _, rfl⟩
  · exact .inr ⟨table, _, rfl, rfl⟩

theorem submitPath_cases (g : Governor) (p : PathDescriptor) :
    (∃ e counters, g.submitPath p = (.error e, { g with counters := counters })) ∨
    ∃ table counters, g.paths.submit p = .ok table ∧
      g.submitPath p = (.ok (), { g with paths := table, counters := counters }) := by
  unfold submitPath
  rcases g.paths.submit p with e | table
  · exact .inl ⟨e, _, rfl⟩
  · exact .inr ⟨table, _, rfl, rfl⟩

/-- A refused sweep only counts. -/
theorem tick_error {e : Status} (h : (g.tick now).1 = .error e) : SameSurface g (g.tick now).2 := by
  unfold tick at h ⊢
  split_ifs at h ⊢
  · exact sameSurface_counters g _
  · exact sameSurface_counters g _
  rcases hguard : g.tickGuard.observe now with e' | guard
  · exact sameSurface_counters g _
  · rw [hguard] at h
    cases h

/-! ## Policies -/

/-- The governor refuses the policy before it changes anything. -/
def PolicyRefused (g : Governor) (p : PolicyDocument) : Prop :=
  isOk p.validate = false ∨
    match g.policy with
    | none => isOk (effectiveExitRule p) = false
    | some q => p.generation < q.generation ∨
        (p.generation = q.generation ∧
          (p.digest ≠ q.digest ∨ p.validity.issuedAt < q.validity.issuedAt)) ∨
        (¬ p.generation < q.generation ∧ p.generation ≠ q.generation ∧
          isOk (effectiveExitRule p) = false)

/-- The policy is of a later generation than the retained one. -/
def Supersedes (g : Governor) (p : PolicyDocument) : Prop :=
  ∃ q, g.policy = some q ∧ ¬ p.generation < q.generation ∧ p.generation ≠ q.generation

/-- The three ways through `submit_policy`. -/
theorem submitPolicy_cases (g : Governor) (p : PolicyDocument) :
    (g.PolicyRefused p ∧ ∃ e f, g.submitPolicy p = (.error e, g.count f)) ∨
    (¬ g.PolicyRefused p ∧ ¬ g.Supersedes p ∧ ∃ rules counters, g.submitPolicy p =
      (.ok (), { g with policy := some p, exitRules := rules, counters := counters })) ∨
    (¬ g.PolicyRefused p ∧ g.Supersedes p ∧ ∃ rules counters, g.submitPolicy p =
      ({ g with policy := some p, exitRules := rules, counters := counters } :
        Governor).invalidateAllAuthority (maxOf p.validity.issuedAt g.lastTick) .policyChanged) := by
  unfold submitPolicy PolicyRefused Supersedes
  rcases hv : p.validate with e | ⟨⟩
  · exact .inl ⟨.inl rfl, e, id, rfl⟩
  rcases hq : g.policy with _ | q
  · simp only [installPolicy, hq]
    rcases he : effectiveExitRule p with e | rules
    · exact .inl ⟨.inr rfl, e, _, rfl⟩
    · refine .inr (.inl ⟨by simp, by simp, rules, _, rfl⟩)
  simp only
  by_cases hold : p.generation < q.generation
  · rw [if_pos hold]
    exact .inl ⟨.inr (.inl hold), _, _, rfl⟩
  rw [if_neg hold]
  by_cases hsame : p.generation = q.generation
  · rw [if_pos hsame]
    by_cases hdigest : p.digest ≠ q.digest
    · rw [if_pos hdigest]
      exact .inl ⟨.inr (.inr (.inl ⟨hsame, .inl hdigest⟩)), _, _, rfl⟩
    rw [if_neg hdigest]
    by_cases hissued : p.validity.issuedAt < q.validity.issuedAt
    · rw [if_pos hissued]
      exact .inl ⟨.inr (.inr (.inl ⟨hsame, .inr hissued⟩)), _, _, rfl⟩
    rw [if_neg hissued]
    refine .inr (.inl ⟨?_, ?_, g.exitRules, _, rfl⟩)
    · rintro (h | h | ⟨-, h | h⟩ | ⟨-, h, -⟩)
      · cases h
      · exact hold h
      · exact hdigest h
      · exact hissued h
      · exact h hsame
    · rintro ⟨q', hq', -, hne⟩
      cases hq'
      exact hne hsame
  · rw [if_neg hsame]
    simp only [installPolicy, hq]
    rcases he : effectiveExitRule p with e | rules
    · exact .inl ⟨.inr (.inr (.inr ⟨hold, hsame, rfl⟩)), e, _, rfl⟩
    · refine .inr (.inr ⟨?_, ⟨q, rfl, hold, hsame⟩, rules, _, rfl⟩)
      rintro (h | h | ⟨h, -⟩ | ⟨-, -, h⟩)
      · cases h
      · exact hold h
      · exact hsame h
      · cases h

theorem forEach_invalidateFlow_error {key : FlowKey} {r : FlowRecord} {e : Status}
    (hel : r.isElephant = true) (he : r.history.record (withdrawal now reason r) = .error e)
    {keys : List FlowKey} (hmem : key ∈ keys) (hr : g.flows[key]? = some r) :
    (Fallible.forEach (invalidateFlow now reason) keys g).1 ≠ .ok () := by
  induction keys generalizing g with
  | nil => cases hmem
  | cons k keys ih =>
    rw [Fallible.forEach]
    by_cases hk : k = key
    · have hstep : invalidateFlow now reason k g = (.error e, g) := by
        unfold invalidateFlow
        rw [hk, hr]
        simp only
        rcases invalidateRecord_cases g now reason key r with
          ⟨hc, -⟩ | ⟨hc, hs, -⟩ | ⟨-, e', he', heq⟩ | ⟨-, hist, hok, -⟩
        · simp [FlowRecord.isElephant, hc] at hel
        · simp [FlowRecord.isElephant, hs] at hel
        · rw [he] at he'
          cases he'
          exact heq
        · rw [he] at hok
          cases hok
      rw [Fallible.bind_of_error hstep]
      simp
    · have hframe := getElem?_invalidateFlow now reason hk g
      rcases hstep : invalidateFlow now reason k g with ⟨e' | ⟨⟩, g'⟩
      · rw [Fallible.bind_of_error hstep]
        simp
      · rw [Fallible.bind_of_ok hstep]
        rw [hstep] at hframe
        refine ih ?_ (hframe.trans hr)
        rcases List.mem_cons.mp hmem with hmem | hmem
        · exact absurd hmem.symm hk
        · exact hmem

/-- The invalidation succeeds exactly if every Elephant can be withdrawn. -/
theorem invalidateAllAuthority_isOk_iff (g : Governor) :
    (g.invalidateAllAuthority now reason).1 = .ok () ↔ Withdrawable now reason g := by
  constructor
  · intro hok key r hr hel
    by_contra hno
    rcases he : r.history.record (withdrawal now reason r) with e | h
    · have hmem : key ∈ g.flows.keys := by
        rw [Std.ExtTreeMap.mem_keys, ← Std.ExtTreeMap.isSome_getElem?_iff_mem, hr]
        rfl
      have hstop := forEach_invalidateFlow_error hel he hmem hr
      unfold invalidateAllAuthority at hok
      generalize Fallible.forEach (invalidateFlow now reason) g.flows.keys g = loop at hok hstop
      obtain ⟨e' | ⟨⟩, g'⟩ := loop
      · cases hok
      · exact hstop rfl
    · exact hno ⟨h, he⟩
  · intro h
    obtain ⟨g₁, counters, -, -, heq⟩ := invalidateAllAuthority_eq h
    rw [heq]

theorem invalidateAllAuthority_policy (g : Governor) :
    (g.invalidateAllAuthority now reason).2.policy = g.policy := by
  obtain ⟨_, _, _, _, _, heq⟩ := invalidateAllAuthority_rest g now reason
  rw [heq]

end Governor

open ByteCodec

/-- The journal has room for a record with the payload. -/
def Journal.Takes (j : Journal) (payload : Bytes) : Prop :=
  payload.length ≤ j.options.maxRecordBytes ∧
    ¬ (Journal.recordSize payload > j.options.maxFileBytes ∨
      j.sizeBytes > j.options.maxFileBytes - Journal.recordSize payload) ∧ j.sequence ≠ u64Max

instance (j : Journal) (payload : Bytes) : Decidable (j.Takes payload) :=
  inferInstanceAs (Decidable (_ ∧ _))

theorem Journal.append_isOk_iff (j : Journal) {type : RecordType} (ht : type ≠ .count)
    (payload : Bytes) : (∃ j', j.append type payload = .ok j') ↔ j.Takes payload := by
  constructor
  · rintro ⟨j', h⟩
    obtain ⟨⟨-, hp, hs, hq⟩, -⟩ := Journal.append_eq_ok h
    exact ⟨hp, hs, hq⟩
  · rintro ⟨hp, hs, hq⟩
    exact ⟨_, Journal.append_of_room ht hp hs hq⟩

namespace DurableGovernor

open Governor

/-- When an error of a recorded input leaves the governor as it was: the encoding was too large,
the input changed nothing, or it was applied and also journalled. -/
theorem recordInput_unchanged_iff (d : DurableGovernor) {type : RecordType} (ht : type ≠ .count)
    (chunks : List Bytes) (tooLarge : String) (apply : Governor → Except Status Unit × Governor) :
    (∀ e, (d.recordInput type chunks tooLarge apply).1 = .error e →
      SameSurface d.governor (d.recordInput type chunks tooLarge apply).2.governor) ↔
    (overflows chunks kMaxJournalRecordBytes = true ∨ SameSurface d.governor (apply d.governor).2 ∨
      (apply d.governor).1 = .ok () ∧ d.journal.Takes chunks.flatten) := by
  unfold recordInput
  by_cases hover : overflows chunks kMaxJournalRecordBytes = true
  · rw [if_pos hover]
    exact iff_of_true (fun e _ => SameSurface.refl _) (.inl hover)
  rw [if_neg hover]
  rcases happly : apply d.governor with ⟨e | ⟨⟩, g⟩
  · -- the governor refused: everything depends on what it left
    constructor
    · intro h
      exact .inr (.inl (h e rfl))
    · rintro (h | h | ⟨h, -⟩) e' -
      · exact absurd h hover
      · exact h
      · cases h
  · simp only
    rcases hjournal : d.journal.append type chunks.flatten with e | journal
    · have hno : ¬ d.journal.Takes chunks.flatten := by
        rw [← Journal.append_isOk_iff _ ht]
        rintro ⟨j', hj'⟩
        rw [hjournal] at hj'
        cases hj'
      constructor
      · intro h
        exact .inr (.inl (h e rfl))
      · rintro (h | h | ⟨-, h⟩) e' -
        · exact absurd h hover
        · exact h
        · exact absurd h hno
    · have htakes := (Journal.append_isOk_iff d.journal ht chunks.flatten).mp ⟨journal, hjournal⟩
      exact iff_of_true (fun e h => by cases h) (.inr (.inr ⟨trivial, htakes⟩))

theorem capacity_unchanged_iff (g : Governor) (c : ResourceCapacity) (takes : Prop) :
    (SameSurface g (g.submitCapacity c).2 ∨ (g.submitCapacity c).1 = .ok () ∧ takes) ↔
      (¬ Alters (g.capacities.submit c) g.capacities ∨ takes) := by
  rcases submitCapacity_cases g c with ⟨e, counters, heq⟩ | ⟨table, counters, htable, heq⟩
  · have hno : ¬ Alters (g.capacities.submit c) g.capacities := by
      rintro ⟨table, htable, -⟩
      unfold submitCapacity at heq
      rw [htable] at heq
      cases heq
    rw [heq]
    exact iff_of_true (.inl (sameSurface_counters g _)) (.inl hno)
  · have halters : Alters (g.capacities.submit c) g.capacities ↔ table ≠ g.capacities := by
      unfold Alters
      rw [htable]
      constructor
      · rintro ⟨t, ht, hne⟩
        cases ht
        exact hne
      · exact fun hne => ⟨table, rfl, hne⟩
    rw [heq, halters, not_not]
    constructor
    · rintro (h | ⟨-, h⟩)
      · exact .inl h.capacities
      · exact .inr h
    · rintro (h | h)
      · exact .inl ⟨rfl, h, rfl, rfl, rfl⟩
      · exact .inr ⟨rfl, h⟩

theorem path_unchanged_iff (g : Governor) (p : PathDescriptor) (takes : Prop) :
    (SameSurface g (g.submitPath p).2 ∨ (g.submitPath p).1 = .ok () ∧ takes) ↔
      (¬ Alters (g.paths.submit p) g.paths ∨ takes) := by
  rcases submitPath_cases g p with ⟨e, counters, heq⟩ | ⟨table, counters, htable, heq⟩
  · have hno : ¬ Alters (g.paths.submit p) g.paths := by
      rintro ⟨table, htable, -⟩
      unfold submitPath at heq
      rw [htable] at heq
      cases heq
    rw [heq]
    exact iff_of_true (.inl (sameSurface_counters g _)) (.inl hno)
  · have halters : Alters (g.paths.submit p) g.paths ↔ table ≠ g.paths := by
      unfold Alters
      rw [htable]
      constructor
      · rintro ⟨t, ht, hne⟩
        cases ht
        exact hne
      · exact fun hne => ⟨table, rfl, hne⟩
    rw [heq, halters, not_not]
    constructor
    · rintro (h | ⟨-, h⟩)
      · exact .inl h.paths
      · exact .inr h
    · rintro (h | h)
      · exact .inl ⟨rfl, rfl, h, rfl, rfl⟩
      · exact .inr ⟨rfl, h⟩

theorem policy_unchanged_iff (g : Governor) (p : PolicyDocument) (takes : Prop) :
    (SameSurface g (g.submitPolicy p).2 ∨ (g.submitPolicy p).1 = .ok () ∧ takes) ↔
      (g.PolicyRefused p ∨ g.policy = some p ∨
        (g.Supersedes p →
          Withdrawable (maxOf p.validity.issuedAt g.lastTick) .policyChanged g) ∧ takes) := by
  rcases submitPolicy_cases g p with ⟨hrefused, e, f, heq⟩ | ⟨hrefused, hnot, rules, counters, heq⟩ |
    ⟨hrefused, hsup, rules, counters, heq⟩
  · rw [heq]
    exact iff_of_true (.inl (sameSurface_counters g _)) (.inl hrefused)
  · rw [heq]
    constructor
    · rintro (h | ⟨-, h⟩)
      · exact .inr (.inl h.policy.symm)
      · exact .inr (.inr ⟨fun hsup => absurd hsup hnot, h⟩)
    · rintro (h | h | ⟨-, h⟩)
      · exact absurd h hrefused
      · exact .inl ⟨h.symm, rfl, rfl, rfl, rfl⟩
      · exact .inr ⟨rfl, h⟩
  · -- a later generation replaces the policy, whether or not the withdrawal succeeds
    have hnot : g.policy ≠ some p := by
      obtain ⟨q, hq, -, hne⟩ := hsup
      rw [hq]
      intro hsame
      cases hsame
      exact hne rfl
    have hpolicy : (g.submitPolicy p).2.policy = some p := by
      rw [heq, invalidateAllAuthority_policy]
    have hok : (g.submitPolicy p).1 = .ok () ↔
        Withdrawable (maxOf p.validity.issuedAt g.lastTick) .policyChanged g := by
      rw [heq, invalidateAllAuthority_isOk_iff]
      rfl
    constructor
    · rintro (h | ⟨h, ht⟩)
      · exact absurd (h.policy.symm.trans hpolicy) hnot
      · exact .inr (.inr ⟨fun _ => hok.mp h, ht⟩)
    · rintro (h | h | ⟨h, ht⟩)
      · exact absurd h hrefused
      · exact absurd h hnot
      · exact .inr ⟨hok.mpr (h hsup), ht⟩

/-- When an error of a durable write leaves policy, tables, flow records and intents as they were.
A sweep is journalled before it runs, so its errors always do.  An input is applied before it is
journalled: its errors do exactly if the input is too large, refused or held already, or if the
journal takes its record and, for a policy of a later generation, every Elephant can be
withdrawn. -/
theorem record_error_unchanged_iff (d : DurableGovernor) :
    (∀ p, (∀ e, (d.recordPolicy p).1 = .error e →
        SameSurface d.governor (d.recordPolicy p).2.governor) ↔
      (overflows (encode p) kMaxJournalRecordBytes = true ∨ d.governor.PolicyRefused p ∨
        d.governor.policy = some p ∨
        (d.governor.Supersedes p → Withdrawable (maxOf p.validity.issuedAt d.governor.lastTick)
          .policyChanged d.governor) ∧ d.journal.Takes (encode p).flatten)) ∧
    (∀ c, (∀ e, (d.recordCapacity c).1 = .error e →
        SameSurface d.governor (d.recordCapacity c).2.governor) ↔
      (overflows (encode c) kMaxJournalRecordBytes = true ∨
        ¬ Alters (d.governor.capacities.submit c) d.governor.capacities ∨
        d.journal.Takes (encode c).flatten)) ∧
    (∀ p, (∀ e, (d.recordPath p).1 = .error e →
        SameSurface d.governor (d.recordPath p).2.governor) ↔
      (overflows (encode p) kMaxJournalRecordBytes = true ∨
        ¬ Alters (d.governor.paths.submit p) d.governor.paths ∨
        d.journal.Takes (encode p).flatten)) ∧
    ∀ now e, (d.recordTick now).1 = .error e →
      SameSurface d.governor (d.recordTick now).2.governor := by
  refine ⟨fun p => ?_, fun c => ?_, fun p => ?_, fun now e h => ?_⟩
  · unfold recordPolicy
    rw [recordInput_unchanged_iff d (by decide), policy_unchanged_iff]
  · unfold recordCapacity
    rw [recordInput_unchanged_iff d (by decide), capacity_unchanged_iff]
  · unfold recordPath
    rw [recordInput_unchanged_iff d (by decide), path_unchanged_iff]
  · unfold recordTick at h ⊢
    rcases hjournal : d.journal.append .tickCommitted (le64 now) with e' | journal
    · exact SameSurface.refl _
    · rw [hjournal] at h
      exact tick_error h

/-- A journal that is full after the store was opened: the refused capacity snapshot is in memory
but not in the journal. -/
theorem record_error_changed : ∃ (d : DurableGovernor) (e : Status),
    openStore {} { journal := { maxFileBytes := 40 } } {} Scenario.boot 0 = .ok d ∧
      (d.recordCapacity Scenario.capacity).1 = .error e ∧
      ¬ SameSurface d.governor (d.recordCapacity Scenario.capacity).2.governor := by
  obtain ⟨d, hd, hfails, hbefore, hafter⟩ : ∃ d,
      openStore {} { journal := { maxFileBytes := 40 } } {} Scenario.boot 0 = .ok d ∧
      isOk (d.recordCapacity Scenario.capacity).1 = false ∧
      (d.governor.capacities.find ⟨1⟩).isSome = false ∧
      ((d.recordCapacity Scenario.capacity).2.governor.capacities.find ⟨1⟩).isSome = true := by
    decide +kernel
  rcases he : (d.recordCapacity Scenario.capacity).1 with e | ⟨⟩
  · refine ⟨d, e, hd, he, fun hsame => ?_⟩
    rw [hsame.capacities, hbefore] at hafter
    cases hafter
  · rw [he] at hfails
    cases hfails

end DurableGovernor

end EFG
