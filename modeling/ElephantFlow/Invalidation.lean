/-
# What a new policy generation withdraws

The frame of `invalidate_all_authority`.  One iteration leaves a record alone,
clears its streaks, or suspends an Elephant (`invalidateRecord_cases`); what every
such change keeps, an iteration keeps (`keeps_invalidateFlow`), and when the
loop ends no record is an Elephant and no intent is live.
-/
import ElephantFlow.BindingIndex

namespace EFG

open Fallible

namespace Governor

variable {now : Tick} {reason : ReasonCode} {key : FlowKey} {r : FlowRecord} {P : Governor → Prop}
  {g : Governor}

/-! ## One record -/

/-- A classified record that is not an Elephant after the invalidation. -/
def clearedRecord (reason : ReasonCode) (r : FlowRecord) : FlowRecord :=
  { r with
    classification := { r.classification with
      reasons := r.classification.reasons ||| reason ||| .revalidationRequired }
    enterStreak := 0
    exitStreak := 0 }

/-- The history entry of an invalidated Elephant. -/
def withdrawal (now : Tick) (reason : ReasonCode) (r : FlowRecord) : ClassificationTransition where
  atTick := now
  fromState := .elephant
  toState := .suspended
  authority := .none
  reasons := r.classification.reasons ||| reason ||| .revalidationRequired
  classification := r.classification.id
  classificationGeneration := r.classification.generation

/-- An Elephant after the invalidation, before the index is updated. -/
def suspendedRecord (reason : ReasonCode) (r : FlowRecord) (h : ClassificationHistory) : FlowRecord :=
  { r with
    history := h
    classification := { r.classification with
      state := .suspended
      authority := .none
      reasons := r.classification.reasons ||| reason ||| .revalidationRequired }
    enterStreak := 0
    exitStreak := 0 }

/-- The counter of a withdrawn Elephant. -/
def countWithdrawal (c : GovernorCounters) : GovernorCounters :=
  { c with authorityRevocations := c.authorityRevocations + 1 }

/-- The governor after an Elephant was suspended. -/
def withdrawn (g : Governor) (reason : ReasonCode) (key : FlowKey) (r : FlowRecord)
    (h : ClassificationHistory) : Governor :=
  ((g.count countWithdrawal).updateIndex key (suspendedRecord reason r h)).1.setFlow key
    (rebound (suspendedRecord reason r h))

theorem invalidateRecord_cases (g : Governor) (now : Tick) (reason : ReasonCode) (key : FlowKey)
    (r : FlowRecord) :
    (r.hasClassification = false ∧ g.invalidateRecord now reason key r = (.ok (), g)) ∨
    (r.hasClassification = true ∧ r.classification.state ≠ .elephant ∧
      g.invalidateRecord now reason key r = (.ok (), g.setFlow key (clearedRecord reason r))) ∨
    (r.isElephant = true ∧ ∃ e, r.history.record (withdrawal now reason r) = .error e ∧
      g.invalidateRecord now reason key r = (.error e, g)) ∨
    (r.isElephant = true ∧ ∃ h, r.history.record (withdrawal now reason r) = .ok h ∧
      g.invalidateRecord now reason key r = (.ok (), g.withdrawn reason key r h)) := by
  unfold invalidateRecord
  by_cases hc : r.hasClassification = true
  · rw [if_neg (by simp [hc])]
    by_cases hs : r.classification.state = .elephant
    · have hel : r.isElephant = true := by simp [FlowRecord.isElephant, hc, hs]
      simp only [if_pos hs]
      rcases hh : r.history.record (withdrawal now reason r) with e | h
      · refine .inr (.inr (.inl ⟨hel, e, rfl, ?_⟩))
        simp only [withdrawal] at hh
        simp only [hh]
      · refine .inr (.inr (.inr ⟨hel, h, rfl, ?_⟩))
        simp only [withdrawal] at hh
        simp only [hh, updateIndex_snd]
        rfl
    · simp only [if_neg hs]
      exact .inr (.inl ⟨hc, hs, rfl⟩)
  · rw [if_pos (by simp [hc])]
    exact .inl ⟨by simpa using hc, rfl⟩

/-! ## The loop -/

theorem keeps_invalidateFlow
    (hclear : ∀ g key r, P g → g.flows[key]? = some r → r.hasClassification = true →
      r.classification.state ≠ .elephant → P (g.setFlow key (clearedRecord reason r)))
    (hwithdraw : ∀ g key r h, P g → g.flows[key]? = some r → r.isElephant = true → r.history.record
      (withdrawal now reason r) = .ok h → P (g.withdrawn reason key r h)) :
    Keeps P (invalidateFlow now reason key) := by
  intro g hg
  unfold invalidateFlow
  rcases hr : g.flows[key]? with _ | r
  · exact hg
  · simp only
    rcases invalidateRecord_cases g now reason key r with
      ⟨-, heq⟩ | ⟨hc, hs, heq⟩ | ⟨-, e, -, heq⟩ | ⟨hel, h, hh, heq⟩
    · rw [heq]
      exact hg
    · rw [heq]
      exact hclear g key r hg hr hc hs
    · rw [heq]
      exact hg
    · rw [heq]
      exact hwithdraw g key r h hg hr hel hh

theorem invalidateAllAuthority_keeps
    (hstep : ∀ key, Keeps P (invalidateFlow now reason key))
    (hrevoke : ∀ x counters, P x → P { x with
      intents := (x.intents.revokeAll .revoked .authorityStale).2
      counters := counters }) (hg : P g) : P (g.invalidateAllAuthority now reason).2 := by
  have hloop : P (forEach (invalidateFlow now reason) g.flows.keys g).2 :=
    Keeps.forEach (fun key _ => hstep key) g hg
  unfold invalidateAllAuthority
  generalize forEach (invalidateFlow now reason) g.flows.keys g = loop at hloop ⊢
  obtain ⟨res, g₁⟩ := loop
  cases res with
  | error e => exact hloop
  | ok u => exact hrevoke g₁ _ hloop

@[simp] theorem withdrawn_flows (g : Governor) (reason : ReasonCode) (key : FlowKey) (r : FlowRecord)
    (h : ClassificationHistory) :
    (g.withdrawn reason key r h).flows = g.flows.insert key (rebound (suspendedRecord reason r h)) := by
  show (updateIndex _ _ _).1.flows.insert key _ = _
  rw [updateIndex_flows]
  rfl

theorem getElem?_withdrawn (g : Governor) (reason : ReasonCode) (key k : FlowKey) (r : FlowRecord)
    (h : ClassificationHistory) : (g.withdrawn reason key r h).flows[k]? =
      if key = k then some (rebound (suspendedRecord reason r h)) else g.flows[k]? := by
  rw [withdrawn_flows]
  exact getElem?_setFlow g key k _

theorem withdrawn_eq (g : Governor) (reason : ReasonCode) (key : FlowKey) (r : FlowRecord)
    (h : ClassificationHistory) : ∃ index aggregate counters, g.withdrawn reason key r h = { g with
      flows := g.flows.insert key (rebound (suspendedRecord reason r h))
      bindingIndex := index
      resourceAggregate := aggregate
      counters := counters } := by
  obtain ⟨index, aggregate, heq⟩ := updateIndex_fst (g.count countWithdrawal) key
    (suspendedRecord reason r h)
  refine ⟨index, aggregate, countWithdrawal g.counters, ?_⟩
  unfold withdrawn
  rw [heq]
  rfl

theorem keeps_invalidateFlow_of_inputs (hP : ∀ x flows index aggregate counters, P x → P { x with
      flows := flows, bindingIndex := index, resourceAggregate := aggregate, counters := counters }) :
    Keeps P (invalidateFlow now reason key) := by
  apply keeps_invalidateFlow
  · intro x k r hx _ _ _
    exact hP x _ x.bindingIndex x.resourceAggregate x.counters hx
  · intro x k r h hx _ _ _
    obtain ⟨index, aggregate, counters, heq⟩ := withdrawn_eq x reason k r h
    rw [heq]
    exact hP x _ _ _ _ hx

/-- What a withdrawal of all authority can change: the inputs and the configuration stay. -/
theorem invalidateAllAuthority_rest (g : Governor) (now : Tick) (reason : ReasonCode) :
    ∃ flows index aggregate intents counters, (g.invalidateAllAuthority now reason).2 = { g with
      flows := flows, bindingIndex := index, resourceAggregate := aggregate, intents := intents
      counters := counters } := by
  refine invalidateAllAuthority_keeps (P := fun x => ∃ flows index aggregate intents counters,
    x = { g with
      flows := flows, bindingIndex := index, resourceAggregate := aggregate, intents := intents
      counters := counters }) (fun key => keeps_invalidateFlow_of_inputs ?_) ?_ ⟨_, _, _, _, _, rfl⟩
  · rintro _ _ _ _ _ ⟨_, _, _, _, _, rfl⟩
    exact ⟨_, _, _, _, _, rfl⟩
  · rintro _ _ ⟨_, _, _, _, _, rfl⟩
    exact ⟨_, _, _, _, _, rfl⟩

theorem isElephant_suspendedRecord (h : ClassificationHistory) :
    (rebound (suspendedRecord reason r h)).isElephant = false := by
  simp [FlowRecord.isElephant, suspendedRecord]

theorem isElephant_clearedRecord (hs : r.classification.state ≠ .elephant) :
    (clearedRecord reason r).isElephant = false := by
  simp [FlowRecord.isElephant, clearedRecord, hs]

/-- Every Elephant has a history that its withdrawal continues. -/
def Withdrawable (now : Tick) (reason : ReasonCode) (g : Governor) : Prop :=
  ∀ (key : FlowKey) (r : FlowRecord), g.flows[key]? = some r → r.isElephant = true →
    ∃ h, r.history.record (withdrawal now reason r) = .ok h

theorem keeps_withdrawable (key : FlowKey) :
    Keeps (Withdrawable now reason) (invalidateFlow now reason key) := by
  apply keeps_invalidateFlow
  · intro g key r hg hr hc hs k r' hr' hel
    rw [getElem?_setFlow] at hr'
    split_ifs at hr' with hk
    · cases hr'
      rw [isElephant_clearedRecord hs] at hel
      cases hel
    · exact hg k r' hr' hel
  · intro g key r h hg hr hel hh k r' hr' hel'
    rw [getElem?_withdrawn] at hr'
    split_ifs at hr' with hk
    · cases hr'
      rw [isElephant_suspendedRecord] at hel'
      cases hel'
    · exact hg k r' hr' hel'

theorem keeps_mem_flows (g₀ : Governor) (key : FlowKey) :
    Keeps (fun g : Governor => ∀ k, k ∈ g.flows ↔ k ∈ g₀.flows)
      (invalidateFlow now reason key) := by
  have hinsert : ∀ (g : Governor) (key k : FlowKey) (r r' : FlowRecord),
      g.flows[key]? = some r → (k ∈ g.flows.insert key r' ↔ k ∈ g.flows) := by
    intro g key k r r' hr
    rw [Std.ExtTreeMap.mem_insert]
    refine ⟨?_, .inr⟩
    rintro (hk | hk)
    · rw [← Std.LawfulEqOrd.eq_of_compare hk, ← Std.ExtTreeMap.isSome_getElem?_iff_mem, hr]
      rfl
    · exact hk
  apply keeps_invalidateFlow
  · intro g key r hg hr _ _ k
    exact (hinsert g key k r _ hr).trans (hg k)
  · intro g key r h hg hr _ _ k
    rw [withdrawn_flows]
    exact (hinsert g key k r _ hr).trans (hg k)

/-- An iteration of the invalidation leaves the records of the other keys alone. -/
theorem getElem?_invalidateFlow (now : Tick) (reason : ReasonCode) {k : FlowKey} (h : key ≠ k)
    (g : Governor) :
    (invalidateFlow now reason key g).2.flows[k]? = g.flows[k]? := by
  unfold invalidateFlow
  rcases hr : g.flows[key]? with _ | r
  · rfl
  simp only
  rcases invalidateRecord_cases g now reason key r with
    ⟨-, heq⟩ | ⟨-, -, heq⟩ | ⟨-, e, -, heq⟩ | ⟨-, hist, -, heq⟩
  · rw [heq]
  · rw [heq, getElem?_setFlow, if_neg h]
  · rw [heq]
  · rw [heq, getElem?_withdrawn, if_neg h]

/-- An iteration leaves its record no Elephant and keeps the others from becoming one. -/
theorem invalidateFlow_isElephant {g' : Governor}
    (h : invalidateFlow now reason key g = (.ok (), g')) :
    (∀ r : FlowRecord, g'.flows[key]? = some r → r.isElephant = false) ∧
    ∀ k : FlowKey, (∀ r : FlowRecord, g.flows[k]? = some r → r.isElephant = false) →
      ∀ r : FlowRecord, g'.flows[k]? = some r → r.isElephant = false := by
  unfold invalidateFlow at h
  rcases hr : g.flows[key]? with _ | r
  · rw [hr] at h
    cases h
    exact ⟨by simp [hr], fun k hk => hk⟩
  rw [hr] at h
  simp only at h
  rcases invalidateRecord_cases g now reason key r with
    ⟨hc, heq⟩ | ⟨hc, hs, heq⟩ | ⟨-, e, -, heq⟩ | ⟨hel, hist, hh, heq⟩
  · rw [heq] at h
    cases h
    refine ⟨fun r' hr' => ?_, fun k hk => hk⟩
    rw [hr] at hr'
    cases hr'
    simp [FlowRecord.isElephant, hc]
  · rw [heq] at h
    cases h
    refine ⟨fun r' hr' => ?_, fun k hk r' hr' => ?_⟩
    · rw [getElem?_setFlow, if_pos rfl] at hr'
      cases hr'
      exact isElephant_clearedRecord hs
    · rw [getElem?_setFlow] at hr'
      split_ifs at hr' with hkey
      · cases hr'
        exact isElephant_clearedRecord hs
      · exact hk r' hr'
  · rw [heq] at h
    cases h
  · rw [heq] at h
    cases h
    refine ⟨fun r' hr' => ?_, fun k hk r' hr' => ?_⟩
    · rw [getElem?_withdrawn, if_pos rfl] at hr'
      cases hr'
      exact isElephant_suspendedRecord hist
    · rw [getElem?_withdrawn] at hr'
      split_ifs at hr' with hkey
      · cases hr'
        exact isElephant_suspendedRecord hist
      · exact hk r' hr'

/-- The loop stops only at an Elephant whose history the withdrawal does not continue. -/
theorem forEach_invalidateFlow_ok (h : Withdrawable now reason g) (keys : List FlowKey) :
    (forEach (invalidateFlow now reason) keys g).1 = .ok () := by
  apply forEach_ok (P := Withdrawable now reason) (s := g) _ _ h
  · intro key _
    exact keeps_withdrawable key
  · intro key _ x hx
    unfold invalidateFlow
    rcases hr : x.flows[key]? with _ | r
    · rfl
    simp only
    rcases invalidateRecord_cases x now reason key r with
      ⟨-, heq⟩ | ⟨-, -, heq⟩ | ⟨hel, e, he, heq⟩ | ⟨-, hist, -, heq⟩
    · rw [heq]
    · rw [heq]
    · obtain ⟨h', hh'⟩ := hx key r hr hel
      rw [he] at hh'
      cases hh'
    · rw [heq]

theorem invalidateAllAuthority_eq (h : Withdrawable now reason g) :
    ∃ g₁ counters, forEach (invalidateFlow now reason) g.flows.keys g = (.ok (), g₁) ∧
      (∀ (key : FlowKey) (r : FlowRecord), g₁.flows[key]? = some r → r.isElephant = false) ∧
      g.invalidateAllAuthority now reason = (.ok (), { g₁ with
        intents := (g₁.intents.revokeAll .revoked .authorityStale).2
        counters := counters }) := by
  have hok := forEach_invalidateFlow_ok h g.flows.keys
  have hmem : ∀ k, k ∈ (forEach (invalidateFlow now reason) g.flows.keys g).2.flows ↔
      k ∈ g.flows :=
    Keeps.forEach (fun key _ => keeps_mem_flows g key) g fun _ => Iff.rfl
  rcases hloop : forEach (invalidateFlow now reason) g.flows.keys g with ⟨res, g₁⟩
  rw [hloop] at hok hmem
  simp only at hok
  subst hok
  refine ⟨g₁, { g₁.counters with intentsRevoked := g₁.counters.intentsRevoked +
    (g₁.intents.revokeAll .revoked .authorityStale).1 }, rfl, fun key r hr => ?_, ?_⟩
  · have hdone := forEach_establishes
      (Q := fun key (x : Governor) => ∀ r : FlowRecord, x.flows[key]? = some r → r.isElephant = false)
      (fun k s s' hstep => (invalidateFlow_isElephant hstep).1)
      (fun k k' s s' hk hstep => (invalidateFlow_isElephant hstep).2 k hk) hloop
    refine hdone key ?_ r hr
    rw [Std.ExtTreeMap.mem_keys, ← hmem, ← Std.ExtTreeMap.isSome_getElem?_iff_mem, hr]
    rfl
  · unfold invalidateAllAuthority
    rw [hloop]
    rfl

end Governor

end EFG
