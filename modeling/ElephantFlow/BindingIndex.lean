/-
# The binding index and its aggregates

The index of `update_index` is a grouped map: a group of entries under every
resource.  The aggregate of a resource is the count, the count of elephants and
the sum of elephant shares of its group (`Aggregates`).  An index whose
aggregates are right stays so when an entry leaves (`Indexed.unbind`) and when one
joins (`Indexed.bind`), and no subtraction on the way is cut off at zero.
-/
import ElephantFlow.GroupedMap
import ElephantFlow.EvaluationFacts

namespace EFG

open Std

open GroupedMap

/-! ## Aggregates -/

/-- One for an elephant entry. -/
def BindingEntry.elephantCount (e : BindingEntry) : ℕ := if e.elephant then 1 else 0

/-- The share of an elephant entry. -/
def BindingEntry.elephantShare (e : BindingEntry) : ℕ := if e.elephant then e.share.toNat else 0

/-- The aggregate holds the numbers of the group. -/
structure Aggregates (agg : ResourceAggregate) (entries : ExtTreeMap FlowKey BindingEntry) :
    Prop where
  flows : agg.flows.toNat = entries.size
  elephants : agg.elephants.toNat = total BindingEntry.elephantCount entries
  elephantShareSum : agg.elephantShareSum.toNat = total BindingEntry.elephantShare entries

theorem BindingEntry.elephantCount_le (e : BindingEntry) : e.elephantCount ≤ 1 := by
  unfold elephantCount
  split_ifs <;> omega

theorem BindingEntry.elephantShare_le (e : BindingEntry) : e.elephantShare ≤ 2 ^ 32 - 1 := by
  have := e.share.toNat_lt
  unfold elephantShare
  split_ifs <;> omega

variable {agg : ResourceAggregate} {entries : ExtTreeMap FlowKey BindingEntry} {key : FlowKey}
  {entry : BindingEntry}

theorem size_erase_of_getElem? (h : entries[key]? = some entry) :
    entries.size = 1 + (entries.erase key).size := by
  rw [← total_one, total_erase _ h, total_one]

/-- No subtraction of the removal half of `update_index` is cut off at zero. -/
theorem Aggregates.covers (h : Aggregates agg entries) (he : entries[key]? = some entry) :
    0 < agg.flows ∧ (entry.elephant = true →
      0 < agg.elephants ∧ entry.share.toUInt64 ≤ agg.elephantShareSum) := by
  have hflows := h.flows
  have helephants := h.elephants
  have hshares := h.elephantShareSum
  rw [size_erase_of_getElem? he] at hflows
  rw [total_erase _ he] at helephants hshares
  refine ⟨UInt32.lt_iff_toNat_lt.mpr (by simp; omega), fun hel => ⟨?_, ?_⟩⟩
  · simp only [BindingEntry.elephantCount, hel, if_true] at helephants
    exact UInt32.lt_iff_toNat_lt.mpr (by simp; omega)
  · simp only [BindingEntry.elephantShare, hel, if_true] at hshares
    exact UInt64.le_iff_toNat_le.mpr (by simp; omega)

theorem Aggregates.without (h : Aggregates agg entries) (he : entries[key]? = some entry) :
    match Governor.aggregateWithout agg entry with
    | none => entries.erase key = ∅
    | some agg' => entries.erase key ≠ ∅ ∧ Aggregates agg' (entries.erase key) := by
  obtain ⟨hpos, hcovers⟩ := h.covers he
  have hflows := h.flows
  have helephants := h.elephants
  have hshares := h.elephantShareSum
  rw [size_erase_of_getElem? he] at hflows
  rw [total_erase _ he] at helephants hshares
  have hsub : (agg.flows - 1).toNat = (entries.erase key).size := by
    rw [UInt32.toNat_sub_of_le _ _ (UInt32.le_iff_toNat_le.mpr (by simp; omega))]
    simp only [UInt32.reduceToNat]
    omega
  have hempty : entries.erase key = ∅ ↔ agg.flows - 1 = 0 := by
    rw [ExtTreeMap.eq_empty_iff_size_eq_zero, ← hsub, ← UInt32.toNat_inj]
    simp
  unfold Governor.aggregateWithout
  simp only [if_pos hpos]
  cases hel : entry.elephant with
  | false =>
    simp only [BindingEntry.elephantCount, BindingEntry.elephantShare, hel] at helephants hshares
    simp only [Bool.false_eq_true, if_false]
    split_ifs with hzero
    · exact hempty.mpr hzero
    · exact ⟨fun hc => hzero (hempty.mp hc), hsub, by simpa using helephants, by simpa using hshares⟩
  | true =>
    obtain ⟨hpos', hle⟩ := hcovers hel
    simp only [BindingEntry.elephantCount, BindingEntry.elephantShare, hel, if_true]
      at helephants hshares
    simp only [if_true, if_pos hpos', if_pos hle]
    split_ifs with hzero
    · exact hempty.mpr hzero
    · refine ⟨fun hc => hzero (hempty.mp hc), hsub, ?_, ?_⟩
      · show (agg.elephants - 1).toNat = _
        rw [UInt32.toNat_sub_of_le _ _ (UInt32.le_iff_toNat_le.mpr (by simp; omega))]
        simp only [UInt32.reduceToNat]
        omega
      · show (agg.elephantShareSum - entry.share.toUInt64).toNat = _
        rw [UInt64.toNat_sub_of_le _ _ hle, UInt32.toNat_toUInt64]
        omega

/-- The aggregate of a group that an entry joins; the group is far below the range of the counts. -/
theorem Aggregates.with (h : Aggregates agg entries) (he : entries[key]? = none)
    (hsize : entries.size + 1 < 2 ^ 32) :
    Aggregates (Governor.aggregateWith agg entry) (entries.insert key entry) := by
  have hflows := h.flows
  have helephants := h.elephants
  have hshares := h.elephantShareSum
  have hcount := total_le BindingEntry.elephantCount BindingEntry.elephantCount_le entries
  have hsum := total_le BindingEntry.elephantShare BindingEntry.elephantShare_le entries
  have hshare := entry.share.toNat_lt
  have hinsert : (entries.insert key entry).size = 1 + entries.size := by
    rw [← total_one, total_insert _ he, total_one]
  have hadd : (agg.flows + 1).toNat = 1 + entries.size := by
    rw [UInt32.toNat_add, hflows]
    simp only [UInt32.reduceToNat]
    omega
  unfold Governor.aggregateWith
  cases hel : entry.elephant with
  | false =>
    refine ⟨hadd.trans hinsert.symm, ?_, ?_⟩
    · rw [total_insert _ he]
      simpa [BindingEntry.elephantCount, hel] using helephants
    · rw [total_insert _ he]
      simpa [BindingEntry.elephantShare, hel] using hshares
  | true =>
    refine ⟨hadd.trans hinsert.symm, ?_, ?_⟩
    · show (agg.elephants + 1).toNat = _
      rw [total_insert _ he, UInt32.toNat_add, helephants]
      simp only [BindingEntry.elephantCount, hel, if_true, UInt32.reduceToNat]
      omega
    · show (agg.elephantShareSum + entry.share.toUInt64).toNat = _
      rw [total_insert _ he, UInt64.toNat_add, hshares, UInt32.toNat_toUInt64]
      simp only [BindingEntry.elephantShare, hel, if_true]
      omega

/-! ## The index -/

/-- The entry that a bound record has in the index. -/
def FlowRecord.boundEntry (r : FlowRecord) : BindingEntry := ⟨r.boundElephant, r.boundShare⟩

namespace Governor

/-- The index has no empty group and right aggregates. -/
structure Indexed (g : Governor) : Prop where
  pruned : Pruned g.bindingIndex
  present : ∀ resource, g.resourceAggregate[resource]? = none ↔ group g.bindingIndex resource = ∅
  aggregates : ∀ (resource : ResourceId) (agg : ResourceAggregate),
    g.resourceAggregate[resource]? = some agg → Aggregates agg (group g.bindingIndex resource)

variable {g : Governor} {resource : ResourceId} {r r₀ : FlowRecord}

theorem indexed_empty (h : g.bindingIndex = ∅) (h' : g.resourceAggregate = ∅) : g.Indexed := by
  refine ⟨?_, ?_, ?_⟩
  · intro a t ht
    rw [h] at ht
    simp at ht
  · intro a
    simp [h, h', group]
  · intro a agg ha
    rw [h'] at ha
    simp at ha

theorem Indexed.congr {g' : Governor} (h : g.Indexed) (hindex : g'.bindingIndex = g.bindingIndex)
    (hagg : g'.resourceAggregate = g.resourceAggregate) : g'.Indexed := by
  refine ⟨?_, ?_, ?_⟩
  · rw [hindex]
    exact h.pruned
  · rw [hindex, hagg]
    exact h.present
  · rw [hindex, hagg]
    exact h.aggregates

/-- The aggregate under a resource, the zero one when nothing is bound to it. -/
theorem Indexed.aggregates_getD (h : g.Indexed) (resource : ResourceId) :
    Aggregates (g.resourceAggregate[resource]?.getD {}) (group g.bindingIndex resource) := by
  rcases ha : g.resourceAggregate[resource]? with _ | agg
  · rw [(h.present resource).mp ha]
    exact ⟨by simp, by simp, by simp⟩
  · exact h.aggregates resource agg ha

theorem bindingIndex_bind (g : Governor) (key : FlowKey) (resource : ResourceId)
    (entry : BindingEntry) :
    (g.bind key resource entry).bindingIndex = insertAt g.bindingIndex resource key entry := rfl

theorem bindingIndex_unbind (g : Governor) (key : FlowKey) (resource : ResourceId) :
    (g.unbind key resource).bindingIndex =
      if (group g.bindingIndex resource)[key]?.isSome then eraseAt g.bindingIndex resource key
      else g.bindingIndex := by
  unfold unbind eraseAt group
  rcases g.bindingIndex[resource]? with _ | entries
  · simp
  · rcases he : entries[key]? with _ | entry
    · simp [he]
    · simp [he]

/-- The groups after an entry left. -/
theorem group_unbind (g : Governor) (key : FlowKey) (resource r : ResourceId) :
    group (g.unbind key resource).bindingIndex r =
      if resource = r then (group g.bindingIndex resource).erase key else group g.bindingIndex r := by
  rw [bindingIndex_unbind]
  split_ifs with hsome heq heq
  · rw [group_eraseAt, if_pos heq]
  · rw [group_eraseAt, if_neg heq]
  · subst heq
    ext k : 1
    rw [ExtTreeMap.getElem?_erase]
    split_ifs with hk
    · rw [← LawfulEqOrd.eq_of_compare hk]
      simpa using hsome
    · rfl
  · rfl

theorem group_bind (g : Governor) (key : FlowKey) (resource r : ResourceId) (entry : BindingEntry) :
    group (g.bind key resource entry).bindingIndex r =
      if resource = r then (group g.bindingIndex resource).insert key entry
      else group g.bindingIndex r := by
  rw [bindingIndex_bind, group_insertAt]

theorem Indexed.change {g' : Governor} (h : g.Indexed) (resource : ResourceId)
    (hpruned : Pruned g'.bindingIndex)
    (hgroup : ∀ r, resource ≠ r → group g'.bindingIndex r = group g.bindingIndex r)
    (hagg : ∀ r, resource ≠ r → g'.resourceAggregate[r]? = g.resourceAggregate[r]?)
    (hhere : match g'.resourceAggregate[resource]? with
      | none => group g'.bindingIndex resource = ∅
      | some agg => group g'.bindingIndex resource ≠ ∅ ∧
        Aggregates agg (group g'.bindingIndex resource)) : g'.Indexed := by
  refine ⟨hpruned, ?_, ?_⟩
  · intro r
    by_cases hr : resource = r
    · subst hr
      rcases ha : g'.resourceAggregate[resource]? with _ | agg
      · rw [ha] at hhere
        simpa using hhere
      · rw [ha] at hhere
        simpa using hhere.1
    · rw [hgroup r hr, hagg r hr]
      exact h.present r
  · intro r agg ha
    by_cases hr : resource = r
    · subst hr
      rw [ha] at hhere
      exact hhere.2
    · rw [hgroup r hr]
      rw [hagg r hr] at ha
      exact h.aggregates r agg ha

/-- The removal half of `update_index`, when the key is bound to the resource. -/
theorem unbind_of_bound (he : (group g.bindingIndex resource)[key]? = some entry)
    (ha : g.resourceAggregate[resource]? = some agg) :
    g.unbind key resource = { g with
      bindingIndex := eraseAt g.bindingIndex resource key
      resourceAggregate := match aggregateWithout agg entry with
        | none => g.resourceAggregate.erase resource
        | some agg => g.resourceAggregate.insert resource agg } := by
  unfold unbind eraseAt
  unfold group at he ⊢
  rcases hb : g.bindingIndex[resource]? with _ | entries
  · rw [hb] at he
    simp at he
  · rw [hb] at he
    simp only [Option.getD_some] at he
    rcases hw : aggregateWithout agg entry with _ | agg'
    · simp only [he, ha, hw, Option.getD_some]
    · simp only [he, ha, hw, Option.getD_some]

theorem unbind_of_not_bound (he : (group g.bindingIndex resource)[key]? = none) :
    g.unbind key resource = g := by
  unfold unbind
  unfold group at he
  rcases hb : g.bindingIndex[resource]? with _ | entries
  · rfl
  · rw [hb] at he
    simp only [Option.getD_some] at he
    simp only [he]

theorem Indexed.unbind (h : g.Indexed) (key : FlowKey) (resource : ResourceId) :
    (g.unbind key resource).Indexed := by
  rcases he : (group g.bindingIndex resource)[key]? with _ | entry
  · rw [unbind_of_not_bound he]
    exact h
  rcases ha : g.resourceAggregate[resource]? with _ | agg
  · -- a group without an aggregate is empty
    rw [(h.present resource).mp ha] at he
    simp at he
  have hgroup : ∀ r, group (g.unbind key resource).bindingIndex r =
      if resource = r then (group g.bindingIndex resource).erase key else group g.bindingIndex r :=
    group_unbind g key resource
  have hwithout := (h.aggregates resource agg ha).without he
  rw [unbind_of_bound he ha] at hgroup ⊢
  apply h.change resource
  · exact h.pruned.eraseAt _ _
  · intro r hr
    rw [hgroup, if_neg hr]
  · intro r hr
    have hne : ¬ compare resource r = .eq := fun hc => hr (LawfulEqOrd.eq_of_compare hc)
    rcases aggregateWithout agg entry with _ | agg'
    · simp [ExtTreeMap.getElem?_erase, hne]
    · simp [ExtTreeMap.getElem?_insert, hne]
  · rw [hgroup, if_pos rfl]
    rcases hw : aggregateWithout agg entry with _ | agg'
    · rw [hw] at hwithout
      simpa using hwithout
    · rw [hw] at hwithout
      simpa using hwithout

theorem Indexed.bind (h : g.Indexed) (entry : BindingEntry)
    (hnew : (group g.bindingIndex resource)[key]? = none)
    (hsize : (group g.bindingIndex resource).size + 1 < 2 ^ 32) :
    (g.bind key resource entry).Indexed := by
  have hagg : (g.bind key resource entry).resourceAggregate = g.resourceAggregate.insert resource
      (aggregateWith (g.resourceAggregate[resource]?.getD {}) entry) := rfl
  apply h.change resource
  · exact h.pruned.insertAt _ _ _
  · intro r hr
    rw [group_bind, if_neg hr]
  · intro r hr
    rw [hagg, ExtTreeMap.getElem?_insert,
      if_neg fun hc => hr (LawfulEqOrd.eq_of_compare hc)]
  · rw [hagg, group_bind, if_pos rfl]
    simp only [ExtTreeMap.getElem?_insert_self]
    refine ⟨fun hempty => ?_, (h.aggregates_getD resource).with hnew hsize⟩
    have := congrArg (·.contains key) hempty
    simp at this

/-! ## The index as a projection of the records -/

/-- The index holds exactly the entries of the bound records, and its aggregates are right. -/
structure Projects (g : Governor) : Prop where
  indexed : g.Indexed
  entries : ∀ (resource : ResourceId) (key : FlowKey) (entry : BindingEntry),
    (group g.bindingIndex resource)[key]? = some entry ↔
      ∃ r, g.flows[key]? = some r ∧ r.bound = true ∧ r.boundResource = resource ∧
        entry = r.boundEntry

theorem projects_empty (h : g.bindingIndex = ∅) (h' : g.resourceAggregate = ∅)
    (hunbound : ∀ (key : FlowKey) (r : FlowRecord), g.flows[key]? = some r → r.bound = false) : g.Projects := by
  refine ⟨indexed_empty h h', fun resource key entry => ?_⟩
  constructor
  · intro he
    rw [h] at he
    simp [group] at he
  · rintro ⟨r, hr, hbound, -⟩
    rw [hunbound key r hr] at hbound
    cases hbound

theorem Projects.size_group_le (h : g.Projects) (hr : g.flows[key]? = some r)
    (resource : ResourceId) :
    ((group g.bindingIndex resource).erase key).size + 1 ≤ g.flows.size := by
  have hsub : ((group g.bindingIndex resource).erase key).keys ⊆ (g.flows.erase key).keys := by
    intro k hk
    rw [ExtTreeMap.mem_keys, ExtTreeMap.mem_erase] at hk ⊢
    refine ⟨hk.1, ?_⟩
    obtain ⟨entry, he⟩ := Option.isSome_iff_exists.mp
      (ExtTreeMap.isSome_getElem?_iff_mem.mpr hk.2)
    obtain ⟨r', hr', -⟩ := (h.entries resource k entry).mp he
    rw [← ExtTreeMap.isSome_getElem?_iff_mem, hr']
    rfl
  have hle := (List.subperm_of_subset ExtTreeMap.nodup_keys hsub).length_le
  rw [ExtTreeMap.length_keys, ExtTreeMap.length_keys] at hle
  have hsize : g.flows.size = 1 + (g.flows.erase key).size := by
    rw [← total_one, total_erase _ hr, total_one]
  omega

/-- The index after the entry of a tracked record was taken out. -/
theorem Projects.released (h : g.Projects) (hr : g.flows[key]? = some r) :
    (if r.bound then g.unbind key r.boundResource else g).Indexed ∧
    ∀ resource, group (if r.bound then g.unbind key r.boundResource else g).bindingIndex resource =
      (group g.bindingIndex resource).erase key := by
  have hnone : ∀ resource, ¬ (r.bound = true ∧ r.boundResource = resource) →
      (group g.bindingIndex resource).erase key = group g.bindingIndex resource := by
    intro resource hne
    ext k : 1
    rw [ExtTreeMap.getElem?_erase]
    split_ifs with hk
    · rw [← LawfulEqOrd.eq_of_compare hk, eq_comm, Option.eq_none_iff_forall_ne_some]
      intro entry he
      obtain ⟨r', hr', hbound, hres, -⟩ := (h.entries resource key entry).mp he
      rw [hr] at hr'
      cases hr'
      exact hne ⟨hbound, hres⟩
    · rfl
  split_ifs with hbound
  · refine ⟨h.indexed.unbind _ _, fun resource => ?_⟩
    rw [group_unbind]
    split_ifs with heq
    · rw [heq]
    · rw [hnone resource fun hc => heq hc.2]
  · exact ⟨h.indexed, fun resource => (hnone resource fun hc => hbound hc.1).symm⟩

/-- `update_index` on a tracked record, whose binding is still the one in the index, keeps the
projection. -/
theorem Projects.updateIndex (h : g.Projects) (hr : g.flows[key]? = some r₀)
    (hbound : r.bound = r₀.bound) (hresource : r.boundResource = r₀.boundResource)
    (hsize : g.flows.size < 2 ^ 32) :
    ((g.updateIndex key r).1.setFlow key (rebound r)).Projects := by
  obtain ⟨hindexed, hgroups⟩ := h.released hr
  rw [← hbound, ← hresource] at hindexed hgroups
  have hflows := updateIndex_flows g key r
  -- the entries of the other keys are the ones that were there
  have hother : ∀ (resource : ResourceId) (k : FlowKey) (entry : BindingEntry), key ≠ k →
      ((group g.bindingIndex resource)[k]? = some entry ↔
        ∃ r', ((g.updateIndex key r).1.setFlow key (rebound r)).flows[k]? = some r' ∧
          r'.bound = true ∧ r'.boundResource = resource ∧ entry = r'.boundEntry) := by
    intro resource k entry hk
    rw [getElem?_setFlow, if_neg hk, hflows]
    exact h.entries resource k entry
  unfold rebound at hother ⊢
  unfold Governor.updateIndex at hother ⊢
  by_cases hc : ¬ r.hasClassification ∨ ¬ r.classification.measurements.capacityKnown
  · simp only [if_pos hc] at hother ⊢
    refine ⟨hindexed.congr rfl rfl, fun resource k entry => ?_⟩
    show (group (if r.bound then g.unbind key r.boundResource else g).bindingIndex resource)[k]? =
      _ ↔ _
    rw [hgroups, ExtTreeMap.getElem?_erase]
    by_cases hk : key = k
    · subst hk
      rw [getElem?_setFlow, if_pos rfl]
      simp
    · rw [if_neg fun hc => hk (LawfulEqOrd.eq_of_compare hc)]
      exact hother resource k entry hk
  · simp only [if_neg hc] at hother ⊢
    refine ⟨(hindexed.bind _ ?_ ?_).congr rfl rfl, fun resource k entry => ?_⟩
    · rw [hgroups]
      simp
    · rw [hgroups]
      have := h.size_group_le hr r.classification.measurements.bindingResource
      omega
    · show (group (Governor.bind _ _ _ _).bindingIndex resource)[k]? = _ ↔ _
      rw [group_bind, hgroups, hgroups]
      by_cases hk : key = k
      · subst hk
        rw [getElem?_setFlow, if_pos rfl]
        by_cases hres : r.classification.measurements.bindingResource = resource
        · rw [if_pos hres]
          simp only [ExtTreeMap.getElem?_insert_self, Option.some.injEq, FlowRecord.boundEntry]
          constructor
          · intro he
            exact ⟨_, rfl, rfl, hres, he.symm⟩
          · rintro ⟨r', rfl, -, -, he⟩
            exact he.symm
        · rw [if_neg hres]
          simp [hres]
      · have hne : ¬ compare key k = .eq := fun hc => hk (LawfulEqOrd.eq_of_compare hc)
        rw [← hother resource k entry hk]
        split_ifs with hres
        · rw [ExtTreeMap.getElem?_insert, if_neg hne, ExtTreeMap.getElem?_erase, if_neg hne,
            hres]
        · rw [ExtTreeMap.getElem?_erase, if_neg hne]

/-- A record that is written back with its binding keeps the projection. -/
theorem Projects.setFlow (h : g.Projects) (hr : g.flows[key]? = some r₀)
    (hbound : r.bound = r₀.bound) (hresource : r.boundResource = r₀.boundResource)
    (hentry : r.boundEntry = r₀.boundEntry) :
    (g.setFlow key r).Projects := by
  refine ⟨h.indexed.congr rfl rfl, fun resource k entry => ?_⟩
  show (group g.bindingIndex resource)[k]? = some entry ↔ _
  rw [h.entries, getElem?_setFlow]
  by_cases hk : key = k
  · subst hk
    rw [if_pos rfl, hr]
    simp [hbound, hresource, hentry]
  · rw [if_neg hk]

end Governor

end EFG
