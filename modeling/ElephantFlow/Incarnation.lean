/-
# Incarnations and fencing

The header of a serialized governor names the incarnation that wrote it.  A
restore goes on only under another boot and a later epoch (`readHeader_eq_ok`),
and what it then leaves is fenced.
-/
import ElephantFlow.Runs
import ElephantFlow.Durable

namespace EFG

open ByteCodec

namespace Governor

/-! ## The header -/

theorem readHeader_eq_ok {boot : BootIdentity} {bytes rest : Bytes} {h : SnapshotHeader}
    (hok : readHeader boot bytes = .ok (h, rest)) :
    boot.valid = true ∧ ∃ stored rest', DurableGovernor.peekIncarnation bytes = .ok (stored, rest') ∧
      boot.boot ≠ stored.1 ∧ stored.2 < boot.epoch := by
  unfold readHeader at hok
  obtain ⟨schema, bs₁, h₁, hok⟩ := bind_eq_ok_iff.mp hok
  obtain ⟨revision, bs₂, h₂, hok⟩ := bind_eq_ok_iff.mp hok
  by_cases hschema : schema ≠ kSchemaVersion
  · rw [if_pos hschema] at hok
    cases hok
  rw [if_neg hschema] at hok
  by_cases hrevision : revision ≠ 1
  · rw [if_pos hrevision] at hok
    cases hok
  rw [if_neg hrevision] at hok
  obtain ⟨lastTick, bs₃, h₃, hok⟩ := bind_eq_ok_iff.mp hok
  obtain ⟨classificationSequence, bs₄, h₄, hok⟩ := bind_eq_ok_iff.mp hok
  obtain ⟨intentSequence, bs₅, h₅, hok⟩ := bind_eq_ok_iff.mp hok
  obtain ⟨storedBoot, bs₆, h₆, hok⟩ := bind_eq_ok_iff.mp hok
  obtain ⟨storedEpoch, bs₇, h₇, hok⟩ := bind_eq_ok_iff.mp hok
  obtain ⟨_, bs₈, -, hok⟩ := bind_eq_ok_iff.mp hok
  obtain ⟨_, bs₉, -, hok⟩ := bind_eq_ok_iff.mp hok
  by_cases hvalid : ¬ boot.valid
  · rw [if_pos hvalid] at hok
    cases hok
  rw [if_neg hvalid] at hok
  by_cases hboot : boot.boot = ⟨storedBoot⟩
  · rw [if_pos hboot] at hok
    cases hok
  rw [if_neg hboot] at hok
  by_cases hepoch : boot.epoch ≤ ⟨storedEpoch⟩
  · rw [if_pos hepoch] at hok
    cases hok
  refine ⟨not_not.mp hvalid, (⟨storedBoot⟩, ⟨storedEpoch⟩), bs₇, ?_, hboot, ?_⟩
  · unfold DurableGovernor.peekIncarnation
    rw [bind_of_ok (u32_congr h₁ _), bind_of_ok (u32_congr h₂ _), bind_of_ok (u64_congr h₃ _),
      bind_of_ok (u64_congr h₄ _), bind_of_ok (u64_congr h₅ _), bind_of_ok (u64_congr h₆ _),
      bind_of_ok (u64_congr h₇ _)]
    rfl
  · rw [StrongId.le_iff] at hepoch
    rw [StrongId.lt_iff]
    exact UInt64.not_le.mp hepoch

/-! ## Fencing -/

/-- A successful restore fences everything it read, whatever the bytes were. -/
theorem deserialize_fences (config : GovernorConfig) (boot : BootIdentity) (bytes : Bytes)
    (now : Tick) (hok : (((make config).setIncarnation boot).deserialize bytes now).1 = .ok ()) :
    let g := (((make config).setIncarnation boot).deserialize bytes now).2
    (∀ (key : FlowKey) (r : FlowRecord), g.flows[key]? = some r → r.hasClassification = true →
      r.classification.state = .suspended ∧ r.classification.authority = .none ∧
        r.enterStreak = 0 ∧ r.exitStreak = 0) ∧
    (∀ (id : IntentId) (i : GovernanceIntent), g.intents.intents[id]? = some i →
      isLive i.state = false) ∧
    (∀ (resource : ResourceId) (entries : Std.ExtTreeMap FlowKey BindingEntry) (key : FlowKey)
      (entry : BindingEntry), g.bindingIndex[resource]? = some entries → entries[key]? = some entry →
      entry.elephant = false) ∧
    ∃ storedBoot storedEpoch rest,
      DurableGovernor.peekIncarnation bytes = .ok ((storedBoot, storedEpoch), rest) ∧
        g.boot.boot ≠ storedBoot ∧ storedEpoch < g.boot.epoch := by
  intro g
  have hrestored : Restored ((make config).setIncarnation boot) g now := deserialize_spec hok
  refine ⟨?_, ?_, ?_, ?_⟩
  · intro key r hr hc
    have hdemoted := (hrestored.records key r hr).2.1
    exact ⟨hdemoted.state hc, hdemoted.authority hc, hdemoted.enterStreak hc, hdemoted.exitStreak hc⟩
  · intro id i hi
    by_contra hlive
    exact hrestored.idle id i ⟨hi, by simpa using hlive⟩
  · intro resource entries key entry hentries hentry
    have hgroup : (GroupedMap.group g.bindingIndex resource)[key]? = some entry := by
      unfold GroupedMap.group
      rw [hentries]
      exact hentry
    -- every entry of the index is the entry of a bound record, and no such record is an elephant
    obtain ⟨r, hr, hbound, -, rfl⟩ := (hrestored.projects.entries resource key entry).mp hgroup
    exact (hrestored.records key r hr).2.2 hbound
  · have hboot : g.boot = boot := hrestored.boot
    rw [hboot]
    unfold deserialize at hok
    rcases hh : readHeader ((make config).setIncarnation boot).boot bytes with e | ⟨h, rest⟩
    · rw [hh] at hok
      cases hok
    · obtain ⟨-, ⟨storedBoot, storedEpoch⟩, rest', hpeek, hne, hlt⟩ := readHeader_eq_ok hh
      exact ⟨storedBoot, storedEpoch, rest', hpeek, hne, hlt⟩

open Scenario

/-- The snapshot of a governor with an Elephant and a live intent, restored by the second
incarnation. -/
theorem deserialize_fences_scenario :
    ∃ r : FlowRecord, (((make {}).setIncarnation reboot).deserialize
      (governor.encodeHeader ++ governor.encodeBody).flatten 20).2.flows[
        flowKey]? = some r ∧ r.classification.state = .suspended := by
  have hfences := deserialize_fences {} reboot
    (governor.encodeHeader ++ governor.encodeBody).flatten 20 (by decide +kernel)
  obtain ⟨r, hr, hc⟩ : ∃ r, (((make {}).setIncarnation reboot).deserialize
      (governor.encodeHeader ++ governor.encodeBody).flatten 20).2.flows[flowKey]? = some r ∧
    r.hasClassification = true := by decide +kernel
  exact ⟨r, hr, (hfences.1 _ r hr hc).1⟩

end Governor

end EFG
