/-
# Runs of the capacity and path tables

`submit` compares a snapshot or a path descriptor with the retained entry of the same
resource or path, and `expire` erases entries.  Both tables are stores in the sense of
`VersionedStore`, with the generations as versions, so over a run of calls the accepted
generations never go down exactly if none of them falls below the one that the last expiry
of its entry erased (`tables_never_roll_back_iff`).
-/
import ElephantFlow.VersionedStore
import ElephantFlow.Tables

namespace EFG

open VersionedStore

theorem StrongId.toNat_le_of_not_lt {tag : IdTag} {a b : StrongId tag} (h : ¬ a < b) :
    b.value.toNat ≤ a.value.toNat :=
  UInt64.le_iff_toNat_le.mp (UInt64.not_lt.mp h)

namespace CapacityTable

variable {t t' : CapacityTable} {c : ResourceCapacity}

/-- The generation of a snapshot, as a version. -/
def version (c : ResourceCapacity) : ℕ := c.generation.value.toNat

/-- What an accepted submission requires and does. -/
theorem submit_eq_ok (h : t.submit c = .ok t') : c.validate = .ok () ∧
    (c.resource ∈ t.entries ∨ t.entries.size < t.maxResources) ∧
    t' = { t with entries := t'.entries } ∧
    Updates ResourceCapacity.resource version t.entries c t'.entries := by
  unfold submit at h
  rcases hv : c.validate with e | ⟨⟩
  · rw [hv] at h
    cases h
  rw [hv] at h
  simp only at h
  rcases he : t.entries[c.resource]? with _ | existing
  · rw [he] at h
    simp only [ite_makeStatus_eq_ok] at h
    obtain rfl := Except.ok.inj h.2
    refine ⟨rfl, .inr (Nat.lt_of_not_ge h.1), rfl, fun hb => ?_, .inl rfl⟩
    rw [he] at hb
    cases hb
  · have hmem : c.resource ∈ t.entries := by
      rw [Std.ExtTreeMap.mem_iff_isSome_getElem?, he]
      rfl
    rw [he] at h
    simp only [ite_makeStatus_eq_ok] at h
    obtain ⟨hnewer, -, h⟩ := h
    have hle : ∀ {b}, t.entries[c.resource]? = some b → version b ≤ version c := by
      intro b hb
      obtain rfl := Option.some.inj (he.symm.trans hb)
      exact StrongId.toNat_le_of_not_lt hnewer
    split_ifs at h with hsame
    · obtain rfl := Except.ok.inj h
      refine ⟨rfl, .inl hmem, rfl, hle, .inr ⟨rfl, existing, he, ?_⟩⟩
      unfold version
      rw [hsame.1]
    · cases h
    · obtain rfl := Except.ok.inj h
      exact ⟨rfl, .inl hmem, rfl, hle, .inl rfl⟩

/-- A snapshot of a resource that the table does not hold is accepted if it is valid and there is
room. -/
theorem submit_absent_iff (hnone : t.entries[c.resource]? = none) :
    (∃ t', t.submit c = .ok t') ↔ c.validate = .ok () ∧ t.entries.size < t.maxResources := by
  constructor
  · rintro ⟨t', h⟩
    obtain ⟨hvalid, hroom, -⟩ := submit_eq_ok h
    refine ⟨hvalid, hroom.resolve_left fun hmem => ?_⟩
    rw [Std.ExtTreeMap.mem_iff_isSome_getElem?, hnone] at hmem
    cases hmem
  · rintro ⟨hvalid, hroom⟩
    unfold submit
    rw [hvalid, hnone]
    simp only [ge_iff_le, if_neg (Nat.not_le.mpr hroom)]
    exact ⟨_, rfl⟩

/-- The capacity table as a store of generations. -/
def store : VersionedStore CapacityTable ResourceId ResourceCapacity Tick Status where
  lookup := find
  submit := submit
  expire := expire
  key := ResourceCapacity.resource
  version := version
  admits := fun t c => c.validate = .ok () ∧ t.entries.size < t.maxResources
  submit_absent := submit_absent_iff
  submit_le := fun h hb => (submit_eq_ok h).2.2.2.le hb
  submit_self := fun h => (submit_eq_ok h).2.2.2.self
  submit_other := fun h hk => (submit_eq_ok h).2.2.2.other hk
  lookup_expire := getElem?_of_filter

end CapacityTable

namespace PathTable

variable {t t' : PathTable} {p : PathDescriptor}

/-- The generation of a path descriptor, as a version. -/
def version (p : PathDescriptor) : ℕ := p.generation.value.toNat

/-- What an accepted submission requires and does. -/
theorem submit_eq_ok (h : t.submit p = .ok t') :
    (p.validate = .ok () ∧ p.resources.length ≤ t.maxResourcesPerPath) ∧
    (p.path ∈ t.entries ∨ t.entries.size < t.maxPaths) ∧
    t' = { t with entries := t'.entries } ∧
    Updates PathDescriptor.path version t.entries p t'.entries := by
  unfold submit at h
  rcases hv : p.validate with e | ⟨⟩
  · rw [hv] at h
    cases h
  rw [hv] at h
  simp only [ite_makeStatus_eq_ok] at h
  obtain ⟨hwidth, h⟩ := h
  have hfits := And.intro (rfl : (Except.ok () : Except Status Unit) = .ok ()) (Nat.not_lt.mp hwidth)
  rcases he : t.entries[p.path]? with _ | existing
  · rw [he] at h
    simp only [ite_makeStatus_eq_ok] at h
    obtain rfl := Except.ok.inj h.2
    refine ⟨hfits, .inr (Nat.lt_of_not_ge h.1), rfl, fun hb => ?_, .inl rfl⟩
    rw [he] at hb
    cases hb
  · have hmem : p.path ∈ t.entries := by
      rw [Std.ExtTreeMap.mem_iff_isSome_getElem?, he]
      rfl
    rw [he] at h
    simp only [ite_makeStatus_eq_ok] at h
    obtain ⟨hnewer, -, h⟩ := h
    have hle : ∀ {b}, t.entries[p.path]? = some b → version b ≤ version p := by
      intro b hb
      obtain rfl := Option.some.inj (he.symm.trans hb)
      exact StrongId.toNat_le_of_not_lt hnewer
    split_ifs at h with hsame
    · obtain rfl := Except.ok.inj h
      refine ⟨hfits, .inl hmem, rfl, hle, .inr ⟨rfl, existing, he, ?_⟩⟩
      unfold version
      rw [hsame.1]
    · cases h
    · obtain rfl := Except.ok.inj h
      exact ⟨hfits, .inl hmem, rfl, hle, .inl rfl⟩

/-- A descriptor of a path that the table does not hold is accepted if it is valid, not too wide and
there is room. -/
theorem submit_absent_iff (hnone : t.entries[p.path]? = none) :
    (∃ t', t.submit p = .ok t') ↔
      (p.validate = .ok () ∧ p.resources.length ≤ t.maxResourcesPerPath) ∧
        t.entries.size < t.maxPaths := by
  constructor
  · rintro ⟨t', h⟩
    obtain ⟨hvalid, hroom, -⟩ := submit_eq_ok h
    refine ⟨hvalid, hroom.resolve_left fun hmem => ?_⟩
    rw [Std.ExtTreeMap.mem_iff_isSome_getElem?, hnone] at hmem
    cases hmem
  · rintro ⟨⟨hvalid, hwidth⟩, hroom⟩
    unfold submit
    rw [hvalid, hnone]
    simp only [ge_iff_le, if_neg (Nat.not_le.mpr hroom), gt_iff_lt, if_neg (Nat.not_lt.mpr hwidth)]
    exact ⟨_, rfl⟩

/-- The path table as a store of generations. -/
def store : VersionedStore PathTable PathId PathDescriptor Tick Status where
  lookup := find
  submit := submit
  expire := expire
  key := PathDescriptor.path
  version := version
  admits := fun t p => (p.validate = .ok () ∧ p.resources.length ≤ t.maxResourcesPerPath) ∧
    t.entries.size < t.maxPaths
  submit_absent := submit_absent_iff
  submit_le := fun h hb => (submit_eq_ok h).2.2.2.le hb
  submit_self := fun h => (submit_eq_ok h).2.2.2.self
  submit_other := fun h hk => (submit_eq_ok h).2.2.2.other hk
  lookup_expire := getElem?_of_filter

end PathTable

/-- **When the tables never roll back.**  Over every sequence of calls from an empty table, with any
limits, the generations of the snapshots accepted for one resource, and of the descriptors accepted
for one path, are non-decreasing exactly if nothing that the table has room for comes to an empty
place with a lower generation than the last expiry erased there. -/
theorem tables_never_roll_back_iff (capacities : CapacityTable) (paths : PathTable)
    (snapshots : List (Call ResourceCapacity Tick)) (descriptors : List (Call PathDescriptor Tick)) :
    ((CapacityTable.store.accepted capacities.clear snapshots).Pairwise
        (fun a b => a.resource = b.resource → a.generation ≤ b.generation) ↔
      CapacityTable.store.NeverRelapses (fun _ => 0) capacities.clear snapshots) ∧
    ((PathTable.store.accepted paths.clear descriptors).Pairwise
        (fun a b => a.path = b.path → a.generation ≤ b.generation) ↔
      PathTable.store.NeverRelapses (fun _ => 0) paths.clear descriptors) := by
  constructor
  · rw [← accepted_ordered_iff (T := CapacityTable.store) (fun k => Std.ExtTreeMap.getElem?_empty)]
    unfold Ordered
    simp only [StrongId.le_iff, UInt64.le_iff_toNat_le]
    rfl
  · rw [← accepted_ordered_iff (T := PathTable.store) (fun k => Std.ExtTreeMap.getElem?_empty)]
    unfold Ordered
    simp only [StrongId.le_iff, UInt64.le_iff_toNat_le]
    rfl

/-- A snapshot of one resource that lives until tick 20. -/
def shortSnapshot (generation : Generation) : ResourceCapacity where
  resource := ⟨1⟩
  generation := generation
  snapshot := ⟨1⟩
  span := ⟨0, 10⟩
  capacity := 1000
  validity := ⟨10, 20⟩
  provenance := { publisher := { publisher := ⟨1⟩, boot := ⟨1⟩ }, schemaVersion := 1 }

/-- A descriptor of one path that lives until tick 20. -/
def shortDescriptor (generation : Generation) : PathDescriptor where
  path := ⟨1⟩
  generation := generation
  resources := [⟨1⟩]
  validity := ⟨10, 20⟩
  provenance := { publisher := { publisher := ⟨1⟩, boot := ⟨1⟩ }, schemaVersion := 1 }

/-- Once the second generation has expired, both tables accept the first one. -/
theorem tables_roll_back_after_expiry :
    CapacityTable.store.accepted {}
        [.submit (shortSnapshot ⟨2⟩), .expire 20, .submit (shortSnapshot ⟨1⟩)] =
      [shortSnapshot ⟨2⟩, shortSnapshot ⟨1⟩] ∧
    PathTable.store.accepted {}
        [.submit (shortDescriptor ⟨2⟩), .expire 20, .submit (shortDescriptor ⟨1⟩)] =
      [shortDescriptor ⟨2⟩, shortDescriptor ⟨1⟩] := by
  decide +kernel

end EFG
