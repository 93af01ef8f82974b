/-
# Capacity and path tables

The published capacity snapshots and path descriptors (`capacity.hpp`,
`capacity.cpp`, `path.hpp`, `path.cpp`).  A `std::map` is an extensional tree map
with the order of its keys.
-/
import ElephantFlow.Policy

namespace EFG

open ByteCodec

/-! ## Capacity -/

/-- `ResourceCapacity`. -/
structure ResourceCapacity where
  resource : ResourceId := {}
  generation : Generation := {}
  snapshot : CapacitySnapshotId := {}
  span : TickSpan := {}
  capacity : KiloTickRate := 0
  reserved : KiloTickRate := 0
  validity : ValidityWindow := {}
  provenance : Provenance := {}
  deriving DecidableEq, Repr, Inhabited

namespace ResourceCapacity

/-- `ResourceCapacity::validate`. -/
def validate (c : ResourceCapacity) : Except Status Unit :=
  if ¬ c.resource.valid then makeStatus .invalidArgument "resource identifier is absent"
  else if ¬ c.generation.valid then makeStatus .invalidArgument "capacity generation is absent"
  else if ¬ c.snapshot.valid then
    makeStatus .invalidArgument "capacity snapshot identifier is absent"
  else if c.span.endAt ≤ c.span.beginAt then
    makeStatus .invalidArgument "capacity span is empty or inverted"
  else if c.capacity = 0 then makeStatus .invalidArgument "capacity must be positive"
  else if c.reserved > c.capacity then
    makeStatus .contradictoryEvidence "reserved capacity exceeds total capacity"
  else if ¬ c.validity.wellFormed then
    makeStatus .invalidArgument "capacity validity window is malformed"
  else if c.validity.expiresAt ≤ c.span.endAt then
    makeStatus .expired "capacity validity expires before the measured span ends"
  else if ¬ c.provenance.valid then
    makeStatus .invalidArgument "capacity provenance is incomplete"
  else if c.provenance.schemaVersion ≠ kSchemaVersion then
    makeStatus .versionMismatch "capacity schema version is not supported"
  else .ok ()

/-- `ResourceCapacity::available`. -/
def available (c : ResourceCapacity) : Except Status KiloTickRate :=
  match subOverflow c.capacity c.reserved with
  | none => makeStatus .underflow "reserved capacity exceeds total capacity"
  | some out => .ok out

/-- `ResourceCapacity::digest`. -/
def digest (c : ResourceCapacity) : UInt64 :=
  hasherDigest [le64 c.resource.value, le64 c.generation.value, le64 c.snapshot.value,
    le64 c.span.beginAt, le64 c.span.endAt, le64 c.capacity, le64 c.reserved,
    le64 c.validity.issuedAt, le64 c.validity.expiresAt,
    le64 c.provenance.publisher.publisher.value, le64 c.provenance.publisher.boot.value,
    le64 c.provenance.publisher.epoch.value, le64 c.provenance.publisher.sequence,
    le64 c.provenance.emittedAt, le32 c.provenance.schemaVersion]

end ResourceCapacity

/-- `CapacityTable`. -/
structure CapacityTable where
  maxResources : ℕ := kMaxResources
  entries : Std.ExtTreeMap ResourceId ResourceCapacity := ∅

namespace CapacityTable

/-- `CapacityTable::find`. -/
def find (t : CapacityTable) (r : ResourceId) : Option ResourceCapacity := t.entries[r]?

/-- `CapacityTable::submit`. -/
def submit (t : CapacityTable) (c : ResourceCapacity) : Except Status CapacityTable :=
  match c.validate with
  | .error e => .error e
  | .ok () =>
    match t.entries[c.resource]? with
    | none =>
      if t.entries.size ≥ t.maxResources then
        makeStatus .capacityExceeded "capacity table is full"
      else .ok { t with entries := t.entries.insert c.resource c }
    | some existing =>
      if c.generation < existing.generation then
        makeStatus .stale "capacity snapshot generation is older than the retained one"
      else if c.generation = existing.generation ∧
          c.validity.issuedAt < existing.validity.issuedAt then
        makeStatus .stale "capacity snapshot is older than the retained one for this generation"
      else if c.generation = existing.generation ∧ c.snapshot = existing.snapshot ∧
          c.digest = existing.digest then .ok t
      else if c.generation = existing.generation ∧ c.snapshot = existing.snapshot ∧
          c.validity.issuedAt = existing.validity.issuedAt then
        makeStatus .contradictoryEvidence "same capacity snapshot identity with different content"
      else .ok { t with entries := t.entries.insert c.resource c }

/-- `CapacityTable::expire`. -/
def expire (t : CapacityTable) (now : Tick) : CapacityTable :=
  { t with entries := t.entries.filter (fun _ c =>
      !(c.validity.expiredAt now || !c.validity.wellFormed)) }

/-- `CapacityTable::clear`. -/
def clear (t : CapacityTable) : CapacityTable := { t with entries := ∅ }

end CapacityTable

/-! ## Paths -/

/-- `PathDescriptor`. -/
structure PathDescriptor where
  path : PathId := {}
  generation : Generation := {}
  resources : List ResourceId := []
  validity : ValidityWindow := {}
  provenance : Provenance := {}
  deriving DecidableEq, Repr, Inhabited

namespace PathDescriptor

/-- `PathDescriptor::validate`; the sorted copy and `adjacent_find` look for a repetition. -/
def validate (p : PathDescriptor) : Except Status Unit :=
  if ¬ p.path.valid then makeStatus .invalidArgument "path identifier is absent"
  else if ¬ p.generation.valid then makeStatus .invalidArgument "path generation is absent"
  else if p.resources.isEmpty then
    makeStatus .invalidArgument "path must bind at least one resource"
  else if p.resources.length > kMaxResourcesPerPath then
    makeStatus .oversized "path binds more resources than the ceiling allows"
  else if ¬ p.resources.Nodup then
    makeStatus .contradictoryEvidence "path binds the same resource more than once"
  else if p.resources.any (fun r => !r.valid) then
    makeStatus .invalidArgument "path contains an absent resource"
  else if ¬ p.validity.wellFormed then
    makeStatus .invalidArgument "path validity window is malformed"
  else if ¬ p.provenance.valid then makeStatus .invalidArgument "path provenance is incomplete"
  else if p.provenance.schemaVersion ≠ kSchemaVersion then
    makeStatus .versionMismatch "path schema version is not supported"
  else .ok ()

/-- `PathDescriptor::digest`. -/
def digest (p : PathDescriptor) : UInt64 :=
  hasherDigest ([le64 p.path.value, le64 p.generation.value,
    le32 (UInt32.ofNat p.resources.length)] ++ p.resources.map (fun r => le64 r.value) ++
    [le64 p.validity.issuedAt, le64 p.validity.expiresAt,
      le64 p.provenance.publisher.publisher.value, le64 p.provenance.publisher.boot.value,
      le64 p.provenance.publisher.epoch.value, le64 p.provenance.publisher.sequence,
      le64 p.provenance.emittedAt, le32 p.provenance.schemaVersion])

end PathDescriptor

/-- `PathTable`. -/
structure PathTable where
  maxPaths : ℕ := kMaxPaths
  maxResourcesPerPath : ℕ := kMaxResourcesPerPath
  entries : Std.ExtTreeMap PathId PathDescriptor := ∅

namespace PathTable

/-- `PathTable::find`. -/
def find (t : PathTable) (p : PathId) : Option PathDescriptor := t.entries[p]?

/-- `PathTable::submit`. -/
def submit (t : PathTable) (p : PathDescriptor) : Except Status PathTable :=
  match p.validate with
  | .error e => .error e
  | .ok () =>
    if p.resources.length > t.maxResourcesPerPath then
      makeStatus .oversized "path exceeds the configured resource ceiling"
    else
      match t.entries[p.path]? with
      | none =>
        if t.entries.size ≥ t.maxPaths then makeStatus .capacityExceeded "path table is full"
        else .ok { t with entries := t.entries.insert p.path p }
      | some existing =>
        if p.generation < existing.generation then
          makeStatus .stale "path generation is older than the retained one"
        else if p.generation = existing.generation ∧
            p.validity.issuedAt < existing.validity.issuedAt then
          makeStatus .stale "path descriptor is older than the retained one"
        else if p.generation = existing.generation ∧ p.digest = existing.digest then .ok t
        else if p.generation = existing.generation ∧
            p.validity.issuedAt = existing.validity.issuedAt ∧
            p.resources ≠ existing.resources then
          makeStatus .contradictoryEvidence
            "same path generation and issue tick with a different resource set"
        else .ok { t with entries := t.entries.insert p.path p }

/-- `PathTable::expire`. -/
def expire (t : PathTable) (now : Tick) : PathTable :=
  { t with entries := t.entries.filter (fun _ p =>
      !(p.validity.expiredAt now || !p.validity.wellFormed)) }

/-- `PathTable::clear`. -/
def clear (t : PathTable) : PathTable := { t with entries := ∅ }

end PathTable

end EFG
