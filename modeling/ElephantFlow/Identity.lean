/-
# Status codes, logical time and strong identities

The vocabulary shared by every component of the governor (`status.hpp`,
`tick.hpp`, `identity.hpp`, `limits.hpp`).  A fallible function of the source
returns `Except Status α`; a fallible member function that mutates its object
returns the result together with the new object, since an error does not undo
what was written before it.
-/
import Mathlib

namespace EFG

/-! ## Status -/

/-- `StatusCode`. -/
inductive StatusCode
  | ok | invalidArgument | outOfRange | overflow | underflow | divideByZero | notFound
  | alreadyExists | conflict | capacityExceeded | unsupported | stale | expired
  | unknownEvidence | contradictoryEvidence | duplicateEvidence | gapDetected
  | generationMismatch | authorityMismatch | epochMismatch | bootMismatch
  | revalidationRequired | policyViolation | protectionViolation | corrupt | truncated
  | oversized | versionMismatch | integrityFailure | ioError | closed | cancelled
  | shuttingDown | busy | internal
  deriving DecidableEq, Repr, Inhabited

/-- `Status`: a code and a fixed message. -/
structure Status where
  code : StatusCode
  message : String
  deriving DecidableEq, Repr, Inhabited

/-- `make_status`, in the error position of a fallible function. -/
def makeStatus {α : Type} (code : StatusCode) (message : String) : Except Status α :=
  .error ⟨code, message⟩

/-- `StatusOr::ok`. -/
def isOk {α : Type} : Except Status α → Bool
  | .ok _ => true
  | .error _ => false

/-- The call succeeds and its result passes the test. -/
def okAnd {α : Type} (x : Except Status α) (test : α → Bool) : Bool :=
  match x with
  | .ok a => test a
  | .error _ => false

theorem okAnd_eq_true {α : Type} {x : Except Status α} {test : α → Bool} :
    okAnd x test = true ↔ ∃ a, x = .ok a ∧ test a = true := by
  rcases x with e | a
  · simp [okAnd]
  · simp [okAnd]

/-- What is said of the result of a call can be run. -/
instance decidableExistsOk {ε α : Type} (x : Except ε α) (p : α → Prop) [DecidablePred p] :
    Decidable (∃ a, x = .ok a ∧ p a) :=
  match x with
  | .ok a => decidable_of_iff (p a) (by simp)
  | .error _ => .isFalse (by simp)

instance decidableExistsEqOk {ε α : Type} (x : Except ε α) : Decidable (∃ a, x = .ok a) :=
  decidable_of_iff (∃ a, x = .ok a ∧ True) (by simp)

/-- And so can what is said of what is found. -/
instance decidableExistsSome {α : Type} (x : Option α) (p : α → Prop) [DecidablePred p] :
    Decidable (∃ a, x = some a ∧ p a) :=
  match x with
  | some a => decidable_of_iff (p a) (by simp)
  | none => .isFalse (by simp)

/-- The code of a result, `Ok` when there is one. -/
def codeOf {α : Type} : Except Status α → StatusCode
  | .ok _ => .ok
  | .error s => s.code

@[simp] theorem isOk_ok {α : Type} (a : α) : isOk (.ok a : Except Status α) = true := rfl

@[simp] theorem isOk_error {α : Type} (s : Status) : isOk (.error s : Except Status α) = false := rfl

@[simp] theorem makeStatus_ne_ok {α : Type} (c : StatusCode) (m : String) (a : α) :
    makeStatus c m ≠ (.ok a : Except Status α) := by
  intro h
  cases h

/-- A check that refuses: it passes exactly when its condition fails and the rest passes. -/
theorem ite_makeStatus_eq_ok {α : Type} {c : Prop} [Decidable c] {code : StatusCode} {m : String}
    {x : Except Status α} {a : α} :
    (if c then makeStatus code m else x) = .ok a ↔ ¬ c ∧ x = .ok a := by
  by_cases hc : c
  · simp [hc]
  · simp [hc]

/-! ## Limits -/

def kMaxFlows : ℕ := 2 ^ 20
def kMaxPaths : ℕ := 2 ^ 16
def kMaxResources : ℕ := 2 ^ 16
def kMaxIntents : ℕ := 2 ^ 18
def kMaxAttempts : ℕ := 2 ^ 20
def kMaxSamplesPerFlow : ℕ := 32
def kMaxHistoryPerFlow : ℕ := 512
def kMaxResourcesPerPath : ℕ := 64
def kMaxTraceEntries : ℕ := 16
def kMaxPolicyNodes : ℕ := 4096
def kMaxRuleDepth : ℕ := 32
def kMaxIntentListPerFlow : ℕ := 16
def kMaxJournalRecordBytes : ℕ := 2 ^ 20
def kMaxSnapshotBytes : ℕ := 2 ^ 28
def kMaxJournalFileBytes : UInt64 := 2 ^ 34

/-- `kSchemaVersion`. -/
def kSchemaVersion : UInt32 := 1

/-- `UINT64_MAX`. -/
def u64Max : UInt64 := 0xFFFFFFFFFFFFFFFF

/-! ## Logical time -/

/-- A logical tick supplied by the caller. -/
abbrev Tick := UInt64

/-- `TickSpan`: the half-open interval `[beginAt, endAt)`. -/
structure TickSpan where
  beginAt : Tick := 0
  endAt : Tick := 0
  deriving DecidableEq, Repr, Inhabited

/-- `TickSpan::length`. -/
def TickSpan.length (s : TickSpan) : UInt64 :=
  if s.endAt > s.beginAt then s.endAt - s.beginAt else 0

/-- `ValidityWindow`: `issuedAt` is inclusive, `expiresAt` exclusive. -/
structure ValidityWindow where
  issuedAt : Tick := 0
  expiresAt : Tick := 0
  deriving DecidableEq, Repr, Inhabited

/-- `ValidityWindow::well_formed`. -/
def ValidityWindow.wellFormed (w : ValidityWindow) : Bool := w.expiresAt > w.issuedAt

/-- `ValidityWindow::expired_at`. -/
def ValidityWindow.expiredAt (w : ValidityWindow) (now : Tick) : Bool :=
  w.wellFormed && now ≥ w.expiresAt

/-- `FreshnessVerdict`. -/
inductive FreshnessVerdict
  | fresh | notYetValid | expired | malformed | regressed
  deriving DecidableEq, Repr, Inhabited

/-- `evaluate_freshness`: a malformed window is never fresh. -/
def evaluateFreshness (w : ValidityWindow) (now : Tick) : FreshnessVerdict :=
  if ¬ w.wellFormed then .malformed
  else if now < w.issuedAt then .notYetValid
  else if now ≥ w.expiresAt then .expired
  else .fresh

/-- `is_fresh`. -/
def isFresh (w : ValidityWindow) (now : Tick) : Bool := evaluateFreshness w now = .fresh

/-- `make_validity`: refuses an empty window and one that leaves the tick domain. -/
def makeValidity (issuedAt : Tick) (duration : UInt64) : Except Status ValidityWindow :=
  if duration = 0 then
    makeStatus .invalidArgument "validity duration must be positive"
  else if issuedAt > u64Max - duration then
    makeStatus .overflow "validity window overflowed the tick domain"
  else .ok ⟨issuedAt, issuedAt + duration⟩

/-- `TickGuard`. -/
structure TickGuard where
  last : Tick := 0
  initialized : Bool := false
  deriving DecidableEq, Repr, Inhabited

/-- `TickGuard::observe`. -/
def TickGuard.observe (t : TickGuard) (now : Tick) : Except Status TickGuard :=
  if t.initialized ∧ now < t.last then
    makeStatus .stale "decision tick regressed below the last committed tick"
  else .ok ⟨now, true⟩

/-! ## Identifiers and generations -/

/-- The tags that keep the identifier types of `identity.hpp` apart. -/
inductive IdTag
  | flow | path | resource | evidenceWindow | capacitySnapshot | policy | classification
  | intent | attempt | epoch | boot | publisher | worker | reservation | tenant | generation

/-- `StrongId`: a 64-bit identifier; the value `0` means "absent". -/
@[ext] structure StrongId (tag : IdTag) where
  value : UInt64 := 0
  deriving DecidableEq, Repr, Inhabited

abbrev FlowId := StrongId .flow
abbrev PathId := StrongId .path
abbrev ResourceId := StrongId .resource
abbrev EvidenceWindowId := StrongId .evidenceWindow
abbrev CapacitySnapshotId := StrongId .capacitySnapshot
abbrev PolicyId := StrongId .policy
abbrev ClassificationId := StrongId .classification
abbrev IntentId := StrongId .intent
abbrev AttemptId := StrongId .attempt
abbrev EpochId := StrongId .epoch
abbrev BootId := StrongId .boot
abbrev PublisherId := StrongId .publisher
abbrev WorkerId := StrongId .worker
abbrev ReservationId := StrongId .reservation
abbrev TenantId := StrongId .tenant

/-- `Generation`: generation `0` is reserved for "none". -/
abbrev Generation := StrongId .generation

namespace StrongId

variable {tag : IdTag}

/-- `StrongId::valid`. -/
def valid (i : StrongId tag) : Bool := i.value ≠ 0

instance : Ord (StrongId tag) := ⟨fun a b => compare a.value b.value⟩

instance : LT (StrongId tag) := ⟨fun a b => a.value < b.value⟩

instance : LE (StrongId tag) := ⟨fun a b => a.value ≤ b.value⟩

instance (a b : StrongId tag) : Decidable (a < b) := inferInstanceAs (Decidable (a.value < b.value))

instance (a b : StrongId tag) : Decidable (a ≤ b) := inferInstanceAs (Decidable (a.value ≤ b.value))

theorem lt_iff {a b : StrongId tag} : a < b ↔ a.value < b.value := Iff.rfl

theorem le_iff {a b : StrongId tag} : a ≤ b ↔ a.value ≤ b.value := Iff.rfl

instance : Std.TransOrd (StrongId tag) where
  eq_swap := by
    intro a b
    exact @Std.OrientedCmp.eq_swap UInt64 compare _ a.value b.value
  isLE_trans := by
    intro a b c
    exact @Std.TransCmp.isLE_trans UInt64 compare _ a.value b.value c.value

instance : Std.LawfulEqOrd (StrongId tag) where
  compare_self := by
    intro a
    exact @Std.ReflCmp.compare_self UInt64 compare _ a.value
  eq_of_compare h := StrongId.ext (@Std.LawfulEqCmp.eq_of_compare UInt64 compare _ _ _ h)

end StrongId

/-- `Generation::initial`. -/
def Generation.initial : Generation := ⟨1⟩

/-- `Generation::next`: refuses on exhaustion rather than wrapping. -/
def Generation.next (g : Generation) : Except Status Generation :=
  if g.value = u64Max then makeStatus .overflow "generation counter exhausted"
  else .ok ⟨g.value + 1⟩

/-- `BindingVerdict`. -/
inductive BindingVerdict
  | matched | flowGenerationChanged | pathGenerationChanged | capacityGenerationChanged
  | policyGenerationChanged | evidenceWindowSuperseded | epochChanged | bootChanged
  | publisherChanged | publisherIncarnationChanged | absent
  deriving DecidableEq, Repr, Inhabited

/-- `PublisherRef`. -/
structure PublisherRef where
  publisher : PublisherId := {}
  boot : BootId := {}
  epoch : EpochId := {}
  sequence : UInt64 := 0
  deriving DecidableEq, Repr, Inhabited

/-- `PublisherRef::valid`. -/
def PublisherRef.valid (p : PublisherRef) : Bool := p.publisher.valid && p.boot.valid

/-- `Provenance`. -/
structure Provenance where
  publisher : PublisherRef := {}
  emittedAt : Tick := 0
  schemaVersion : UInt32 := kSchemaVersion
  digest : UInt64 := 0
  deriving DecidableEq, Repr, Inhabited

/-- `Provenance::valid`. -/
def Provenance.valid (p : Provenance) : Bool := p.publisher.valid && p.schemaVersion ≠ 0

/-- `BootIdentity`. -/
structure BootIdentity where
  boot : BootId := {}
  epoch : EpochId := {}
  startedAt : Tick := 0
  monotonicSeed : UInt64 := 0
  deriving DecidableEq, Repr, Inhabited

/-- `BootIdentity::valid`. -/
def BootIdentity.valid (b : BootIdentity) : Bool := b.boot.valid

/-! ## Small facts about freshness and generations -/

/-- Advancing a generation always changes it. -/
theorem Generation.next_ne {g g' : Generation} (h : g.next = .ok g') : g' ≠ g := by
  unfold Generation.next at h
  split_ifs at h with hmax
  cases h
  intro heq
  have := congrArg StrongId.value heq
  grind

/-- A validity window can be built as long as it stays inside the tick domain. -/
theorem makeValidity_isOk {now duration : UInt64} (hd : duration ≠ 0)
    (h : now.toNat + duration.toNat < 2 ^ 64) : ∃ w, makeValidity now duration = .ok w := by
  refine ⟨⟨now, now + duration⟩, ?_⟩
  have hle : ¬ now > u64Max - duration := by
    have hdlt := duration.toNat_lt
    rw [gt_iff_lt, UInt64.lt_iff_toNat_lt, UInt64.toNat_sub_of_le _ _ (by
      rw [UInt64.le_iff_toNat_le]; simp [u64Max]; omega)]
    simp [u64Max]
    omega
  rw [makeValidity, if_neg hd, if_neg hle]

end EFG
