/-
# Governance intents

The bounded intents and their ledger (`intervention.hpp`, `intervention.cpp`).
The revocation, fencing and expiry operations of the ledger are all one pass over
the live intents; `updateLive` is that pass, and each operation is the pass with
its own selection and its own update.
-/
import ElephantFlow.Classification

namespace EFG

open ByteCodec

/-! ## Intents -/

/-- `IntentState`. -/
inductive IntentState
  | suppressed | authorized | clamped | active | revoked | fenced | expired | completed
  deriving DecidableEq, Repr, Inhabited

def IntentState.toU8 : IntentState → UInt8
  | .suppressed => 0 | .authorized => 1 | .clamped => 2 | .active => 3 | .revoked => 4
  | .fenced => 5 | .expired => 6 | .completed => 7

/-- `is_live`. -/
def isLive : IntentState → Bool
  | .authorized | .clamped | .active => true
  | _ => false

/-- `SuppressReason`: a bitmask. -/
structure SuppressReason where
  bits : UInt32 := 0
  deriving DecidableEq, Repr, Inhabited

namespace SuppressReason

def none : SuppressReason := ⟨0⟩
def protectedObligation : SuppressReason := ⟨1⟩
def nonPreemptibleObligation : SuppressReason := ⟨2⟩
def reservationObligation : SuppressReason := ⟨4⟩
def policyForbids : SuppressReason := ⟨8⟩
def authorityStale : SuppressReason := ⟨16⟩
def noAuthority : SuppressReason := ⟨32⟩
def impactBelowThreshold : SuppressReason := ⟨64⟩
def contentionBelowThreshold : SuppressReason := ⟨128⟩
def boundsExceeded : SuppressReason := ⟨256⟩
def flowCompleted : SuppressReason := ⟨512⟩
def capacityUnknown : SuppressReason := ⟨1024⟩
def ledgerBudgetExhausted : SuppressReason := ⟨2048⟩
def shuttingDown : SuppressReason := ⟨4096⟩

end SuppressReason

/-- `IntentBounds`. -/
structure IntentBounds where
  rateReductionBp : BasisPoints := 0
  durationTicks : UInt64 := 0
  targets : UInt32 := 0
  placement : Bool := false
  isolation : Bool := false
  admissionReduction : Bool := false
  congestionEscalation : Bool := false
  deriving DecidableEq, Repr, Inhabited

/-- `narrow_bounds`. -/
def narrowBounds (requested ceiling : IntentBounds) : IntentBounds where
  rateReductionBp :=
    if requested.rateReductionBp < ceiling.rateReductionBp then requested.rateReductionBp
    else ceiling.rateReductionBp
  durationTicks := minOf requested.durationTicks ceiling.durationTicks
  targets := if requested.targets < ceiling.targets then requested.targets else ceiling.targets
  placement := requested.placement && ceiling.placement
  isolation := requested.isolation && ceiling.isolation
  admissionReduction := requested.admissionReduction && ceiling.admissionReduction
  congestionEscalation := requested.congestionEscalation && ceiling.congestionEscalation

/-- `GovernanceIntent`. -/
structure GovernanceIntent where
  id : IntentId := {}
  attempt : AttemptId := {}
  kind : IntentKind := .observeOnly
  flow : FlowId := {}
  flowGeneration : Generation := {}
  classification : ClassificationId := {}
  classificationGeneration : Generation := {}
  state : IntentState := .authorized
  suppressed : SuppressReason := .none
  requested : IntentBounds := {}
  granted : IntentBounds := {}
  severity : BasisPoints := 0
  contentionPressure : BasisPoints := 0
  competingElephants : UInt32 := 0
  window : TickSpan := {}
  authority : AuthorityVector := {}
  provenance : Provenance := {}
  digest : UInt64 := 0
  deriving DecidableEq, Repr, Inhabited

namespace GovernanceIntent

/-- `GovernanceIntent::compute_digest`. -/
def computeDigest (i : GovernanceIntent) : UInt64 :=
  hasherDigest [le64 i.id.value, le64 i.attempt.value, [i.kind.toU8], le64 i.flow.value,
    le64 i.flowGeneration.value, le64 i.classification.value, le64 i.classificationGeneration.value,
    [i.state.toU8], le32 i.suppressed.bits, le32 i.requested.rateReductionBp,
    le64 i.requested.durationTicks, le32 i.requested.targets, leBool i.requested.placement,
    leBool i.requested.isolation, leBool i.requested.admissionReduction,
    leBool i.requested.congestionEscalation, le32 i.granted.rateReductionBp,
    le64 i.granted.durationTicks, le32 i.granted.targets, leBool i.granted.placement,
    leBool i.granted.isolation, leBool i.granted.admissionReduction,
    leBool i.granted.congestionEscalation, le32 i.severity, le32 i.contentionPressure,
    le32 i.competingElephants, le64 i.window.beginAt, le64 i.window.endAt, le64 i.authority.digest]

/-- The intent with another digest. -/
def withDigest (i : GovernanceIntent) (digest : UInt64) : GovernanceIntent :=
  { i with digest := digest }

/-- `intent.digest = intent.compute_digest()`. -/
def sealed (i : GovernanceIntent) : GovernanceIntent := i.withDigest i.computeDigest

section

variable (i : GovernanceIntent) (d : UInt64)

/-- Sealing changes the digest and nothing else.  The projections below are stated through
`withDigest`, so that no digest is ever computed to see them. -/
theorem withDigest_eq :
    (i.withDigest d).id = i.id ∧ (i.withDigest d).kind = i.kind ∧ (i.withDigest d).flow = i.flow ∧
      (i.withDigest d).flowGeneration = i.flowGeneration ∧
      (i.withDigest d).classificationGeneration = i.classificationGeneration ∧
      (i.withDigest d).state = i.state := ⟨rfl, rfl, rfl, rfl, rfl, rfl⟩

@[simp] theorem sealed_id : i.sealed.id = i.id := (withDigest_eq i _).1

@[simp] theorem sealed_kind : i.sealed.kind = i.kind := (withDigest_eq i _).2.1

@[simp] theorem sealed_flow : i.sealed.flow = i.flow :=
  (withDigest_eq i _).2.2.1

@[simp] theorem sealed_flowGeneration :
    i.sealed.flowGeneration = i.flowGeneration := (withDigest_eq i _).2.2.2.1

@[simp] theorem sealed_classificationGeneration :
    i.sealed.classificationGeneration = i.classificationGeneration := (withDigest_eq i _).2.2.2.2.1

@[simp] theorem sealed_state : i.sealed.state = i.state :=
  (withDigest_eq i _).2.2.2.2.2

theorem withDigest_envelope :
    (i.withDigest d).requested = i.requested ∧ (i.withDigest d).granted = i.granted ∧
      (i.withDigest d).window = i.window ∧ (i.withDigest d).authority = i.authority :=
  ⟨rfl, rfl, rfl, rfl⟩

@[simp] theorem sealed_requested : i.sealed.requested = i.requested :=
  (withDigest_envelope i _).1

@[simp] theorem sealed_granted : i.sealed.granted = i.granted :=
  (withDigest_envelope i _).2.1

@[simp] theorem sealed_window : i.sealed.window = i.window :=
  (withDigest_envelope i _).2.2.1

@[simp] theorem sealed_authority : i.sealed.authority = i.authority :=
  (withDigest_envelope i _).2.2.2

end

end GovernanceIntent

/-! ## The ledger -/

/-- `IntentLedger::Counters`. -/
structure IntentCounters where
  recorded : UInt64 := 0
  duplicates : UInt64 := 0
  conflicts : UInt64 := 0
  revocations : UInt64 := 0
  fences : UInt64 := 0
  expirations : UInt64 := 0
  completions : UInt64 := 0
  rejectedBudget : UInt64 := 0
  deriving DecidableEq, Repr, Inhabited

/-- The counter switch of the ledger passes: `n` intents entered `state`. -/
def IntentCounters.bump (c : IntentCounters) (state : IntentState) (n : UInt64) : IntentCounters :=
  match state with
  | .revoked => { c with revocations := c.revocations + n }
  | .fenced => { c with fences := c.fences + n }
  | .expired => { c with expirations := c.expirations + n }
  | .completed => { c with completions := c.completions + n }
  | _ => c

/-- `IntentLedger`. -/
structure IntentLedger where
  maxIntents : ℕ := kMaxIntents
  maxAttempts : ℕ := kMaxAttempts
  intents : Std.ExtTreeMap IntentId GovernanceIntent := ∅
  attempts : Std.ExtTreeMap AttemptId IntentId := ∅
  nextId : IntentId := {}
  counters : IntentCounters := {}

namespace IntentLedger

/-- The argument checks of `IntentLedger::record`. -/
def checkIntent (i : GovernanceIntent) : Except Status Unit :=
  if ¬ i.attempt.valid then makeStatus .invalidArgument "intent attempt identifier is absent"
  else if ¬ i.flow.valid ∨ ¬ i.flowGeneration.valid then
    makeStatus .invalidArgument "intent flow binding is incomplete"
  else if i.window.endAt ≤ i.window.beginAt then
    makeStatus .invalidArgument "intent window is empty or inverted"
  else if i.kind = .count then makeStatus .invalidArgument "intent kind is not recognized"
  else .ok ()

/-- The final part of `IntentLedger::record`: both `emplace` calls keep an existing entry. -/
def emplace (l : IntentLedger) (i : GovernanceIntent) : IntentLedger :=
  { l with
    attempts := l.attempts.insertIfNew i.attempt i.id
    intents := l.intents.insertIfNew i.id i
    counters := { l.counters with recorded := l.counters.recorded + 1 } }

theorem emplace_intents (l : IntentLedger) (i : GovernanceIntent) :
    (l.emplace i).intents = l.intents.insertIfNew i.id i := rfl

/-- `IntentLedger::record` for an attempt that already has a stored intent. -/
def recordAgain (l : IntentLedger) (i stored : GovernanceIntent) :
    Except Status GovernanceIntent × IntentLedger :=
  if ({ i with id := stored.id } : GovernanceIntent).computeDigest = stored.digest then
    (.ok stored, { l with counters := { l.counters with duplicates := l.counters.duplicates + 1 } })
  else
    (makeStatus .conflict "attempt identifier reused with different intent content",
      { l with counters := { l.counters with conflicts := l.counters.conflicts + 1 } })

/-- `IntentLedger::record` for a new attempt: an absent identifier is assigned. -/
def recordNew (l : IntentLedger) (i : GovernanceIntent) :
    Except Status GovernanceIntent × IntentLedger :=
  if l.intents.size ≥ l.maxIntents ∨ l.attempts.size ≥ l.maxAttempts then
    (makeStatus .capacityExceeded "intent ledger budget is exhausted",
      { l with counters := { l.counters with rejectedBudget := l.counters.rejectedBudget + 1 } })
  else if ¬ i.id.valid then
    if l.nextId.value = u64Max then
      (makeStatus .overflow "intent identifier space is exhausted", l)
    else
      let stored := ({ i with id := ⟨l.nextId.value + 1⟩ } : GovernanceIntent).sealed
      (.ok stored, { l with nextId := ⟨l.nextId.value + 1⟩ }.emplace stored)
  else if i.id ∈ l.intents then
    (makeStatus .alreadyExists "intent identifier is already in use", l)
  else if i.id.value ≥ l.nextId.value then
    if i.id.value = u64Max then
      (makeStatus .overflow "intent identifier space is exhausted", l)
    else (.ok i.sealed, { l with nextId := ⟨i.id.value + 1⟩ }.emplace i.sealed)
  else (.ok i.sealed, l.emplace i.sealed)

/-- `IntentLedger::record`: idempotent on the attempt identifier. -/
def record (l : IntentLedger) (i : GovernanceIntent) : Except Status GovernanceIntent × IntentLedger :=
  match checkIntent i with
  | .error e => (.error e, l)
  | .ok () =>
    match l.attempts[i.attempt]? with
    | some existing =>
      match l.intents[existing]? with
      | none => (makeStatus .internal "attempt index references a missing intent", l)
      | some stored => l.recordAgain i stored
    | none => l.recordNew i

/-- A live intent that a pass selects. -/
def hits (select : GovernanceIntent → Bool) (i : GovernanceIntent) : Bool :=
  isLive i.state && select i

/-- One pass over the live intents: the selected ones enter `state` under `update`. -/
def updateLive (l : IntentLedger) (select : GovernanceIntent → Bool) (state : IntentState)
    (update : GovernanceIntent → GovernanceIntent) : UInt64 × IntentLedger :=
  let changed := UInt64.ofNat (l.intents.values.countP (hits select))
  (changed, { l with
    intents := l.intents.map (fun _ i =>
      if hits select i then ({ update i with state := state } : GovernanceIntent).sealed else i)
    counters := l.counters.bump state changed })

/-- The update that records why the authority went stale. -/
def markStale (i : GovernanceIntent) : GovernanceIntent := { i with suppressed := .authorityStale }

/-- `IntentLedger::transition_flow_terminal`. -/
def transitionFlowTerminal (l : IntentLedger) (flow : FlowId) (generation : Generation)
    (state : IntentState) : UInt64 × IntentLedger :=
  l.updateLive (fun i => i.flow = flow && i.flowGeneration = generation) state id

/-- `IntentLedger::revoke_flow`. -/
def revokeFlow (l : IntentLedger) (flow : FlowId) (generation : Generation) :
    UInt64 × IntentLedger :=
  l.transitionFlowTerminal flow generation .revoked

/-- `IntentLedger::fence_other_generations`. -/
def fenceOtherGenerations (l : IntentLedger) (flow : FlowId) (keep : Generation) :
    UInt64 × IntentLedger :=
  l.updateLive (fun i => i.flow = flow && i.flowGeneration ≠ keep) .fenced markStale

/-- `IntentLedger::revoke_all`. -/
def revokeAll (l : IntentLedger) (state : IntentState) (reason : SuppressReason) :
    UInt64 × IntentLedger :=
  l.updateLive (fun _ => true) state (fun i => { i with suppressed := reason })

/-- `IntentLedger::revoke_stale_generation`. -/
def revokeStaleGeneration (l : IntentLedger) (flow : FlowId) (generation keep : Generation) :
    UInt64 × IntentLedger :=
  l.updateLive (fun i => i.flow = flow && i.flowGeneration = generation &&
    i.classificationGeneration ≠ keep) .revoked markStale

/-- `IntentLedger::expire`. -/
def expire (l : IntentLedger) (now : Tick) : UInt64 × IntentLedger :=
  l.updateLive (fun i => now ≥ i.window.endAt) .expired id

/-- `IntentLedger::for_flow`. -/
def forFlow (l : IntentLedger) (flow : FlowId) (generation : Generation) : List GovernanceIntent :=
  (l.intents.values.filter (fun i => i.flow = flow && i.flowGeneration = generation)).take
    kMaxIntentListPerFlow

/-- `IntentLedger::live_intents`. -/
def liveIntents (l : IntentLedger) : List GovernanceIntent :=
  l.intents.values.filter (fun i => isLive i.state)

/-- `IntentLedger::all_intents`, in ascending identifier order. -/
def allIntents (l : IntentLedger) : List GovernanceIntent := l.intents.values

/-- `IntentLedger::live_count`. -/
def liveCount (l : IntentLedger) : ℕ := l.intents.values.countP (fun i => isLive i.state)

/-! ## What a pass and a recording do to single intents -/

/-- The intent `i` stands under identifier `id` and is live. -/
def Live (l : IntentLedger) (id : IntentId) (i : GovernanceIntent) : Prop :=
  l.intents[id]? = some i ∧ isLive i.state = true

variable {l : IntentLedger} {select : GovernanceIntent → Bool} {state : IntentState}
  {update : GovernanceIntent → GovernanceIntent} {id : IntentId} {i : GovernanceIntent}
  {flow : FlowId} {generation : Generation}

/-- A pass that moves its selection to a dead state leaves live exactly the live intents it did
not select, each of them unchanged. -/
theorem live_updateLive (hdead : isLive state = false) :
    (l.updateLive select state update).2.Live id i ↔ l.Live id i ∧ select i = false := by
  unfold Live updateLive
  simp only [Std.ExtTreeMap.getElem?_map, Option.map_eq_some_iff]
  constructor
  · rintro ⟨⟨j, hj, hji⟩, hlive⟩
    by_cases hhit : hits select j = true
    · rw [if_pos hhit] at hji
      rw [← hji] at hlive
      simp [hdead] at hlive
    · rw [if_neg hhit] at hji
      subst hji
      refine ⟨⟨hj, hlive⟩, ?_⟩
      simpa [hits, hlive] using hhit
  · rintro ⟨⟨hi, hlive⟩, hsel⟩
    refine ⟨⟨i, hi, ?_⟩, hlive⟩
    rw [if_neg (by simp [hits, hsel])]

theorem live_transitionFlowTerminal (hdead : isLive state = false) :
    (l.transitionFlowTerminal flow generation state).2.Live id i ↔
      l.Live id i ∧ ¬ (i.flow = flow ∧ i.flowGeneration = generation) := by
  rw [transitionFlowTerminal, live_updateLive hdead]
  simp [not_and]

theorem live_revokeFlow :
    (l.revokeFlow flow generation).2.Live id i ↔
      l.Live id i ∧ ¬ (i.flow = flow ∧ i.flowGeneration = generation) :=
  live_transitionFlowTerminal rfl

theorem live_revokeAll {reason : SuppressReason} (hdead : isLive state = false) :
    ¬ (l.revokeAll state reason).2.Live id i := by
  rw [revokeAll, live_updateLive hdead]
  simp

theorem live_revokeStaleGeneration {keep : Generation} :
    (l.revokeStaleGeneration flow generation keep).2.Live id i ↔
      l.Live id i ∧
        (i.flow = flow ∧ i.flowGeneration = generation → i.classificationGeneration = keep) := by
  rw [revokeStaleGeneration, live_updateLive rfl]
  simp

theorem live_of_live_updateLive (hdead : isLive state = false)
    (h : (l.updateLive select state update).2.Live id i) : l.Live id i :=
  ((live_updateLive hdead).mp h).1

theorem lt_add_one_of_ne_max {n : UInt64} (h : n ≠ u64Max) : n < n + 1 := by
  have hmax : u64Max.toNat = 2 ^ 64 - 1 := by decide
  have hne : n.toNat ≠ 2 ^ 64 - 1 := fun heq => h (UInt64.toNat_inj.mp (heq.trans hmax.symm))
  have hlt := n.toNat_lt
  rw [UInt64.lt_iff_toNat_lt, UInt64.toNat_add, UInt64.toNat_one, Nat.mod_eq_of_lt (by omega)]
  omega

/-- There is room for a new attempt, and its identifier is its own, which is not in use, or the next
one; the counter that is left has counted it. -/
structure Admits (l : IntentLedger) (i : GovernanceIntent) (id nextId : IntentId) : Prop where
  room : l.intents.size < l.maxIntents ∧ l.attempts.size < l.maxAttempts
  counted : l.nextId.value ≤ nextId.value ∧ id.value ≤ nextId.value
  valid : id.valid = true
  own : i.id.valid = true → id = i.id ∧ id ∉ l.intents
  minted : i.id.valid = false → id.value = l.nextId.value + 1 ∧ l.nextId.value < id.value

/-- A new attempt is refused, or it is stored, sealed, under an identifier. -/
theorem recordNew_cases (l : IntentLedger) (i : GovernanceIntent) :
    (∃ (e : Status) (counters : IntentCounters), (e.code = .capacityExceeded ∨
        e.code = .overflow ∨ e.code = .alreadyExists) ∧
      l.recordNew i = (.error e, { l with counters := counters })) ∨
    ∃ id nextId, Admits l i id nextId ∧ l.recordNew i =
      (.ok ({ i with id := id } : GovernanceIntent).sealed, IntentLedger.emplace
        { l with nextId := nextId } ({ i with id := id } : GovernanceIntent).sealed) := by
  unfold recordNew
  by_cases hfull : l.intents.size ≥ l.maxIntents ∨ l.attempts.size ≥ l.maxAttempts
  · rw [if_pos hfull]
    exact .inl ⟨_, _, .inl rfl, rfl⟩
  rw [if_neg hfull]
  have hroom := (not_or.mp hfull).imp Nat.lt_of_not_le Nat.lt_of_not_le
  by_cases hvalid : i.id.valid = true
  · rw [if_neg (not_not_intro hvalid)]
    have hown : i.id.valid = false → ∀ {x : Prop}, x := fun hno => by rw [hvalid] at hno; cases hno
    by_cases hused : i.id ∈ l.intents
    · rw [if_pos hused]
      exact .inl ⟨_, l.counters, .inr (.inr rfl), rfl⟩
    rw [if_neg hused]
    by_cases hbeyond : i.id.value ≥ l.nextId.value
    · rw [if_pos hbeyond]
      by_cases hlast : i.id.value = u64Max
      · rw [if_pos hlast]
        exact .inl ⟨_, l.counters, .inr (.inl rfl), rfl⟩
      · rw [if_neg hlast]
        have hlt := UInt64.le_of_lt (lt_add_one_of_ne_max hlast)
        exact .inr ⟨i.id, _, ⟨hroom, ⟨UInt64.le_trans hbeyond hlt, hlt⟩, hvalid,
          fun _ => ⟨rfl, hused⟩, fun hno => hown hno⟩, rfl⟩
    · rw [if_neg hbeyond]
      have hlt := UInt64.le_of_lt (UInt64.not_le.mp hbeyond)
      exact .inr ⟨i.id, l.nextId, ⟨hroom, ⟨UInt64.le_refl _, hlt⟩, hvalid,
        fun _ => ⟨rfl, hused⟩, fun hno => hown hno⟩, rfl⟩
  · rw [if_pos hvalid]
    by_cases hlast : l.nextId.value = u64Max
    · rw [if_pos hlast]
      exact .inl ⟨_, l.counters, .inr (.inl rfl), rfl⟩
    · rw [if_neg hlast]
      have hlt := lt_add_one_of_ne_max hlast
      have hne : l.nextId.value + 1 ≠ 0 := by
        intro hzero
        rw [hzero] at hlt
        exact UInt64.not_lt_zero hlt
      exact .inr ⟨⟨l.nextId.value + 1⟩, _, ⟨hroom, ⟨UInt64.le_of_lt hlt, UInt64.le_refl _⟩,
        by simpa [StrongId.valid] using hne, fun hyes => absurd hyes hvalid, fun _ => ⟨rfl, hlt⟩⟩, rfl⟩

/-- A recording is refused, returns what is stored for its attempt, or stores a new attempt. -/
theorem record_cases (l : IntentLedger) (i : GovernanceIntent) :
    (∃ (e : Status) (counters : IntentCounters), e.code ≠ .stale ∧
      l.record i = (.error e, { l with counters := counters })) ∨
    (∃ (existing : IntentId) (stored : GovernanceIntent) (counters : IntentCounters),
      l.intents[existing]? = some stored ∧
      l.record i = (.ok stored, { l with counters := counters })) ∨
    ∃ id nextId, checkIntent i = .ok () ∧ l.attempts[i.attempt]? = none ∧ Admits l i id nextId ∧
      l.record i = (.ok ({ i with id := id } : GovernanceIntent).sealed, IntentLedger.emplace
        { l with nextId := nextId } ({ i with id := id } : GovernanceIntent).sealed) := by
  unfold record
  rcases hcheck : checkIntent i with e | ⟨⟩
  · refine .inl ⟨e, l.counters, ?_, rfl⟩
    unfold checkIntent makeStatus at hcheck
    split_ifs at hcheck
    all_goals
      cases hcheck
      decide
  rcases hattempt : l.attempts[i.attempt]? with _ | existing
  · rcases recordNew_cases l i with ⟨e, counters, hcode, heq⟩ | ⟨id, nextId, hadmits, heq⟩
    · refine .inl ⟨e, counters, fun hstale => ?_, heq⟩
      rw [hstale] at hcode
      simp at hcode
    · exact .inr (.inr ⟨id, nextId, rfl, rfl, hadmits, heq⟩)
  · simp only
    rcases hstored : l.intents[existing]? with _ | stored
    · exact .inl ⟨_, l.counters, by decide, rfl⟩
    · simp only
      unfold recordAgain
      split_ifs
      · exact .inr (.inl ⟨existing, stored, _, hstored, rfl⟩)
      · exact .inl ⟨_, _, by decide, rfl⟩

theorem record_keeps {L : IntentLedger → Prop} (hl : ∀ counters, L { l with counters := counters })
    (hnew : ∀ id nextId, checkIntent i = .ok () → l.attempts[i.attempt]? = none →
      Admits l i id nextId → L (IntentLedger.emplace { l with nextId := nextId }
        ({ i with id := id } : GovernanceIntent).sealed)) : L (l.record i).2 := by
  rcases record_cases l i with ⟨e, counters, -, heq⟩ | ⟨_, _, counters, -, heq⟩ |
    ⟨id, nextId, hcheck, hattempt, hadmits, heq⟩
  · rw [heq]
    exact hl counters
  · rw [heq]
    exact hl counters
  · rw [heq]
    exact hnew id nextId hcheck hattempt hadmits

/-- Recording leaves the intents alone or adds one sealed copy of the intent under a fresh
identifier. -/
theorem record_intents (l : IntentLedger) (i : GovernanceIntent) :
    (l.record i).2.intents = l.intents ∨
      ∃ id, (l.record i).2.intents =
        l.intents.insertIfNew id ({ i with id := id } : GovernanceIntent).sealed := by
  refine record_keeps (L := fun l' => l'.intents = l.intents ∨ ∃ id, l'.intents =
    l.intents.insertIfNew id ({ i with id := id } : GovernanceIntent).sealed) (fun _ => .inl rfl) ?_
  intro id nextId _ _ _
  exact .inr ⟨id, by rw [emplace_intents, GovernanceIntent.sealed_id]⟩

theorem live_of_live_record {j : GovernanceIntent} (h : (l.record i).2.Live id j) :
    l.Live id j ∨ j = ({ i with id := id } : GovernanceIntent).sealed := by
  obtain ⟨hj, hlive⟩ := h
  rcases record_intents l i with hsame | ⟨new, hnew⟩
  · rw [hsame] at hj
    exact .inl ⟨hj, hlive⟩
  · rw [hnew, Std.ExtTreeMap.getElem?_insertIfNew] at hj
    split_ifs at hj with hc
    · have hid : new = id := Std.LawfulEqOrd.eq_of_compare hc.1
      subst hid
      exact .inr (Option.some.inj hj).symm
    · exact .inl ⟨hj, hlive⟩

end IntentLedger

end EFG
