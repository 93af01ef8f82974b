/-
# The label of a narrowed envelope

`produce_intents` decides between `Authorized` and `Clamped` from the rate or the number of
targets that a request asks for, and makes the other requests only where their permission
is granted.  The duration is narrowed as well, to the shorter of the configured one and the
longest that the policy allows, but no label looks at it.  So the label of an authorized
intent is right exactly if the policy in force allows the configured duration
(`labels_right_iff`).
-/
import ElephantFlow.Envelope
import ElephantFlow.Trails

namespace EFG

open ByteCodec

/-! ## Narrowing -/

theorem ite_lt_eq_left_iff {a b : UInt32} : (if a < b then a else b) = a ↔ a ≤ b := by
  constructor
  · intro h
    rw [← h]
    exact ite_lt_le_right a b
  · intro h
    split_ifs with hlt
    · rfl
    · exact UInt32.le_antisymm (UInt32.not_lt.mp hlt) h

theorem minOf_eq_left_iff {a b : UInt64} : minOf a b = a ↔ a ≤ b := by
  constructor
  · intro h
    rw [← h]
    exact minOf_le_right a b
  · intro h
    unfold minOf
    split_ifs with hlt
    · rfl
    · exact UInt64.le_antisymm (UInt64.not_lt.mp hlt) h

theorem and_eq_left_iff {a b : Bool} : (a && b) = a ↔ (a = true → b = true) := by
  cases a <;> cases b <;> decide

/-- Narrowing changes nothing exactly if the request lies inside the ceiling. -/
theorem narrowBounds_eq_iff {requested ceiling : IntentBounds} :
    narrowBounds requested ceiling = requested ↔ requested.AtMost ceiling := by
  have hfields : narrowBounds requested ceiling = requested ↔
      (if requested.rateReductionBp < ceiling.rateReductionBp then requested.rateReductionBp
        else ceiling.rateReductionBp) = requested.rateReductionBp ∧
      minOf requested.durationTicks ceiling.durationTicks = requested.durationTicks ∧
      (if requested.targets < ceiling.targets then requested.targets else ceiling.targets) =
        requested.targets ∧
      (requested.placement && ceiling.placement) = requested.placement ∧
      (requested.isolation && ceiling.isolation) = requested.isolation ∧
      (requested.admissionReduction && ceiling.admissionReduction) =
        requested.admissionReduction ∧
      (requested.congestionEscalation && ceiling.congestionEscalation) =
        requested.congestionEscalation := by
    unfold narrowBounds
    cases requested
    rw [IntentBounds.mk.injEq]
  rw [hfields, ite_lt_eq_left_iff, minOf_eq_left_iff, ite_lt_eq_left_iff, and_eq_left_iff,
    and_eq_left_iff, and_eq_left_iff, and_eq_left_iff]
  constructor
  · rintro ⟨h₁, h₂, h₃, h₄, h₅, h₆, h₇⟩
    exact ⟨h₁, h₂, h₃, h₄, h₅, h₆, h₇⟩
  · rintro ⟨h₁, h₂, h₃, h₄, h₅, h₆, h₇⟩
    exact ⟨h₁, h₂, h₃, h₄, h₅, h₆, h₇⟩

namespace Governor

variable {g : Governor} {record : FlowRecord} {now : Tick} {c : FlowClassification} {id : IntentId}
  {i : GovernanceIntent} {p : PolicyDocument} {live : List GovernanceIntent} {r : IntentRequest}
  {kind : IntentKind} {requested : IntentBounds}

/-! ## Requests -/

/-- A request asks for the configured duration, and it is labelled as authorized only if
everything else that it asks for lies inside the ceiling. -/
structure LabelledButDuration (g : Governor) (r : IntentRequest) : Prop where
  duration : r.requested.durationTicks = g.config.intentDurationTicks
  state : r.state = .suppressed ∨ r.state = .clamped ∨ r.state = .authorized
  inside : r.state = .authorized →
    ({ r.requested with durationTicks := 0 } : IntentBounds).AtMost g.ceilingBounds

theorem labelled_of_permission (hduration : requested.durationTicks = g.config.intentDurationTicks)
    (hrate : requested.rateReductionBp = 0) (htargets : requested.targets = 0)
    (hplacement : requested.placement = true → g.ceilingBounds.placement = true)
    (hisolation : requested.isolation = true → g.ceilingBounds.isolation = true)
    (hadmission : requested.admissionReduction = true → g.ceilingBounds.admissionReduction = true)
    (hescalation : requested.congestionEscalation = true → g.ceilingBounds.congestionEscalation =
      true) :
    LabelledButDuration g { kind := kind, requested := requested } := by
  refine ⟨hduration, .inr (.inr rfl), fun _ => ⟨?_, ?_, ?_, hplacement, hisolation, hadmission,
    hescalation⟩⟩
  · show requested.rateReductionBp ≤ _
    rw [hrate, UInt32.le_iff_toNat_le]
    exact Nat.zero_le _
  · rw [UInt64.le_iff_toNat_le]
    exact Nat.zero_le _
  · show requested.targets ≤ _
    rw [htargets, UInt32.le_iff_toNat_le]
    exact Nat.zero_le _

/-- A request is labelled as clamped where a number that it asks for is above the ceiling. -/
theorem labelled_of_ite {inside : Prop} [Decidable inside]
    (hduration : requested.durationTicks = g.config.intentDurationTicks)
    (hinside : inside → ({ requested with durationTicks := 0 } : IntentBounds).AtMost g.ceilingBounds) :
    LabelledButDuration g
      { kind := kind, requested := requested, state := if inside then .authorized else .clamped } := by
  by_cases h : inside
  · rw [if_pos h]
    exact ⟨hduration, .inr (.inr rfl), fun _ => hinside h⟩
  · rw [if_neg h]
    exact ⟨hduration, .inr (.inl rfl), fun hstate => by cases hstate⟩

theorem labelled_of_suppressed {reason : SuppressReason}
    (hduration : requested.durationTicks = g.config.intentDurationTicks) :
    LabelledButDuration g
      { kind := kind, requested := requested, state := .suppressed, suppressed := reason } :=
  ⟨hduration, .inl rfl, fun hstate => by cases hstate⟩

theorem labelled_of_mem_correctiveRequests (hp : g.policy = some p)
    (hr : r ∈ g.correctiveRequests p.authorization c live now) : LabelledButDuration g r := by
  have hno : ∀ {P : Prop}, false = true → P := fun h => by cases h
  have hzero : ∀ b : IntentBounds, IntentBounds.AtMost {} b := atMost_default
  have hplacement : g.ceilingBounds.placement = p.authorization.allowAlternatePlacement := by
    rw [ceilingBounds, hp]
  have hisolation : g.ceilingBounds.isolation = p.authorization.allowSchedulingIsolation := by
    rw [ceilingBounds, hp]
  have hadmission : g.ceilingBounds.admissionReduction =
      p.authorization.allowCompetingAdmissionReduction := by
    rw [ceilingBounds, hp]
  have hescalation : g.ceilingBounds.congestionEscalation =
      p.authorization.allowCongestionEscalation := by
    rw [ceilingBounds, hp]
  unfold correctiveRequests at hr
  simp only [List.mem_append, mem_requestWhen, Bool.and_eq_true] at hr
  -- the requests in the order of the source: shaping, placement, admission, isolation, escalation
  rcases hr with (((⟨hb, rfl⟩ | ⟨hb, rfl⟩) | ⟨hb, rfl⟩) | ⟨hb, rfl⟩) | ⟨hb, rfl⟩
  · exact labelled_of_ite rfl fun hrate =>
      ⟨hrate, (hzero _).durationTicks, (hzero _).targets, hno, hno, hno, hno⟩
  · exact labelled_of_permission rfl rfl rfl (fun _ => hplacement.trans hb.1.1.1) hno hno hno
  · exact labelled_of_ite rfl fun htargets =>
      ⟨(hzero _).rateReductionBp, (hzero _).durationTicks, htargets, hno, hno,
        fun _ => hadmission.trans hb.1.1.1, hno⟩
  · exact labelled_of_permission rfl rfl rfl hno (fun _ => hisolation.trans hb.1.1.1.1) hno hno
  · exact labelled_of_permission rfl rfl rfl hno hno hno (fun _ => hescalation.trans hb.1.1)

theorem labelled_of_mem_intentRequests (hp : g.policy = some p)
    (hr : r ∈ g.intentRequests p.authorization c live now) : LabelledButDuration g r := by
  have hno : ∀ {P : Prop}, false = true → P := fun h => by cases h
  unfold intentRequests at hr
  rcases List.mem_append.mp hr with hr | hr
  · obtain ⟨-, rfl⟩ := mem_requestWhen.mp hr
    exact labelled_of_permission rfl rfl rfl hno hno hno hno
  split_ifs at hr
  · unfold governRequests at hr
    simp only at hr
    split_ifs at hr
    · obtain ⟨-, rfl⟩ := mem_requestWhen.mp hr
      exact labelled_of_suppressed rfl
    · rw [List.mem_singleton.mp hr]
      exact labelled_of_suppressed rfl
    · exact labelled_of_mem_correctiveRequests hp hr
    · obtain ⟨-, rfl⟩ := mem_requestWhen.mp hr
      exact labelled_of_suppressed rfl
  · cases hr

/-! ## Emitted intents -/

/-- The configured duration of intents is one that the policy in force allows. -/
def DurationAllowed (g : Governor) : Prop :=
  ∀ p, g.policy = some p → g.config.intentDurationTicks ≤ p.authorization.maxIntentDurationTicks

/-- An intent that an evaluation emits: a new entry of the ledger, or a reported intent that
continues no entry. -/
inductive Emits (g : Governor) (record : FlowRecord) (now : Tick) (i : GovernanceIntent) : Prop where
  | stored (id : IntentId) (hnew : id ∉ g.intents.intents)
      (hstored : (g.evaluate record now).2.1.intents.intents[id]? = some i)
  | reported (d : FlowDecision) (hok : (g.evaluate record now).1 = .ok d) (hi : i ∈ d.intents)
      (hnew : ¬ ∃ id, g.intents.Stems id i)

/-- An authorized intent is granted what it requests, and an intent that is not suppressed and is
granted something else is clamped. -/
def LabelRight (i : GovernanceIntent) : Prop :=
  (i.state = .authorized → i.granted = i.requested) ∧
    (i.state ≠ .suppressed → i.granted ≠ i.requested → i.state = .clamped)

theorem Emits.cases (h : g.Emits record now i) :
    (∃ id, g.IssuedFor record now id i) ∨ i.state = .suppressed := by
  cases h with
  | stored id hnew hstored =>
    rcases stored_of_stored_evaluate hstored with hold | hissued
    · exact absurd hold.mem hnew
    · exact .inl ⟨id, hissued⟩
  | reported d hok hi hnew =>
    rcases reported_evaluate_cases hok hi with hold | hissued | ⟨hstate, -⟩
    · exact absurd hold hnew
    · exact .inl hissued
    · exact .inr hstate

theorem LabelledButDuration.granted_iff (h : g.LabelledButDuration r) (hp : g.policy = some p)
    (hstate : r.state = .authorized) :
    narrowBounds r.requested g.ceilingBounds = r.requested ↔
      g.config.intentDurationTicks ≤ p.authorization.maxIntentDurationTicks := by
  have hceiling : g.ceilingBounds.durationTicks =
      minOf g.config.intentDurationTicks p.authorization.maxIntentDurationTicks := by
    rw [ceilingBounds, hp]
  have hinside := h.inside hstate
  rw [narrowBounds_eq_iff]
  constructor
  · intro hmost
    have hduration := hmost.durationTicks
    rw [h.duration, hceiling] at hduration
    exact UInt64.le_trans hduration (minOf_le_right _ _)
  · intro hallowed
    refine ⟨hinside.rateReductionBp, ?_, hinside.targets, hinside.placement, hinside.isolation,
      hinside.admissionReduction, hinside.congestionEscalation⟩
    rw [h.duration, hceiling, minOf_eq_left_iff.mpr hallowed]
    exact UInt64.le_refl _

/-- An issued intent is authorized, clamped or suppressed, and an authorized one is granted what it
requests exactly if the configured duration is allowed. -/
theorem IssuedFor.label (h : g.IssuedFor record now id i) :
    (i.state = .suppressed ∨ i.state = .clamped ∨ i.state = .authorized) ∧
      (i.state = .authorized → (i.granted = i.requested ↔ g.DurationAllowed)) := by
  obtain ⟨p, c, history, live, hp, -, -, -, -, r, hr, intent, hintent, heq⟩ := h
  have hlabelled := labelled_of_mem_intentRequests hp hr
  have hstate : i.state = r.state := by
    rw [heq, GovernanceIntent.sealed_state, hintent]
    rfl
  have hrequested : i.requested = r.requested := by
    rw [heq, GovernanceIntent.sealed_requested, hintent]
    rfl
  have hgranted : i.granted =
      if r.state = .suppressed then {} else narrowBounds r.requested g.ceilingBounds := by
    rw [heq, GovernanceIntent.sealed_granted, hintent]
    rfl
  refine ⟨hstate ▸ hlabelled.state, fun hauthorized => ?_⟩
  have hr' : r.state = .authorized := hstate.symm.trans hauthorized
  have hne : r.state ≠ .suppressed := by
    rw [hr']
    decide
  rw [hgranted, hrequested, if_neg hne, hlabelled.granted_iff hp hr']
  constructor
  · intro hle q hq
    rw [hp] at hq
    exact Option.some.inj hq ▸ hle
  · intro hallowed
    exact hallowed p hp

/-- Where the policy in force allows the configured duration, every emitted intent is labelled
right.  Where it does not, every emitted authorized intent is labelled wrong. -/
theorem labels_of_evaluate (g : Governor) (record : FlowRecord) (now : Tick) :
    (g.DurationAllowed → ∀ i, g.Emits record now i → LabelRight i) ∧
      ∀ i, g.Emits record now i → i.state = .authorized → (LabelRight i ↔ g.DurationAllowed) := by
  have hlabel : ∀ i, g.Emits record now i →
      (i.state = .suppressed ∨ i.state = .clamped ∨ i.state = .authorized) ∧
        (i.state = .authorized → (i.granted = i.requested ↔ g.DurationAllowed)) := by
    intro i hi
    rcases hi.cases with ⟨id, hissued⟩ | hstate
    · exact hissued.label
    · refine ⟨.inl hstate, fun hauthorized => ?_⟩
      rw [hstate] at hauthorized
      cases hauthorized
  have hright : g.DurationAllowed → ∀ i, g.Emits record now i → LabelRight i := by
    intro hallowed i hi
    obtain ⟨hstate, hgranted⟩ := hlabel i hi
    refine ⟨fun hauthorized => (hgranted hauthorized).mpr hallowed, fun hne hnarrowed => ?_⟩
    rcases hstate with hsuppressed | hclamped | hauthorized
    · exact absurd hsuppressed hne
    · exact hclamped
    · exact absurd ((hgranted hauthorized).mpr hallowed) hnarrowed
  refine ⟨hright, fun i hi hauthorized => ?_⟩
  constructor
  · intro hlabelled
    exact ((hlabel i hi).2 hauthorized).mp (hlabelled.1 hauthorized)
  · intro hallowed
    exact hright hallowed i hi

/-- An evaluation is made under a policy that allows the configured duration. -/
def Event.Allows (g : Governor) : Event → Prop
  | .evaluate _ _ _ => g.DurationAllowed
  | _ => True

/-- **When narrowing is labelled.**  The label of an authorized intent that an evaluation emits is right
exactly if the policy in force allows the configured duration, and where it does, so are all other
labels.  So in a run whose evaluations all meet the condition every emitted intent is labelled
right. -/
theorem labels_right_iff (config : GovernorConfig) :
    (∀ (g : Governor) (record : FlowRecord) (now : Tick),
      (g.DurationAllowed → ∀ i, g.Emits record now i → LabelRight i) ∧
        ∀ i, g.Emits record now i → i.state = .authorized → (LabelRight i ↔ g.DurationAllowed)) ∧
    (∀ g : Governor, ReachableUnder (Command.MadeOf Event.Allows) config g →
      ∃ ss, Trail Event.Allows config ss g) ∧
    ∀ (ss : List Step) (g : Governor), Trail Event.Allows config ss g →
      ∀ t ∈ ss, ∀ (key : FlowKey) (record : FlowRecord) (now : Tick) (i : GovernanceIntent),
        t.event = .evaluate key record now → t.before.Emits record now i → LabelRight i := by
  refine ⟨labels_of_evaluate, fun g h => h.trail_of_madeOf, fun ss g htrail => ?_⟩
  induction htrail with
  | start =>
    intro t ht
    cases ht
  | step _ hallows _ ih =>
    refine List.forall_mem_cons.mpr ⟨?_, ih⟩
    rintro key record now i rfl hi
    exact (labels_of_evaluate _ record now).1 hallows i hi

/-! ## A policy with a short duration -/

namespace Scenario

/-- The policy of the small run, with durations of at most 100 ticks. -/
def tersePolicy : PolicyDocument :=
  { policy with authorization := { policy.authorization with maxIntentDurationTicks := 100 } }

/-- The state before the evaluation of the sample. -/
def terse : Governor :=
  ((make {}).setIncarnation boot).run
    [.submitPolicy tersePolicy, .submitCapacity capacity, .submitPath path]

theorem reachable_terse : Reachable {} terse := by
  refine reachable_incarnation.run ?_
  simp [Admits]

end Scenario

open Scenario

/-- In the steady run the duration is allowed, and the second window emits an intent. -/
theorem labels_right_steady : ∃ i, (steadyNext 1).1.Emits (steadyNext 1).2 20 i ∧
    i.state = .authorized ∧ LabelRight i := by
  have hduration : ∀ n < 4, ∀ p ∈ (steadyNext n).1.policy,
      (steadyNext n).1.config.intentDurationTicks ≤ p.authorization.maxIntentDurationTicks := by
    decide +kernel
  obtain ⟨ss, htrail⟩ := trail_steady Event.Allows (fun _ => trivial) (fun _ => trivial)
    (fun _ => trivial) (fun _ _ => trivial) hduration (n := 1) (by decide)
  obtain ⟨hevidence, hr⟩ := move_steadyNext (n := 1) (by decide)
  have htaken : Trail Event.Allows {} _ (steadyNext 1).1 :=
    htrail.step (by trivial) hevidence
  have hdecided := htaken.step (by exact hduration 1 (by decide)) (move_decided hr 20).1
  obtain ⟨i, hi, hstate⟩ : ∃ i, ((steadyNext 1).1.evaluate (steadyNext 1).2 20).2.1.intents.intents[
    (⟨1⟩ : IntentId)]? = some i ∧ i.state = .authorized := by decide +kernel
  have hemits : (steadyNext 1).1.Emits (steadyNext 1).2 20 i :=
    .stored ⟨1⟩ (by decide +kernel) hi
  exact ⟨i, hemits, hstate,
    (labels_right_iff {}).2.2 _ _ hdecided _ List.mem_cons_self _ _ _ i rfl hemits⟩

/-- Under the short policy the first window of a flow yields an intent that is labelled as authorized
and is granted a fifth of the requested duration. -/
theorem narrowed_and_authorized : Reachable {} terse ∧
    ∃ i : GovernanceIntent,
      (terse.exec (.submitEvidence sample)).intents.intents[(⟨1⟩ : IntentId)]? =
        some i ∧
      (⟨1⟩ : IntentId) ∉ terse.intents.intents ∧ i.state = .authorized ∧
      i.requested.durationTicks = 500 ∧ i.granted.durationTicks = 100 ∧ ¬ LabelRight i := by
  obtain ⟨i, hi, hnew, hstate, hrequested, hgranted⟩ : ∃ i,
      (terse.exec (.submitEvidence sample)).intents.intents[(⟨1⟩ : IntentId)]? = some i ∧
      (⟨1⟩ : IntentId) ∉ terse.intents.intents ∧ i.state = .authorized ∧
      i.requested.durationTicks = 500 ∧ i.granted.durationTicks = 100 := by decide +kernel
  refine ⟨reachable_terse, i, hi, hnew, hstate, hrequested, hgranted, fun hlabel => ?_⟩
  have heq := congrArg IntentBounds.durationTicks (hlabel.1 hstate)
  rw [hrequested, hgranted] at heq
  cases heq

end Governor

end EFG
