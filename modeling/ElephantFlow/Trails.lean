/-
# Trails, and how a suspension is left

Some laws speak of what happened since a record came into its state.  A `Trail` keeps
the moves of a run, the latest first, so that such a law is a statement about a list;
`ReachableUnder.trail` gives every run its trail.  The first law of this kind is that
only evidence accepted during a suspension ends it (`suspension_left_by_evidence`).
-/
import ElephantFlow.RecordChanges
import ElephantFlow.Recording

namespace EFG

open ByteCodec

namespace Governor

variable {g₀ g g' : Governor} {key : FlowKey} {r r' : FlowRecord} {now : Tick} {e : Event}
  {config : GovernorConfig} {cond : Governor → Event → Prop} {n : ℕ}

/-! ## Trails -/

/-- One move of a run. -/
structure Step where
  before : Governor
  event : Event
  after : Governor

/-- The moves that lead from one state to another, the latest first. -/
inductive Stretch (cond : Governor → Event → Prop) (g₀ : Governor) : List Step → Governor → Prop
  | start : Stretch cond g₀ [] g₀
  | step {ss : List Step} {g g' : Governor} {e : Event} (stretch : Stretch cond g₀ ss g)
      (hcond : cond g e) (hmove : Move g e g') : Stretch cond g₀ (⟨g, e, g'⟩ :: ss) g'

/-- The moves that lead from the fresh governor to a state. -/
abbrev Trail (cond : Governor → Event → Prop) (config : GovernorConfig) :
    List Step → Governor → Prop :=
  Stretch cond (make config)

/-- More moves make a longer stretch. -/
theorem Stretch.performs {ss : List Step} (h : Stretch cond g₀ ss g) (hmoves : Performs cond g g') :
    ∃ ss', Stretch cond g₀ (ss' ++ ss) g' := by
  induction hmoves with
  | refl => exact ⟨[], h⟩
  | tail _ hlast ih =>
    obtain ⟨ss', hstretch⟩ := ih
    obtain ⟨e, hcond, hmove⟩ := hlast
    exact ⟨_ :: ss', hstretch.step hcond hmove⟩

/-- Every run whose operations consist of moves under the condition has a trail. -/
theorem ReachableUnder.trail {allowed : Governor → Command → Prop}
    (hexec : ∀ (g : Governor) (cmd : Command), Reachable config g → g.Admits cmd → allowed g cmd →
      Performs cond g (g.exec cmd))
    (h : ReachableUnder allowed config g) : ∃ ss, Trail cond config ss g := by
  refine h.invariant (P := fun g => ∃ ss, Trail cond config ss g) ⟨[], .start⟩ ?_
  rintro g cmd hreach ⟨ss, htrail⟩ hadmits hallowed
  obtain ⟨ss', hlonger⟩ := htrail.performs (hexec g cmd hreach hadmits hallowed)
  exact ⟨_, hlonger⟩

/-- The operation is made of moves under the condition. -/
def Command.MadeOf (cond : Governor → Event → Prop) (g : Governor) (cmd : Command) : Prop :=
  Performs cond g (g.exec cmd)

/-- A run of operations that are made of moves under the condition has a trail under it. -/
theorem ReachableUnder.trail_of_madeOf (h : ReachableUnder (Command.MadeOf cond) config g) :
    ∃ ss, Trail cond config ss g :=
  h.trail fun _ _ _ _ hmade => hmade

theorem Meets.performs {cmds : List Command} (h : Meets (Command.MadeOf cond) g cmds) :
    Performs cond g (g.run cmds) := by
  induction cmds generalizing g with
  | nil => exact .refl
  | cons cmd cmds ih => exact h.2.1.trans (ih h.2.2)

/-- A list of such operations makes a stretch from where it starts. -/
theorem Meets.stretch {cmds : List Command} (h : Meets (Command.MadeOf cond) g cmds) :
    ∃ ss, Stretch cond g ss (g.run cmds) := by
  obtain ⟨ss, hstretch⟩ := Stretch.start.performs h.performs
  exact ⟨_, hstretch⟩

/-- Every run has a trail. -/
theorem Reachable.trail (h : Reachable config g) : ∃ ss, Trail (fun _ _ => True) config ss g := by
  obtain ⟨ss, htrail⟩ := Stretch.start.performs h.moves
  exact ⟨_, htrail⟩

/-- The ledger of a flow takes a window. -/
def taken (x : Governor × FlowRecord) (s : FlowSample) : Governor × FlowRecord :=
  let r := { x.2 with ledger := (x.2.ledger.append s).2 }
  (x.1.setFlow (sampleKey s) r, r)

/-- A flow is evaluated. -/
def decided (key : FlowKey) (x : Governor × FlowRecord) (now : Tick) : Governor × FlowRecord :=
  ((x.1.evaluateFlow key x.2 now).2, (x.1.evaluate x.2 now).2.2)

theorem move_taken {x : Governor × FlowRecord} {s : FlowSample}
    (hr : x.1.flows[sampleKey s]? = some x.2) (hvalid : s.validate = .ok ()) :
    Move x.1 (.evidence (sampleKey s) x.2 s) (taken x s).1 ∧
      (taken x s).1.flows[sampleKey s]? = some (taken x s).2 := by
  refine ⟨.evidence _ _ s hr hvalid, ?_⟩
  unfold taken
  rw [getElem?_setFlow, if_pos rfl]

theorem move_decided {x : Governor × FlowRecord} (hr : x.1.flows[key]? = some x.2) (now : Tick) :
    Move x.1 (.evaluate key x.2 now) (decided key x now).1 ∧
      (decided key x now).1.flows[key]? = some (decided key x now).2 :=
  ⟨.evaluate _ _ _ now hr, (getElem?_evaluateFlow x.1 key key x.2 now).trans (if_pos rfl)⟩

/-! ## New evidence -/

/-- The record is classified as Suspended. -/
def Resting (r : FlowRecord) : Prop :=
  r.hasClassification = true ∧ r.classification.state = .suspended

instance (r : FlowRecord) : Decidable (Resting r) := inferInstanceAs (Decidable (_ ∧ _))

theorem isElephant_iff : r.isElephant = true ↔ previousState r = .elephant := by
  unfold FlowRecord.isElephant previousState
  cases r.hasClassification with
  | false => simp
  | true => simp

theorem newEvidence_congr (hlatest : r'.ledger.latest = r.ledger.latest)
    (hwindow : r'.evaluatedWindow = r.evaluatedWindow) : newEvidence r' = newEvidence r := by
  unfold newEvidence
  rw [hlatest, hwindow]

theorem accepted_of_newEvidence {s : FlowSample} (hold : newEvidence r = false)
    (hnew : newEvidence { r with ledger := (r.ledger.append s).2 } = true) :
    (r.ledger.append s).1 = .ok .accepted := by
  rcases FlowLedger.append_cases r.ledger s with (⟨e, h⟩ | h) | ⟨-, -, e, h⟩ | ⟨-, -, h⟩
  · rw [h] at hnew
    rw [show newEvidence { r with ledger := r.ledger } = newEvidence r from rfl, hold] at hnew
    cases hnew
  · rw [h] at hnew
    rw [show newEvidence { r with ledger := r.ledger } = newEvidence r from rfl, hold] at hnew
    cases hnew
  · -- an oversized sample may empty the ledger, which leaves nothing new
    rw [h] at hnew
    unfold FlowLedger.restartEpoch at hnew
    split_ifs at hnew
    · cases hnew
    · rw [show newEvidence { r with ledger := r.ledger } = newEvidence r from rfl, hold] at hnew
      cases hnew
  · rw [h]

/-- The record after an evaluation that committed a decision: the decision is the verdict, and the
latest window counts as evaluated. -/
structure Settled (g : Governor) (r : FlowRecord) (now : Tick) (r' : FlowRecord) : Prop where
  ledger : r'.ledger = r.ledger
  classified : r'.hasClassification = true
  state : r'.classification.state = (g.verdict r now).state
  enterStreak : r'.enterStreak = (g.verdict r now).enterStreak
  exitStreak : r'.exitStreak = (g.verdict r now).exitStreak
  evaluated : newEvidence r' = false

theorem Commits.settled {c : FlowClassification} {h : ClassificationHistory}
    (hc : g.Commits r now c h) :
    Settled g r now (rebound (committedRecord r (stamped c h) h now)) where
  ledger := by rw [rebound_ledger]; rfl
  classified := by rw [rebound_hasClassification]; rfl
  state := by rw [rebound_classification]; exact hc.state
  enterStreak := by rw [rebound_enterStreak]; exact hc.enterStreak
  exitStreak := by rw [rebound_exitStreak]; exact hc.exitStreak
  evaluated := by
    rw [newEvidence_congr (r := committedRecord r (stamped c h) h now) (by simp) (by simp)]
    unfold newEvidence committedRecord
    simp only
    rcases r.ledger.latest with _ | s
    · rfl
    · simp

theorem evaluate_record (g : Governor) (r : FlowRecord) (now : Tick) :
    (∃ t, (g.evaluate r now).2.2 = { r with evaluatedTick := t }) ∨
      Settled g r now (g.evaluate r now).2.2 := by
  rcases evaluate_cases g r now with ⟨_, _, _, heq⟩ | ⟨-, -, heq⟩ | ⟨c, h, hc, heq⟩
  · rw [heq]
    exact .inl ⟨r.evaluatedTick, rfl⟩
  · rw [heq]
    exact .inl ⟨now, rfl⟩
  · rw [heq, commit_snd_snd]
    exact .inr hc.settled

/-! ## Suspensions -/

/-- In the state the record of the key is suspended. -/
def RestsIn (key : FlowKey) (g : Governor) : Prop :=
  ∃ r : FlowRecord, g.flows[key]? = some r ∧ Resting r

/-- The step is the acceptance of a sample by the ledger of the key. -/
def Step.Accepts (key : FlowKey) (t : Step) : Prop :=
  ∃ r s, t.event = .evidence key r s ∧ (r.ledger.append s).1 = .ok .accepted

/-- A sample was accepted, and from then on the record was suspended. -/
def Renewed (key : FlowKey) (ss : List Step) : Prop :=
  ∃ recent t older, ss = recent ++ t :: older ∧ t.Accepts key ∧
    ∀ u ∈ recent ++ [t], RestsIn key u.before

theorem Renewed.cons {ss : List Step} {u : Step} (h : Renewed key ss) (hu : RestsIn key u.before) :
    Renewed key (u :: ss) := by
  obtain ⟨recent, t, older, rfl, haccepts, hrests⟩ := h
  refine ⟨u :: recent, t, older, rfl, haccepts, ?_⟩
  rw [List.cons_append, List.forall_mem_cons]
  exact ⟨hu, hrests⟩

/-- No record is suspended with evidence pending from before: a new policy finds no Elephant with new
evidence, and a restore, made where nothing is suspended, brings back no record with any. -/
def Event.Rests (g : Governor) : Event → Prop
  | .invalidate _ => ∀ (key : FlowKey) (r : FlowRecord), g.flows[key]? = some r →
      r.isElephant = true → newEvidence r = false
  | .restore bytes now => (∀ (key : FlowKey) (r : FlowRecord), g.flows[key]? = some r → ¬ Resting r) ∧
      ∀ (key : FlowKey) (r : FlowRecord),
        (g.deserialize bytes now).2.flows[key]? = some r → newEvidence r = false
  | _ => True

/-- The same condition on operations. -/
def Command.Rests (g : Governor) : Command → Prop
  | .submitPolicy _ => ∀ (key : FlowKey) (r : FlowRecord), g.flows[key]? = some r →
      r.isElephant = true → newEvidence r = false
  | .deserialize bytes now => Event.Rests g (.restore bytes now)
  | _ => True

/-- An operation that meets the condition is made of moves that meet it. -/
theorem exec_rests {cmd : Command} (hreach : Reachable config g) (hadmits : g.Admits cmd)
    (hrests : Command.Rests g cmd) : Performs Event.Rests g (g.exec cmd) := by
  have hplain : ∀ (x : Governor) (e : Event), e.Plain → Event.Rests x e := by
    intro x e he
    cases e with
    | invalidate => exact he.elim
    | restore => exact he.elim
    | _ => exact trivial
  refine exec_performs_of hplain ?_ ?_ ?_ ?_ hreach.bounded.flows hadmits
  · rintro p rfl
    refine moves_submitPolicy hplain (fun _ => trivial) fun x _ hflows key r hr => ?_
    rw [hflows] at hr
    exact hrests key r hr
  · intro s _ x r
    exact trivial
  · intro s _ _
    exact ⟨fun _ _ _ _ => trivial, fun _ _ _ => trivial⟩
  · rintro bytes now rfl
    exact hrests

theorem Trail.renewed {ss : List Step} (h : Trail Event.Rests config ss g) :
    ∀ (key : FlowKey) (r : FlowRecord), g.flows[key]? = some r → Resting r →
      newEvidence r = true → Renewed key ss := by
  induction h with
  | start =>
    intro key r hr
    exact of_getElem?_empty hr
  | @step ss g g' e _ hcond hmove ih =>
    intro key r' hr' hrests hnew
    -- the record was suspended with new evidence before the move
    have hearlier : ∀ r : FlowRecord, g.flows[key]? = some r → Resting r → newEvidence r = true →
        Renewed key (⟨g, e, g'⟩ :: ss) :=
      fun r hr hrests hnew => (ih key r hr hrests hnew).cons ⟨r, hr, hrests⟩
    cases hmove.becomes hr' with
    | same _ _ hr => exact hearlier r' hr hrests hnew
    | fresh => cases hrests.1
    | appended r s hr =>
      by_cases hold : newEvidence r = true
      · exact hearlier r hr hrests hold
      · have haccepted := accepted_of_newEvidence (Bool.not_eq_true _ ▸ hold) hnew
        refine ⟨[], _, ss, rfl, ⟨r, s, rfl, haccepted⟩, fun u hu => ?_⟩
        rw [List.mem_singleton.mp hu]
        exact ⟨r, hr, hrests⟩
    | completed r ledger atTick hr hledger =>
      refine hearlier r hr hrests ?_
      rw [← hnew]
      rw [FlowLedger.markCompleted_eq_ok hledger]
      exact (newEvidence_congr rfl rfl).symm
    | evaluated r now hr =>
      rcases evaluate_record g r now with ⟨t, heq⟩ | hsettled
      · rw [heq] at hrests hnew
        exact hearlier r hr hrests hnew
      · rw [hsettled.evaluated] at hnew
        cases hnew
    | cleared r now hr => exact hearlier r hr hrests hnew
    | withdrawn r h now hr hel =>
      rw [newEvidence_congr (r := r) (by simp [suspendedRecord]) (by simp [suspendedRecord]),
        hcond key r hr hel] at hnew
      cases hnew
    | restored _ bytes now hok hr =>
      rw [hcond.2 key r' hr] at hnew
      cases hnew

theorem newEvidence_of_verdict (hrests : Resting r) (hrun : r.ledger.completed = false)
    (hleft : (g.verdict r now).state ≠ .suspended) : newEvidence r = true := by
  have hprevious : previousState r = .suspended := by
    unfold previousState
    rw [if_pos hrests.1]
    exact hrests.2
  rcases verdict_cases g r now with ⟨hdone, -⟩ | ⟨-, -, heq⟩ | ⟨-, -, -, p, -, heq⟩
  · rw [hrun] at hdone
    cases hdone
  · rw [heq, hrests.1, hprevious] at hleft
    exact absurd rfl hleft
  · by_contra hnew
    rw [heq] at hleft
    unfold hysteresis at hleft
    simp only [hprevious, hnew] at hleft
    exact absurd rfl hleft

theorem Becomes.left_suspended (h : Becomes g key e r') (hcond : Event.Rests g e)
    (hr : g.flows[key]? = some r) (hrests : Resting r) (hleft : ¬ Resting r') :
    (∃ now, e = .evaluate key r now) ∧
      ((r.ledger.completed = true ∧ r'.classification.state = .notElephant) ∨ newEvidence r = true) := by
  have hsame : ∀ {x : FlowRecord}, g.flows[key]? = some x → x = r := by
    intro x hx
    rw [hr] at hx
    exact (Option.some.inj hx).symm
  cases h with
  | same _ _ hx =>
    rw [hsame hx] at hleft
    exact absurd hrests hleft
  | fresh hnew =>
    rw [hr] at hnew
    cases hnew
  | appended x s hx =>
    obtain rfl := hsame hx
    exact absurd hrests hleft
  | completed x ledger atTick hx =>
    obtain rfl := hsame hx
    exact absurd hrests hleft
  | evaluated x now hx =>
    obtain rfl := hsame hx
    refine ⟨⟨now, rfl⟩, ?_⟩
    rcases evaluate_record g x now with ⟨t, heq⟩ | hsettled
    · rw [heq] at hleft
      exact absurd hrests hleft
    · have hverdict : (g.verdict x now).state ≠ .suspended := by
        intro hsuspended
        exact hleft ⟨hsettled.classified, hsettled.state.trans hsuspended⟩
      by_cases hdone : x.ledger.completed = true
      · refine .inl ⟨hdone, ?_⟩
        rw [hsettled.state]
        unfold verdict
        rw [if_pos hdone]
      · rw [Bool.not_eq_true] at hdone
        exact .inr (newEvidence_of_verdict hrests hdone hverdict)
  | cleared x now hx =>
    obtain rfl := hsame hx
    exact absurd hrests hleft
  | withdrawn x hist now hx hel =>
    obtain rfl := hsame hx
    rw [FlowRecord.isElephant, hrests.2] at hel
    simp at hel
  | restored _ bytes now => exact absurd hrests (hcond.1 key r hr)

/-- Every operation under the condition is made of moves under it, and along such moves a record
leaves Suspended by completion, or in an evaluation before which a sample was accepted, with the
record suspended from then on. -/
theorem suspension_left_by_evidence (config : GovernorConfig) :
    (∀ (g : Governor) (cmd : Command), Reachable config g → g.Admits cmd → Command.Rests g cmd →
      Performs Event.Rests g (g.exec cmd)) ∧
    ∀ (ss : List Step) (g g' : Governor) (e : Event) (key : FlowKey) (r r' : FlowRecord),
      Trail Event.Rests config ss g → Event.Rests g e → Move g e g' →
      g.flows[key]? = some r → Resting r → g'.flows[key]? = some r' → ¬ Resting r' →
      (∃ now, e = .evaluate key r now) ∧
        ((r.ledger.completed = true ∧ r'.classification.state = .notElephant) ∨
          ∃ recent t older, ss = recent ++ t :: older ∧ t.Accepts key ∧
            ∀ u ∈ recent ++ [t], RestsIn key u.before) := by
  refine ⟨fun g cmd hreach hadmits hrests => exec_rests hreach hadmits hrests, ?_⟩
  intro ss g g' e key r r' htrail hcond hmove hr hrests hr' hleft
  obtain ⟨hevaluated, hdone | hnew⟩ := (hmove.becomes hr').left_suspended hcond hr hrests hleft
  · exact ⟨hevaluated, .inl hdone⟩
  · exact ⟨hevaluated, .inr (htrail.renewed key r hr hrests hnew)⟩

namespace Scenario

/-- The second window, whose decision tick is 15. -/
def nextSample : FlowSample := window 2 ⟨10, 15⟩

/-- The second generation of the policy. -/
def nextPolicy : PolicyDocument := { policy with generation := ⟨2⟩, digest := 2 }

/-- The second window arrives after a sweep at tick 20, so that it is accepted and not evaluated. -/
def pending : Governor := governor.run [.tick 20, .submitEvidence nextSample]

/-- The second policy arrives first. -/
def suspended : Governor := governor.exec (.submitPolicy nextPolicy)

theorem reachable_pending : Reachable {} pending := by
  refine reachable_governor.run ?_
  simp [Admits]

/-- Every window satisfies the enter rule and none the exit rule, and two windows confirm. -/
def steadyPolicy : PolicyDocument :=
  { policy with
    exitRule := { nodes := [{ kind := .threshold, threshold := { kind := .never } }] }
    hysteresis := { enterConfirmWindows := 2, exitConfirmWindows := 2 } }

/-- The tables of the small run and this policy, before the first window. -/
def stage : Governor :=
  { make {} with
    boot := boot
    capacities := governor.capacities
    paths := governor.paths
    policy := some steadyPolicy
    exitRules := steadyPolicy.exitRule }

/-- The windows of the flow follow each other every ten ticks. -/
def steadyWindow (n : ℕ) : FlowSample :=
  window (UInt64.ofNat (n + 1)) ⟨UInt64.ofNat (10 * n), UInt64.ofNat (10 * n + 10)⟩

/-- The flow after its first windows, each of them taken and decided on: the second makes it an
Elephant, and with the fourth it leaves. -/
def steady : ℕ → Governor × FlowRecord
  | 0 => (stage.createFlow flowKey, stage.freshRecord flowKey)
  | n + 1 => decided flowKey (taken (steady n) (steadyWindow n)) (UInt64.ofNat (10 * n + 10))

theorem getElem?_steady (n : ℕ) :
    (steady n).1.flows[flowKey]? = some (steady n).2 := by
  cases n with
  | zero =>
    show (stage.createFlow flowKey).flows[flowKey]? = _
    rw [getElem?_createFlow (by simp [stage, make]), if_pos rfl]
    rfl
  | succ n => exact (getElem?_evaluateFlow _ _ _ _ _).trans (if_pos rfl)

theorem validate_steadyWindow : ∀ n < 4, (steadyWindow n).validate = .ok () := by
  decide +kernel

/-- The next window is taken. -/
def steadyNext (n : ℕ) : Governor × FlowRecord := taken (steady n) (steadyWindow n)

theorem move_steadyNext (hn : n < 4) :
    Move (steady n).1 (.evidence flowKey (steady n).2 (steadyWindow n)) (steadyNext n).1 ∧
      (steadyNext n).1.flows[flowKey]? = some (steadyNext n).2 :=
  move_taken (s := steadyWindow n) (getElem?_steady n) (validate_steadyWindow n hn)

/-- The moves of the first windows. -/
theorem trail_steady (cond : Governor → Event → Prop) (hinputs : ∀ x, cond x .inputs)
    (hpolicy : ∀ x, cond x (.policy steadyPolicy))
    (hcreate : ∀ x, cond x (.create flowKey))
    (htaken : ∀ n < 4, cond (steady n).1 (.evidence flowKey (steady n).2 (steadyWindow n)))
    (hdecided : ∀ n < 4, cond (steadyNext n).1
      (.evaluate flowKey (steadyNext n).2 (UInt64.ofNat (10 * n + 10)))) (hn : n ≤ 4) :
    ∃ ss, Trail cond {} ss (steady n).1 := by
  induction n with
  | zero =>
    have hstart : Trail cond {} [] (make {}) := .start
    have htables := hstart.step (hinputs _)
      (.inputs (make {}) boot (make {}).tickGuard governor.capacities governor.paths (make {}).counters)
    have hstage : Trail cond {} _ stage := htables.step (hpolicy _)
      (.policy _ steadyPolicy steadyPolicy.exitRule _ (by decide +kernel) (.inl rfl))
    exact ⟨_, hstage.step (hcreate _)
      (.create stage flowKey (by simp [stage, make]) (by simp [stage, make]) rfl rfl (by decide))⟩
  | succ n ih =>
    obtain ⟨ss, htrail⟩ := ih (by omega)
    obtain ⟨hevidence, hr⟩ := move_steadyNext (n := n) (by omega)
    exact ⟨_, (htrail.step (htaken n (by omega)) hevidence).step (hdecided n (by omega))
      (move_decided hr _).1⟩

/-- Every window counts, and meets a flow that is an Elephant or has no exit streak. -/
theorem steady_counts : ∀ n < 4, newEvidence (steadyNext n).2 = true ∧
    ((steadyNext n).2.isElephant = true ∨ (steadyNext n).2.exitStreak = 0) ∧
    (steady n).2.ledger.oversized (steadyWindow n) = false := by
  decide +kernel

theorem steady_undisrupted (hn : n < 4) : ¬ (steady n).2.ledger.Disrupts (steadyWindow n) :=
  fun h => absurd (h.2.2.symm.trans (steady_counts n hn).2.2) (by decide)

end Scenario

open Scenario

/-- The window that waited from before the suspension ends it: no sample arrives after the policy that
suspends the flow, and a query makes it an Elephant again. -/
theorem suspension_left_by_query : ∃ (suspended left : FlowRecord), Reachable {} pending ∧
    (pending.flows[flowKey]?.any fun r => r.isElephant) = true ∧
    (pending.exec (.submitPolicy nextPolicy)).flows[flowKey]? =
      some suspended ∧ Resting suspended ∧
    (pending.run [.submitPolicy nextPolicy, .classification ⟨1⟩ ⟨1⟩ 30]).flows[
      flowKey]? = some left ∧ left.isElephant = true := by
  obtain ⟨suspended, hs, hrests⟩ : ∃ r, (pending.exec (.submitPolicy nextPolicy)).flows[flowKey]? =
    some r ∧ Resting r := by decide +kernel
  obtain ⟨left, hl, helephant⟩ : ∃ r, (pending.run [.submitPolicy nextPolicy,
    .classification ⟨1⟩ ⟨1⟩ 30]).flows[flowKey]? = some r ∧ r.isElephant = true := by decide +kernel
  exact ⟨suspended, left, reachable_pending, by decide +kernel, hs, hrests, hl, helephant⟩

/-- In the small run the new policy finds nothing pending, and the next window, accepted during the
suspension, ends it. -/
theorem suspension_left_by_evidence_scenario : ∃ (ss : List Step) (g g' : Governor) (r r' : FlowRecord),
    Trail Event.Rests {} ss g ∧ Move g (.evaluate flowKey r 15) g' ∧
      g.flows[flowKey]? = some r ∧ Resting r ∧
      g'.flows[flowKey]? = some r' ∧ ¬ Resting r' ∧
      ∃ recent t older, ss = recent ++ t :: older ∧ t.Accepts flowKey := by
  have hsettled : ∀ e ∈ governor.flows.toList, newEvidence e.2 = false := by decide +kernel
  have hrun : ReachableUnder Command.Rests {} suspended := by
    have hstart : ReachableUnder Command.Rests {} governor := by
      refine reachableUnder_governor (fun _ _ => trivial) ?_ (fun _ _ => trivial)
        (fun _ _ => trivial) (fun _ _ => trivial)
      intro key r hr
      exact of_getElem?_empty hr
    refine hstart.tail ⟨.submitPolicy nextPolicy, trivial, ?_, rfl⟩
    intro key r hr _
    exact hsettled _ (Std.ExtTreeMap.mem_toList_iff_getElem?_eq_some.mpr hr)
  obtain ⟨ss, htrail⟩ := ReachableUnder.trail (suspension_left_by_evidence {}).1 hrun
  obtain ⟨r, hr, hrests, hrunning, hleft⟩ : ∃ r, suspended.flows[flowKey]? = some r ∧
      let x := taken (suspended, r) nextSample
      Resting x.2 ∧ x.2.ledger.completed = false ∧ ¬ Resting (decided flowKey x 15).2 := by
    decide +kernel
  -- the submission of the window appends it and evaluates the record
  obtain ⟨hevidence, hr₂⟩ := @move_taken (suspended, r) nextSample hr (by decide +kernel)
  have happend : Trail Event.Rests {} _ _ := .step htrail (by trivial) hevidence
  obtain ⟨hevaluate, hr₃⟩ := move_decided hr₂ 15
  obtain ⟨-, ⟨hdone, -⟩ | ⟨recent, t, older, hss, haccepts, -⟩⟩ := (suspension_left_by_evidence {}).2
    _ _ _ _ flowKey _ _ happend (by trivial) hevaluate hr₂ hrests hr₃ hleft
  · rw [hrunning] at hdone
    cases hdone
  · exact ⟨_, _, _, _, _, happend, hevaluate, hr₂, hrests, hr₃, hleft, recent, t, older, hss, haccepts⟩

end Governor

end EFG
