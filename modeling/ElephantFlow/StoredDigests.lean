/-
# The digests of stored classifications

A stored classification carries a digest of its own content and the digest of the history it
belongs to.  `evaluate` computes both when it commits.  A policy change and a restore edit the
stored classification and its history in place and leave the two digests as they were.

So the digests describe the record from a commit on until one of the two edits it
(`described_of_undisturbed`), and the next commit makes them right again.
-/
import ElephantFlow.Confirmation

namespace EFG

/-- The content that the digest covers does not include the digest. -/
theorem FlowClassification.computeDigest_withDigest (c : FlowClassification) (d : UInt64) :
    ({ c with digest := d } : FlowClassification).computeDigest = c.computeDigest := by
  simp only [FlowClassification.computeDigest]

namespace Governor

variable {g g' : Governor} {key : FlowKey} {r r' : FlowRecord} {now : Tick} {e : Event}
  {config : GovernorConfig} {ss : List Step}

/-- The digests that are stored with a classification are those of what is stored. -/
structure Described (r : FlowRecord) : Prop where
  content : r.classification.digest = r.classification.computeDigest
  history : r.classification.historyDigest = r.history.digest

theorem Described.congr (h : Described r) (hc : r'.classification = r.classification)
    (hh : r'.history = r.history) : Described r' := by
  refine ⟨?_, ?_⟩
  · rw [hc]
    exact h.content
  · rw [hc, hh]
    exact h.history

/-- A commit stamps both digests. -/
theorem Commits.described {c : FlowClassification} {h : ClassificationHistory}
    (hc : g.Commits r now c h) : Described (g.evaluate r now).2.2 := by
  rw [hc.evaluate_eq, commit_snd_snd]
  refine ⟨?_, ?_⟩
  · rw [rebound_classification]
    exact (FlowClassification.computeDigest_withDigest { c with historyDigest := h.digest } _).symm
  · rw [rebound_classification, rebound_history]
    rfl

/-- The edit of a policy change leaves the record of the key as it is: the record is no Elephant and
its reasons name the change already. -/
def Marked (r : FlowRecord) : Prop :=
  r.isElephant = false ∧
    r.classification.reasons ||| .policyChanged ||| .revalidationRequired = r.classification.reasons

/-- The move does not edit the classification of the key in place. -/
def Event.Undisturbing (key : FlowKey) (g : Governor) : Event → Prop
  | .invalidate _ => ∀ r : FlowRecord, g.flows[key]? = some r → r.hasClassification = true → Marked r
  | .restore bytes now => ∀ r : FlowRecord, (g.deserialize bytes now).2.flows[key]? = some r →
      r.hasClassification = false
  | _ => True

/-- No move has edited the classification of the key in place since the last commit. -/
def UndisturbedSince (key : FlowKey) : List Step → Prop
  | [] => True
  | t :: ss => (∃ r now c h, t.event = .evaluate key r now ∧ t.before.Commits r now c h) ∨
      (Event.Undisturbing key t.before t.event ∧ UndisturbedSince key ss)

theorem Described.evaluate (h : r.hasClassification = true → Described r)
    (hc : (g.evaluate r now).2.2.hasClassification = true) : Described (g.evaluate r now).2.2 := by
  rcases evaluate_cases g r now with ⟨_, _, _, heq⟩ | ⟨-, -, heq⟩ | ⟨c, hist, hcommits, -⟩
  · rw [heq] at hc ⊢
    exact h hc
  · rw [heq] at hc ⊢
    exact (h hc).congr rfl rfl
  · exact hcommits.described

/-- One move keeps the digests of a key right, unless it edits the record in place. -/
theorem Described.move (hmove : Move g e g') (hkeeps : Event.Undisturbing key g e)
    (h : ∀ r : FlowRecord, g.flows[key]? = some r → r.hasClassification = true → Described r)
    (hr' : g'.flows[key]? = some r') (hc : r'.hasClassification = true) : Described r' := by
  cases hmove.becomes hr' with
  | same _ _ hr => exact h r' hr hc
  | fresh => cases hc
  | appended r s hr => exact (h r hr hc).congr rfl rfl
  | completed r ledger atTick hr => exact (h r hr hc).congr rfl rfl
  | evaluated r now hr => exact Described.evaluate (h r hr) hc
  | cleared r now hr hclass =>
    obtain ⟨-, hreasons⟩ := hkeeps r hr hclass
    refine (h r hr hclass).congr ?_ rfl
    unfold clearedRecord
    dsimp only
    rw [hreasons]
  | withdrawn r hist now hr hel =>
    have hclass : r.hasClassification = true := by
      unfold FlowRecord.isElephant at hel
      simp only [Bool.and_eq_true] at hel
      exact hel.1
    obtain ⟨hno, -⟩ := hkeeps r hr hclass
    rw [hel] at hno
    cases hno
  | restored _ bytes now hok hr =>
    rw [hkeeps r' hr] at hc
    cases hc

/-- Moves none of which edits the key in place make a trail without an edit. -/
theorem Stretch.undisturbedSince {g₀ : Governor} (h : Stretch (Event.Undisturbing key) g₀ ss g) :
    Stretch (fun _ _ => True) g₀ ss g ∧ UndisturbedSince key ss := by
  induction h with
  | start => exact ⟨.start, trivial⟩
  | step _ hcond hmove ih => exact ⟨ih.1.step trivial hmove, .inr ⟨hcond, ih.2⟩⟩

/-- **Stored digests describe stored decisions.**  Along every run, for every flow whose
classification was not edited in place by a policy change or a restore since its last commit, the
digest stored with the classification is that of its content, and the history digest stored with it
is that of the history of the record. -/
theorem described_of_undisturbed (config : GovernorConfig) :
    (∀ g : Governor, Reachable config g → ∃ ss, Trail (fun _ _ => True) config ss g) ∧
    (∀ (g : Governor) (key : FlowKey),
      ReachableUnder (Command.MadeOf (Event.Undisturbing key)) config g →
      ∃ ss, Trail (fun _ _ => True) config ss g ∧ UndisturbedSince key ss) ∧
    ∀ (ss : List Step) (g : Governor) (key : FlowKey) (r : FlowRecord),
      Trail (fun _ _ => True) config ss g → UndisturbedSince key ss → g.flows[key]? = some r →
      r.hasClassification = true →
      r.classification.digest = r.classification.computeDigest ∧
        r.classification.historyDigest = r.history.digest := by
  refine ⟨fun g hreach => hreach.trail, fun g key h => ?_, ?_⟩
  · obtain ⟨ss, htrail⟩ := h.trail_of_madeOf
    exact ⟨ss, htrail.undisturbedSince⟩
  have hall : ∀ (ss : List Step) (g : Governor), Trail (fun _ _ => True) config ss g →
      ∀ (key : FlowKey) (r : FlowRecord), UndisturbedSince key ss → g.flows[key]? = some r →
      r.hasClassification = true → Described r := by
    intro ss g htrail
    induction htrail with
    | start =>
      intro key r _ hr
      exact of_getElem?_empty hr
    | @step ss g g' e htrail _ hmove ih =>
      intro key r' hsince hr' hc
      rcases hsince with ⟨r, now, c, h, rfl, hcommits⟩ | ⟨hkeeps, hsince⟩
      · obtain ⟨-, rfl⟩ := hmove.evaluated hr'
        exact hcommits.described
      · exact Described.move hmove hkeeps (fun r hr hclass => ih key r hsince hr hclass) hr' hc
  intro ss g key r htrail hsince hr hc
  have hdescribed := hall ss g htrail key r hsince hr hc
  exact ⟨hdescribed.content, hdescribed.history⟩

open Scenario

/-- The windows of the steady run edit nothing in place. -/
theorem described_of_undisturbed_steady : (steady 2).2.hasClassification = true ∧
    (steady 2).2.classification.digest = (steady 2).2.classification.computeDigest ∧
    (steady 2).2.classification.historyDigest = (steady 2).2.history.digest := by
  obtain ⟨ss, htrail⟩ := trail_steady (Event.Undisturbing flowKey)
    (fun _ => trivial) (fun _ => trivial) (fun _ => trivial) (fun _ _ => trivial)
    (fun _ _ => trivial) (n := 2) (by decide)
  have hundisturbed := htrail.undisturbedSince
  have hclass : (steady 2).2.hasClassification = true := by decide +kernel
  exact ⟨hclass, (described_of_undisturbed {}).2.2 ss _ flowKey _ hundisturbed.1 hundisturbed.2
    (getElem?_steady 2) hclass⟩

/-- A new policy generation suspends the Elephant of the small run, and neither stored digest
describes what is stored. -/
theorem policy_change_leaves_digests :
    (governor.run [.submitPolicy nextPolicy]).flows[
      flowKey]?.any (fun r => r.hasClassification &&
        (r.classification.state = .suspended &&
          (r.classification.digest ≠ r.classification.computeDigest &&
            r.classification.historyDigest ≠ r.history.digest))) = true := by
  decide +kernel

end Governor

end EFG
