/-
# What a rule knows

The three values are ordered by information: `Unknown` is below `True` and `False`, which are
incomparable (`Tri.Below`).  The connectives are monotone in that order and the evaluation of a rule
graph visits the same nodes whatever the measurements are, so a definite rule stays what it is when
more becomes known.

The other end of the order is a flow without any evidence.  Which thresholds are `Unknown` on its
measurements depends on the kind of the threshold and on what is known about path and capacity
(`awaitsEvidence`); a rule over such thresholds is `Unknown`, and every other kind occurs in a rule
that holds.
-/
import ElephantFlow.ExitRules
import ElephantFlow.GovernorState

namespace EFG

/-! ## The information order -/

/-- The first value is unknown, or it is the second one. -/
def Tri.Below (v w : Tri) : Prop := v = .unknown ∨ v = w

instance (v w : Tri) : Decidable (v.Below w) := inferInstanceAs (Decidable (_ ∨ _))

namespace Tri.Below

variable {v w v' w' : Tri}

theorem refl (v : Tri) : v.Below v := .inr rfl

theorem eq_of_definite (h : v.Below w) (hv : v ≠ .unknown) : w = v := by
  rcases h with rfl | rfl
  · exact absurd rfl hv
  · rfl

theorem triNot (h : v.Below w) : (triNot v).Below (triNot w) := by
  rcases h with rfl | rfl
  · exact .inl rfl
  · exact refl _

theorem triAnd (h : v.Below w) (h' : v'.Below w') : (triAnd v v').Below (triAnd w w') := by
  rcases h with rfl | rfl
  · cases v' with
    | false =>
      -- a false conjunct decides the conjunction, and it is kept
      rw [h'.eq_of_definite (by decide)]
      right
      cases w <;> rfl
    | true => exact .inl rfl
    | unknown => exact .inl rfl
  · rcases h' with rfl | rfl
    · cases v with
      | false => exact .inr rfl
      | true => exact .inl rfl
      | unknown => exact .inl rfl
    · exact refl _

theorem triOr (h : v.Below w) (h' : v'.Below w') : (triOr v v').Below (triOr w w') := by
  rcases h with rfl | rfl
  · cases v' with
    | true =>
      rw [h'.eq_of_definite (by decide)]
      right
      cases w <;> rfl
    | false => exact .inl rfl
    | unknown => exact .inl rfl
  · rcases h' with rfl | rfl
    · cases v with
      | true => exact .inr rfl
      | false => exact .inl rfl
      | unknown => exact .inl rfl
    · exact refl _

end Tri.Below

namespace RuleSet

/-! ## Learning more -/

section Learning

variable {rules : RuleSet} {m m' : FlowMeasurements}

/-- Two evaluations of a node under the two measurements: they fail together, and the first one knows
at most what the second one knows. -/
structure Advances (a b : Tri × EvalState) : Prop where
  value : a.1.Below b.1
  failed : b.2.failed = a.2.failed

theorem foldChildren_advances {d : ℕ} {op : Tri → Tri → Tri}
    (hop : ∀ {v w v' w' : Tri}, v.Below w → v'.Below w' → (op v v').Below (op w w'))
    (hnode : ∀ (child : UInt32) (st st' : EvalState), st'.failed = st.failed →
      Advances (evaluateNode rules m d st child) (evaluateNode rules m' d st' child))
    (children : List UInt32) {a b : Tri × EvalState} (h : Advances a b) :
    Advances (foldChildren rules m d op children a) (foldChildren rules m' d op children b) := by
  induction children generalizing a b with
  | nil => exact h
  | cons child rest ih =>
    have hchild := hnode child a.2 b.2 h.failed
    rw [foldChildren_cons, foldChildren_cons]
    exact ih ⟨hop h.value hchild.value, hchild.failed⟩

/-- The evaluation of a node is monotone in what is known about the leaves. -/
theorem evaluateNode_advances
    (hleaf : ∀ node ∈ rules.nodes, node.kind = .threshold →
      (node.threshold.evaluate m).Below (node.threshold.evaluate m'))
    (d : ℕ) (index : UInt32) (st st' : EvalState) (hst : st'.failed = st.failed) :
    Advances (evaluateNode rules m d st index) (evaluateNode rules m' d st' index) := by
  induction d generalizing index st st' with
  | zero => exact ⟨.inl rfl, rfl⟩
  | succ d ih =>
    cases hfailed : st.failed with
    | true =>
      unfold evaluateNode
      rw [if_pos hfailed, if_pos (hst.trans hfailed)]
      exact ⟨.inl rfl, hst⟩
    | false =>
      have hfailed' : st'.failed = false := hst.trans hfailed
      rcases hnode : rules.nodes[index.toNat]? with _ | node
      · refine ⟨.inl ?_, ?_⟩
        · simp [evaluateNode, hfailed, hnode]
        · rw [evaluateNode_none hfailed' hnode, evaluateNode_none hfailed hnode]
      cases hkind : node.kind with
      | threshold =>
        obtain ⟨hvalue, hrun⟩ := evaluateNode_threshold (m := m) (d := d) hfailed hnode hkind
        obtain ⟨hvalue', hrun'⟩ := evaluateNode_threshold (m := m') (d := d) hfailed' hnode hkind
        refine ⟨?_, hrun'.trans hrun.symm⟩
        rw [hvalue, hvalue']
        exact hleaf node (List.mem_of_getElem? hnode) hkind
      | all =>
        rw [evaluateNode_all hfailed hnode hkind, evaluateNode_all hfailed' hnode hkind]
        exact foldChildren_advances Tri.Below.triAnd ih node.children ⟨.refl _, hst⟩
      | any =>
        rw [evaluateNode_any hfailed hnode hkind, evaluateNode_any hfailed' hnode hkind]
        exact foldChildren_advances Tri.Below.triOr ih node.children ⟨.refl _, hst⟩
      | not =>
        simp only [evaluateNode, hfailed, hfailed', hnode, hkind, Bool.false_eq_true, if_false]
        cases node.children with
        | nil => exact ⟨.inl rfl, rfl⟩
        | cons child rest =>
          have hchild := ih child st st' hst
          exact ⟨hchild.value.triNot, hchild.failed⟩

/-- **Learning more never flips a decided rule.**  For every node array, any root and any sharing of
children, a definite value under `m` is the value under every `m'` that agrees with `m` on the leaves
that are definite under `m`.  A `Not` node without a child, which the source must not reach, counts as
a failure here, so nothing is asked of it. -/
theorem definite_rule_kept {rules : RuleSet} {m m' : FlowMeasurements}
    (hleaf : ∀ node ∈ rules.nodes, node.kind = .threshold → node.threshold.evaluate m ≠ .unknown →
      node.threshold.evaluate m' = node.threshold.evaluate m)
    (trace trace' : ThresholdTrace) (h : (rules.evaluate m trace).1 ≠ .unknown) :
    (rules.evaluate m' trace').1 = (rules.evaluate m trace).1 := by
  have hbelow : ∀ node ∈ rules.nodes, node.kind = .threshold →
      (node.threshold.evaluate m).Below (node.threshold.evaluate m') := by
    intro node hnode hkind
    by_cases hunknown : node.threshold.evaluate m = .unknown
    · exact .inl hunknown
    · exact .inr (hleaf node hnode hkind hunknown).symm
  have hnodes := evaluateNode_advances hbelow (kMaxRuleDepth + 1) rules.root { trace := trace }
    { trace := trace' } rfl
  have hrule : ((rules.evaluate m trace).1).Below (rules.evaluate m' trace').1 := by
    unfold RuleSet.evaluate
    split_ifs with hempty
    · exact .refl _
    · simp only
      rw [hnodes.failed]
      split_ifs
      · exact .refl _
      · exact hnodes.value
  exact hrule.eq_of_definite h

/-- A rule that asks for a reservation or for an amount of data. -/
def reservationOrVolume : RuleSet where
  nodes := [{ kind := .threshold, threshold := { kind := .hasReservation } },
    { kind := .threshold, threshold := { kind := .cumulativeBytes, value := 1000 } },
    { kind := .any, children := [0, 1] }]
  root := 2

/-- A reservation decides the rule before the volume is known, and the volume does not flip it. -/
theorem definite_rule_kept_reservation :
    (reservationOrVolume.evaluate { hasReservation := true } {}).1 = .true ∧
    (reservationOrVolume.evaluate
      { hasReservation := true, evidencePresent := true, cumulativeBytes := 10 } {}).1 = .true := by
  have hfirst : (reservationOrVolume.evaluate { hasReservation := true } {}).1 = .true := by decide
  refine ⟨hfirst, ?_⟩
  rw [← hfirst]
  exact definite_rule_kept (by decide) {} {} (by decide)

end Learning

/-! ## Rules over unknown leaves -/

section Unknown

variable {rules : RuleSet} {m : FlowMeasurements}

theorem kleene_of_unknown {values : List Tri} (hne : values ≠ []) (h : ∀ v ∈ values, v = .unknown) :
    kleeneAll values = .unknown ∧ kleeneAny values = .unknown := by
  have hfalse : Tri.false ∉ values := fun hmem => nomatch h _ hmem
  have htrue : Tri.true ∉ values := fun hmem => nomatch h _ hmem
  have hunknown : Tri.unknown ∈ values := by
    obtain ⟨v, hv⟩ := List.exists_mem_of_ne_nil values hne
    rw [← h v hv]
    exact hv
  unfold kleeneAll kleeneAny
  rw [if_neg hfalse, if_neg htrue, if_pos hunknown, if_pos hunknown]
  exact ⟨rfl, rfl⟩

theorem children_ne_nil {node : RuleNode} (h : node.checkShape = .ok ())
    (hkind : node.kind = .all ∨ node.kind = .any) : node.children ≠ [] := by
  unfold RuleNode.checkShape at h
  rcases hkind with hkind | hkind
  · simp only [hkind, ite_makeStatus_eq_ok] at h
    simpa using h.1
  · simp only [hkind, ite_makeStatus_eq_ok] at h
    simpa using h.1

/-- A threshold that can be reached from the node at `index`. -/
def Consulted (rules : RuleSet) (index : UInt32) (t : Threshold) : Prop :=
  ∃ j node, Relation.ReflTransGen rules.Child index j ∧ rules.nodes[j.toNat]? = some node ∧
    node.kind = .threshold ∧ node.threshold = t

theorem Consulted.of_child {index child : UInt32} {t : Threshold} (hc : rules.Child index child)
    (h : rules.Consulted child t) : rules.Consulted index t := by
  obtain ⟨j, node, hj, hnode⟩ := h
  exact ⟨j, node, .head hc hj, hnode⟩

theorem Consulted.mem {index : UInt32} {t : Threshold} (h : rules.Consulted index t) :
    ∃ node ∈ rules.nodes, node.kind = .threshold ∧ node.threshold = t := by
  obtain ⟨j, node, -, hnode, ht⟩ := h
  exact ⟨node, List.mem_of_getElem? hnode, ht⟩

/-- Over unknown leaves a well shaped graph has no other value. -/
theorem Value.eq_unknown {index : UInt32} {v : Tri}
    (hleaf : ∀ t, rules.Consulted index t → t.evaluate m = .unknown)
    (hs : rules.Sound index) (hv : rules.Value m index v) : v = .unknown := by
  have hchildren : ∀ {index : UInt32} {node : RuleNode}, rules.Sound index →
      rules.nodes[index.toNat]? = some node → node.kind = .all ∨ node.kind = .any →
      node.children ≠ [] := by
    intro index node hs hnode hkind
    obtain ⟨node', hnode', hshape⟩ := hs index .refl
    obtain rfl := Option.some.inj (hnode.symm.trans hnode')
    exact children_ne_nil hshape hkind
  induction hv with
  | threshold hnode hkind => exact hleaf _ ⟨_, _, .refl, hnode, hkind, rfl⟩
  | @all index node f hnode hkind _ ih =>
    refine (kleene_of_unknown ?_ fun v hv => ?_).1
    · simpa using hchildren hs hnode (.inl hkind)
    · obtain ⟨child, hmem, rfl⟩ := List.mem_map.mp hv
      have hc : rules.Child index child := ⟨node, hnode, hmem⟩
      exact ih child hmem (fun t ht => hleaf t (ht.of_child hc)) (hs.child hc)
  | @any index node f hnode hkind _ ih =>
    refine (kleene_of_unknown ?_ fun v hv => ?_).2
    · simpa using hchildren hs hnode (.inr hkind)
    · obtain ⟨child, hmem, rfl⟩ := List.mem_map.mp hv
      have hc : rules.Child index child := ⟨node, hnode, hmem⟩
      exact ih child hmem (fun t ht => hleaf t (ht.of_child hc)) (hs.child hc)
  | @not index child node v hnode hkind hchild _ ih =>
    have hmem : child ∈ node.children := by
      rw [hchild]
      exact List.mem_singleton_self child
    have hc : rules.Child index child := ⟨node, hnode, hmem⟩
    rw [ih (fun t ht => hleaf t (ht.of_child hc)) (hs.child hc)]
    rfl

theorem evaluate_eq_unknown (h : rules.validate = .ok ())
    (hleaf : ∀ t, rules.Consulted rules.root t → t.evaluate m = .unknown)
    (trace : ThresholdTrace) : (rules.evaluate m trace).1 = .unknown := by
  have hs : rules.Sound rules.root := fun j hj => wellShaped_of_validate h hj
  cases hrun : (evaluateNode rules m (kMaxRuleDepth + 1) { trace := trace } rules.root).2.failed with
  | false =>
    rw [evaluate_of_not_failed h hrun]
    exact (value_of_not_failed hs rfl hrun).eq_unknown hleaf hs
  | true =>
    unfold RuleSet.evaluate
    rw [if_neg (validate_root h)]
    dsimp only
    rw [hrun, if_pos rfl]

end Unknown

end RuleSet

/-! ## Missing evidence -/

theorem FlowLedger.measurements_of_no_samples {l : FlowLedger} (h : l.samples = []) :
    l.measurements = { completed := l.completed, droppedWindows := l.droppedWindows } := by
  unfold FlowLedger.measurements deriveMeasurements
  rw [h]
  rfl

/-- The kinds whose threshold is unknown as long as the flow has no evidence, given what is known
about its path and about the capacity on it. -/
def ThresholdKind.awaitsEvidence (pathKnown capacityKnown : Bool) : ThresholdKind → Bool
  | .always | .never | .hasReservation => false
  | .competingFlows | .competingElephants => !pathKnown
  | .shareOfCapacity | .shareOfAvailable | .excessOverGuarantee => !capacityKnown
  | .cumulativeBytes | .durationTicks | .sustainedRate | .peakRate | .serviceClassIs
  | .priorityAtLeast | .isProtected | .isNonPreemptible | .count => true

/-- Measurements that hold nothing about the flow itself. -/
structure FlowMeasurements.Blank (pathKnown capacityKnown : Bool) (m : FlowMeasurements) : Prop where
  evidencePresent : m.evidencePresent = false
  serviceClass : m.serviceClass = .unknown
  priority : m.priority = none
  protection : m.protection = .unknown
  pathKnown : m.pathKnown = pathKnown
  capacityKnown : m.capacityKnown = capacityKnown

variable {ledger : FlowLedger} {path : Option PathDescriptor} {capacities : CapacityTable}
  {flows elephants : UInt32} {required : Bool} {m : FlowMeasurements}

theorem blank_composeMeasurements (hempty : ledger.samples = [])
    (hm : composeMeasurements ledger path capacities flows elephants required = .ok m) :
    m.Blank path.isSome (resolveBinding path capacities false 0).isSome := by
  unfold composeMeasurements at hm
  rw [FlowLedger.measurements_of_no_samples hempty] at hm
  rcases path with _ | p
  · simp only at hm
    split_ifs at hm
    · cases hm
    · cases hm
      exact ⟨rfl, rfl, rfl, rfl, rfl, rfl⟩
  · simp only at hm
    rcases hbinding : resolveBinding (some p) capacities false 0 with _ | ⟨resource, capacity⟩
    · rw [hbinding] at hm
      simp only at hm
      split_ifs at hm
      · cases hm
      · cases hm
        exact ⟨rfl, rfl, rfl, rfl, rfl, rfl⟩
    · rw [hbinding] at hm
      cases hm
      exact ⟨rfl, rfl, rfl, rfl, rfl, rfl⟩

theorem triWhen_eq_unknown_iff {known b : Bool} : triWhen known b = .unknown ↔ known = false := by
  cases known <;> cases b <;> decide

theorem FlowMeasurements.Blank.evaluate_eq_unknown_iff {pathKnown capacityKnown : Bool}
    (h : m.Blank pathKnown capacityKnown) (t : Threshold) :
    t.evaluate m = .unknown ↔ t.kind.awaitsEvidence pathKnown capacityKnown = true := by
  obtain ⟨kind, value, classOperand⟩ := t
  have hflag : ∀ b, triFromBool b ≠ .unknown := by decide
  cases kind <;>
    simp [Threshold.evaluate, ThresholdKind.awaitsEvidence, triWhen_eq_unknown_iff, hflag,
      h.evidencePresent, h.serviceClass, h.priority, h.protection, h.pathKnown, h.capacityKnown,
      Priority.known]

namespace RuleSet

/-- The rule that consists of one threshold. -/
def single (t : Threshold) : RuleSet :=
  { nodes := [{ kind := .threshold, threshold := t }], root := 0 }

/-- The rule that negates one threshold. -/
def negated (t : Threshold) : RuleSet :=
  { nodes := [{ kind := .threshold, threshold := t }, { kind := .not, children := [0] }], root := 1 }

theorem validate_single {t : Threshold} (h : t.kind ≠ .count) :
    (single t).validate = .ok () ∧ (negated t).validate = .ok () := by
  obtain ⟨kind, value, classOperand⟩ := t
  cases kind with
  | count => exact absurd rfl h
  | _ => exact ⟨rfl, rfl⟩

theorem evaluate_single (t : Threshold) (m : FlowMeasurements) (trace : ThresholdTrace) :
    ((single t).evaluate m trace).1 = t.evaluate m ∧
      ((negated t).evaluate m trace).1 = triNot (t.evaluate m) := by
  constructor
  · simp [single, RuleSet.evaluate, evaluateNode]
  · simp [negated, RuleSet.evaluate, evaluateNode, kMaxRuleDepth]

/-- **Missing evidence satisfies no rule over the kinds that wait for it, and only those.**  On what is
composed for a flow without a retained window, no validated rule whose thresholds, as far as the root
reaches them, are of the given kinds is `True` exactly when every one of these kinds is unknown without evidence. -/
theorem unsatisfied_without_evidence_iff (hempty : ledger.samples = [])
    (hm : composeMeasurements ledger path capacities flows elephants required = .ok m)
    (kinds : ThresholdKind → Prop) :
    (∀ rules : RuleSet, rules.validate = .ok () →
      (∀ t, rules.Consulted rules.root t → kinds t.kind) →
      ∀ trace, (rules.evaluate m trace).1 ≠ .true) ↔
    ∀ kind, kinds kind →
      kind.awaitsEvidence path.isSome (resolveBinding path capacities false 0).isSome = true := by
  have hblank := blank_composeMeasurements hempty hm
  constructor
  · intro hnone kind hkind
    by_contra hdefinite
    have hcount : kind ≠ .count := by
      rintro rfl
      exact hdefinite rfl
    -- the threshold is definite, so it holds itself or its negation does
    have hvalue : (⟨kind, 0, .unknown⟩ : Threshold).evaluate m ≠ .unknown :=
      fun hunknown => hdefinite ((hblank.evaluate_eq_unknown_iff _).mp hunknown)
    obtain ⟨hsingle, hnegated⟩ := validate_single (t := ⟨kind, 0, .unknown⟩) hcount
    obtain ⟨hplain, hflipped⟩ := evaluate_single ⟨kind, 0, .unknown⟩ m {}
    cases htri : (⟨kind, 0, .unknown⟩ : Threshold).evaluate m with
    | unknown => exact hvalue htri
    | true =>
      refine hnone _ hsingle (fun t ht => ?_) {} (hplain.trans htri)
      obtain ⟨node, hnode, -, rfl⟩ := ht.mem
      rw [List.mem_singleton.mp hnode]
      exact hkind
    | false =>
      refine hnone _ hnegated (fun t ht => ?_) {} (hflipped.trans ?_)
      · obtain ⟨node, hnode, hthreshold, rfl⟩ := ht.mem
        rcases List.mem_cons.mp hnode with rfl | hnode
        · exact hkind
        · rw [List.mem_singleton.mp hnode] at hthreshold
          cases hthreshold
      · rw [htri]
        rfl
  · intro hawaits rules hvalid hkinds trace htrue
    have hunknown := evaluate_eq_unknown (m := m) hvalid (fun t ht =>
      (hblank.evaluate_eq_unknown_iff _).mpr (hawaits _ (hkinds t ht))) trace
    rw [hunknown] at htrue
    cases htrue

/-- Without any evidence, a rule over the volume and the duration of the flow is not satisfied. -/
theorem unsatisfied_without_evidence_volume :
    ∃ m, composeMeasurements (.make ⟨1⟩ ⟨1⟩ {}) none {} 3 1 false = .ok m ∧
      ((negated { kind := .cumulativeBytes, value := 1000 }).evaluate m {}).1 ≠ .true := by
  have hm : composeMeasurements (.make ⟨1⟩ ⟨1⟩ {}) none {} 3 1 false =
      .ok { competingFlows := 3, competingElephants := 1 } := rfl
  refine ⟨_, hm, ?_⟩
  refine (unsatisfied_without_evidence_iff rfl hm (· = .cumulativeBytes)).mpr ?_ _ (by decide)
    (fun t ht => ?_) {}
  · rintro kind rfl
    rfl
  · obtain ⟨node, hnode, hthreshold, rfl⟩ := ht.mem
    clear ht
    revert node
    decide

/-- A flow without any evidence satisfies the rule that it has no reservation. -/
theorem no_reservation_satisfied_without_evidence :
    ∃ m, composeMeasurements (.make ⟨1⟩ ⟨1⟩ {}) none {} 0 0 false = .ok m ∧
      (negated { kind := .hasReservation }).validate = .ok () ∧
      ((negated { kind := .hasReservation }).evaluate m {}).1 = .true :=
  ⟨{}, rfl, by decide, by decide⟩

end RuleSet

end EFG
