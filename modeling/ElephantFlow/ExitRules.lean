/-
# The synthesized exit rule

Where a policy states no exit rule, `scale_rule_set` makes one from the enter rule: it collects
the instantaneous thresholds of the node array, scales their bounds down and chains them by binary
conjunctions.  The rule it returns evaluates to the Kleene conjunction of the scaled leaves
(`evaluate_scaleRuleSet`), whatever the shape of the enter rule was.

So the exit rule is weaker than an enter rule that demands all its instantaneous leaves, and not
weaker than one that reaches a leaf through `Any` or `Not`, or does not reach it at all.
-/
import ElephantFlow.RuleValues
import ElephantFlow.WideArithmetic

namespace EFG

open RuleSet

/-! ## The Kleene conjunction -/

theorem kleeneAll_eq_foldl (values : List Tri) : kleeneAll values = values.foldl triAnd .true := by
  rw [foldl_triAnd, kleeneAll_true_cons]

@[simp] theorem kleeneAll_singleton (v : Tri) : kleeneAll [v] = v := by
  cases v <;> rfl

theorem kleeneAll_concat (values : List Tri) (v : Tri) :
    kleeneAll (values ++ [v]) = triAnd (kleeneAll values) v := by
  rw [kleeneAll_eq_foldl, kleeneAll_eq_foldl, List.foldl_append]
  rfl

variable {values : List Tri} {scaleBp : BasisPoints} {m : FlowMeasurements} {rules : RuleSet}

theorem kleeneAll_ne_false_iff : kleeneAll values ≠ .false ↔ ∀ v ∈ values, v ≠ .false := by
  unfold kleeneAll
  constructor
  · rintro h v hv rfl
    exact h (if_pos hv)
  · intro h
    rw [if_neg fun hmem => h _ hmem rfl]
    split_ifs <;> simp

theorem eq_true_of_kleeneAll (h : kleeneAll values = .true) {v : Tri} (hv : v ∈ values) :
    v = .true := by
  unfold kleeneAll at h
  split_ifs at h with hfalse hunknown
  cases v with
  | true => rfl
  | false => exact absurd hv hfalse
  | unknown => exact absurd hv hunknown

/-! ## Scaled bounds -/

/-- A bound scaled by at most the whole does not grow. -/
theorem mulDiv_scaled_le {value scaled : UInt64} (hscale : scaleBp ≤ kBasisPointsScale)
    (h : mulDiv value scaleBp.toUInt64 kBasisPointsScale.toUInt64 = some scaled) :
    scaled ≤ value := by
  have hmap := map_mulDiv value scaleBp.toUInt64 kBasisPointsScale.toUInt64
  have hwhole : (kBasisPointsScale.toUInt64).toNat = 10000 := rfl
  have hpart : scaleBp.toUInt64.toNat ≤ 10000 := by
    rw [UInt32.toNat_toUInt64]
    exact UInt32.le_iff_toNat_le.mp hscale
  rw [h, hwhole, Option.map_some, exactMulDiv] at hmap
  split_ifs at hmap
  rw [UInt64.le_iff_toNat_le, Option.some.inj hmap]
  apply Nat.div_le_of_le_mul
  rw [Nat.mul_comm 10000]
  exact Nat.mul_le_mul_left _ hpart

theorem Threshold.evaluate_lowered {t : Threshold} {bound : UInt64}
    (hkind : t.kind.instantaneous = true) (hle : bound ≤ t.value) (h : t.evaluate m = .true) :
    ({ t with value := bound } : Threshold).evaluate m = .true := by
  have hlower : ∀ (known : Bool) (x : UInt64), triWhen known (decide (x ≥ t.value)) = .true →
      triWhen known (decide (x ≥ bound)) = .true := by
    intro known x hx
    cases known with
    | false => exact hx
    | true =>
      have hge : x ≥ t.value := by
        by_contra hlt
        simp [triWhen, triFromBool, hlt] at hx
      simp [triWhen, triFromBool, UInt64.le_trans hle hge]
  unfold Threshold.evaluate at h ⊢
  cases hk : t.kind <;> rw [hk] at hkind h <;> first | exact hlower _ _ h | cases hkind

/-! ## The leaves -/

/-- The leaf that `scale_rule_set` makes of a node of the enter rule. -/
def IsScaledLeaf (scaleBp : BasisPoints) (node leaf : RuleNode) : Prop :=
  node.kind = .threshold ∧ node.threshold.kind.instantaneous = true ∧
    ∃ scaled, mulDiv node.threshold.value scaleBp.toUInt64 kBasisPointsScale.toUInt64 = some scaled ∧
      leaf = { kind := .threshold, threshold := { node.threshold with value := scaled } }

theorem mem_scaledLeaves {nodes leaves : List RuleNode}
    (h : scaledLeaves scaleBp nodes = .ok leaves) (leaf : RuleNode) :
    leaf ∈ leaves ↔ ∃ node ∈ nodes, IsScaledLeaf scaleBp node leaf := by
  induction nodes generalizing leaves with
  | nil =>
    obtain rfl := Except.ok.inj h
    simp
  | cons node rest ih =>
    unfold scaledLeaves at h
    simp only [List.mem_cons, exists_eq_or_imp]
    by_cases hkept : node.kind = .threshold ∧ node.threshold.kind.instantaneous = true
    · rw [if_pos hkept] at h
      rcases hscaled : mulDiv node.threshold.value scaleBp.toUInt64 kBasisPointsScale.toUInt64 with
        _ | scaled
      · rw [hscaled] at h
        cases h
      rw [hscaled] at h
      dsimp only at h
      rcases hrest : scaledLeaves scaleBp rest with e | leaves'
      · rw [hrest] at h
        cases h
      rw [hrest] at h
      obtain rfl := Except.ok.inj h
      rw [← ih hrest, List.mem_cons]
      refine or_congr ⟨?_, ?_⟩ Iff.rfl
      · intro hleaf
        exact ⟨hkept.1, hkept.2, scaled, hscaled, hleaf⟩
      · rintro ⟨-, -, scaled', hscaled', hleaf⟩
        obtain rfl := Option.some.inj (hscaled.symm.trans hscaled')
        exact hleaf
    · rw [if_neg hkept] at h
      rw [ih h]
      constructor
      · exact Or.inr
      · rintro (⟨hkind, hinst, -⟩ | hrest)
        · exact absurd ⟨hkind, hinst⟩ hkept
        · exact hrest

/-! ## The chain of conjunctions -/

/-- The index of the node that stands for the first `i + 1` of `n` leaves. -/
def chainHead (n i : ℕ) : ℕ := if i = 0 then 0 else n + i - 1

@[simp] theorem chainHead_zero (n : ℕ) : chainHead n 0 = 0 := rfl

theorem chainHead_succ (n i : ℕ) : chainHead n (i + 1) = n + i := by
  unfold chainHead
  rw [if_neg (Nat.succ_ne_zero i)]
  omega

/-- The conjunction that adds leaf `i + 1` to the chain. -/
def chainLink (n i : ℕ) : RuleNode :=
  { kind := .all, children := [UInt32.ofNat (chainHead n i), UInt32.ofNat (i + 1)] }

theorem chain_build (leaves : List RuleNode) (k : ℕ) :
    (List.range' 1 k).foldl (fun (acc : List RuleNode × UInt32) i =>
      (acc.1 ++ [{ kind := .all, children := [acc.2, UInt32.ofNat i] }],
        UInt32.ofNat acc.1.length)) (leaves, 0) =
      (leaves ++ (List.range k).map (chainLink leaves.length),
        UInt32.ofNat (chainHead leaves.length k)) := by
  induction k with
  | zero => simp
  | succ k ih =>
    rw [List.range'_1_concat, List.foldl_append, ih, List.range_succ, List.map_append,
      chainHead_succ]
    simp [chainLink, Nat.add_comm 1 k]

theorem chainLeaves_eq (leaves : List RuleNode) :
    chainLeaves leaves =
      { nodes := leaves ++ (List.range (leaves.length - 1)).map (chainLink leaves.length)
        root := UInt32.ofNat (chainHead leaves.length (leaves.length - 1)) } := by
  unfold chainLeaves
  rw [chain_build]

section Chain

variable {leaves : List RuleNode} {m : FlowMeasurements} {i : ℕ}

theorem chain_leaf (hi : i < leaves.length) : (chainLeaves leaves).nodes[i]? = leaves[i]? := by
  rw [chainLeaves_eq]
  exact List.getElem?_append_left hi

theorem chain_link (hi : i + 1 < leaves.length) :
    (chainLeaves leaves).nodes[chainHead leaves.length (i + 1)]? =
      some (chainLink leaves.length i) := by
  rw [chainLeaves_eq, chainHead_succ, List.getElem?_append_right (Nat.le_add_right _ _),
    Nat.add_sub_cancel_left, List.getElem?_map, List.getElem?_range (by omega), Option.map_some]

theorem toNat_chainHead (hsmall : 2 * leaves.length < 2 ^ 32) (hi : i < leaves.length) :
    (UInt32.ofNat (chainHead leaves.length i)).toNat = chainHead leaves.length i := by
  apply UInt32.toNat_ofNat_of_lt'
  unfold chainHead
  split_ifs <;> simp only [UInt32.size] <;> omega

/-- The search of `validate_node` goes down the chain before it meets a leaf, so a chain it accepts
is no longer than the depth it was given. -/
theorem lt_of_validate_chain (hsmall : 2 * leaves.length < 2 ^ 32) {d : ℕ} (hi : i < leaves.length)
    {colour colour' : List UInt8} (hnew : ∀ j : ℕ, colour[j]? ≠ some 2)
    (h : validateNode (chainLeaves leaves) d (UInt32.ofNat (chainHead leaves.length i)) colour = .ok
      colour') :
    i < d := by
  induction i generalizing d colour colour' with
  | zero =>
    cases d with
    | zero =>
      unfold validateNode at h
      split_ifs at h <;> cases h
    | succ d => exact Nat.succ_pos d
  | succ i ih =>
    cases d with
    | zero =>
      unfold validateNode at h
      split_ifs at h <;> cases h
    | succ d =>
      unfold validateNode at h
      rw [toNat_chainHead hsmall hi, chain_link hi] at h
      dsimp only at h
      rw [if_neg (hnew _)] at h
      split_ifs at h
      · cases h
      have hshape : (chainLink leaves.length i).checkShape = .ok () := rfl
      rw [hshape] at h
      dsimp only at h
      have hnew' : ∀ j : ℕ, (colour.set (chainHead leaves.length (i + 1)) 1)[j]? ≠ some 2 := by
        intro j
        rw [List.getElem?_set]
        split_ifs
        · simp
        · simp
        · exact hnew j
      rcases hlower : validateNode (chainLeaves leaves) d
          (UInt32.ofNat (chainHead leaves.length i))
          (colour.set (chainHead leaves.length (i + 1)) 1) with e | lower
      · rw [chainLink, List.foldlM_cons, hlower] at h
        cases h
      · exact Nat.succ_lt_succ (ih (by omega) hnew' hlower)

/-- Down the chain, the evaluation computes the conjunction of the leaves met so far. -/
theorem evaluate_chain (hsmall : 2 * leaves.length < 2 ^ 32)
    (hleaves : ∀ leaf ∈ leaves, leaf.kind = .threshold) {d : ℕ} (hi : i < leaves.length)
    (hd : i < d) {st : EvalState} (hst : st.failed = false) :
    (evaluateNode (chainLeaves leaves) m d st (UInt32.ofNat (chainHead leaves.length i))).1 =
        kleeneAll ((leaves.take (i + 1)).map fun leaf => leaf.threshold.evaluate m) ∧
      (evaluateNode (chainLeaves leaves) m d st
        (UInt32.ofNat (chainHead leaves.length i))).2.failed = false := by
  -- a leaf of the chain, evaluated with some depth to spare
  have hleaf : ∀ {d k : ℕ} (hk : k < leaves.length) {st : EvalState}, st.failed = false →
      (evaluateNode (chainLeaves leaves) m (d + 1) st (UInt32.ofNat k)).1 =
          leaves[k].threshold.evaluate m ∧
        (evaluateNode (chainLeaves leaves) m (d + 1) st (UInt32.ofNat k)).2.failed = false := by
    intro d k hk st hst
    have hindex : (UInt32.ofNat k).toNat = k :=
      UInt32.toNat_ofNat_of_lt' (by simp only [UInt32.size]; omega)
    have hnode : (chainLeaves leaves).nodes[(UInt32.ofNat k).toNat]? = some leaves[k] := by
      rw [hindex, chain_leaf hk, List.getElem?_eq_getElem hk]
    exact evaluateNode_threshold hst hnode (hleaves _ (List.getElem_mem hk))
  induction i generalizing d st with
  | zero =>
    obtain ⟨d, rfl⟩ := Nat.exists_eq_succ_of_ne_zero (Nat.ne_of_gt hd)
    rw [List.take_succ_eq_append_getElem hi, List.take_zero, List.nil_append, List.map_singleton,
      kleeneAll_singleton]
    exact hleaf hi hst
  | succ i ih =>
    obtain ⟨d, rfl⟩ := Nat.exists_eq_succ_of_ne_zero (Nat.ne_of_gt (Nat.zero_lt_of_lt hd))
    obtain ⟨d, rfl⟩ := Nat.exists_eq_succ_of_ne_zero (by omega : d ≠ 0)
    have hnode := chain_link hi
    rw [← toNat_chainHead hsmall hi] at hnode
    rw [evaluateNode_all hst hnode rfl, chainLink, foldChildren_cons, foldChildren_cons]
    obtain ⟨hlower, hst'⟩ := ih (by omega) (Nat.lt_of_succ_lt_succ hd) hst
    obtain ⟨hlast, hst''⟩ := hleaf (d := d) hi hst'
    rw [List.take_succ_eq_append_getElem hi, List.map_append, List.map_singleton,
      kleeneAll_concat, ← hlower, ← hlast]
    refine ⟨?_, hst''⟩
    cases (evaluateNode (chainLeaves leaves) m (d + 1) st
      (UInt32.ofNat (chainHead leaves.length i))).1 <;> rfl

theorem evaluate_chainLeaves (hleaves : ∀ leaf ∈ leaves, leaf.kind = .threshold)
    (hne : leaves ≠ []) (h : (chainLeaves leaves).validate = .ok ()) (trace : ThresholdTrace) :
    ((chainLeaves leaves).evaluate m trace).1 =
      kleeneAll (leaves.map fun leaf => leaf.threshold.evaluate m) := by
  have hpos : 0 < leaves.length := List.length_pos_iff.mpr hne
  have hroot : (chainLeaves leaves).root =
      UInt32.ofNat (chainHead leaves.length (leaves.length - 1)) := by
    rw [chainLeaves_eq]
  have hlast : leaves.length - 1 < leaves.length := by omega
  have hvalid := h
  unfold RuleSet.validate at hvalid
  simp only [ite_makeStatus_eq_ok] at hvalid
  obtain ⟨-, hnodes, -, hvisit⟩ := hvalid
  have hsmall : 2 * leaves.length < 2 ^ 32 := by
    rw [chainLeaves_eq] at hnodes
    simp only [List.length_append, List.length_map, List.length_range, kMaxPolicyNodes] at hnodes
    omega
  rcases hcolour : validateNode (chainLeaves leaves) (kMaxRuleDepth + 1) (chainLeaves leaves).root
      (List.replicate (chainLeaves leaves).nodes.length 0) with e | colour
  · rw [hcolour] at hvisit
    cases hvisit
  have hnew : ∀ j : ℕ, (List.replicate (chainLeaves leaves).nodes.length (0 : UInt8))[j]? ≠ some 2 := by
    intro j hj
    exact absurd (List.eq_of_mem_replicate (List.mem_of_getElem? hj)) (by decide)
  rw [hroot] at hcolour
  have hdepth := lt_of_validate_chain hsmall hlast hnew hcolour
  have hfresh : ({ trace := trace } : EvalState).failed = false := rfl
  obtain ⟨hvalue, hrun⟩ := evaluate_chain (m := m) hsmall hleaves hlast hdepth hfresh
  rw [← hroot] at hvalue hrun
  rw [evaluate_of_not_failed h hrun, hvalue, Nat.sub_add_cancel hpos, List.take_length]

end Chain

/-- The rule that `scale_rule_set` returns evaluates to the conjunction of the scaled leaves. -/
theorem evaluate_scaleRuleSet {out : RuleSet} (h : scaleRuleSet rules scaleBp = .ok out) :
    scaleBp ≤ kBasisPointsScale ∧ ∃ leaves, scaledLeaves scaleBp rules.nodes = .ok leaves ∧
      ∀ m trace, (out.evaluate m trace).1 =
        kleeneAll (leaves.map fun leaf => leaf.threshold.evaluate m) := by
  unfold scaleRuleSet at h
  simp only [ite_makeStatus_eq_ok, not_or] at h
  obtain ⟨⟨-, hscale⟩, h⟩ := h
  rcases hleaves : scaledLeaves scaleBp rules.nodes with e | leaves
  · rw [hleaves] at h
    cases h
  refine ⟨UInt32.not_lt.mp hscale, leaves, rfl, fun m trace => ?_⟩
  rw [hleaves] at h
  dsimp only at h
  split at h
  · cases h
  next hvalid =>
  obtain rfl := Except.ok.inj h
  split_ifs with hempty
  · rw [List.isEmpty_iff.mp hempty]
    rfl
  · rw [if_neg hempty] at hvalid
    refine evaluate_chainLeaves ?_ (fun hnil => hempty (List.isEmpty_iff.mpr hnil)) hvalid trace
    intro leaf hleaf
    obtain ⟨node, -, -, -, scaled, -, rfl⟩ := (mem_scaledLeaves hleaves leaf).mp hleaf
    rfl

/-! ## Demanded leaves -/

/-- The nodes that a true rule demands: the root, and the children of a demanded conjunction. -/
inductive RuleSet.Demanded (rules : RuleSet) : UInt32 → Prop
  | root : Demanded rules rules.root
  | child {index child : UInt32} {node : RuleNode} : Demanded rules index →
      rules.nodes[index.toNat]? = some node → node.kind = .all → child ∈ node.children →
      Demanded rules child

/-- Every demanded node of a rule that holds has the value `True`. -/
theorem RuleSet.Demanded.value (hroot : rules.Value m rules.root .true) {index : UInt32}
    (h : rules.Demanded index) :
    rules.Value m index .true := by
  induction h with
  | root => exact hroot
  | @child index child node _ hnode hkind hchild ih =>
    have hcombines := ih.combines hnode
    rw [Combines, hkind] at hcombines
    obtain ⟨f, hf, hall⟩ := hcombines
    have hone : f child = .true := eq_true_of_kleeneAll hall.symm (List.mem_map_of_mem hchild)
    rw [← hone]
    exact hf child hchild

/-- The value of a validated rule that evaluates to `True`. -/
theorem value_of_evaluate_true {trace : ThresholdTrace} (hvalid : rules.validate = .ok ())
    (h : (rules.evaluate m trace).1 = .true) :
    rules.Value m rules.root .true := by
  have hrun : (evaluateNode rules m (kMaxRuleDepth + 1) { trace := trace } rules.root).2.failed =
      false := by
    by_contra hfailed
    unfold RuleSet.evaluate at h
    rw [if_neg (validate_root hvalid)] at h
    dsimp only at h
    rw [if_pos (Bool.eq_true_of_not_eq_false hfailed)] at h
    cases h
  have hvalue := value_of_not_failed (fun j hj => wellShaped_of_validate hvalid hj) rfl hrun
  rwa [← evaluate_of_not_failed hvalid hrun, h] at hvalue

theorem length_le_of_validate (h : rules.validate = .ok ()) :
    rules.nodes.length ≤ kMaxPolicyNodes := by
  unfold RuleSet.validate at h
  simp only [ite_makeStatus_eq_ok] at h
  exact Nat.not_lt.mp h.2.1

/-- A scaled instantaneous leaf of the enter rule is `False` on the measurements. -/
def PolicyDocument.FalseLeaf (p : PolicyDocument) (m : FlowMeasurements) (node : RuleNode) : Prop :=
  ∃ leaf, IsScaledLeaf p.hysteresis.exitScaleBp node leaf ∧ leaf.threshold.evaluate m = .false

/-- **When the synthesized exit rule is weaker than the enter rule.**  On measurements that satisfy
the enter rule, the exit rule does not evaluate to `False` if and only if no instantaneous threshold
of the node array of the enter rule is `False` at its scaled bound.  That is so whenever the enter
rule demands every instantaneous threshold it has. -/
theorem exit_not_false_iff_no_false_leaf {p : PolicyDocument} {exit : RuleSet}
    {m : FlowMeasurements} {trace : ThresholdTrace} (hvalid : p.validate = .ok ())
    (hnone : p.exitRule.empty = true) (hexit : effectiveExitRule p = .ok exit)
    (henter : (p.evaluateEnter m trace).1 = .true) (trace' : ThresholdTrace) :
    ((exit.evaluate m trace').1 ≠ .false ↔ ∀ node ∈ p.enterRule.nodes, ¬ p.FalseLeaf m node) ∧
      ((∀ (index : UInt32) (node : RuleNode), p.enterRule.nodes[index.toNat]? = some node →
          node.kind = .threshold → node.threshold.kind.instantaneous = true →
          p.enterRule.Demanded index) →
        (exit.evaluate m trace').1 ≠ .false) := by
  have hrule : scaleRuleSet p.enterRule p.hysteresis.exitScaleBp = .ok exit := by
    unfold effectiveExitRule at hexit
    rwa [if_neg (not_not.mpr hnone)] at hexit
  obtain ⟨hscale, leaves, hleaves, hvalue⟩ := evaluate_scaleRuleSet hrule
  have hiff : (exit.evaluate m trace').1 ≠ .false ↔
      ∀ node ∈ p.enterRule.nodes, ¬ p.FalseLeaf m node := by
    rw [hvalue, kleeneAll_ne_false_iff]
    constructor
    · rintro h node hnode ⟨leaf, hleaf, hfalse⟩
      have hmem := (mem_scaledLeaves hleaves leaf).mpr ⟨node, hnode, hleaf⟩
      exact h _ (List.mem_map_of_mem hmem) hfalse
    · intro h v hv hfalse
      obtain ⟨leaf, hmem, rfl⟩ := List.mem_map.mp hv
      obtain ⟨node, hnode, hleaf⟩ := (mem_scaledLeaves hleaves leaf).mp hmem
      exact h node hnode ⟨leaf, hleaf, hfalse⟩
  refine ⟨hiff, fun hdemand => hiff.mpr ?_⟩
  rintro node hnode ⟨leaf, ⟨hkind, hinst, scaled, hscaled, rfl⟩, hfalse⟩
  have hrules := enterRule_of_validate hvalid
  obtain ⟨i, hi, rfl⟩ := List.getElem_of_mem hnode
  have hindex : (UInt32.ofNat i).toNat = i := by
    apply UInt32.toNat_ofNat_of_lt'
    have hsize := length_le_of_validate hrules
    simp only [kMaxPolicyNodes, UInt32.size] at hsize ⊢
    omega
  have hnode' : p.enterRule.nodes[(UInt32.ofNat i).toNat]? = some p.enterRule.nodes[i] := by
    rw [hindex, List.getElem?_eq_getElem hi]
  have hdemanded := hdemand _ _ hnode' hkind hinst
  have hcombines := (hdemanded.value (value_of_evaluate_true hrules henter)).combines hnode'
  rw [Combines, hkind] at hcombines
  have htrue := Threshold.evaluate_lowered hinst (mulDiv_scaled_le hscale hscaled) hcombines.symm
  rw [htrue] at hfalse
  cases hfalse

/-- A peak and a sustained rate, under one connective. -/
def ratesPolicy (connective : RuleKind) : PolicyDocument where
  id := ⟨1⟩
  generation := ⟨1⟩
  enterRule :=
    { nodes := [{ kind := .threshold, threshold := { kind := .peakRate, value := 100 } },
        { kind := .threshold, threshold := { kind := .sustainedRate, value := 1000 } },
        { kind := connective, children := [0, 1] }]
      root := 2 }
  validity := ⟨0, 1000⟩
  provenance :=
    { publisher := { publisher := ⟨1⟩, boot := ⟨1⟩, epoch := ⟨1⟩, sequence := 1 }, schemaVersion := 1 }
  digest := 1

/-- The exit rule of both policies: the rates at 80 percent, in conjunction. -/
def ratesExit : RuleSet where
  nodes := [{ kind := .threshold, threshold := { kind := .peakRate, value := 80 } },
    { kind := .threshold, threshold := { kind := .sustainedRate, value := 800 } },
    { kind := .all, children := [0, 1] }]
  root := 2

/-- Measurements of a flow with the given rates. -/
def ratesMeasured (peak sustained : KiloTickRate) : FlowMeasurements where
  evidencePresent := true
  evidenceContiguous := true
  peakWindowRate := peak
  sustainedRate := sustained

theorem exit_not_false_conjunction :
    ((ratesPolicy .all).evaluateEnter (ratesMeasured 100 1000) {}).1 = .true ∧
      ∀ node ∈ (ratesPolicy .all).enterRule.nodes,
        ¬ (ratesPolicy .all).FalseLeaf (ratesMeasured 100 1000) node := by
  have hexit : effectiveExitRule (ratesPolicy .all) = .ok ratesExit := by decide +kernel
  have henter : ((ratesPolicy .all).evaluateEnter (ratesMeasured 100 1000) {}).1 = .true := by
    decide +kernel
  have hiff := (exit_not_false_iff_no_false_leaf (by decide +kernel) rfl hexit henter {}).1
  exact ⟨henter, hiff.mp (by decide +kernel)⟩

/-- A burst satisfies a disjunctive enter rule and makes the exit rule `False` at once. -/
theorem disjunction_leaves_while_it_holds :
    (ratesPolicy .any).validate = .ok () ∧ (ratesPolicy .any).exitRule.empty = true ∧
      effectiveExitRule (ratesPolicy .any) = .ok ratesExit ∧
      ((ratesPolicy .any).evaluateEnter (ratesMeasured 100 0) {}).1 = .true ∧
      (ratesExit.evaluate (ratesMeasured 100 0) {}).1 = .false := by
  decide +kernel

end EFG
