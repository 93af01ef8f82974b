/-
# Which valid policies have an exit rule

`effective_exit_rule` returns the exit rule that the policy states, or the one that
`scale_rule_set` synthesizes.  The stated rule was validated with the policy, but its evaluation
may still run out of depth.  The synthesized rule is a chain with one conjunction for each further
leaf, so it is as deep as there are instantaneous thresholds, and `scale_rule_set` validates it.

The search of `validate_node` accepts every well-shaped graph whose paths end within the depth
limit (`validate_of_within`).  So the chain is accepted exactly up to `kMaxRuleDepth + 1` leaves.
-/
import ElephantFlow.ExitRules
import ElephantFlow.Governor

namespace EFG

open Relation

/-! ## Bounded paths -/

section Within

variable {α : Type*} {R : α → α → Prop} {d d' : ℕ} {a b : α}

theorem Within.mono (h : Within R d a) (hd : d ≤ d') : Within R d' a :=
  fun path hpath => lt_of_lt_of_le (h path hpath) hd

/-- What can be reached has no longer paths than where it was reached from. -/
theorem Within.reach (h : Within R d a) (hab : ReflTransGen R a b) : Within R d b := by
  induction hab with
  | refl => exact h
  | tail _ hstep ih =>
    cases d with
    | zero => exact absurd ih (not_within_zero _)
    | succ d => exact (within_succ_iff.mp ih _ hstep).mono (Nat.le_succ d)

/-- Where the paths are bounded there is no cycle. -/
theorem Within.acyclic (h : Within R d a) : ¬ TransGen R a a := by
  induction d generalizing a with
  | zero => exact absurd h (not_within_zero a)
  | succ d ih =>
    intro hcycle
    obtain ⟨b, hab, hba⟩ := TransGen.head'_iff.mp hcycle
    exact ih ((within_succ_iff.mp h b hab).reach hba) hcycle

end Within

namespace RuleSet

variable {rules : RuleSet} {d : ℕ} {colour : List UInt8} {index : UInt32}

/-! ## What validation accepts -/

/-- No node that can be reached from `index` is on the stack of the search. -/
def Clear (rules : RuleSet) (colour : List UInt8) (index : UInt32) : Prop :=
  ∀ j, ReflTransGen rules.Child index j → colour[j.toNat]? ≠ some 1

/-- The nodes on the stack after a visit were on the stack before it. -/
def Unwinds (colour colour' : List UInt8) : Prop :=
  ∀ j : ℕ, colour'[j]? = some 1 → colour[j]? = some 1

theorem Clear.unwinds {colour' : List UInt8} (h : rules.Clear colour index)
    (hunwinds : Unwinds colour colour') : rules.Clear colour' index :=
  fun j hj hone => h j hj (hunwinds _ hone)

/-- The loop over the children succeeds if every visit does. -/
theorem validate_children {children : List UInt32}
    (hvisit : ∀ child ∈ children, ∀ colour, rules.Clear colour child → ∃ colour', validateNode rules
      d child colour = .ok colour' ∧ Unwinds colour colour')
    (hclear : ∀ child ∈ children, rules.Clear colour child) :
    ∃ colour', children.foldlM (fun colour child => validateNode rules d child colour) colour =
      .ok colour' ∧ Unwinds colour colour' := by
  induction children generalizing colour with
  | nil => exact ⟨colour, rfl, fun _ h => h⟩
  | cons child rest ih =>
    obtain ⟨next, hnext, hunwinds⟩ :=
      hvisit child List.mem_cons_self colour (hclear child List.mem_cons_self)
    obtain ⟨last, hlast, hunwinds'⟩ := ih (fun c hc => hvisit c (List.mem_cons_of_mem _ hc))
      (fun c hc => (hclear c (List.mem_cons_of_mem _ hc)).unwinds hunwinds)
    refine ⟨last, ?_, fun j hj => hunwinds j (hunwinds' j hj)⟩
    rw [List.foldlM_cons, hnext]
    exact hlast

/-- Entering a node leaves the way below its children clear, for the node is not below itself. -/
theorem Clear.enter {child : UInt32} (h : rules.Clear colour index)
    (hw : Within rules.Child d index) (hchild : rules.Child index child) :
    rules.Clear (colour.set index.toNat 1) child := by
  intro j hj
  have hne : index.toNat ≠ j.toNat := by
    intro heq
    obtain rfl := UInt32.toNat_inj.mp heq
    exact hw.acyclic (TransGen.head'_iff.mpr ⟨child, hchild, hj⟩)
  rw [List.getElem?_set_ne hne]
  exact h j (.head hchild hj)

/-- The search succeeds below a node whose paths are bounded by the depth it is given. -/
theorem validateNode_of_within (hs : rules.Sound index) (hw : Within rules.Child d index)
    (hclear : rules.Clear colour index) :
    ∃ colour', validateNode rules d index colour = .ok colour' ∧ Unwinds colour colour' := by
  induction d generalizing index colour with
  | zero => exact absurd hw (not_within_zero index)
  | succ d ih =>
    obtain ⟨node, hnode, hshape⟩ := hs index .refl
    have hchild : ∀ child ∈ node.children, rules.Child index child :=
      fun child hmem => ⟨node, hnode, hmem⟩
    obtain ⟨last, hlast, hunwinds⟩ := validate_children (d := d)
      (fun child hmem colour hclear => ih (hs.child (hchild child hmem))
        (within_succ_iff.mp hw child (hchild child hmem)) hclear)
      (fun child hmem => hclear.enter hw (hchild child hmem))
    unfold validateNode
    rw [hnode]
    dsimp only
    rw [if_neg (hclear index .refl)]
    by_cases hdone : colour[index.toNat]? = some 2
    · rw [if_pos hdone]
      exact ⟨colour, rfl, fun _ h => h⟩
    rw [if_neg hdone, hshape, hlast]
    refine ⟨_, rfl, fun j hj => ?_⟩
    -- the node itself is left, and the others were there before it was entered
    have hne : index.toNat ≠ j := by
      rintro rfl
      rw [List.getElem?_set, if_pos rfl] at hj
      split_ifs at hj
      exact absurd (Option.some.inj hj) (by decide)
    rw [List.getElem?_set_ne hne] at hj
    have hbefore := hunwinds j hj
    rwa [List.getElem?_set_ne hne] at hbefore

/-- A well-shaped graph of bounded paths validates. -/
theorem validate_of_within (hsize : rules.nodes.length ≤ kMaxPolicyNodes)
    (hs : rules.Sound rules.root) (hw : Within rules.Child (kMaxRuleDepth + 1) rules.root) :
    rules.validate = .ok () := by
  obtain ⟨node, hnode, -⟩ := hs rules.root .refl
  obtain ⟨hroot, -⟩ := List.getElem?_eq_some_iff.mp hnode
  have hclear : rules.Clear (List.replicate rules.nodes.length 0) rules.root := by
    intro j _ hj
    exact absurd (List.eq_of_mem_replicate (List.mem_of_getElem? hj)) (by decide)
  obtain ⟨colour, hvisit, -⟩ := validateNode_of_within hs hw hclear
  have hne : ¬ rules.nodes.isEmpty = true := by
    intro hempty
    rw [List.isEmpty_iff.mp hempty] at hroot
    exact absurd hroot (Nat.not_lt_zero _)
  unfold RuleSet.validate
  rw [if_neg hne, if_neg (Nat.not_lt.mpr hsize), if_neg (Nat.not_le.mpr hroot), hvisit]

theorem bounded_of_children {node : RuleNode} (hnode : rules.nodes[index.toNat]? = some node)
    (hshape : node.checkShape = .ok ())
    (hchildren : ∀ child ∈ node.children, rules.Sound child ∧ Within rules.Child d child) :
    rules.Sound index ∧ Within rules.Child (d + 1) index := by
  have hbelow : ∀ child, rules.Child index child →
      rules.Sound child ∧ Within rules.Child d child := by
    rintro child ⟨node', hnode', hmem⟩
    obtain rfl := Option.some.inj (hnode.symm.trans hnode')
    exact hchildren child hmem
  refine ⟨fun j hj => ?_, within_succ_iff.mpr fun child hchild => (hbelow child hchild).2⟩
  rcases ReflTransGen.cases_head hj with rfl | ⟨child, hchild, hj⟩
  · exact ⟨node, hnode, hshape⟩
  · exact (hbelow child hchild).1 j hj

end RuleSet

open RuleSet

/-! ## The chain validates up to the depth limit -/

section Chain

variable {leaves : List RuleNode} {d : ℕ}

theorem bounded_leaf (hsmall : 2 * leaves.length < 2 ^ 32)
    (hleaves : ∀ leaf ∈ leaves, leaf.children = [] ∧ leaf.checkShape = .ok ()) {k : ℕ}
    (hk : k < leaves.length) :
    (chainLeaves leaves).Sound (UInt32.ofNat k) ∧
      Within (chainLeaves leaves).Child (d + 1) (UInt32.ofNat k) := by
  have hindex : (UInt32.ofNat k).toNat = k :=
    UInt32.toNat_ofNat_of_lt' (by simp only [UInt32.size]; omega)
  have hnode : (chainLeaves leaves).nodes[(UInt32.ofNat k).toNat]? = some leaves[k] := by
    rw [hindex, chain_leaf hk, List.getElem?_eq_getElem hk]
  obtain ⟨hnone, hshape⟩ := hleaves _ (List.getElem_mem hk)
  refine bounded_of_children hnode hshape fun child hmem => ?_
  rw [hnone] at hmem
  exact absurd hmem List.not_mem_nil

/-- So is the conjunction of the first leaves, by their number. -/
theorem bounded_chain (hsmall : 2 * leaves.length < 2 ^ 32)
    (hleaves : ∀ leaf ∈ leaves, leaf.children = [] ∧ leaf.checkShape = .ok ()) {i : ℕ}
    (hi : i < leaves.length) (hd : i < d) :
    (chainLeaves leaves).Sound (UInt32.ofNat (chainHead leaves.length i)) ∧
      Within (chainLeaves leaves).Child d (UInt32.ofNat (chainHead leaves.length i)) := by
  induction i generalizing d with
  | zero =>
    obtain ⟨d, rfl⟩ := Nat.exists_eq_succ_of_ne_zero (Nat.ne_of_gt hd)
    exact bounded_leaf hsmall hleaves hi
  | succ i ih =>
    obtain ⟨d, rfl⟩ := Nat.exists_eq_succ_of_ne_zero (Nat.ne_of_gt (Nat.zero_lt_of_lt hd))
    obtain ⟨d, rfl⟩ := Nat.exists_eq_succ_of_ne_zero (by omega : d ≠ 0)
    have hnode := chain_link hi
    rw [← toNat_chainHead hsmall hi] at hnode
    refine bounded_of_children hnode rfl fun child hmem => ?_
    simp only [chainLink, List.mem_cons, List.not_mem_nil, or_false] at hmem
    rcases hmem with rfl | rfl
    · exact ih (by omega) (by omega)
    · exact bounded_leaf hsmall hleaves hi

theorem length_chainLeaves (leaves : List RuleNode) :
    (chainLeaves leaves).nodes.length = leaves.length + (leaves.length - 1) := by
  rw [chainLeaves_eq]
  simp

theorem validate_chainLeaves_iff (hne : leaves ≠ [])
    (hleaves : ∀ leaf ∈ leaves, leaf.children = [] ∧ leaf.checkShape = .ok ()) :
    (chainLeaves leaves).validate = .ok () ↔ leaves.length ≤ kMaxRuleDepth + 1 := by
  have hpos : 0 < leaves.length := List.length_pos_iff.mpr hne
  have hroot : (chainLeaves leaves).root =
      UInt32.ofNat (chainHead leaves.length (leaves.length - 1)) := by
    rw [chainLeaves_eq]
  have hlength := length_chainLeaves leaves
  constructor
  · intro h
    have hsize := length_le_of_validate h
    obtain ⟨colour, hvisit⟩ : ∃ colour, validateNode (chainLeaves leaves) (kMaxRuleDepth + 1)
        (chainLeaves leaves).root (List.replicate (chainLeaves leaves).nodes.length 0) =
          .ok colour := by
      unfold RuleSet.validate at h
      simp only [ite_makeStatus_eq_ok] at h
      obtain ⟨-, -, -, h⟩ := h
      split at h
      · cases h
      · exact ⟨_, by assumption⟩
    have hnew : ∀ j : ℕ,
        (List.replicate (chainLeaves leaves).nodes.length (0 : UInt8))[j]? ≠ some 2 := by
      intro j hj
      exact absurd (List.eq_of_mem_replicate (List.mem_of_getElem? hj)) (by decide)
    rw [hroot] at hvisit
    have hdepth := lt_of_validate_chain (by simp only [kMaxPolicyNodes] at hsize; omega)
      (by omega) hnew hvisit
    omega
  · intro h
    simp only [kMaxRuleDepth] at h
    have hbounded := @bounded_chain leaves (kMaxRuleDepth + 1) (by omega) hleaves
      (leaves.length - 1) (by omega) (by simp only [kMaxRuleDepth]; omega)
    rw [← hroot] at hbounded
    exact validate_of_within (by simp only [kMaxPolicyNodes]; omega) hbounded.1 hbounded.2

end Chain

/-! ## Which bounds can be scaled -/

/-- `scale_rule_set` keeps the node as a leaf. -/
def RuleNode.kept (node : RuleNode) : Bool :=
  node.kind = .threshold && node.threshold.kind.instantaneous

/-- `mul_div` computes the scaled bound. -/
def Threshold.Scalable (t : Threshold) (scaleBp : BasisPoints) : Prop :=
  10000 ∣ t.value.toNat ∨ scaleBp = kBasisPointsScale ∨ t.value.toNat * scaleBp.toNat < 2 ^ 64

instance (t : Threshold) (scaleBp : BasisPoints) : Decidable (t.Scalable scaleBp) :=
  inferInstanceAs (Decidable (_ ∨ _ ∨ _))

variable {scaleBp : BasisPoints} {nodes leaves : List RuleNode} {rules : RuleSet}

theorem kept_iff {node : RuleNode} :
    node.kept = true ↔ node.kind = .threshold ∧ node.threshold.kind.instantaneous = true := by
  simp [RuleNode.kept]

/-- A bound scaled by at most the whole always fits, so only the product stands in the way. -/
theorem scalable_iff (hpos : scaleBp ≠ 0) (hscale : scaleBp ≤ kBasisPointsScale) (t : Threshold) :
    t.Scalable scaleBp ↔
      ∃ scaled, mulDiv t.value scaleBp.toUInt64 kBasisPointsScale.toUInt64 = some scaled := by
  have hwhole : (kBasisPointsScale.toUInt64).toNat = 10000 := rfl
  have hpart : scaleBp.toNat ≤ 10000 := UInt32.le_iff_toNat_le.mp hscale
  have hzero : scaleBp.toNat ≠ 0 := fun h => hpos (UInt32.toNat_inj.mp h)
  have hall : 10000 ∣ scaleBp.toNat ↔ scaleBp = kBasisPointsScale := by
    constructor
    · intro hdvd
      have hle := Nat.le_of_dvd (Nat.pos_of_ne_zero hzero) hdvd
      exact UInt32.toNat_inj.mp (Nat.le_antisymm hpart hle)
    · rintro rfl
      exact Nat.dvd_refl 10000
  have hmap := map_mulDiv t.value scaleBp.toUInt64 kBasisPointsScale.toUInt64
  rw [hwhole, UInt32.toNat_toUInt64] at hmap
  simp only [hall] at hmap
  unfold Threshold.Scalable
  have hfits : t.value.toNat * scaleBp.toNat / 10000 < 2 ^ 64 := by
    have hle : t.value.toNat * scaleBp.toNat / 10000 ≤ t.value.toNat := by
      apply Nat.div_le_of_le_mul
      rw [Nat.mul_comm 10000]
      exact Nat.mul_le_mul_left _ hpart
    exact lt_of_le_of_lt hle t.value.toNat_lt
  constructor
  · intro h
    unfold exactMulDiv at hmap
    rw [if_pos h, if_pos ⟨by omega, hfits⟩, Option.map_eq_some_iff] at hmap
    obtain ⟨scaled, hscaled, -⟩ := hmap
    exact ⟨scaled, hscaled⟩
  · rintro ⟨scaled, hscaled⟩
    by_contra hnot
    rw [hscaled, if_neg hnot] at hmap
    cases hmap

/-- The first loop of `scale_rule_set` succeeds exactly if it can scale what it keeps. -/
theorem scaledLeaves_ok_iff (hpos : scaleBp ≠ 0) (hscale : scaleBp ≤ kBasisPointsScale) :
    (∃ leaves, scaledLeaves scaleBp nodes = .ok leaves) ↔
      ∀ node ∈ nodes, node.kept = true → node.threshold.Scalable scaleBp := by
  induction nodes with
  | nil => exact ⟨fun _ node hnode => absurd hnode List.not_mem_nil, fun _ => ⟨[], rfl⟩⟩
  | cons node rest ih =>
    rw [List.forall_mem_cons]
    unfold scaledLeaves
    rw [← ih]
    by_cases hkept : node.kind = .threshold ∧ node.threshold.kind.instantaneous = true
    · rw [if_pos hkept, scalable_iff hpos hscale]
      rcases mulDiv node.threshold.value scaleBp.toUInt64 kBasisPointsScale.toUInt64 with
        _ | scaled
      · constructor
        · rintro ⟨leaves, h⟩
          cases h
        · rintro ⟨h, -⟩
          obtain ⟨scaled, hscaled⟩ := h (kept_iff.mpr hkept)
          cases hscaled
      · rcases scaledLeaves scaleBp rest with e | leaves
        · constructor
          · rintro ⟨leaves, h⟩
            cases h
          · rintro ⟨-, leaves, h⟩
            cases h
        · exact ⟨fun _ => ⟨fun _ => ⟨scaled, rfl⟩, leaves, rfl⟩, fun _ => ⟨_, rfl⟩⟩
    · rw [if_neg hkept]
      constructor
      · intro h
        exact ⟨fun hk => absurd (kept_iff.mp hk) hkept, h⟩
      · exact fun h => h.2

/-- It makes one leaf of each node that it keeps. -/
theorem length_scaledLeaves (h : scaledLeaves scaleBp nodes = .ok leaves) :
    leaves.length = nodes.countP RuleNode.kept := by
  induction nodes generalizing leaves with
  | nil =>
    obtain rfl := Except.ok.inj h
    rfl
  | cons node rest ih =>
    unfold scaledLeaves at h
    by_cases hkept : node.kind = .threshold ∧ node.threshold.kind.instantaneous = true
    · rw [if_pos hkept] at h
      rw [List.countP_cons_of_pos (kept_iff.mpr hkept)]
      rcases hscaled : mulDiv node.threshold.value scaleBp.toUInt64 kBasisPointsScale.toUInt64 with
        _ | scaled
      · rw [hscaled] at h
        cases h
      rw [hscaled] at h
      dsimp only at h
      rcases hrest : scaledLeaves scaleBp rest with e | leaves'
      · rw [hrest] at h
        cases h
      rw [hrest] at h
      obtain rfl := Except.ok.inj h
      rw [List.length_cons, ih hrest]
    · rw [if_neg hkept] at h
      rw [List.countP_cons_of_neg (fun hk => hkept (kept_iff.mp hk))]
      exact ih h

theorem shape_scaledLeaves (h : scaledLeaves scaleBp nodes = .ok leaves) :
    ∀ leaf ∈ leaves, leaf.children = [] ∧ leaf.checkShape = .ok () := by
  intro leaf hleaf
  obtain ⟨node, -, -, hkind, scaled, -, rfl⟩ := (mem_scaledLeaves h leaf).mp hleaf
  refine ⟨rfl, ?_⟩
  have hcount : node.threshold.kind ≠ .count := by
    intro hcount
    rw [hcount] at hkind
    cases hkind
  simp [RuleNode.checkShape, hcount]

/-- When `scale_rule_set` synthesizes a rule. -/
theorem scaleRuleSet_ok_iff (hpos : scaleBp ≠ 0) (hscale : scaleBp ≤ kBasisPointsScale) :
    (∃ out, scaleRuleSet rules scaleBp = .ok out) ↔
      rules.nodes.countP RuleNode.kept ≤ kMaxRuleDepth + 1 ∧
        ∀ node ∈ rules.nodes, node.kept = true → node.threshold.Scalable scaleBp := by
  rw [← scaledLeaves_ok_iff hpos hscale]
  unfold scaleRuleSet
  rw [if_neg (not_or.mpr ⟨hpos, UInt32.not_lt.mpr hscale⟩)]
  rcases hleaves : scaledLeaves scaleBp rules.nodes with e | leaves
  · constructor
    · rintro ⟨out, h⟩
      cases h
    · rintro ⟨-, leaves, h⟩
      cases h
  rw [← length_scaledLeaves hleaves]
  dsimp only
  by_cases hempty : leaves.isEmpty = true
  · rw [List.isEmpty_iff.mp hempty]
    exact ⟨fun _ => ⟨Nat.zero_le _, [], rfl⟩, fun _ => ⟨_, rfl⟩⟩
  rw [if_neg hempty, ← validate_chainLeaves_iff (fun h => hempty (List.isEmpty_iff.mpr h))
    (shape_scaledLeaves hleaves)]
  rcases (chainLeaves leaves).validate with e | u
  · constructor
    · rintro ⟨out, h⟩
      cases h
    · rintro ⟨h, -⟩
      cases h
  · exact ⟨fun _ => ⟨rfl, leaves, rfl⟩, fun _ => ⟨_, rfl⟩⟩

/-! ## The exit rule of a valid policy -/

/-- The policy has an exit rule that validates and never runs out of depth or nodes, and a governor
without a policy takes it. -/
def PolicyDocument.HasExitRule (p : PolicyDocument) : Prop :=
  (∃ rules, effectiveExitRule p = .ok rules ∧ rules.validate = .ok () ∧
    ∀ m trace, (evaluateNode rules m (kMaxRuleDepth + 1) { trace := trace } rules.root).2.failed =
      false) ∧
  ∀ g : Governor, g.policy = none → isOk (g.submitPolicy p).1 = true

/-- No path of a stated exit rule is too long; and without one, the instantaneous thresholds of the
enter rule are not too many and can be scaled. -/
def PolicyDocument.ExitRuleFits (p : PolicyDocument) : Prop :=
  (p.exitRule.empty = false → ∀ path, (p.exitRule.root :: path).IsChain p.exitRule.Child →
    path.length ≤ kMaxRuleDepth) ∧
  (p.exitRule.empty = true → p.enterRule.nodes.countP RuleNode.kept ≤ kMaxRuleDepth + 1 ∧
    ∀ node ∈ p.enterRule.nodes, node.kept = true →
      node.threshold.Scalable p.hysteresis.exitScaleBp)

theorem submitPolicy_of_effectiveExitRule {g : Governor} {p : PolicyDocument}
    (hvalid : p.validate = .ok ()) (hrules : effectiveExitRule p = .ok rules)
    (hnone : g.policy = none) : isOk (g.submitPolicy p).1 = true := by
  unfold Governor.submitPolicy Governor.installPolicy
  rw [hvalid, hnone, hrules]
  rfl

theorem not_failed_iff_within (h : rules.validate = .ok ()) :
    (∀ m trace, (evaluateNode rules m (kMaxRuleDepth + 1) { trace := trace } rules.root).2.failed =
      false) ↔ Within rules.Child (kMaxRuleDepth + 1) rules.root := by
  have hs : rules.Sound rules.root := fun j hj => wellShaped_of_validate h hj
  constructor
  · intro hrun
    exact within_of_not_failed hs (hrun {} {})
  · intro hw m trace
    obtain ⟨_, -, hrun⟩ := exists_value_of_within (m := m) hs hw
    exact (hrun { trace := trace } rfl).2

/-- The paths of a synthesized rule are bounded. -/
theorem within_of_scaleRuleSet {out : RuleSet} (h : scaleRuleSet rules scaleBp = .ok out) :
    out.validate = .ok () ∧ Within out.Child (kMaxRuleDepth + 1) out.root := by
  unfold scaleRuleSet at h
  simp only [ite_makeStatus_eq_ok] at h
  obtain ⟨-, h⟩ := h
  rcases hleaves : scaledLeaves scaleBp rules.nodes with e | leaves
  · rw [hleaves] at h
    cases h
  rw [hleaves] at h
  dsimp only at h
  split at h
  · cases h
  next hvalid =>
  obtain rfl := Except.ok.inj h
  refine ⟨hvalid, ?_⟩
  by_cases hempty : leaves.isEmpty = true
  · rw [if_pos hempty]
    refine (bounded_of_children (d := kMaxRuleDepth) rfl rfl fun child hmem => ?_).2
    exact absurd hmem List.not_mem_nil
  · rw [if_neg hempty] at hvalid ⊢
    have hne : leaves ≠ [] := fun h => hempty (List.isEmpty_iff.mpr h)
    have hpos : 0 < leaves.length := List.length_pos_iff.mpr hne
    have hshape := shape_scaledLeaves hleaves
    have hcount := (validate_chainLeaves_iff hne hshape).mp hvalid
    have hroot : (chainLeaves leaves).root =
        UInt32.ofNat (chainHead leaves.length (leaves.length - 1)) := by
      rw [chainLeaves_eq]
    rw [hroot]
    simp only [kMaxRuleDepth] at hcount ⊢
    exact (bounded_chain (by omega) hshape (by omega) (by omega)).2

/-- **When a valid policy has an exit rule.**  `effective_exit_rule` gives a valid policy a rule that
validates and never fails exactly if no path of a stated exit rule is too long, or, where it is
synthesized, if there are at most `kMaxRuleDepth + 1` instantaneous thresholds and all of them can be
scaled. -/
theorem hasExitRule_iff {p : PolicyDocument} (hvalid : p.validate = .ok ()) :
    p.HasExitRule ↔ p.ExitRuleFits := by
  obtain ⟨-, hexit, -⟩ := rules_of_validate hvalid
  obtain ⟨hpos, hscale⟩ := exitScale_of_validate hvalid
  unfold PolicyDocument.HasExitRule PolicyDocument.ExitRuleFits
  by_cases hempty : p.exitRule.empty = true
  · have heff : effectiveExitRule p = scaleRuleSet p.enterRule p.hysteresis.exitScaleBp := by
      unfold effectiveExitRule
      rw [if_neg (not_not.mpr hempty)]
    rw [← scaleRuleSet_ok_iff hpos hscale, ← heff]
    constructor
    · rintro ⟨⟨rules, hrules, -⟩, -⟩
      exact ⟨fun hne => absurd (hempty.symm.trans hne) (by decide), fun _ => ⟨rules, hrules⟩⟩
    · rintro ⟨-, h⟩
      obtain ⟨rules, hrules⟩ := h hempty
      obtain ⟨hchain, hw⟩ := within_of_scaleRuleSet (heff.symm.trans hrules)
      exact ⟨⟨rules, hrules, hchain, (not_failed_iff_within hchain).mpr hw⟩,
        fun g hnone => submitPolicy_of_effectiveExitRule hvalid hrules hnone⟩
  · have hstated : p.exitRule.validate = .ok () := hexit.resolve_left hempty
    have heff : effectiveExitRule p = .ok p.exitRule := by
      unfold effectiveExitRule
      rw [if_pos hempty]
    constructor
    · rintro ⟨⟨rules, hrules, -, hrun⟩, -⟩
      obtain rfl := Except.ok.inj (heff.symm.trans hrules)
      have hw := (not_failed_iff_within hstated).mp hrun
      exact ⟨fun _ path hpath => Nat.lt_succ_iff.mp (hw path hpath),
        fun hnone => absurd hnone hempty⟩
    · rintro ⟨h, -⟩
      have hw : Within p.exitRule.Child (kMaxRuleDepth + 1) p.exitRule.root :=
        fun path hpath => Nat.lt_succ_iff.mpr (h (by simpa using hempty) path hpath)
      exact ⟨⟨p.exitRule, heff, hstated, (not_failed_iff_within hstated).mpr hw⟩,
        fun g hnone => submitPolicy_of_effectiveExitRule hvalid heff hnone⟩

theorem hasExitRule_rates :
    (ratesPolicy .all).validate = .ok () ∧ (ratesPolicy .all).HasExitRule := by
  have hvalid : (ratesPolicy .all).validate = .ok () := by decide +kernel
  refine ⟨hvalid, (hasExitRule_iff hvalid).mpr ⟨fun hne => ?_, fun _ => by decide +kernel⟩⟩
  exact absurd hne (by decide)

/-- A policy whose enter rule demands 34 peak rates. -/
def manyPeaks : PolicyDocument :=
  { ratesPolicy .all with
    enterRule :=
      { nodes := (List.range 34).map (fun i =>
            { kind := .threshold, threshold := { kind := .peakRate, value := UInt64.ofNat i } }) ++
          [{ kind := .all, children := (List.range 34).map UInt32.ofNat }]
        root := 34 } }

/-- The rule is flat and validates, and no exit rule can be made of it. -/
theorem manyPeaks_has_no_exitRule :
    manyPeaks.validate = .ok () ∧
      effectiveExitRule manyPeaks =
        makeStatus .outOfRange "rule nesting exceeds the supported depth" ∧
      isOk ((Governor.make {}).submitPolicy manyPeaks).1 = false := by
  decide +kernel

end EFG
