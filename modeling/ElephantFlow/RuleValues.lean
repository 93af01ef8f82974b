/-
# The value of a rule graph

A rule set is an array of nodes that name their children by index, so that one node may be the
child of several others.  Its meaning is the strong Kleene value of the graph below the root
(`Value`).  `validate_node` walks the graph depth first and returns early at a node it has
already left, while `evaluate_node` walks every path anew and gives up below `kMaxRuleDepth`.

The two agree exactly when the depth limit holds on every path of the graph and not only on the
first one that reaches a node.
-/
import ElephantFlow.Policy

namespace EFG

/-! ## Strong Kleene connectives over lists -/

/-- The Kleene conjunction of a list of values. -/
def kleeneAll (values : List Tri) : Tri :=
  if .false ∈ values then .false else if .unknown ∈ values then .unknown else .true

/-- The Kleene disjunction of a list of values. -/
def kleeneAny (values : List Tri) : Tri :=
  if .true ∈ values then .true else if .unknown ∈ values then .unknown else .false

theorem foldl_triAnd (values : List Tri) (v : Tri) :
    values.foldl triAnd v = kleeneAll (v :: values) := by
  induction values generalizing v with
  | nil => cases v <;> rfl
  | cons w rest ih =>
    rw [List.foldl_cons, ih]
    cases v <;> cases w <;> simp [kleeneAll, triAnd]

theorem foldl_triOr (values : List Tri) (v : Tri) :
    values.foldl triOr v = kleeneAny (v :: values) := by
  induction values generalizing v with
  | nil => cases v <;> rfl
  | cons w rest ih =>
    rw [List.foldl_cons, ih]
    cases v <;> cases w <;> simp [kleeneAny, triOr]

@[simp] theorem kleeneAll_true_cons (values : List Tri) :
    kleeneAll (.true :: values) = kleeneAll values := by
  simp [kleeneAll]

@[simp] theorem kleeneAny_false_cons (values : List Tri) :
    kleeneAny (.false :: values) = kleeneAny values := by
  simp [kleeneAny]

/-! ## Paths of bounded length -/

section Within

variable {α : Type*} {R : α → α → Prop}

/-- Every chain that starts at `a` has fewer than `d` edges. -/
def Within (R : α → α → Prop) (d : ℕ) (a : α) : Prop :=
  ∀ path, (a :: path).IsChain R → path.length < d

theorem not_within_zero (a : α) : ¬ Within R 0 a := by
  intro h
  exact Nat.not_lt_zero _ (h [] (List.isChain_singleton a))

theorem within_succ_iff {d : ℕ} {a : α} : Within R (d + 1) a ↔ ∀ b, R a b → Within R d b := by
  constructor
  · intro h b hab path hpath
    have hlong := h (b :: path) (List.IsChain.cons_cons hab hpath)
    simpa using hlong
  · intro h path hpath
    cases path with
    | nil => exact Nat.succ_pos d
    | cons b rest =>
      rw [List.isChain_cons_cons] at hpath
      exact Nat.succ_lt_succ (h b hpath.1 rest hpath.2)

end Within

namespace RuleSet

/-! ## The meaning of a rule graph -/

/-- `child` is one of the children of the node at `index`. -/
def Child (rules : RuleSet) (index child : UInt32) : Prop :=
  ∃ node, rules.nodes[index.toNat]? = some node ∧ child ∈ node.children

/-- The strong Kleene value of the graph below a node: a leaf has the value of its threshold, and
a composite node combines the values of its children. -/
inductive Value (rules : RuleSet) (m : FlowMeasurements) : UInt32 → Tri → Prop
  | threshold {index : UInt32} {node : RuleNode} :
      rules.nodes[index.toNat]? = some node → node.kind = .threshold →
      Value rules m index (node.threshold.evaluate m)
  | all {index : UInt32} {node : RuleNode} {f : UInt32 → Tri} :
      rules.nodes[index.toNat]? = some node → node.kind = .all →
      (∀ child ∈ node.children, Value rules m child (f child)) →
      Value rules m index (kleeneAll (node.children.map f))
  | any {index : UInt32} {node : RuleNode} {f : UInt32 → Tri} :
      rules.nodes[index.toNat]? = some node → node.kind = .any →
      (∀ child ∈ node.children, Value rules m child (f child)) →
      Value rules m index (kleeneAny (node.children.map f))
  | not {index child : UInt32} {node : RuleNode} {v : Tri} :
      rules.nodes[index.toNat]? = some node → node.kind = .not → node.children = [child] →
      Value rules m child v → Value rules m index (triNot v)

variable {rules : RuleSet} {m : FlowMeasurements}

/-- How the value of a node comes from the values of its children. -/
def Combines (rules : RuleSet) (m : FlowMeasurements) (node : RuleNode) (v : Tri) : Prop :=
  match node.kind with
  | .threshold => v = node.threshold.evaluate m
  | .all => ∃ f, (∀ child ∈ node.children, rules.Value m child (f child)) ∧
      v = kleeneAll (node.children.map f)
  | .any => ∃ f, (∀ child ∈ node.children, rules.Value m child (f child)) ∧
      v = kleeneAny (node.children.map f)
  | .not => ∃ child w, node.children = [child] ∧ rules.Value m child w ∧ v = triNot w

theorem Value.combines {index : UInt32} {v : Tri} {node : RuleNode} (h : rules.Value m index v)
    (hnode : rules.nodes[index.toNat]? = some node) : rules.Combines m node v := by
  unfold Combines
  cases h with
  | threshold hnode' hkind =>
    obtain rfl := Option.some.inj (hnode'.symm.trans hnode)
    rw [hkind]
  | all hnode' hkind hf | any hnode' hkind hf =>
    obtain rfl := Option.some.inj (hnode'.symm.trans hnode)
    rw [hkind]
    exact ⟨_, hf, rfl⟩
  | not hnode' hkind hchild hv =>
    obtain rfl := Option.some.inj (hnode'.symm.trans hnode)
    rw [hkind]
    exact ⟨_, _, hchild, hv, rfl⟩

/-- A node has at most one value. -/
theorem Value.unique {index : UInt32} {v w : Tri} (hv : rules.Value m index v)
    (hw : rules.Value m index w) : v = w := by
  induction hv generalizing w with
  | threshold hnode hkind =>
    have hcombines := hw.combines hnode
    rw [Combines, hkind] at hcombines
    exact hcombines.symm
  | all hnode hkind _ ih =>
    have hcombines := hw.combines hnode
    rw [Combines, hkind] at hcombines
    obtain ⟨f', hf', rfl⟩ := hcombines
    exact congrArg kleeneAll (List.map_congr_left fun c hc => ih c hc (hf' c hc))
  | any hnode hkind _ ih =>
    have hcombines := hw.combines hnode
    rw [Combines, hkind] at hcombines
    obtain ⟨f', hf', rfl⟩ := hcombines
    exact congrArg kleeneAny (List.map_congr_left fun c hc => ih c hc (hf' c hc))
  | not hnode hkind hchild _ ih =>
    have hcombines := hw.combines hnode
    rw [Combines, hkind] at hcombines
    obtain ⟨c', v', hchild', hv', rfl⟩ := hcombines
    obtain rfl := List.head_eq_of_cons_eq (hchild.symm.trans hchild')
    rw [ih hv']

/-! ## What validation establishes -/

/-- The node at `index` exists and has the shape of its kind. -/
def WellShaped (rules : RuleSet) (index : UInt32) : Prop :=
  ∃ node, rules.nodes[index.toNat]? = some node ∧ node.checkShape = .ok ()

end RuleSet

variable {node : RuleNode}

theorem RuleNode.children_of_threshold (h : node.checkShape = .ok ())
    (hkind : node.kind = .threshold) : node.children = [] := by
  unfold RuleNode.checkShape at h
  rw [hkind] at h
  simp only [ite_makeStatus_eq_ok, not_not] at h
  exact List.isEmpty_iff.mp h.1

theorem RuleNode.children_of_not (h : node.checkShape = .ok ()) (hkind : node.kind = .not) :
    ∃ child, node.children = [child] := by
  unfold RuleNode.checkShape at h
  rw [hkind] at h
  simp only [ite_makeStatus_eq_ok, not_not] at h
  exact List.length_eq_one_iff.mp h.1

namespace RuleSet

variable {rules : RuleSet} {m : FlowMeasurements} {colour colour' : List UInt8} {d : ℕ}
  {children : List UInt32} {index : UInt32} {st : EvalState} {op : Tri → Tri → Tri}
  {acc : Tri × EvalState}

/-- Between two visits of the depth-first search: a node that was left is well shaped and so were
all its children. -/
def Closed (rules : RuleSet) (colour : List UInt8) : Prop :=
  ∀ index : UInt32, colour[index.toNat]? = some 2 → rules.WellShaped index ∧
    ∀ child, rules.Child index child → colour[child.toNat]? = some 2

/-- What a visit keeps of the colours: their number, and the nodes already left. -/
structure Extends (colour colour' : List UInt8) : Prop where
  length : colour'.length = colour.length
  left : ∀ index : ℕ, colour[index]? = some 2 → colour'[index]? = some 2

theorem Extends.refl (colour : List UInt8) : Extends colour colour :=
  ⟨rfl, fun _ h => h⟩

theorem Extends.trans {a b c : List UInt8} (hab : Extends a b) (hbc : Extends b c) : Extends a c :=
  ⟨hbc.length.trans hab.length, fun i h => hbc.left i (hab.left i h)⟩

/-- Entering a node that was not left before forgets no node that was. -/
theorem Extends.enter {i : ℕ} (h : colour[i]? ≠ some 2) : Extends colour (colour.set i 1) := by
  refine ⟨List.length_set, fun j hj => ?_⟩
  have hne : i ≠ j := by
    rintro rfl
    exact h hj
  rw [List.getElem?_set_ne hne]
  exact hj

/-- Leaving a node adds it to the nodes left. -/
theorem Extends.leave (colour : List UInt8) (i : ℕ) : Extends colour (colour.set i 2) := by
  refine ⟨List.length_set, fun j hj => ?_⟩
  by_cases hij : i = j
  · subst hij
    obtain ⟨hlt, -⟩ := List.getElem?_eq_some_iff.mp hj
    exact List.getElem?_set_self hlt
  · rw [List.getElem?_set_ne hij]
    exact hj

theorem Closed.enter (h : rules.Closed colour) {i : ℕ} (hi : colour[i]? ≠ some 2) :
    rules.Closed (colour.set i 1) := by
  intro index hindex
  have hne : i ≠ index.toNat := by
    rintro rfl
    rw [List.getElem?_set, if_pos rfl] at hindex
    split_ifs at hindex
    exact absurd (Option.some.inj hindex) (by decide)
  rw [List.getElem?_set_ne hne] at hindex
  obtain ⟨hshape, hchildren⟩ := h index hindex
  exact ⟨hshape, fun child hchild => (Extends.enter hi).left _ (hchildren child hchild)⟩

theorem Closed.leave (h : rules.Closed colour) {i : UInt32} (hshape : rules.WellShaped i)
    (hchildren : ∀ child, rules.Child i child → colour[child.toNat]? = some 2) :
    rules.Closed (colour.set i.toNat 2) := by
  intro index hindex
  have hleave := (Extends.leave colour i.toNat).left
  by_cases hi : i = index
  · subst hi
    exact ⟨hshape, fun child hchild => hleave _ (hchildren child hchild)⟩
  · have hne : i.toNat ≠ index.toNat := fun heq => hi (UInt32.toNat_inj.mp heq)
    rw [List.getElem?_set_ne hne] at hindex
    obtain ⟨hshape', hchildren'⟩ := h index hindex
    exact ⟨hshape', fun child hchild => hleave _ (hchildren' child hchild)⟩

/-- A visit that succeeds leaves its node, forgets no node and keeps the invariant. -/
def Visited (rules : RuleSet) (colour : List UInt8) (index : UInt32) (colour' : List UInt8) : Prop :=
  rules.Closed colour' ∧ Extends colour colour' ∧ colour'[index.toNat]? = some 2

/-- The loop over the children leaves all of them. -/
theorem visited_children
    (ih : ∀ {index colour colour'}, validateNode rules d index colour = .ok colour' → colour.length
      = rules.nodes.length → rules.Closed colour → rules.Visited colour index colour')
    (h : children.foldlM (fun colour child => validateNode rules d child colour) colour = .ok colour')
    (hlength : colour.length = rules.nodes.length) (hclosed : rules.Closed colour) :
    rules.Closed colour' ∧ Extends colour colour' ∧
      ∀ child ∈ children, colour'[child.toNat]? = some 2 := by
  induction children generalizing colour with
  | nil =>
    obtain rfl := Except.ok.inj h
    exact ⟨hclosed, Extends.refl colour, fun _ hc => absurd hc List.not_mem_nil⟩
  | cons child rest ihrest =>
    rw [List.foldlM_cons] at h
    rcases hchild : validateNode rules d child colour with e | next
    · rw [hchild] at h
      cases h
    · rw [hchild] at h
      obtain ⟨hclosed', hextends, hleft⟩ := ih hchild hlength hclosed
      obtain ⟨hclosed'', hextends', hrest⟩ :=
        ihrest h (hextends.length.trans hlength) hclosed'
      refine ⟨hclosed'', hextends.trans hextends', fun c hc => ?_⟩
      rcases List.mem_cons.mp hc with rfl | hc
      · exact hextends'.left _ hleft
      · exact hrest c hc

theorem visited_of_validateNode (h : validateNode rules d index colour = .ok colour')
    (hlength : colour.length = rules.nodes.length) (hclosed : rules.Closed colour) :
    rules.Visited colour index colour' := by
  induction d generalizing index colour colour' with
  | zero =>
    unfold validateNode at h
    split_ifs at h <;> cases h
  | succ d ih =>
    unfold validateNode at h
    rcases hnode : rules.nodes[index.toNat]? with _ | node
    · rw [hnode] at h
      cases h
    rw [hnode] at h
    dsimp only at h
    split_ifs at h with hcycle hdone
    · cases h
    · obtain rfl := Except.ok.inj h
      exact ⟨hclosed, Extends.refl colour, hdone⟩
    rcases hshape : node.checkShape with e | u
    · rw [hshape] at h
      cases h
    rw [hshape] at h
    dsimp only at h
    rcases hfold : node.children.foldlM (fun colour child => validateNode rules d child colour)
        (colour.set index.toNat 1) with e | final
    · rw [hfold] at h
      cases h
    rw [hfold] at h
    obtain rfl := Except.ok.inj h
    have henter := Extends.enter hdone
    obtain ⟨hclosed', hextends, hchildren⟩ :=
      visited_children ih hfold (henter.length.trans hlength) (hclosed.enter hdone)
    have hlt : index.toNat < final.length := by
      rw [hextends.length, henter.length, hlength]
      exact (List.getElem?_eq_some_iff.mp hnode).1
    refine ⟨hclosed'.leave ⟨node, hnode, hshape⟩ ?_,
      (henter.trans hextends).trans (Extends.leave final index.toNat), List.getElem?_set_self hlt⟩
    rintro child ⟨node', hnode', hchild⟩
    obtain rfl := Option.some.inj (hnode.symm.trans hnode')
    exact hchildren child hchild

theorem wellShaped_of_validate (h : rules.validate = .ok ())
    (hreach : Relation.ReflTransGen rules.Child rules.root index) : rules.WellShaped index := by
  unfold RuleSet.validate at h
  simp only [ite_makeStatus_eq_ok] at h
  obtain ⟨-, -, -, h⟩ := h
  rcases hvisit : validateNode rules (kMaxRuleDepth + 1) rules.root
      (List.replicate rules.nodes.length 0) with e | colour
  · rw [hvisit] at h
    cases h
  have hfresh : rules.Closed (List.replicate rules.nodes.length 0) := by
    intro i hi
    have hmem := List.mem_of_getElem? hi
    exact absurd (List.eq_of_mem_replicate hmem) (by decide)
  obtain ⟨hclosed, -, hroot⟩ := visited_of_validateNode hvisit List.length_replicate hfresh
  -- the nodes left are closed under children, so the search left everything that is reachable
  have hleft : colour[index.toNat]? = some 2 := by
    induction hreach with
    | refl => exact hroot
    | tail _ hchild ih => exact (hclosed _ ih).2 _ hchild
  exact (hclosed index hleft).1

/-! ## What evaluation computes -/

theorem failed_of_failed (d : ℕ) (h : st.failed = true) (index : UInt32) :
    (evaluateNode rules m d st index).2.failed = true := by
  cases d with
  | zero => rfl
  | succ d =>
    unfold evaluateNode
    rw [if_pos h]
    exact h

/-- The loop over the children of a composite node, with its connective. -/
def foldChildren (rules : RuleSet) (m : FlowMeasurements) (d : ℕ) (op : Tri → Tri → Tri)
    (children : List UInt32) (acc : Tri × EvalState) : Tri × EvalState :=
  children.foldl (fun acc child =>
    (op acc.1 (evaluateNode rules m d acc.2 child).1, (evaluateNode rules m d acc.2 child).2)) acc

theorem foldChildren_cons (d : ℕ) (op : Tri → Tri → Tri) (child : UInt32) (rest : List UInt32)
    (acc : Tri × EvalState) :
    foldChildren rules m d op (child :: rest) acc =
      foldChildren rules m d op rest (op acc.1 (evaluateNode rules m d acc.2 child).1,
        (evaluateNode rules m d acc.2 child).2) := rfl

theorem foldChildren_failed (children : List UInt32) {v : Tri} (h : st.failed = true) :
    (foldChildren rules m d op children (v, st)).2.failed = true := by
  induction children generalizing v st with
  | nil => exact h
  | cons child rest ih =>
    rw [foldChildren_cons]
    exact ih (failed_of_failed d h child)

theorem child_of_foldChildren (h : (foldChildren rules m d op children acc).2.failed = false)
    {child : UInt32} (hchild : child ∈ children) :
    ∃ st : EvalState, (evaluateNode rules m d st child).2.failed = false := by
  induction children generalizing acc with
  | nil => exact absurd hchild List.not_mem_nil
  | cons first rest ih =>
    rcases List.mem_cons.mp hchild with rfl | hrest
    · refine ⟨acc.2, ?_⟩
      cases hfailed : (evaluateNode rules m d acc.2 child).2.failed with
      | false => rfl
      | true =>
        rw [foldChildren_cons, foldChildren_failed rest hfailed] at h
        cases h
    · exact ih h hrest

/-- A loop whose children all have a value combines the values. -/
theorem foldChildren_eq {f : UInt32 → Tri}
    (hf : ∀ child ∈ children, ∀ st : EvalState, st.failed = false → (evaluateNode rules m d st
      child).1 = f child ∧ (evaluateNode rules m d st child).2.failed = false)
    (hacc : acc.2.failed = false) :
    (foldChildren rules m d op children acc).1 = (children.map f).foldl op acc.1 ∧
      (foldChildren rules m d op children acc).2.failed = false := by
  induction children generalizing acc with
  | nil => exact ⟨rfl, hacc⟩
  | cons child rest ih =>
    obtain ⟨hvalue, hst⟩ := hf child List.mem_cons_self acc.2 hacc
    rw [foldChildren_cons, hvalue, List.map_cons, List.foldl_cons]
    exact ih (fun c hc => hf c (List.mem_cons_of_mem _ hc)) hst

section Cases

variable {d : ℕ} {st : EvalState} {index : UInt32} {node : RuleNode}

theorem evaluateNode_none (hst : st.failed = false) (hnode : rules.nodes[index.toNat]? = none) :
    (evaluateNode rules m (d + 1) st index).2.failed = true := by
  simp [evaluateNode, hst, hnode]

theorem evaluateNode_threshold (hst : st.failed = false)
    (hnode : rules.nodes[index.toNat]? = some node) (hkind : node.kind = .threshold) :
    (evaluateNode rules m (d + 1) st index).1 = node.threshold.evaluate m ∧
      (evaluateNode rules m (d + 1) st index).2.failed = false := by
  simp [evaluateNode, hst, hnode, hkind]

theorem evaluateNode_all (hst : st.failed = false)
    (hnode : rules.nodes[index.toNat]? = some node) (hkind : node.kind = .all) :
    evaluateNode rules m (d + 1) st index =
      foldChildren rules m d triAnd node.children (.true, st) := by
  simp only [evaluateNode, hst, hnode, hkind, foldChildren, Bool.false_eq_true, if_false]

theorem evaluateNode_any (hst : st.failed = false)
    (hnode : rules.nodes[index.toNat]? = some node) (hkind : node.kind = .any) :
    evaluateNode rules m (d + 1) st index =
      foldChildren rules m d triOr node.children (.false, st) := by
  simp only [evaluateNode, hst, hnode, hkind, foldChildren, Bool.false_eq_true, if_false]

theorem evaluateNode_not {child : UInt32} (hst : st.failed = false)
    (hnode : rules.nodes[index.toNat]? = some node) (hkind : node.kind = .not)
    (hchild : node.children = [child]) :
    evaluateNode rules m (d + 1) st index =
      (triNot (evaluateNode rules m d st child).1, (evaluateNode rules m d st child).2) := by
  simp only [evaluateNode, hst, hnode, hkind, hchild, Bool.false_eq_true, if_false]

end Cases

/-- Everything that can be reached from `index` is well shaped. -/
def Sound (rules : RuleSet) (index : UInt32) : Prop :=
  ∀ j, Relation.ReflTransGen rules.Child index j → rules.WellShaped j

theorem Sound.child {child : UInt32} (h : rules.Sound index) (hc : rules.Child index child) :
    rules.Sound child :=
  fun j hj => h j (.head hc hj)

theorem within_of_not_failed (hs : rules.Sound index)
    (h : (evaluateNode rules m d st index).2.failed = false) : Within rules.Child d index := by
  induction d generalizing st index with
  | zero => exact absurd h (by simp [evaluateNode])
  | succ d ih =>
    have hst : st.failed = false := by
      cases hfailed : st.failed with
      | false => rfl
      | true => exact (failed_of_failed (d + 1) hfailed index).symm.trans h
    obtain ⟨node, hnode, hshape⟩ := hs index .refl
    rw [within_succ_iff]
    rintro child ⟨node', hnode', hmem⟩
    obtain rfl := Option.some.inj (hnode.symm.trans hnode')
    have hsound := hs.child ⟨node, hnode, hmem⟩
    cases hkind : node.kind with
    | threshold =>
      rw [RuleNode.children_of_threshold hshape hkind] at hmem
      exact absurd hmem List.not_mem_nil
    | all =>
      rw [evaluateNode_all hst hnode hkind] at h
      obtain ⟨st', hchild⟩ := child_of_foldChildren h hmem
      exact ih hsound hchild
    | any =>
      rw [evaluateNode_any hst hnode hkind] at h
      obtain ⟨st', hchild⟩ := child_of_foldChildren h hmem
      exact ih hsound hchild
    | not =>
      obtain ⟨only, honly⟩ := RuleNode.children_of_not hshape hkind
      rw [evaluateNode_not hst hnode hkind honly] at h
      rw [honly, List.mem_singleton] at hmem
      subst hmem
      exact ih hsound h

/-- Where every path ends within the depth limit, the evaluation does not fail and computes the
value of the graph. -/
theorem exists_value_of_within (hs : rules.Sound index) (h : Within rules.Child d index) :
    ∃ v, rules.Value m index v ∧ ∀ st : EvalState, st.failed = false →
      (evaluateNode rules m d st index).1 = v ∧
        (evaluateNode rules m d st index).2.failed = false := by
  induction d generalizing index with
  | zero => exact absurd h (not_within_zero index)
  | succ d ih =>
    obtain ⟨node, hnode, hshape⟩ := hs index .refl
    have hchildren : ∀ child, child ∈ node.children → ∃ v, rules.Value m child v ∧
        ∀ st : EvalState, st.failed = false → (evaluateNode rules m d st child).1 = v ∧
          (evaluateNode rules m d st child).2.failed = false := by
      intro child hmem
      have hchild : rules.Child index child := ⟨node, hnode, hmem⟩
      exact ih (hs.child hchild) (within_succ_iff.mp h child hchild)
    choose! f hvalue hrun using hchildren
    cases hkind : node.kind with
    | threshold =>
      exact ⟨_, .threshold hnode hkind, fun st hst => evaluateNode_threshold hst hnode hkind⟩
    | all =>
      refine ⟨_, .all hnode hkind hvalue, fun st hst => ?_⟩
      rw [evaluateNode_all hst hnode hkind, ← kleeneAll_true_cons, ← foldl_triAnd]
      exact foldChildren_eq hrun hst
    | any =>
      refine ⟨_, .any hnode hkind hvalue, fun st hst => ?_⟩
      rw [evaluateNode_any hst hnode hkind, ← kleeneAny_false_cons, ← foldl_triOr]
      exact foldChildren_eq hrun hst
    | not =>
      obtain ⟨only, honly⟩ := RuleNode.children_of_not hshape hkind
      have hmem : only ∈ node.children := by rw [honly]; exact List.mem_singleton_self only
      refine ⟨_, .not hnode hkind honly (hvalue only hmem), fun st hst => ?_⟩
      obtain ⟨hone, hfine⟩ := hrun only hmem st hst
      rw [evaluateNode_not hst hnode hkind honly]
      exact ⟨congrArg triNot hone, hfine⟩

/-- An evaluation that does not fail computes the value of the graph, whatever its depth limit. -/
theorem value_of_not_failed (hs : rules.Sound index) (hst : st.failed = false)
    (h : (evaluateNode rules m d st index).2.failed = false) :
    rules.Value m index (evaluateNode rules m d st index).1 := by
  obtain ⟨v, hv, hrun⟩ := exists_value_of_within (m := m) hs (within_of_not_failed hs h)
  rw [(hrun st hst).1]
  exact hv

theorem validate_root (h : rules.validate = .ok ()) :
    ¬ (rules.nodes.isEmpty = true ∨ rules.root.toNat ≥ rules.nodes.length) := by
  unfold RuleSet.validate at h
  simp only [ite_makeStatus_eq_ok] at h
  obtain ⟨hempty, -, hroot, -⟩ := h
  exact not_or.mpr ⟨hempty, hroot⟩

theorem evaluate_of_not_failed (h : rules.validate = .ok ()) {trace : ThresholdTrace}
    (hrun : (evaluateNode rules m (kMaxRuleDepth + 1) { trace := trace } rules.root).2.failed = false) :
    (rules.evaluate m trace).1 =
      (evaluateNode rules m (kMaxRuleDepth + 1) { trace := trace } rules.root).1 := by
  unfold RuleSet.evaluate
  rw [if_neg (validate_root h)]
  dsimp only
  rw [hrun, if_neg Bool.false_ne_true]

/-- **Validation is sufficient for evaluation exactly on graphs of bounded depth.**  On a validated
rule set the evaluation takes no failure path and returns the strong Kleene value of the graph if
and only if no path from the root has more than `kMaxRuleDepth` edges. -/
theorem evaluate_kleene_iff_paths_bounded {rules : RuleSet} (h : rules.validate = .ok ())
    (m : FlowMeasurements) (trace : ThresholdTrace) :
    ((evaluateNode rules m (kMaxRuleDepth + 1) { trace := trace } rules.root).2.failed = false ∧
      ∀ v, rules.Value m rules.root v ↔ (rules.evaluate m trace).1 = v) ↔
    ∀ path, (rules.root :: path).IsChain rules.Child → path.length ≤ kMaxRuleDepth := by
  have hs : rules.Sound rules.root := fun j hj => wellShaped_of_validate h hj
  constructor
  · rintro ⟨hrun, -⟩ path hpath
    exact Nat.lt_succ_iff.mp (within_of_not_failed hs hrun path hpath)
  · intro hpaths
    have hwithin : Within rules.Child (kMaxRuleDepth + 1) rules.root :=
      fun path hpath => Nat.lt_succ_iff.mpr (hpaths path hpath)
    obtain ⟨w, hw, hall⟩ := exists_value_of_within (m := m) hs hwithin
    obtain ⟨hvalue, hrun⟩ := hall { trace := trace } rfl
    refine ⟨hrun, fun v => ?_⟩
    rw [evaluate_of_not_failed h hrun, hvalue]
    constructor
    · intro hv
      exact hw.unique hv
    · rintro rfl
      exact hw

/-- One leaf named twice by a conjunction. -/
def twinLeaf : RuleSet :=
  { nodes := [{ kind := .threshold }, { kind := .all, children := [0, 0] }], root := 1 }

theorem evaluate_kleene_twinLeaf :
    twinLeaf.validate = .ok () ∧
      ∀ v, twinLeaf.Value {} twinLeaf.root v ↔ (twinLeaf.evaluate {} {}).1 = v := by
  have hvalid : twinLeaf.validate = .ok () := by decide
  have hrun : (evaluateNode twinLeaf {} (kMaxRuleDepth + 1) {} twinLeaf.root).2.failed = false := by
    decide
  have hwithin := within_of_not_failed (fun j hj => wellShaped_of_validate hvalid hj) hrun
  refine ⟨hvalid, ((evaluate_kleene_iff_paths_bounded hvalid {} {}).mpr fun path hpath => ?_).2⟩
  exact Nat.lt_succ_iff.mp (hwithin path hpath)

/-- A chain of 40 conjunctions above one leaf, whose root also names the middle of the chain, so
that the search leaves the lower half at a small depth before the chain reaches it. -/
def shortcutChain : RuleSet :=
  { nodes := { kind := .all, children := [20, 1] } ::
      ((List.range' 1 39).map fun k => { kind := .all, children := [UInt32.ofNat (k + 1)] }) ++
      [{ kind := .threshold }]
    root := 0 }

theorem validate_shortcutChain : shortcutChain.validate = .ok () := by
  decide +kernel

/-- The rule is accepted and its Kleene value is `True`, yet its evaluation runs out of depth. -/
theorem shortcutChain_evaluates_unknown :
    shortcutChain.validate = .ok () ∧ shortcutChain.Value {} shortcutChain.root .true ∧
      (evaluateNode shortcutChain {} (kMaxRuleDepth + 1) {} shortcutChain.root).2.failed = true ∧
      (shortcutChain.evaluate {} {}).1 = .unknown := by
  have hs : shortcutChain.Sound shortcutChain.root :=
    fun j hj => wellShaped_of_validate validate_shortcutChain hj
  have hdeep : (evaluateNode shortcutChain {} 41 {} shortcutChain.root).2.failed = false := by
    decide +kernel
  have htrue : (evaluateNode shortcutChain {} 41 {} shortcutChain.root).1 = .true := by
    decide +kernel
  refine ⟨validate_shortcutChain, ?_, by decide +kernel, by decide +kernel⟩
  have hvalue := value_of_not_failed hs rfl hdeep
  rwa [htrue] at hvalue

end RuleSet

end EFG
