/-
# Which snapshot a flow is measured against

Binding resolution walks the resources of a path and keeps the tightest capacity
snapshot.  `resolveBinding_eq` says what it keeps: the least covering snapshot in
the order of unreserved capacity and then resource identifier.  The choice that
ignores freshness is fresh exactly when every stale covering snapshot is beaten
by a fresh one (`isFresh_resolveBinding_iff`).
-/
import ElephantFlow.GovernorState

namespace EFG

variable {p : PathDescriptor} {capacities : CapacityTable} {now : Tick}
  {x y : ResourceId × ResourceCapacity}

/-! ## Covering snapshots -/

/-- The unreserved capacity that binding resolution compares. -/
def availability (c : ResourceCapacity) : KiloTickRate :=
  match c.available with
  | .ok a => a
  | .error _ => 0

/-- The snapshot that a resource contributes, if it has one with a defined availability. -/
def covering (capacities : CapacityTable) (resource : ResourceId) :
    Option (ResourceId × ResourceCapacity) :=
  match capacities.find resource with
  | none => none
  | some c =>
    match c.available with
    | .error _ => none
    | .ok _ => some (resource, c)

/-- The snapshots that cover a path: what binding resolution chooses from. -/
def coverings (p : PathDescriptor) (capacities : CapacityTable) :
    List (ResourceId × ResourceCapacity) := p.resources.filterMap (covering capacities)

theorem covering_eq_some {resource : ResourceId} (h : covering capacities resource = some x) :
    x.1 = resource ∧ capacities.find resource = some x.2 := by
  unfold covering at h
  rcases hc : capacities.find resource with _ | c
  · rw [hc] at h
    cases h
  rw [hc] at h
  simp only at h
  rcases ha : c.available with e | a
  · rw [ha] at h
    cases h
  · rw [ha] at h
    cases h
    exact ⟨rfl, rfl⟩

theorem mem_coverings (h : x ∈ coverings p capacities) :
    x.1 ∈ p.resources ∧ capacities.find x.1 = some x.2 := by
  obtain ⟨resource, hmem, heq⟩ := List.mem_filterMap.mp h
  obtain ⟨hfst, hfind⟩ := covering_eq_some heq
  rw [hfst]
  exact ⟨hmem, hfind⟩

/-- Two covering snapshots of one resource are the same. -/
theorem coverings_unique (hx : x ∈ coverings p capacities) (hy : y ∈ coverings p capacities)
    (h : x.1 = y.1) : x = y := by
  have hfx := (mem_coverings hx).2
  have hfy := (mem_coverings hy).2
  rw [h, hfy] at hfx
  exact Prod.ext h (Option.some.inj hfx).symm

/-! ## The order of the choice -/

/-- The order of the choice: less unreserved capacity first, then the lower identifier. -/
def bindingKey (x : ResourceId × ResourceCapacity) : ℕ ×ₗ ℕ :=
  toLex ((availability x.2).toNat, x.1.value.toNat)

/-- `betterBinding` is the strict order of the keys. -/
theorem betterBinding_iff :
    betterBinding x.1 (availability x.2) y = true ↔ bindingKey x < bindingKey y := by
  have hleft : betterBinding x.1 (availability x.2) y =
      (availability x.2 < availability y.2 ||
        (availability x.2 = availability y.2 && x.1 < y.1)) := rfl
  rw [hleft, bindingKey, bindingKey, Prod.Lex.toLex_lt_toLex, Bool.or_eq_true, Bool.and_eq_true,
    decide_eq_true_eq, decide_eq_true_eq, decide_eq_true_eq, UInt64.lt_iff_toNat_lt,
    StrongId.lt_iff, UInt64.lt_iff_toNat_lt, UInt64.toNat_inj]

theorem bindingKey_injOn (hx : x ∈ coverings p capacities) (hy : y ∈ coverings p capacities)
    (h : bindingKey x = bindingKey y) : x = y := by
  have hsnd : x.1.value.toNat = y.1.value.toNat := congrArg (fun k => (ofLex k).2) h
  exact coverings_unique hx hy (StrongId.ext (UInt64.toNat_inj.mp hsnd))

/-! ## Resolution is a least element -/

/-- What a walk that may require freshness chooses from. -/
def eligible (p : PathDescriptor) (capacities : CapacityTable) (requireFresh : Bool) (now : Tick) :
    List (ResourceId × ResourceCapacity) :=
  (coverings p capacities).filter fun x => !requireFresh || isFresh x.2.validity now

/-- One iteration of the walk is one step of the search for a least element, or nothing. -/
theorem resolveStep_eq (requireFresh : Bool) (best : Option (ResourceId × ResourceCapacity))
    (resource : ResourceId) :
    resolveStep capacities requireFresh now best resource =
      (([resource].filterMap (covering capacities)).filter
        fun x => !requireFresh || isFresh x.2.validity now).foldl
          (List.argAux fun a b => bindingKey a < bindingKey b) best := by
  unfold resolveStep covering
  rcases hfind : capacities.find resource with _ | c
  · simp [hfind]
  simp only
  rcases ha : c.available with e | a
  · simp [hfind, ha]
  have hcov : [resource].filterMap (fun r => match capacities.find r with
      | none => none
      | some c => match c.available with
        | .error _ => none
        | .ok _ => some (r, c)) = [(resource, c)] := by
    simp [hfind, ha]
  rw [hcov]
  have hav : availability c = a := by
    unfold availability
    rw [ha]
  by_cases hskip : requireFresh = true ∧ ¬ isFresh c.validity now = true
  · rw [if_pos hskip]
    simp [hskip]
  · rw [if_neg hskip]
    have hpass : (!requireFresh || isFresh c.validity now) = true := by
      rcases requireFresh with _ | _
      · rfl
      · simpa using hskip
    have hfilter : [(resource, c)].filter
        (fun x => !requireFresh || isFresh x.2.validity now) = [(resource, c)] := by
      simp only [List.filter_cons, List.filter_nil, hpass, if_true]
    rw [hfilter]
    rcases best with _ | b
    · rfl
    · have hbetter := betterBinding_iff (x := (resource, c)) (y := b)
      simp only [hav] at hbetter
      show (if betterBinding resource a b = true then some (resource, c) else some b) =
        if bindingKey (resource, c) < bindingKey b then some (resource, c) else some b
      by_cases hb : bindingKey (resource, c) < bindingKey b
      · rw [if_pos hb, if_pos (hbetter.mpr hb)]
      · rw [if_neg hb, if_neg (fun h => hb (hbetter.mp h))]

/-- The walk over the resources of a path finds the least eligible snapshot. -/
theorem foldl_resolveStep (resources : List ResourceId) (requireFresh : Bool)
    (best : Option (ResourceId × ResourceCapacity)) :
    resources.foldl (resolveStep capacities requireFresh now) best =
      ((resources.filterMap (covering capacities)).filter
        fun x => !requireFresh || isFresh x.2.validity now).foldl
          (List.argAux fun a b => bindingKey a < bindingKey b) best := by
  induction resources generalizing best with
  | nil => rfl
  | cons resource resources ih =>
    have hsplit : (resource :: resources).filterMap (covering capacities) =
        [resource].filterMap (covering capacities) ++ resources.filterMap (covering capacities) := by
      rw [← List.filterMap_append]
      rfl
    rw [List.foldl_cons, resolveStep_eq, ih, hsplit, List.filter_append, List.foldl_append]

/-- `resolve_binding` chooses the least eligible snapshot of a path that it may read. -/
theorem resolveBinding_eq {requireFresh : Bool}
    (h : requireFresh = true → isFresh p.validity now = true) :
    resolveBinding (some p) capacities requireFresh now =
      (eligible p capacities requireFresh now).argmin bindingKey := by
  have hread : ¬ (requireFresh = true ∧ ¬ isFresh p.validity now = true) := fun hc => hc.2 (h hc.1)
  unfold resolveBinding
  simp only [if_neg hread]
  exact foldl_resolveStep p.resources requireFresh none

theorem eligible_false : eligible p capacities false now = coverings p capacities := by
  unfold eligible
  simp

/-- A walk that ignores freshness does not read the tick. -/
theorem resolveBinding_false (path : Option PathDescriptor) (now now' : Tick) :
    resolveBinding path capacities false now = resolveBinding path capacities false now' := by
  cases path with
  | none => rfl
  | some p =>
    rw [resolveBinding_eq (fun h => by cases h), resolveBinding_eq (fun h => by cases h),
      eligible_false, eligible_false]

/-- What the walk finds is a snapshot of a resource of the path. -/
theorem mem_resolveBinding (h : resolveBinding (some p) capacities false now = some x) :
    x.1 ∈ p.resources ∧ capacities.find x.1 = some x.2 := by
  rw [resolveBinding_eq (fun h => by cases h), eligible_false] at h
  exact mem_coverings (List.argmin_mem h)

/-- A walk that heeds freshness finds a fresh covering snapshot. -/
theorem mem_coverings_of_resolveBinding (h : resolveBinding (some p) capacities true now ≠ none) :
    ∃ x ∈ coverings p capacities, isFresh x.2.validity now = true := by
  have hp : isFresh p.validity now = true := by
    by_contra hstale
    apply h
    unfold resolveBinding
    simp only [true_and, if_pos hstale]
  rw [resolveBinding_eq (fun _ => hp)] at h
  obtain ⟨x, hx⟩ := Option.ne_none_iff_exists'.mp h
  obtain ⟨hmem, hfresh⟩ := List.mem_filter.mp (List.argmin_mem hx)
  exact ⟨x, hmem, by simpa using hfresh⟩

/-- A snapshot is found as soon as some eligible one covers the path. -/
theorem exists_fresh_of_resolveBinding (h : resolveBinding (some p) capacities true now ≠ none) :
    ∃ resource ∈ p.resources, ∃ c : ResourceCapacity, capacities.find resource = some c ∧
      isFresh c.validity now = true := by
  obtain ⟨x, hmem, hfresh⟩ := mem_coverings_of_resolveBinding h
  obtain ⟨hresource, hfind⟩ := mem_coverings hmem
  exact ⟨x.1, hresource, x.2, hfind, hfresh⟩

/-- A walk that ignores freshness finds a snapshot whenever a walk that heeds it does. -/
theorem resolveBinding_ne_none (h : resolveBinding (some p) capacities true now ≠ none)
    (now' : Tick) : resolveBinding (some p) capacities false now' ≠ none := by
  obtain ⟨x, hmem, -⟩ := mem_coverings_of_resolveBinding h
  rw [resolveBinding_eq (fun h => by cases h), eligible_false, ne_eq, List.argmin_eq_none]
  intro hnil
  rw [hnil] at hmem
  cases hmem

/-! ## Freshness of the choice -/

/-- Every covering snapshot that is not fresh is beaten by a fresh one. -/
def FreshFirst (p : PathDescriptor) (capacities : CapacityTable) (now : Tick) : Prop :=
  ∀ x ∈ coverings p capacities, isFresh x.2.validity now = false →
    ∃ y ∈ coverings p capacities, isFresh y.2.validity now = true ∧
      betterBinding y.1 (availability y.2) x = true

/-- The choice that ignores freshness is fresh exactly when fresh snapshots come first. -/
theorem isFresh_resolveBinding_iff (h : resolveBinding (some p) capacities false now = some x) :
    isFresh x.2.validity now = true ↔ FreshFirst p capacities now := by
  rw [resolveBinding_eq (fun h => by cases h), eligible_false] at h
  have hmem : x ∈ coverings p capacities := List.argmin_mem h
  have hleast : ∀ y ∈ coverings p capacities, bindingKey x ≤ bindingKey y :=
    fun y hy => List.le_of_mem_argmin hy h
  constructor
  · intro hfresh y hy hstale
    refine ⟨x, hmem, hfresh, betterBinding_iff.mpr (lt_of_le_of_ne (hleast y hy) fun heq => ?_)⟩
    -- equal keys would make the stale snapshot the fresh one
    rw [bindingKey_injOn hmem hy heq, hstale] at hfresh
    cases hfresh
  · intro hfirst
    by_contra hstale
    obtain ⟨y, hy, -, hbetter⟩ := hfirst x hmem (by simpa using hstale)
    exact absurd (betterBinding_iff.mp hbetter) (not_lt_of_ge (hleast y hy))

/-! ## The choice as a minimum -/

/-- A resource of the path that binding resolution can use, with its snapshot: both the path and the
snapshot are fresh where that is required, and the unreserved capacity is defined. -/
structure Usable (p : PathDescriptor) (capacities : CapacityTable) (requireFresh : Bool) (now : Tick)
    (x : ResourceId × ResourceCapacity) : Prop where
  path : requireFresh = true → isFresh p.validity now = true
  listed : x.1 ∈ p.resources
  found : capacities.find x.1 = some x.2
  fresh : requireFresh = true → isFresh x.2.validity now = true
  available : ∃ a, x.2.available = .ok a

theorem covering_of_available {a : KiloTickRate} (hfound : capacities.find x.1 = some x.2)
    (ha : x.2.available = .ok a) : covering capacities x.1 = some x := by
  unfold covering
  rw [hfound]
  simp only
  rw [ha]

theorem available_of_covering {resource : ResourceId} (h : covering capacities resource = some x) :
    ∃ a, x.2.available = .ok a := by
  obtain ⟨rfl, hfound⟩ := covering_eq_some h
  unfold covering at h
  rw [hfound] at h
  simp only at h
  rcases ha : x.2.available with e | a
  · rw [ha] at h
    cases h
  · exact ⟨a, rfl⟩

variable {requireFresh : Bool}

/-- Of a path that may be read, the usable resources are the eligible ones. -/
theorem usable_iff (h : requireFresh = true → isFresh p.validity now = true) :
    Usable p capacities requireFresh now x ↔ x ∈ eligible p capacities requireFresh now := by
  have hfresh : (!requireFresh || isFresh x.2.validity now) = true ↔
      (requireFresh = true → isFresh x.2.validity now = true) := by
    cases requireFresh with
    | false => simp
    | true => simp
  rw [eligible, List.mem_filter, hfresh]
  constructor
  · rintro ⟨-, hlisted, hfound, hx, a, ha⟩
    exact ⟨List.mem_filterMap.mpr ⟨x.1, hlisted, covering_of_available hfound ha⟩, hx⟩
  · rintro ⟨hmem, hx⟩
    obtain ⟨hlisted, hfound⟩ := mem_coverings hmem
    obtain ⟨resource, -, hcovering⟩ := List.mem_filterMap.mp hmem
    exact ⟨h, hlisted, hfound, hx, available_of_covering hcovering⟩

theorem bindingKey_usable (hx : Usable p capacities requireFresh now x)
    (hy : Usable p capacities requireFresh now y) (h : bindingKey x = bindingKey y) : x = y :=
  bindingKey_injOn (List.mem_filter.mp ((usable_iff hx.path).mp hx)).1
    (List.mem_filter.mp ((usable_iff hx.path).mp hy)).1 h

/-- A binding is found exactly if it is usable and no usable resource comes before it. -/
theorem resolveBinding_eq_some_iff : resolveBinding (some p) capacities requireFresh now = some x ↔
    Usable p capacities requireFresh now x ∧
      ∀ y, Usable p capacities requireFresh now y → bindingKey x ≤ bindingKey y := by
  by_cases hread : requireFresh = true → isFresh p.validity now = true
  · rw [resolveBinding_eq hread]
    constructor
    · intro h
      refine ⟨(usable_iff hread).mpr (List.argmin_mem h), fun y hy => ?_⟩
      exact List.le_of_mem_argmin ((usable_iff hread).mp hy) h
    · rintro ⟨hx, hleast⟩
      rcases hmin : (eligible p capacities requireFresh now).argmin bindingKey with _ | y
      · rw [List.argmin_eq_none] at hmin
        rw [usable_iff hread, hmin] at hx
        cases hx
      · -- two least keys are equal, and a key determines its resource
        have hy := (usable_iff hread).mpr (List.argmin_mem hmin)
        have hle := List.le_of_mem_argmin ((usable_iff hread).mp hx) hmin
        rw [bindingKey_usable hy hx (le_antisymm hle (hleast y hy))]
  · have hnone : resolveBinding (some p) capacities requireFresh now = none := by
      rw [Classical.not_imp] at hread
      unfold resolveBinding
      simp only [if_pos hread]
    rw [hnone]
    refine iff_of_false nofun ?_
    rintro ⟨hx, -⟩
    exact hread hx.path

/-- `resolve_binding` finds nothing exactly if no listed resource is usable, and otherwise the usable
one that is least by unreserved capacity and then by identifier.  Only the set of the resources of
the path counts, not their order or repetitions. -/
theorem resolveBinding_minimum (p : PathDescriptor) (capacities : CapacityTable) (requireFresh : Bool)
    (now : Tick) :
    (resolveBinding (some p) capacities requireFresh now = none ↔
      ∀ x, ¬ Usable p capacities requireFresh now x) ∧
    (∀ x, resolveBinding (some p) capacities requireFresh now = some x ↔
      Usable p capacities requireFresh now x ∧
        ∀ y, Usable p capacities requireFresh now y → bindingKey x ≤ bindingKey y) ∧
    ∀ resources, (∀ resource, resource ∈ resources ↔ resource ∈ p.resources) →
      resolveBinding (some { p with resources := resources }) capacities requireFresh now =
        resolveBinding (some p) capacities requireFresh now := by
  refine ⟨?_, fun x => resolveBinding_eq_some_iff, fun resources hsame => ?_⟩
  · constructor
    · intro hnone x hx
      rw [resolveBinding_eq hx.path, List.argmin_eq_none] at hnone
      rw [usable_iff hx.path, hnone] at hx
      cases hx
    · intro hunusable
      rcases h : resolveBinding (some p) capacities requireFresh now with _ | x
      · rfl
      · exact absurd (resolveBinding_eq_some_iff.mp h).1 (hunusable x)
  · have husable : ∀ x, Usable { p with resources := resources } capacities requireFresh now x ↔
        Usable p capacities requireFresh now x := by
      intro x
      constructor
      · rintro ⟨hpath, hlisted, hfound, hfresh, ha⟩
        exact ⟨hpath, (hsame x.1).mp hlisted, hfound, hfresh, ha⟩
      · rintro ⟨hpath, hlisted, hfound, hfresh, ha⟩
        exact ⟨hpath, (hsame x.1).mpr hlisted, hfound, hfresh, ha⟩
    apply Option.ext
    intro x
    rw [resolveBinding_eq_some_iff, resolveBinding_eq_some_iff]
    simp only [husable]

end EFG
