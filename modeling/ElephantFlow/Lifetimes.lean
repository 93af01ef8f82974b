/-
# The lifetime of a decision

The authority vector of a decision is valid for `classification_validity_ticks`.  The comparison of
authority vectors does not look at their validity, and an evaluation that finds its stored decision
unchanged returns it as it stands, without renewing the vector.  So an Elephant outlives its vector
exactly where an evaluation repeats or cannot make a decision (`evaluate_outlived_iff`), and a sweep
leaves an expired Elephant exactly where the evaluation of that flow does so at its turn.
-/
import ElephantFlow.Sweep

namespace EFG

namespace Governor

variable {g g' : Governor} {record r : FlowRecord} {now lastTick : Tick} {key : FlowKey}
  {c : FlowClassification} {h : ClassificationHistory} {config : GovernorConfig}
  {batch : DecisionBatch} {before after : List FlowKey} {generation : Generation}

/-- An Elephant whose authority vector has expired. -/
def Outlived (c : FlowClassification) (now : Tick) : Prop :=
  c.state = .elephant ∧ evaluateFreshness c.authorityVector.validity now = .expired

instance (c : FlowClassification) (now : Tick) : Decidable (Outlived c now) :=
  inferInstanceAs (Decidable (_ ∧ _))

/-! ## One evaluation -/

/-- The evaluation of a record makes a new decision: the idempotency test fails, the lifetime of the
decision fits into the tick domain, and there are an identifier and a generation left for it. -/
structure Redecides (g : Governor) (record : FlowRecord) (now : Tick) : Prop where
  changed : unchanged record (g.candidate record now) = false
  ticks : now.toNat + g.config.classificationValidityTicks.toNat < 2 ^ 64
  identifiers : g.classificationSequence ≠ u64Max
  generations : record.classification.generation.value = u64Max →
    record.classification.state = (g.candidate record now).state ∧
      record.classification.authority = (g.candidate record now).authority

theorem makeValidity_eq_ok {issuedAt : Tick} {duration : UInt64} {w : ValidityWindow}
    (h : makeValidity issuedAt duration = .ok w) :
    issuedAt.toNat + duration.toNat < 2 ^ 64 ∧ evaluateFreshness w issuedAt ≠ .expired := by
  unfold makeValidity at h
  simp only [ite_makeStatus_eq_ok] at h
  obtain ⟨hd, hle, hw⟩ := h
  obtain rfl := Except.ok.inj hw
  have hdlt := duration.toNat_lt
  have hpos : duration.toNat ≠ 0 := fun hzero => hd (UInt64.toNat_inj.mp hzero)
  have hfits : issuedAt.toNat + duration.toNat < 2 ^ 64 := by
    rw [gt_iff_lt, UInt64.lt_iff_toNat_lt, UInt64.toNat_sub_of_le _ _ (by
      rw [UInt64.le_iff_toNat_le]; simp [u64Max]; omega)] at hle
    simp [u64Max] at hle
    omega
  refine ⟨hfits, ?_⟩
  have hlater : ¬ issuedAt ≥ issuedAt + duration := by
    rw [ge_iff_le, UInt64.le_iff_toNat_le, UInt64.toNat_add, Nat.mod_eq_of_lt hfits]
    omega
  unfold evaluateFreshness
  simp only [if_neg hlater]
  split_ifs <;> simp

theorem validity_of_buildAuthority {v : AuthorityVector} (h : g.buildAuthority record now = .ok v) :
    makeValidity now g.config.classificationValidityTicks = .ok v.validity := by
  unfold buildAuthority at h
  simp only at h
  rcases hw : makeValidity now g.config.classificationValidityTicks with e | w
  · rw [hw] at h
    cases h
  · rw [hw] at h
    obtain rfl := Except.ok.inj h
    rfl

theorem nextGeneration_eq_ok_iff (hc : record.hasClassification = true) (c : FlowClassification) :
    (∃ generation, nextGeneration record c = .ok generation) ↔
      (record.classification.generation.value = u64Max →
        record.classification.state = c.state ∧ record.classification.authority = c.authority) := by
  unfold nextGeneration Generation.next
  by_cases hsame : record.classification.state = c.state ∧ record.classification.authority = c.authority
  · simp only [if_pos hsame]
    refine iff_of_true ?_ fun _ => hsame
    split_ifs
    · exact ⟨_, rfl⟩
    · exact ⟨_, rfl⟩
  · simp only [if_neg hsame]
    constructor
    · rintro ⟨generation, hok⟩ hmax
      rw [if_pos ⟨hc, by rw [StrongId.valid, hmax]; decide⟩, if_pos hmax] at hok
      cases hok
    · intro hmax
      split_ifs with hvalid hlast
      · exact absurd (hmax hlast) hsame
      · exact ⟨_, rfl⟩
      · exact ⟨_, rfl⟩

/-- A commit is a new decision. -/
theorem Commits.redecides (hcommits : g.Commits record now c h)
    (hc : record.hasClassification = true) :
    Redecides g record now := by
  obtain ⟨v, hv, -⟩ := hcommits.identity
  exact ⟨hcommits.changed, (makeValidity_eq_ok (validity_of_buildAuthority hv)).1, hcommits.room,
    (nextGeneration_eq_ok_iff hc _).mp ⟨_, hcommits.generation⟩⟩

/-- A committed decision has not expired at its own tick. -/
theorem Commits.not_outlived (hcommits : g.Commits record now c h) : ¬ Outlived (stamped c h) now := by
  rintro ⟨-, hexpired⟩
  obtain ⟨v, hv, hid⟩ := hcommits.identity
  have hvalidity : (stamped c h).authorityVector.validity = v.validity := by
    show c.authorityVector.validity = v.validity
    rw [hid]
    rfl
  rw [hvalidity] at hexpired
  exact (makeValidity_eq_ok (validity_of_buildAuthority hv)).2 hexpired

theorem Redecides.commits (h : Redecides g record now) (hs : Sound g.config lastTick key record)
    (hle : lastTick ≤ now) (hel : record.isElephant = true)
    (hticks : g.config.classificationValidityTicks ≠ 0) :
    ∃ c h', g.Commits record now c h' := by
  have hc : record.hasClassification = true := by
    simp only [FlowRecord.isElephant, Bool.and_eq_true] at hel
    exact hel.1
  obtain ⟨v, hv⟩ := buildAuthority_isOk hticks h.ticks record
  obtain ⟨generation, hn⟩ := (nextGeneration_eq_ok_iff hc _).mpr h.generations
  exact ⟨identified (g.candidate record now) v generation ⟨g.classificationSequence + 1⟩, _,
    hs.not_ahead hle, h.changed, h.identifiers, ⟨v, hv, rfl⟩, hn,
    ClassificationHistory.record_of_continues (hs.continues hle hel)⟩

theorem Commits.not_outlived_record (hcommits : g.Commits record now c h) :
    ¬ Outlived (g.evaluate record now).2.2.classification now := by
  rw [hcommits.evaluate_eq, commit_snd_snd, rebound_classification]
  exact hcommits.not_outlived

theorem isElephant_of_outlived (ht : Tracked config key record)
    (h : Outlived record.classification now) : record.isElephant = true := by
  cases hc : record.hasClassification with
  | true =>
    rw [FlowRecord.isElephant, hc, h.1]
    rfl
  | false =>
    have hstate := h.1
    rw [ht.unclassified hc] at hstate
    cases hstate

/-- **One evaluation.**  The decision that an evaluation leaves has expired exactly if it had before
and no new one was made. -/
theorem evaluate_outlived_iff (hs : Sound g.config lastTick key record) (hle : lastTick ≤ now)
    (hticks : g.config.classificationValidityTicks ≠ 0) :
    Outlived (g.evaluate record now).2.2.classification now ↔
      Outlived record.classification now ∧ ¬ Redecides g record now := by
  rcases evaluate_cases g record now with ⟨e, _, _, heq⟩ | ⟨-, hu, heq⟩ | ⟨c, h, hc, heq⟩
  · -- a refusal leaves the record as it was
    have hsame : (g.evaluate record now).2.2.classification = record.classification := by rw [heq]
    rw [hsame]
    refine ⟨fun hout => ⟨hout, fun hnew => ?_⟩, And.left⟩
    obtain ⟨c, h, hc⟩ := hnew.commits hs hle (isElephant_of_outlived hs.tracked hout) hticks
    exact hc.not_outlived_record (by rw [hsame]; exact hout)
  · have hsame : (g.evaluate record now).2.2.classification = record.classification := by rw [heq]
    rw [hsame]
    refine ⟨fun hout => ⟨hout, fun hnew => ?_⟩, And.left⟩
    rw [hnew.changed] at hu
    cases hu
  · refine iff_of_false hc.not_outlived_record ?_
    rintro ⟨hout, hkept⟩
    have hel := isElephant_of_outlived hs.tracked hout
    simp only [FlowRecord.isElephant, Bool.and_eq_true] at hel
    exact hkept (hc.redecides hel.1)

/-! ## The sweep -/

/-- An iteration of the sweep touches only its own flow. -/
theorem getElem?_sweepFlow_ne {k : FlowKey} (hne : k ≠ key) (acc : DecisionBatch × Governor) :
    (sweepFlow now key acc).2.flows[k]? = acc.2.flows[k]? := by
  unfold sweepFlow
  rcases acc.2.flows[key]? with _ | record
  · rfl
  simp only
  split_ifs
  · have hflows : (acc.2.evaluateFlow key record now).2.flows[k]? = acc.2.flows[k]? := by
      rw [getElem?_evaluateFlow, if_neg (Ne.symm hne)]
    rcases hd : acc.2.evaluateFlow key record now with ⟨e | d, g'⟩
    · rw [hd] at hflows
      exact hflows
    · rw [hd] at hflows
      exact hflows
  · rfl

theorem getElem?_sweepLoop_of_notMem {keys : List FlowKey} {k : FlowKey} (h : k ∉ keys)
    (acc : DecisionBatch × Governor) :
    (sweepLoop now keys acc).2.flows[k]? = acc.2.flows[k]? := by
  induction keys generalizing acc with
  | nil => rfl
  | cons key rest ih =>
    rw [List.mem_cons, not_or] at h
    exact (ih h.2 (sweepFlow now key acc)).trans (getElem?_sweepFlow_ne h.1 acc)

theorem sameSources_sweepFlow (key : FlowKey) (acc : DecisionBatch × Governor) :
    SameSources acc.2 (sweepFlow now key acc).2 := by
  unfold sweepFlow
  rcases acc.2.flows[key]? with _ | record
  · exact ⟨rfl, rfl, rfl, rfl, rfl⟩
  simp only
  split_ifs
  · have hsame := sameSources_evaluateFlow acc.2 key record now
    rcases hd : acc.2.evaluateFlow key record now with ⟨e | d, g'⟩
    · rw [hd] at hsame
      exact hsame
    · rw [hd] at hsame
      exact hsame
  · exact ⟨rfl, rfl, rfl, rfl, rfl⟩

theorem sameSources_sweepLoop (keys : List FlowKey) (acc : DecisionBatch × Governor) :
    SameSources acc.2 (sweepLoop now keys acc).2 := by
  induction keys generalizing acc with
  | nil => exact ⟨rfl, rfl, rfl, rfl, rfl⟩
  | cons key rest ih => exact (sameSources_sweepFlow key acc).trans (ih (sweepFlow now key acc))

theorem sweepFlow_outlived_iff {acc : DecisionBatch × Governor}
    (hr : acc.2.flows[key]? = some record) (hs : Sound acc.2.config lastTick key record)
    (hle : lastTick ≤ now) (hticks : acc.2.config.classificationValidityTicks ≠ 0) :
    (∃ r : FlowRecord, (sweepFlow now key acc).2.flows[key]? = some r ∧
        Outlived r.classification now) ↔
      Outlived record.classification now ∧ ¬ Redecides acc.2 record now := by
  unfold sweepFlow
  rw [hr]
  simp only
  by_cases hsweeps : acc.2.sweeps record now = true
  · rw [if_pos hsweeps, ← evaluate_outlived_iff hs hle hticks]
    have hflows : (acc.2.evaluateFlow key record now).2.flows[key]? =
        some (acc.2.evaluate record now).2.2 := by
      rw [getElem?_evaluateFlow, if_pos rfl]
    have hafter : (∃ r : FlowRecord, (acc.2.evaluateFlow key record now).2.flows[key]? = some r ∧
        Outlived r.classification now) ↔
        Outlived (acc.2.evaluate record now).2.2.classification now := by
      rw [hflows]
      simp
    rcases hd : acc.2.evaluateFlow key record now with ⟨e | d, g'⟩
    · rw [hd] at hafter
      exact hafter
    · rw [hd] at hafter
      exact hafter
  · -- a record that is passed over is not an Elephant
    have hno : ¬ Outlived record.classification now := by
      intro hout
      apply hsweeps
      exact hs.sweeps hle (isElephant_of_outlived hs.tracked hout)
    rw [if_neg hsweeps, hr]
    refine iff_of_false ?_ fun h => hno h.1
    rintro ⟨r, hsome, hout⟩
    obtain rfl := Option.some.inj hsome
    exact hno hout

/-- The governor in which the sweep at `now` comes to the flow behind the given ones. -/
def atTurn (g : Governor) (now : Tick) (before : List FlowKey) : Governor :=
  match g.tickGuard.observe now with
  | .error _ => g
  | .ok guard => (sweepLoop now before (g.beginSweep guard now)).2

theorem getElem?_tick (hok : (g.tick now).1 = .ok batch)
    (hkeys : g.flows.keys = before ++ key :: after) :
    (∃ acc : DecisionBatch × Governor, acc.2 = g.atTurn now before ∧
        (g.tick now).2.flows[key]? = (sweepFlow now key acc).2.flows[key]?) ∧
      (g.atTurn now before).flows[key]? = g.flows[key]? ∧
      (g.atTurn now before).config = g.config := by
  have hnodup : g.flows.keys.Nodup := Std.ExtTreeMap.nodup_keys
  rw [hkeys] at hnodup
  obtain ⟨-, htail, hdisjoint⟩ := List.nodup_append.mp hnodup
  have hbefore : key ∉ before := fun hmem => hdisjoint key hmem key List.mem_cons_self rfl
  have hafter : key ∉ after := (List.nodup_cons.mp htail).1
  obtain ⟨-, guard, hguard, heq⟩ := tick_eq_ok hok
  have hturn : g.atTurn now before = (sweepLoop now before (g.beginSweep guard now)).2 := by
    rw [atTurn, hguard]
  rw [heq, hturn]
  refine ⟨⟨sweepLoop now before (g.beginSweep guard now), rfl, ?_⟩, ?_, ?_⟩
  · show (sweepLoop now g.flows.keys (g.beginSweep guard now)).2.flows[key]? = _
    rw [hkeys]
    show ((before ++ key :: after).foldl _ (g.beginSweep guard now)).2.flows[key]? = _
    rw [List.foldl_append, List.foldl_cons]
    exact getElem?_sweepLoop_of_notMem hafter _
  · exact getElem?_sweepLoop_of_notMem hbefore _
  · exact (sameSources_sweepLoop before _).config

theorem Reachable.classificationValidityTicks_ne (h : Reachable config g) :
    g.config.classificationValidityTicks ≠ 0 := by
  rw [h.config_eq]
  exact clamped_classificationValidityTicks config

/-- A successful sweep leaves no expired Elephant exactly if it decides every one of them again. -/
theorem tick_outlived_iff (h : Reachable config g) (hok : (g.tick now).1 = .ok batch) :
    (∀ (key : FlowKey) (r : FlowRecord), (g.tick now).2.flows[key]? = some r →
        ¬ Outlived r.classification now) ↔
      ∀ (before : List FlowKey) (key : FlowKey) (after : List FlowKey) (r : FlowRecord),
        g.flows.keys = before ++ key :: after → g.flows[key]? = some r →
        Outlived r.classification now → Redecides (g.atTurn now before) r now := by
  have hclock : g.lastTick ≤ now := (tick_eq_ok hok).1
  have hticks := h.classificationValidityTicks_ne
  -- the record at its turn, and what the sweep leaves of it
  have hturn : ∀ (before : List FlowKey) (key : FlowKey) (after : List FlowKey) (r : FlowRecord),
      g.flows.keys = before ++ key :: after → g.flows[key]? = some r →
      ((∃ r' : FlowRecord, (g.tick now).2.flows[key]? = some r' ∧ Outlived r'.classification now) ↔
        Outlived r.classification now ∧ ¬ Redecides (g.atTurn now before) r now) := by
    intro before key after r hkeys hr
    obtain ⟨⟨acc, hacc, hflows⟩, hsame, hconfig⟩ := getElem?_tick hok hkeys
    rw [← hacc] at hsame hconfig ⊢
    rw [hflows]
    have hs : Sound acc.2.config g.lastTick key r := by
      rw [hconfig]
      exact h.justified.records key r hr
    exact sweepFlow_outlived_iff (hsame.trans hr) hs hclock (by rw [hconfig]; exact hticks)
  constructor
  · intro hnone before key after r hkeys hr hout
    by_contra hkept
    obtain ⟨r', hr', hout'⟩ := (hturn before key after r hkeys hr).mpr ⟨hout, hkept⟩
    exact hnone key r' hr' hout'
  · intro hall key r' hr' hout'
    have hmem : key ∈ g.flows.keys := by
      by_contra hnot
      obtain ⟨-, guard, -, heq⟩ := tick_eq_ok hok
      have hsame : (g.tick now).2.flows[key]? = g.flows[key]? := by
        rw [heq]
        exact getElem?_sweepLoop_of_notMem hnot _
      rw [Std.ExtTreeMap.mem_keys] at hnot
      rw [hsame, Std.ExtTreeMap.getElem?_eq_none hnot] at hr'
      cases hr'
    obtain ⟨before, after, hkeys⟩ := List.append_of_mem hmem
    obtain ⟨r, hr⟩ := Option.isSome_iff_exists.mp
      (Std.ExtTreeMap.isSome_getElem?_iff_mem.mpr (Std.ExtTreeMap.mem_keys.mp hmem))
    obtain ⟨hout, hkept⟩ := (hturn before key after r hkeys hr).mp ⟨r', hr', hout'⟩
    exact hkept (hall before key after r hkeys hr hout)

theorem SameSources.suspensionReasons (h : SameSources g g') (record : FlowRecord) (now : Tick) :
    g'.suspensionReasons record now = g.suspensionReasons record now := by
  unfold Governor.suspensionReasons evidenceSuspension policySuspension authoritySuspension
  rw [h.buildAuthority, h.paths, h.capacities, h.policy]

theorem changed_of_suspended (hstate : record.classification.state = .elephant)
    (h : record.ledger.completed = true ∨ (g.suspensionReasons record now).1 = true) :
    unchanged record (g.candidate record now) = false := by
  cases hu : unchanged record (g.candidate record now) with
  | false => rfl
  | true =>
    have hverdict : (g.verdict record now).state = .elephant := by
      rw [← candidate_state, ← (of_unchanged hu).2.1]
      exact hstate
    obtain ⟨hrun, hsus, -⟩ := of_verdict_elephant hverdict
    rw [hrun, hsus] at h
    rcases h with h | h <;> cases h

/-- Every iteration of the sweep takes at most one identifier. -/
theorem classificationSequence_sweepLoop (now : Tick) (keys : List FlowKey)
    (acc : DecisionBatch × Governor) :
    (sweepLoop now keys acc).2.classificationSequence.toNat ≤
      acc.2.classificationSequence.toNat + keys.length := by
  induction keys generalizing acc with
  | nil => exact le_refl _
  | cons key rest ih =>
    have hstep : (sweepFlow now key acc).2.classificationSequence.toNat ≤
        acc.2.classificationSequence.toNat + 1 := by
      unfold sweepFlow
      rcases acc.2.flows[key]? with _ | record
      · exact Nat.le_succ _
      simp only
      split_ifs
      · have hids : (acc.2.evaluateFlow key record now).2.classificationSequence.toNat ≤
            acc.2.classificationSequence.toNat + 1 := by
          show (acc.2.evaluate record now).2.1.classificationSequence.toNat ≤ _
          rcases evaluate_classificationSequence acc.2 record now with hq | ⟨-, hq⟩
          · rw [hq]
            exact Nat.le_succ _
          · rw [hq, UInt64.toNat_add]
            exact Nat.mod_le _ _
        rcases hd : acc.2.evaluateFlow key record now with ⟨e | d, g'⟩
        · rw [hd] at hids
          exact hids
        · rw [hd] at hids
          exact hids
      · exact Nat.le_succ _
    have hrest := ih (sweepFlow now key acc)
    show (sweepLoop now rest (sweepFlow now key acc)).2.classificationSequence.toNat ≤ _
    rw [List.length_cons]
    omega

theorem redecides_of_suspended (hok : (g.tick now).1 = .ok batch)
    (hticks : now.toNat + g.config.classificationValidityTicks.toNat < 2 ^ 64)
    (hids : g.classificationSequence.toNat + g.flows.size < 2 ^ 64)
    (hgen : r.classification.generation.value ≠ u64Max)
    (hstate : r.classification.state = .elephant)
    (h : r.ledger.completed = true ∨ ((g.atTurn now []).suspensionReasons r now).1 = true)
    (hkeys : g.flows.keys = before ++ key :: after) :
    Redecides (g.atTurn now before) r now := by
  obtain ⟨-, guard, hguard, -⟩ := tick_eq_ok hok
  have hturn : ∀ ks, g.atTurn now ks = (sweepLoop now ks (g.beginSweep guard now)).2 := by
    intro ks
    rw [atTurn, hguard]
  have hsame : SameSources (g.atTurn now []) (g.atTurn now before) := by
    rw [hturn, hturn]
    exact sameSources_sweepLoop before (g.beginSweep guard now)
  have hconfig : (g.atTurn now before).config = g.config := (getElem?_tick hok hkeys).2.2
  refine ⟨changed_of_suspended hstate ?_, by rw [hconfig]; exact hticks, ?_, fun hmax => ?_⟩
  · rw [hsame.suspensionReasons]
    exact h
  · -- the flows before it took one identifier each
    have hused := classificationSequence_sweepLoop now before (g.beginSweep guard now)
    have hlength : g.flows.keys.length = g.flows.size := Std.ExtTreeMap.length_keys
    rw [hkeys, List.length_append, List.length_cons] at hlength
    have hstart : (g.beginSweep guard now).2.classificationSequence = g.classificationSequence := rfl
    rw [← hturn, hstart] at hused
    intro hmax
    rw [hmax, show u64Max.toNat = 2 ^ 64 - 1 from rfl] at hused
    omega
  · exact absurd hmax hgen

/-! ## Queries -/

/-- The decision that an evaluation returns has expired exactly if it is the stored one, repeated. -/
theorem decision_outlived_iff {d : FlowDecision} (hd : (g.evaluate record now).1 = .ok d) :
    Outlived d.classification now ↔
      Outlived record.classification now ∧ unchanged record (g.candidate record now) = true := by
  rcases decision_cases hd with ⟨hu, heq⟩ | ⟨c, h, hc, heq⟩
  · rw [heq]
    exact ⟨fun hout => ⟨hout, hu⟩, And.left⟩
  · rw [heq]
    refine iff_of_false hc.not_outlived ?_
    rintro ⟨-, hu⟩
    rw [hc.changed] at hu
    cases hu

theorem classification_eq_ok {flow : FlowId}
    (hr : g.flows[(⟨flow, generation⟩ : FlowKey)]? = some r)
    (h : (g.classification flow generation now).1 = .ok c) :
    ∃ d, (g.evaluate r now).1 = .ok d ∧ d.classification = c := by
  unfold classification at h
  rw [hr] at h
  have hfst : (g.evaluateFlow ⟨flow, generation⟩ r now).1 = (g.evaluate r now).1 := rfl
  rcases hd : g.evaluateFlow ⟨flow, generation⟩ r now with ⟨e | d, g'⟩
  · simp only [hd] at h
    cases h
  · simp only [hd] at h hfst
    exact ⟨d, hfst.symm, Except.ok.inj h⟩

theorem explain_eq_ok {flow : FlowId} {x : Explanation}
    (hr : g.flows[(⟨flow, generation⟩ : FlowKey)]? = some r)
    (h : (g.explain flow generation now).1 = .ok x) :
    ∃ d, (g.evaluate r now).1 = .ok d ∧ x.state = d.classification.state ∧
      x.authorityVector = d.classification.authorityVector := by
  unfold explain at h
  rw [hr] at h
  rcases hd : g.evaluate r now with ⟨e | d, g', r'⟩
  · simp only [hd] at h
    cases h
  · simp only [hd] at h
    obtain rfl := Except.ok.inj h
    exact ⟨d, rfl, rfl, rfl⟩

/-- **When a classification does not outlive its lifetime.**  In a reachable governor a successful
sweep leaves no expired Elephant if and only if each of them is decided again at its turn, which is
so for the completed and the suspended ones while ticks, identifiers and generations last.  A query
answers with an expired Elephant if and only if that is what is stored and the idempotency test
finds nothing changed. -/
theorem no_decision_outlives_iff {config : GovernorConfig} (h : Reachable config g) (now : Tick) :
    (∀ batch, (g.tick now).1 = .ok batch →
      ((∀ (key : FlowKey) (r : FlowRecord), (g.tick now).2.flows[key]? = some r →
          ¬ Outlived r.classification now) ↔
        ∀ (before : List FlowKey) (key : FlowKey) (after : List FlowKey) (r : FlowRecord),
          g.flows.keys = before ++ key :: after → g.flows[key]? = some r →
          Outlived r.classification now → Redecides (g.atTurn now before) r now)) ∧
    (∀ batch, (g.tick now).1 = .ok batch →
      now.toNat + g.config.classificationValidityTicks.toNat < 2 ^ 64 →
      g.classificationSequence.toNat + g.flows.size < 2 ^ 64 →
      (∀ (key : FlowKey) (r : FlowRecord), g.flows[key]? = some r → Outlived r.classification now →
        r.classification.generation.value ≠ u64Max ∧ (r.ledger.completed = true ∨
          ((g.atTurn now []).suspensionReasons r now).1 = true)) →
      ∀ (key : FlowKey) (r : FlowRecord), (g.tick now).2.flows[key]? = some r →
        ¬ Outlived r.classification now) ∧
    (∀ (flow : FlowId) (generation : Generation) (r : FlowRecord),
      g.flows[(⟨flow, generation⟩ : FlowKey)]? = some r →
      (∀ c, (g.classification flow generation now).1 = .ok c →
        (Outlived c now ↔
          Outlived r.classification now ∧ unchanged r (g.candidate r now) = true)) ∧
      ∀ x, (g.explain flow generation now).1 = .ok x →
        (x.state = .elephant ∧ evaluateFreshness x.authorityVector.validity now = .expired ↔
          Outlived r.classification now ∧ unchanged r (g.candidate r now) = true)) := by
  refine ⟨fun batch hok => tick_outlived_iff h hok, ?_, fun flow generation r hr => ⟨?_, ?_⟩⟩
  · intro batch hok hticks hids hsuspended
    refine (tick_outlived_iff h hok).mpr fun before key after r hkeys hr hout => ?_
    obtain ⟨hgen, hwhy⟩ := hsuspended key r hr hout
    exact redecides_of_suspended hok hticks hids hgen hout.1 hwhy hkeys
  · intro c hc
    obtain ⟨d, hd, rfl⟩ := classification_eq_ok hr hc
    exact decision_outlived_iff hd
  · intro x hx
    obtain ⟨d, hd, hstate, hvector⟩ := explain_eq_ok hr hx
    rw [hstate, hvector]
    exact decision_outlived_iff hd

namespace Scenario

/-- The small run under decisions that live for five ticks. -/
def brief : Governor :=
  ((make { classificationValidityTicks := 5 }).setIncarnation boot).run commands

theorem reachable_brief : Reachable { classificationValidityTicks := 5 } brief := by
  refine reachable_incarnation.run ?_
  simp [commands, Admits]

end Scenario

open Scenario

/-- At tick 600 the evidence of the small run is stale, and its expired Elephant is suspended. -/
theorem no_decision_outlives_stale :
    okAnd (brief.tick 600).1 (fun _ => true) = true ∧
    ∀ (key : FlowKey) (r : FlowRecord), (brief.tick 600).2.flows[key]? = some r →
      ¬ Outlived r.classification 600 := by
  have hok : okAnd (brief.tick 600).1 (fun _ => true) = true := by decide +kernel
  refine ⟨hok, ?_⟩
  obtain ⟨batch, hbatch, -⟩ := okAnd_eq_true.mp hok
  have hrecords : ∀ e ∈ brief.flows.toList, e.2.classification.generation.value ≠ u64Max ∧
      ((brief.atTurn 600 []).suspensionReasons e.2 600).1 = true := by decide +kernel
  refine (no_decision_outlives_iff reachable_brief 600).2.1 batch hbatch (by decide +kernel)
    (by decide +kernel) fun key r hr _ => ?_
  have hrecord := hrecords _ (Std.ExtTreeMap.mem_toList_iff_getElem?_eq_some.mpr hr)
  exact ⟨hrecord.1, .inr hrecord.2⟩

/-- The sweep at tick 20 renews the decision for five ticks; the sweep and the query at tick 30 find
nothing changed and leave the Elephant with a vector that expired at 25. -/
theorem sweep_keeps_expired_elephant :
    Reachable { classificationValidityTicks := 5 } (brief.tick 20).2 ∧
      isOk ((brief.tick 20).2.tick 30).1 = true ∧
      (((brief.tick 20).2.tick 30).2.flows[flowKey]?.any fun r =>
        decide (Outlived r.classification 30)) = true ∧
      okAnd (((brief.tick 20).2.tick 30).2.classification ⟨1⟩ ⟨1⟩ 30).1
        (fun c => decide (Outlived c 30)) = true := by
  refine ⟨reachable_brief.tail ⟨.tick 20, trivial, rfl⟩, ?_⟩
  decide +kernel

end Governor

end EFG
