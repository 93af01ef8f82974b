/-
# What a move does to one record

A move changes the record of a flow in one of seven ways.  `Becomes` lists them
with the record that results, and `Move.becomes` shows that the list is complete.
A property of single records is then checked once for each way.
-/
import ElephantFlow.Justification

namespace EFG

open ByteCodec

namespace Governor

variable {g g' : Governor} {key k : FlowKey} {r r' : FlowRecord} {now : Tick} {e : Event}

/-- The ways in which the record of a key comes about in a move. -/
inductive Becomes (g : Governor) (key : FlowKey) : Event → FlowRecord → Prop
  /-- The move is about something else, or leaves the record as it is. -/
  | same (e : Event) (r : FlowRecord) (hr : g.flows[key]? = some r) : Becomes g key e r
  | fresh (hnew : g.flows[key]? = none) : Becomes g key (.create key) (g.freshRecord key)
  | appended (r : FlowRecord) (s : FlowSample) (hr : g.flows[key]? = some r)
      (hkey : sampleKey s = key) :
      Becomes g key (.evidence key r s) { r with ledger := (r.ledger.append s).2 }
  | completed (r : FlowRecord) (ledger : FlowLedger) (atTick : Tick) (hr : g.flows[key]? = some r)
      (hledger : r.ledger.markCompleted atTick = .ok ledger) :
      Becomes g key (.complete key r atTick) { r with ledger := ledger, completedTick := atTick }
  | evaluated (r : FlowRecord) (now : Tick) (hr : g.flows[key]? = some r) :
      Becomes g key (.evaluate key r now) (g.evaluate r now).2.2
  /-- A policy change clears the streaks of a record that is not an Elephant. -/
  | cleared (r : FlowRecord) (now : Tick) (hr : g.flows[key]? = some r)
      (hc : r.hasClassification = true) (hs : r.classification.state ≠ .elephant) :
      Becomes g key (.invalidate now) (clearedRecord .policyChanged r)
  /-- A policy change suspends an Elephant. -/
  | withdrawn (r : FlowRecord) (h : ClassificationHistory) (now : Tick)
      (hr : g.flows[key]? = some r) (hel : r.isElephant = true) :
      Becomes g key (.invalidate now) (rebound (suspendedRecord .policyChanged r h))
  | restored (r : FlowRecord) (bytes : Bytes) (now : Tick)
      (hok : (g.deserialize bytes now).1 = .ok ())
      (hr : (g.deserialize bytes now).2.flows[key]? = some r) : Becomes g key (.restore bytes now) r

theorem becomes_replace {k : FlowKey} {new : FlowRecord}
    (hflows : g'.flows[key]? = if k = key then some new else g.flows[key]?)
    (hr' : g'.flows[key]? = some r') (hnew : k = key → Becomes g key e new) : Becomes g key e r' := by
  rw [hflows] at hr'
  split_ifs at hr' with hk
  · rw [← Option.some.inj hr']
    exact hnew hk
  · exact .same e r' hr'

/-! ## The invalidation -/

/-- The state of the invalidation loop: the keys it has not visited have their records still, and
every other record is what the invalidation makes of it. -/
structure Invalidating (g : Governor) (now : Tick) (pending : List FlowKey) (x : Governor) : Prop where
  untouched : ∀ k ∈ pending, x.flows[k]? = g.flows[k]?
  records : ∀ (k : FlowKey) (r : FlowRecord), x.flows[k]? = some r → Becomes g k (.invalidate now) r

theorem Invalidating.step {x : Governor} {pending : List FlowKey} (hkey : key ∉ pending)
    (h : Invalidating g now (key :: pending) x) :
    Invalidating g now pending (invalidateFlow now .policyChanged key x).2 := by
  refine ⟨fun k hk => ?_, fun k r' hr' => ?_⟩
  · have hne : key ≠ k := fun heq => hkey (heq ▸ hk)
    rw [getElem?_invalidateFlow now _ hne]
    exact h.untouched k (List.mem_cons_of_mem _ hk)
  by_cases hk : key = k
  swap
  · rw [getElem?_invalidateFlow now _ hk] at hr'
    exact h.records k r' hr'
  subst hk
  unfold invalidateFlow at hr'
  rcases hr : x.flows[key]? with _ | r
  · rw [hr] at hr'
    exact h.records key r' hr'
  rw [hr] at hr'
  have hbefore : g.flows[key]? = some r := by
    rw [← h.untouched key List.mem_cons_self]
    exact hr
  simp only at hr'
  rcases invalidateRecord_cases x now .policyChanged key r with
    ⟨-, heq⟩ | ⟨hc, hs, heq⟩ | ⟨-, e, -, heq⟩ | ⟨hel, hist, -, heq⟩
  · rw [heq] at hr'
    exact h.records key r' hr'
  · rw [heq, getElem?_setFlow, if_pos rfl] at hr'
    rw [← Option.some.inj hr']
    exact .cleared r now hbefore hc hs
  · rw [heq] at hr'
    exact h.records key r' hr'
  · rw [heq, getElem?_withdrawn, if_pos rfl] at hr'
    rw [← Option.some.inj hr']
    exact .withdrawn r hist now hbefore hel

theorem becomes_invalidate (hr' : (g.invalidateAllAuthority now .policyChanged).2.flows[key]? = some r') :
    Becomes g key (.invalidate now) r' := by
  have hstart : Invalidating g now g.flows.keys g :=
    ⟨fun _ _ => rfl, fun k r hr => .same _ r hr⟩
  obtain ⟨rest, hloop⟩ := Fallible.forEach_visits (P := Invalidating g now)
    (fun k ks x hk hx => hx.step hk) Std.ExtTreeMap.nodup_keys hstart
  unfold invalidateAllAuthority at hr'
  rcases hres : Fallible.forEach (invalidateFlow now .policyChanged) g.flows.keys g with ⟨res, g₁⟩
  rw [hres] at hr' hloop
  cases res with
  | error e => exact hloop.records key r' hr'
  | ok u => exact hloop.records key r' hr'

/-! ## Every move -/

/-- Every record after a move came about in one of the listed ways. -/
theorem Move.becomes (hmove : Move g e g') (hr' : g'.flows[key]? = some r') : Becomes g key e r' := by
  cases hmove with
  | inputs => exact .same _ r' hr'
  | advance => exact .same _ r' hr'
  | policy => exact .same _ r' hr'
  | invalidate now => exact becomes_invalidate hr'
  | evict k record =>
    have hflows : (g.dropFlow k record).flows = g.flows.erase k := by
      show (g.updateIndex k record).1.flows.erase k = _
      rw [updateIndex_flows]
    rw [hflows, Std.ExtTreeMap.getElem?_erase] at hr'
    split_ifs at hr'
    exact .same _ r' hr'
  | create k hnew =>
    refine becomes_replace (getElem?_createFlow hnew key) hr' fun hk => ?_
    subst hk
    exact .fresh hnew
  | retire => exact .same _ r' hr'
  | evidence record s hrecord =>
    refine becomes_replace (getElem?_setFlow g _ key _) hr' fun hk => ?_
    subst hk
    exact .appended record s hrecord rfl
  | complete k record ledger atTick hrecord hledger =>
    refine becomes_replace (getElem?_setFlow g _ key _) hr' fun hk => ?_
    subst hk
    exact .completed record ledger atTick hrecord hledger
  | evaluate k record now hrecord =>
    refine becomes_replace (getElem?_evaluateFlow g k key record now) hr' fun hk => ?_
    subst hk
    exact .evaluated record now hrecord
  | reset =>
    exact of_getElem?_empty hr'
  | restore bytes now hok => exact .restored r' bytes now hok hr'

/-- A restored record has no authority. -/
theorem Becomes.restored_spec {bytes : Bytes} (hok : (g.deserialize bytes now).1 = .ok ())
    (hr : (g.deserialize bytes now).2.flows[key]? = some r) :
    Tracked g.config key r ∧ Demoted now r := by
  obtain ⟨htracked, hdemoted, -⟩ := (deserialize_spec hok).records key r hr
  exact ⟨htracked, hdemoted⟩

end Governor

end EFG
