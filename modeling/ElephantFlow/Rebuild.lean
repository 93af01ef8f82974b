/-
# What a restore rebuilds

The outcome of `load`, part by part.  A ledger is rebuilt by appending its windows
again: what comes out is a function of the retained windows, so the flag of a gap
and the count of dropped windows are gone (`replayed`).  A history is recorded again
and must not have folded an entry.  The stored flows are independent of one another,
so the flows of the restored governor are the stored ones, each rebuilt, demoted and
bound again (`loaded_resumption`), and the restore succeeds exactly when each part
can be rebuilt (`decides_load`).
-/
import ElephantFlow.Reloading
import ElephantFlow.LedgerRuns

namespace EFG

open ByteCodec Fallible Std

/-! ## Windows -/

namespace FlowLedger

variable {l : FlowLedger} {s a : FlowSample} {ss : List FlowSample}

/-- The identity, the validity and the size of a window fit the ledger. -/
structure Belongs (l : FlowLedger) (s : FlowSample) : Prop where
  flow : s.flow = l.flow
  generation : s.flowGeneration = l.generation
  valid : s.validate = .ok ()
  size : l.oversized s = false

/-- The first window of a ledger. -/
theorem Belongs.admissible (h : l.Belongs s) (hprevious : l.hasPrevious = false)
    (hgrows : l.generationCumulative = 0) : l.Admissible s where
  flow := h.flow
  generation := h.generation
  valid := h.valid
  fresh := by simp [hprevious]
  ordered := by simp [checkOrder, hprevious]
  grows := by
    rw [hgrows]
    exact UInt64.zero_le
  contiguous := by simp [hprevious]

/-- A window that continues the last one. -/
theorem Belongs.admissible_of_adjoins (h : l.Belongs s) (hlast : l.Summarizes a)
    (hadjoins : Adjoins a s) : l.Admissible s where
  flow := h.flow
  generation := h.generation
  valid := h.valid
  fresh := by
    rintro ⟨-, hsequence, -⟩
    have hlt := hadjoins.sequence
    rw [hsequence, hlast.sequence] at hlt
    exact absurd hlt (UInt64.lt_irrefl _)
  ordered := by
    have hsequence : ¬ s.windowSequence ≤ l.lastSequence := by
      rw [hlast.sequence]
      exact UInt64.not_le.mpr hadjoins.sequence
    have hspan : ¬ s.span.beginAt < l.lastSpanEnd := by
      rw [hlast.spanEnd, hadjoins.span]
      exact UInt64.lt_irrefl _
    have hvolume : ¬ (s.span.beginAt = l.lastSpanEnd ∧
        s.cumulativeBytes - l.lastCumulative ≠ s.windowBytes) := by
      rw [hlast.cumulative]
      exact fun h => h.2 hadjoins.volume
    unfold checkOrder
    rw [if_neg hsequence, if_neg hspan, if_neg hvolume, ite_self]
  grows := by
    rw [hlast.generationCumulative]
    exact hadjoins.cumulative
  contiguous := by
    rintro ⟨-, -, hlt⟩
    rw [hlast.cumulative] at hlt
    exact absurd hadjoins.cumulative (UInt64.not_le.mpr hlt)

theorem restarts_of_adjoins (hlast : l.Summarizes a) (hadjoins : Adjoins a s) :
    l.restarts s = false := by
  unfold restarts movedPath discontinuous
  simp [hlast.path, hlast.pathGeneration, hlast.spanEnd, hadjoins.path, hadjoins.pathGeneration,
    hadjoins.span]

theorem summarizes_push (l : FlowLedger) (s : FlowSample) : (l.push s).Summarizes s :=
  ⟨rfl, rfl, rfl, rfl, rfl, rfl, rfl, rfl⟩

/-- Retaining a window changes neither the identity nor the limits, so the same windows belong. -/
theorem Belongs.push {s' : FlowSample} (h : l.Belongs s') : (l.push s).Belongs s' :=
  ⟨h.flow, h.generation, h.valid, h.size⟩

/-- A window that continues the ledger is retained. -/
theorem append_of_continues (hadm : l.Admissible s) (hsize : l.oversized s = false)
    (hcontinues : l.restarts s = false) : l.append s = (.ok .accepted, l.push s) := by
  rw [append_of_admissible hadm hsize, restartEpoch_of_continues hcontinues]

/-- The windows of a run are retained one after the other, while there is room. -/
theorem samples_foldl_push (hroom : l.samples.length + ss.length ≤ l.limits.maxSamples) :
    (ss.foldl push l).samples = l.samples ++ ss ∧
      (ss.foldl push l).droppedWindows = l.droppedWindows := by
  induction ss generalizing l with
  | nil => exact ⟨(List.append_nil _).symm, rfl⟩
  | cons s ss ih =>
    rw [List.length_cons] at hroom
    have hspace : ¬ l.samples.length ≥ l.limits.maxSamples := by omega
    have hsamples : (l.push s).samples = l.samples ++ [s] := by
      unfold push
      simp only [if_neg hspace]
    have hdropped : (l.push s).droppedWindows = l.droppedWindows := by
      unfold push
      simp only [if_neg hspace]
    have hroom' : (l.push s).samples.length + ss.length ≤ (l.push s).limits.maxSamples := by
      show _ ≤ l.limits.maxSamples
      rw [hsamples, List.length_append, List.length_singleton]
      omega
    obtain ⟨hall, hnone⟩ := ih hroom'
    rw [List.foldl_cons, hall, hnone, hsamples, hdropped, List.append_assoc]
    exact ⟨rfl, rfl⟩

/-- What retaining windows leaves alone. -/
theorem frame_foldl_push (l : FlowLedger) (ss : List FlowSample) :
    (ss.foldl push l).flow = l.flow ∧ (ss.foldl push l).generation = l.generation ∧
    (ss.foldl push l).limits = l.limits ∧ (ss.foldl push l).gapDetected = l.gapDetected ∧
    (ss.foldl push l).completed = l.completed := by
  induction ss generalizing l with
  | nil => exact ⟨rfl, rfl, rfl, rfl, rfl⟩
  | cons s ss ih => exact ih (l.push s)

/-- The last of the retained windows is the one the ledger remembers. -/
theorem summarizes_foldl_push (hlast : ss.getLast? = some s) :
    (ss.foldl push l).Summarizes s ∧ (ss.foldl push l).hasPrevious = true := by
  obtain ⟨before, rfl⟩ : ∃ before, ss = before ++ [s] := by
    rw [List.getLast?_eq_some_iff] at hlast
    exact hlast
  rw [List.foldl_append]
  exact ⟨summarizes_push _ s, rfl⟩

end FlowLedger

/-! ## Histories -/

namespace ClassificationHistory

theorem digest_push (h : ClassificationHistory) (t : ClassificationTransition) :
    (h.push t).digest = chainDigest h.digest t := by
  unfold push
  rfl

theorem digest_foldl_push (h : ClassificationHistory) (ts : List ClassificationTransition) :
    (ts.foldl push h).digest = ts.foldl chainDigest h.digest := by
  induction ts generalizing h with
  | nil => rfl
  | cons t ts ih => rw [List.foldl_cons, List.foldl_cons, ih, digest_push]

end ClassificationHistory

namespace Governor

variable {stored r : FlowRecord} {ss : List FlowSample} {ledger : FlowLedger} {g : Governor}
  {key : FlowKey}

/-! ## One record -/

/-- The windows of a run are all appended again. -/
theorem forEach_loadSample (hchain : ss.IsChain FlowLedger.Adjoins)
    (hbelong : ∀ s ∈ ss, r.ledger.Belongs s)
    (hfirst : ∀ s ∈ ss.head?, r.ledger.Admissible s ∧ r.ledger.restarts s = false) :
    forEach loadSample ss r = (.ok (), { r with ledger := ss.foldl FlowLedger.push r.ledger }) := by
  induction ss generalizing r with
  | nil => rfl
  | cons s ss ih =>
    obtain ⟨hadm, hcontinues⟩ := hfirst s rfl
    have happend := FlowLedger.append_of_continues hadm (hbelong s List.mem_cons_self).size hcontinues
    have hstep : loadSample s r = (.ok (), { r with ledger := r.ledger.push s }) := by
      unfold loadSample
      rw [happend]
    rw [forEach, bind_of_ok hstep]
    refine ih hchain.tail (fun s' hs' => (hbelong s' (List.mem_cons_of_mem s hs')).push) ?_
    -- the next window continues the one that was just retained
    intro s' hs'
    have hadjoins : FlowLedger.Adjoins s s' := by
      cases ss with
      | nil => cases hs'
      | cons b bs =>
        cases hs'
        exact hchain.rel
    have hlast := FlowLedger.summarizes_push r.ledger s
    have hbelongs := (hbelong s' (List.mem_cons_of_mem s (List.mem_of_mem_head? hs'))).push (s := s)
    exact ⟨hbelongs.admissible_of_adjoins hlast hadjoins,
      FlowLedger.restarts_of_adjoins hlast hadjoins⟩

theorem forEach_loadTransition {ts : List ClassificationTransition}
    (hchain : ts.IsChain ClassificationHistory.Continues)
    (hfirst : ∀ t ∈ ts.head?, ∀ last, r.history.latest = some last →
      ClassificationHistory.Continues last t) :
    forEach loadTransition ts r =
      (.ok (), { r with history := ts.foldl ClassificationHistory.push r.history }) := by
  induction ts generalizing r with
  | nil => rfl
  | cons t ts ih =>
    have hrecord : r.history.record t = .ok (r.history.push t) :=
      ClassificationHistory.record_of_continues fun last hlast => hfirst t rfl last hlast
    have hstep : loadTransition t r = (.ok (), { r with history := r.history.push t }) := by
      refine update_eq_ok_iff.mpr ?_
      show Except.map _ (r.history.record t) = _
      rw [hrecord]
      rfl
    rw [forEach, bind_of_ok hstep]
    refine ih hchain.tail fun t' ht' last hlast => ?_
    rw [ClassificationHistory.latest_push] at hlast
    obtain rfl := Option.some.inj hlast
    cases ts with
    | nil => cases ht'
    | cons b bs =>
      cases ht'
      exact hchain.rel

/-- A collection within its ceiling. -/
theorem loadAll_of_le {σ κ : Type} {tooMany : Status} {ceiling : ℕ} {before : σ → σ}
    {body : κ → Fallible Status σ Unit} {ks : List κ} (h : ks.length ≤ ceiling) (x : σ) :
    loadAll tooMany ceiling before body ks x = forEach body ks (before x) := by
  unfold loadAll Fallible.ensure
  rw [decide_eq_true h]
  rfl

theorem decides_loadHistory {h : ClassificationHistory} (hchain : h.Chained)
    (hlength : h.entries.length ≤ kMaxHistoryPerFlow) (hnew : r.history.latest = none) :
    Decides (loadHistory h) r
      (h.foldedCount = 0 ∧ h.digest =
        h.entries.foldl ClassificationHistory.chainDigest r.history.digest) ()
      { r with history := h.entries.foldl ClassificationHistory.push r.history } := by
  have hentries : loadAll (oversize "restored transition population exceeds the ceiling")
      kMaxHistoryPerFlow id loadTransition h.entries r =
        (.ok (), { r with history := h.entries.foldl ClassificationHistory.push r.history }) := by
    rw [loadAll_of_le hlength]
    refine forEach_loadTransition hchain fun t _ last hlast => ?_
    have hlast' : r.history.latest = some last := hlast
    rw [hnew] at hlast'
    cases hlast'
  rw [← ClassificationHistory.digest_foldl_push]
  refine Decides.after hentries (((decides_ensure _ _).congr decide_eq_true_iff).bind fun _ => ?_)
  refine Decides.after (gets_apply _ _) ?_
  exact (decides_ensure _ _).congr decide_eq_true_iff

/-- The completion of a stored ledger, marked on another one. -/
def completedAs (stored l : FlowLedger) : FlowLedger :=
  if stored.completed then { l with completed := true, completedAt := stored.completedAt } else l

/-- A completion is marked again unless it precedes the last window. -/
theorem decides_loadCompletion (hopen : r.ledger.completed = false) :
    Decides (loadCompletion ledger) r (ledger.completed = true →
      ¬ (r.ledger.hasPrevious = true ∧ ledger.completedAt < r.ledger.lastSpanEnd)) ()
      { r with ledger := completedAs ledger r.ledger } := by
  unfold loadCompletion completedAs
  cases hc : ledger.completed with
  | false => exact (Decides.of_eq rfl).congr (by simp)
  | true =>
    simp only [if_true, true_imp_iff]
    refine decides_update (fun hlate => ?_) fun hearly => ?_
    · unfold FlowLedger.markCompleted
      rw [if_neg (by simp [hopen]), if_neg hlate]
      rfl
    · unfold FlowLedger.markCompleted
      rw [if_neg (by simp [hopen]), if_pos (not_not.mp hearly)]
      exact ⟨_, rfl⟩

/-- The record that a restore makes of a stored one, with the rebuilt ledger and history. -/
def loadedRecord (stored : FlowRecord) (ledger : FlowLedger) (history : ClassificationHistory) :
    FlowRecord :=
  { ledger := ledger
    history := history
    classification := if stored.hasClassification then stored.classification else {}
    enterStreak := stored.enterStreak
    exitStreak := stored.exitStreak
    hasClassification := stored.hasClassification
    evaluatedTick := stored.evaluatedTick
    evaluatedWindow := stored.evaluatedWindow
    completedTick := stored.completedTick }

/-- What of a stored record can be rebuilt, given the ledger of its windows: the completion does not
precede the last window, and nothing was folded in the history. -/
structure Rebuildable (stored : FlowRecord) (ledger : FlowLedger) : Prop where
  completion : stored.ledger.completed = true →
    ¬ (ledger.hasPrevious = true ∧ stored.ledger.completedAt < ledger.lastSpanEnd)
  folded : stored.history.foldedCount = 0
  digest : stored.history.digest =
    stored.history.entries.foldl ClassificationHistory.chainDigest 0

/-- The content of a record is rebuilt behind its windows. -/
theorem decides_loadRecord {P : Prop} (hopen : ledger.completed = false)
    (hchain : stored.history.Chained) (hlength : stored.history.entries.length ≤ kMaxHistoryPerFlow)
    (hsamples : Decides (loadAll (oversize "restored sample population exceeds the ceiling")
      kMaxSamplesPerFlow id loadSample stored.ledger.samples) (loadScalars stored (g.freshRecord
      key)) P () { loadScalars stored (g.freshRecord key) with ledger := ledger }) :
    Decides (loadRecord stored) (g.freshRecord key) (P ∧ Rebuildable stored ledger) ()
      (loadedRecord stored (completedAs stored.ledger ledger)
        (stored.history.entries.foldl ClassificationHistory.push
          (.make g.config.maxHistoryPerFlow))) := by
  refine Decides.after (modify_apply _ _) (hsamples.bind fun _ => ?_)
  have hcompletion := @decides_loadCompletion
    { loadScalars stored (g.freshRecord key) with ledger := ledger } stored.ledger hopen
  refine (hcompletion.bind fun _ =>
    (decides_loadHistory hchain hlength rfl).before (b := ()) ?_).congr ?_
  · unfold loadClassification loadedRecord
    cases stored.hasClassification with
    | false => rfl
    | true => rfl
  · exact ⟨fun h => ⟨h.1, h.2.1, h.2.2⟩, fun h => ⟨h.completion, h.folded, h.digest⟩⟩

/-- The ledger that the windows of a stored record make of a new one. -/
def replayed (config : GovernorConfig) (key : FlowKey) (stored : FlowRecord) : FlowLedger :=
  stored.ledger.samples.foldl FlowLedger.push
    (.make key.flow key.generation config.ledgerLimits)

/-- Under the limits they were accepted under, the windows of a record are all appended again. -/
theorem loadSamples_of_tracked (h : Tracked g.config key stored)
    (hlength : stored.ledger.samples.length ≤ kMaxSamplesPerFlow) :
    loadAll (oversize "restored sample population exceeds the ceiling") kMaxSamplesPerFlow id
      loadSample stored.ledger.samples (loadScalars stored (g.freshRecord key)) =
      (.ok (), { loadScalars stored (g.freshRecord key) with
        ledger := replayed g.config key stored }) := by
  rw [loadAll_of_le hlength]
  have hbelong : ∀ s ∈ stored.ledger.samples,
      (FlowLedger.make key.flow key.generation g.config.ledgerLimits).Belongs s := by
    intro s hs
    obtain ⟨hflow, hgeneration, hvalid, hsize⟩ := h.ledger.accepted s hs
    refine ⟨hflow.trans h.flow, hgeneration.trans h.generation, hvalid, ?_⟩
    unfold FlowLedger.oversized at hsize ⊢
    rw [← h.limits]
    exact hsize
  refine forEach_loadSample h.ledger.adjoining hbelong fun s hs => ⟨?_, rfl⟩
  exact (hbelong s (List.mem_of_mem_head? hs)).admissible rfl rfl

/-- Under the same configuration a record is rebuilt exactly when its completion does not precede its
last window and its history has folded nothing. -/
theorem decides_loadRecord_of_tracked (h : Tracked g.config key stored)
    (hchain : stored.history.Chained) (hsamples : stored.ledger.samples.length ≤ kMaxSamplesPerFlow)
    (hhistory : stored.history.entries.length ≤ kMaxHistoryPerFlow) :
    Decides (loadRecord stored) (g.freshRecord key)
      (Rebuildable stored (replayed g.config key stored)) ()
      (loadedRecord stored (completedAs stored.ledger (replayed g.config key stored))
        (stored.history.entries.foldl ClassificationHistory.push
          (.make g.config.maxHistoryPerFlow))) := by
  have hopen : (replayed g.config key stored).completed = false :=
    (FlowLedger.frame_foldl_push _ _).2.2.2.2
  refine (decides_loadRecord hopen hchain hhistory (.of_eq (loadSamples_of_tracked h hsamples))).congr
    ⟨fun h => h.2, fun h => ⟨trivial, h⟩⟩

/-! ## The flows -/

section Flows

variable {g x : Governor} {key : FlowKey} {entries : List (FlowKey × FlowRecord)}

/-- The record that a restore makes of a stored one. -/
def rebuilt (g : Governor) (key : FlowKey) (stored : FlowRecord) : FlowRecord :=
  (loadRecord stored (g.freshRecord key)).2

/-- The stored flow has an identity and can be rebuilt. -/
def Rebuilds (g : Governor) (entry : FlowKey × FlowRecord) : Prop :=
  (entry.1.flow.valid && entry.1.generation.valid) = true ∧
    (loadRecord entry.2 (g.freshRecord entry.1)).1 = .ok ()

/-- The governor with a rebuilt flow. -/
def addFlow (g x : Governor) (entry : FlowKey × FlowRecord) : Governor :=
  (x.createFlow entry.1).setFlow entry.1 (rebuilt g entry.1 entry.2)

theorem flows_addFlow (g x : Governor) (entry : FlowKey × FlowRecord) :
    (addFlow g x entry).flows = x.flows.insert entry.1 (rebuilt g entry.1 entry.2) := by
  ext k : 1
  show ((x.flows.insertIfNew entry.1 _).insert entry.1 _)[k]? = _
  by_cases hk : entry.1 = k
  · subst hk
    rw [KeyedMap.getElem?_insert_self, KeyedMap.getElem?_insert_self]
  · rw [KeyedMap.getElem?_insert_of_ne _ hk, KeyedMap.getElem?_insert_of_ne _ hk,
      ExtTreeMap.getElem?_insertIfNew, if_neg]
    exact fun h => hk (LawfulEqOrd.eq_of_compare h.1)

/-- A new flow is restored exactly when it can be rebuilt. -/
theorem decides_loadFlow (hconfig : x.config = g.config) {entry : FlowKey × FlowRecord}
    (hnew : entry.1 ∉ x.flows) :
    Decides (loadFlow entry) x (Rebuilds g entry) () (addFlow g x entry) := by
  have hfresh : (x.createFlow entry.1).flows[entry.1]?.getD
      ((x.createFlow entry.1).freshRecord entry.1) = g.freshRecord entry.1 := by
    have hcreated : (x.createFlow entry.1).flows[entry.1]? = some (x.freshRecord entry.1) := by
      show (x.flows.insertIfNew entry.1 (x.freshRecord entry.1))[entry.1]? = _
      rw [ExtTreeMap.getElem?_insertIfNew, if_pos ⟨ReflCmp.compare_self, hnew⟩]
    rw [hcreated, Option.getD_some]
    unfold freshRecord
    rw [hconfig]
  have hinto : loadInto entry.2 entry.1 x =
      ((loadRecord entry.2 (g.freshRecord entry.1)).1, addFlow g x entry) := by
    unfold loadInto addFlow rebuilt
    refine Eq.trans (bind_of_ok rfl) ?_
    unfold zoom
    dsimp only
    rw [hfresh]
  refine (decides_ensure _ _).bind fun _ => ⟨fun hok => ?_, fun hno => ?_⟩
  · rw [hinto, hok]
  · rcases hres : (loadRecord entry.2 (g.freshRecord entry.1)).1 with e | ⟨⟩
    · exact ⟨e, _, by rw [hinto, hres]⟩
    · exact absurd hres hno

theorem decides_loadAll {σ κ : Type} {P : Prop} {tooMany : Status} {ceiling : ℕ} {before : σ → σ}
    {body : κ → Fallible Status σ Unit} {ks : List κ} {a b : σ}
    (h : ks.length ≤ ceiling → Decides (forEach body ks) (before a) P () b) :
    Decides (loadAll tooMany ceiling before body ks) a (ks.length ≤ ceiling ∧ P) () b :=
  ((decides_ensure _ _).congr decide_eq_true_iff).bind fun hle =>
    .after (modify_apply _ _) (h hle)

/-- New flows with distinct identities are restored exactly when each of them can be rebuilt. -/
theorem decides_forEach_loadFlow (hconfig : x.config = g.config)
    (hdistinct : (entries.map Prod.fst).Nodup) (hnew : ∀ entry ∈ entries, entry.1 ∉ x.flows) :
    Decides (forEach loadFlow entries) x (∀ entry ∈ entries, Rebuilds g entry) ()
      (entries.foldl (addFlow g) x) := by
  refine decides_forEach (I := fun entries x => x.config = g.config ∧
    (entries.map Prod.fst).Nodup ∧ ∀ entry ∈ entries, entry.1 ∉ x.flows) ?_ ?_
    ⟨hconfig, hdistinct, hnew⟩
  · rintro entry entries x ⟨hconfig, -, hnew⟩
    exact decides_loadFlow hconfig (hnew entry List.mem_cons_self)
  · rintro entry entries x ⟨hconfig, hdistinct, hnew⟩ -
    rw [List.map_cons, List.nodup_cons] at hdistinct
    refine ⟨hconfig, hdistinct.2, fun later hlater hmem => ?_⟩
    rw [flows_addFlow, ExtTreeMap.mem_insert] at hmem
    rcases hmem with heq | hmem
    · rw [LawfulEqOrd.eq_of_compare heq] at hdistinct
      exact hdistinct.1 (List.mem_map_of_mem hlater)
    · exact hnew later (List.mem_cons_of_mem entry hlater) hmem

theorem foldl_addFlow (g : Governor) (entries : List (FlowKey × FlowRecord)) (x : Governor) :
    entries.foldl (addFlow g) x = { x with
      flows := (entries.map fun e => (e.1, rebuilt g e.1 e.2)).foldl
        (fun m e => m.insert e.1 e.2) x.flows
      highestGeneration := entries.foldl (fun m e => m.insert e.1.flow e.1.generation)
        x.highestGeneration } := by
  induction entries generalizing x with
  | nil => rfl
  | cons entry entries ih =>
    rw [List.foldl_cons, ih, List.map_cons, List.foldl_cons, List.foldl_cons, flows_addFlow]
    rfl

/-- The governor in front of the flows of a snapshot. -/
def withoutFlows (g : Governor) : Governor :=
  { g with flows := ∅, highestGeneration := ∅, bindingIndex := ∅, resourceAggregate := ∅ }

/-- The governor with the flows of a snapshot. -/
def withFlowsOf (g stored : Governor) : Governor :=
  stored.flows.toList.foldl (addFlow g) g.withoutFlows

theorem getElem?_withFlowsOf (g stored : Governor) (key : FlowKey) :
    (g.withFlowsOf stored).flows[key]? = stored.flows[key]?.map (rebuilt g key) := by
  have hkeys : (stored.flows.toList.map fun e => (e.1, rebuilt g e.1 e.2)).map Prod.fst =
      stored.flows.toList.map Prod.fst := by
    rw [List.map_map]
    rfl
  unfold withFlowsOf
  rw [foldl_addFlow]
  show (List.foldl _ (∅ : ExtTreeMap FlowKey FlowRecord) _)[key]? = _
  rcases hr : stored.flows[key]? with _ | r
  · rw [KeyedMap.getElem?_foldl_insert_of_notMem]
    · simp
    · rw [hkeys, List.mem_map]
      rintro ⟨e, he, rfl⟩
      rw [ExtTreeMap.mem_toList_iff_getElem?_eq_some.mp he] at hr
      cases hr
  · have hmem : (key, r) ∈ stored.flows.toList :=
      ExtTreeMap.mem_toList_iff_getElem?_eq_some.mpr hr
    have hfound := KeyedMap.getElem?_foldl_insert_of_mem
      (l := stored.flows.toList.map fun e => (e.1, rebuilt g e.1 e.2))
      (by rw [hkeys]; exact KeyedMap.nodup_keys_toList _)
      (List.mem_map_of_mem hmem) (∅ : ExtTreeMap FlowKey FlowRecord)
    exact hfound

/-- Adding the flows of a snapshot leaves the rest of the governor alone. -/
theorem withFlowsOf_frame (g stored : Governor) :
    ∃ flows, g.withFlowsOf stored = { g.withoutFlows with
      flows := flows
      highestGeneration := stored.flows.toList.foldl
        (fun m e => m.insert e.1.flow e.1.generation) ∅ } :=
  ⟨_, foldl_addFlow g stored.flows.toList g.withoutFlows⟩

/-- How a record is rebuilt depends on the configuration alone. -/
theorem rebuilt_congr (h : x.config = g.config) : rebuilt x = rebuilt g := by
  funext key stored
  unfold rebuilt freshRecord
  rw [h]

theorem rebuilds_congr (h : x.config = g.config) (entry : FlowKey × FlowRecord) :
    Rebuilds x entry ↔ Rebuilds g entry := by
  unfold Rebuilds freshRecord
  rw [h]

/-- The flows of a snapshot are restored exactly when there is room for them and each of them can be
rebuilt. -/
theorem decides_loadFlows (g stored : Governor) :
    Decides (loadFlows stored.flows.toList) g (stored.flows.size ≤ g.config.maxFlows ∧
      ∀ entry ∈ stored.flows.toList, Rebuilds g entry) () (g.withFlowsOf stored) := by
  refine Decides.after (gets_apply _ _) ?_
  rw [← ExtTreeMap.length_toList]
  refine decides_loadAll fun _ =>
    decides_forEach_loadFlow rfl (KeyedMap.nodup_keys_toList _) fun _ _ hmem => ?_
  exact absurd hmem ExtTreeMap.not_mem_empty

end Flows

/-! ## Policy and tables -/

/-- The exit rules in force under a policy. -/
def exitRulesOf (policy : Option PolicyDocument) : RuleSet :=
  ((policy.map effectiveExitRule).getD (.ok {})).toOption.getD {}

theorem decides_loadPolicy (g : Governor) (policy : Option PolicyDocument) :
    Decides (loadPolicy policy) g (∀ p, policy = some p →
      p.validate = .ok () ∧ ∃ rules, effectiveExitRule p = .ok rules) ()
      { g with policy := policy, exitRules := exitRulesOf policy } := by
  refine Decides.after (modify_apply _ _) ?_
  cases policy with
  | none => exact (Decides.of_eq rfl).congr (by simp)
  | some p =>
    have hvalid : Decides (lift p.validate : Fallible Status Governor Unit)
        { g with policy := none, exitRules := {} } (p.validate = .ok ()) ()
        { g with policy := none, exitRules := {} } := by
      refine decides_lift id fun hno => ?_
      rcases hv : p.validate with e | ⟨⟩
      · exact ⟨e, rfl⟩
      · exact absurd hv hno
    refine (hvalid.bind (Q := ∃ rules, effectiveExitRule p = .ok rules) fun _ => ?_).congr (by simp)
    unfold exitRulesOf
    rcases hrules : effectiveExitRule p with e | rules
    · refine ⟨fun h => ?_, fun _ => ⟨e, _, bind_of_error (lift_apply _ _)⟩⟩
      obtain ⟨rules, hno⟩ := h
      cases hno
    · refine ⟨fun _ => ?_, fun hno => absurd ⟨rules, rfl⟩ hno⟩
      refine Eq.trans (bind_of_ok (lift_apply _ _)) ?_
      rw [Option.map_some, Option.getD_some, hrules]
      rfl

section Tables

variable {σ α β : Type} [Ord α] [TransOrd α] [LawfulEqOrd α] {key : β → α}
  {Valid : β → Prop} {limit : ℕ} {table : ExtTreeMap α β → σ} {submit : σ → β → Except Status σ}

theorem forEach_submit
    (hsubmit : ∀ m v, Valid v → key v ∉ m → m.size < limit →
      submit (table m) v = .ok (table (m.insert (key v) v)))
    {vs : List β} {m : ExtTreeMap α β} (hvalid : ∀ v ∈ vs, Valid v)
    (hfresh : KeyedMap.Fresh key limit vs m) :
    forEach (fun v => Fallible.update fun t => submit t v) vs (table m) =
      (.ok (), table (vs.foldl (fun m v => m.insert (key v) v) m)) := by
  induction vs generalizing m with
  | nil => rfl
  | cons v vs ih =>
    obtain ⟨hnew, hroom⟩ := hfresh.head
    have hstep : Fallible.update (fun t => submit t v) (table m) =
        (.ok (), table (m.insert (key v) v)) :=
      update_eq_ok_iff.mpr (hsubmit m v (hvalid v List.mem_cons_self) hnew hroom)
    rw [forEach, Fallible.bind_of_ok hstep]
    exact ih (fun w hw => hvalid w (List.mem_cons_of_mem v hw)) (hfresh.tail v)

end Tables

theorem loadCapacities_of_sound {t : CapacityTable} (h : t.Sound) (g : Governor) :
    loadCapacities t.entries.values g = (.ok (), { g with capacities := t }) := by
  have hlength : t.entries.values.length ≤ kMaxResources := by
    rw [KeyedMap.length_values]
    exact h.entries.size
  have hsubmit : ∀ m (c : ResourceCapacity), c.validate = .ok () → c.resource ∉ m →
      m.size < kMaxResources → CapacityTable.submit { entries := m } c =
        .ok { entries := m.insert c.resource c } := by
    intro m c hvalid hnew hroom
    unfold CapacityTable.submit
    rw [hvalid]
    simp only [ExtTreeMap.getElem?_eq_none hnew, if_neg (Nat.not_le.mpr hroom)]
  have hrun := forEach_submit hsubmit (fun c hc => h.entries.valid hc) h.entries.fresh
  rw [h.entries.foldl_insert_values] at hrun
  have ht : ({ entries := t.entries } : CapacityTable) = t := by
    rw [← h.limit]
  unfold loadCapacities zoom
  dsimp only
  rw [loadAll_of_le hlength]
  rw [ht] at hrun
  rw [hrun]

theorem loadPaths_of_sound {t : PathTable} (h : t.Sound) (g : Governor) :
    loadPaths t.entries.values g = (.ok (), { g with paths := t }) := by
  have hlength : t.entries.values.length ≤ kMaxPaths := by
    rw [KeyedMap.length_values]
    exact h.entries.size
  have hsubmit : ∀ m (p : PathDescriptor), p.validate = .ok () → p.path ∉ m →
      m.size < kMaxPaths → PathTable.submit { entries := m } p =
        .ok { entries := m.insert p.path p } := by
    intro m p hvalid hnew hroom
    have hwidth : ¬ p.resources.length > kMaxResourcesPerPath :=
      Nat.not_lt.mpr (fits_path_of_validate hvalid)
    unfold PathTable.submit
    rw [hvalid]
    simp only [ExtTreeMap.getElem?_eq_none hnew, if_neg hwidth, if_neg (Nat.not_le.mpr hroom)]
  have hrun := forEach_submit hsubmit (fun p hp => h.entries.valid hp) h.entries.fresh
  rw [h.entries.foldl_insert_values] at hrun
  have ht : ({ entries := t.entries } : PathTable) = t := by
    rw [← h.limit, ← h.width]
  unfold loadPaths zoom
  dsimp only
  rw [loadAll_of_le hlength]
  rw [ht] at hrun
  rw [hrun]

/-- The tables of a snapshot are restored as they were. -/
theorem loadTables_of_sound {stored : Governor} (h : stored.SoundTables) (g : Governor) :
    loadTables stored.capacities stored.paths g =
      (.ok (), { g with capacities := stored.capacities, paths := stored.paths }) := by
  unfold loadTables
  rw [Fallible.bind_of_ok (loadCapacities_of_sound h.1 g), loadPaths_of_sound h.2]

/-! ## Intents -/

section Intents

variable {l : IntentLedger} {i : GovernanceIntent} {is : List GovernanceIntent}

/-- The intents can be recorded behind one another: they pass the checks, their identifiers go up
from the next one, their attempts are new, and there is room. -/
structure Relistable (is : List GovernanceIntent) (l : IntentLedger) : Prop where
  sound : ∀ i ∈ is, i.id.valid = true ∧ IntentLedger.checkIntent i = .ok ()
  sorted : is.Pairwise fun i j => i.id.value < j.id.value
  next : ∀ i ∈ is, l.nextId.value ≤ i.id.value
  below : ∀ id ∈ l.intents, id.value < l.nextId.value
  attempts : (is.map GovernanceIntent.attempt).Nodup
  new : ∀ i ∈ is, i.attempt ∉ l.attempts
  room : l.intents.size + is.length ≤ l.maxIntents ∧ l.attempts.size + is.length ≤ l.maxAttempts

/-- The ledger with an intent recorded under its own identifier. -/
def recordedAs (l : IntentLedger) (i : GovernanceIntent) : IntentLedger :=
  IntentLedger.emplace { l with nextId := ⟨i.id.value + 1⟩ } i.sealed

/-- The next intent is recorded unless its identifier is the last one there is. -/
theorem Relistable.decides (h : Relistable (i :: is) l) :
    Decides (loadIntent i) l (i.id.value ≠ u64Max) () (recordedAs l i) := by
  obtain ⟨hvalid, hcheck⟩ := h.sound i List.mem_cons_self
  have hnext := h.next i List.mem_cons_self
  have hroom := h.room
  rw [List.length_cons] at hroom
  have hnew : l.attempts[i.attempt]? = none :=
    ExtTreeMap.getElem?_eq_none (h.new i List.mem_cons_self)
  have habsent : i.id ∉ l.intents := by
    intro hmem
    exact absurd hnext (UInt64.not_le.mpr (h.below i.id hmem))
  have hrecord : l.record i = if i.id.value = u64Max then
      (makeStatus .overflow "intent identifier space is exhausted", l)
      else (.ok i.sealed, recordedAs l i) := by
    unfold IntentLedger.record
    rw [hcheck, hnew]
    dsimp only
    unfold IntentLedger.recordNew recordedAs
    rw [if_neg (by omega), if_neg (not_not_intro hvalid), if_neg habsent, if_pos hnext]
  unfold Decides loadIntent
  rw [hrecord]
  constructor
  · intro hne
    rw [if_neg hne]
  · intro heq
    rw [if_pos (not_not.mp heq)]
    exact ⟨_, _, rfl⟩

/-- Recording the next intent leaves the others recordable. -/
theorem Relistable.tail (h : Relistable (i :: is) l) (hlast : i.id.value ≠ u64Max) :
    Relistable is (recordedAs l i) := by
  have hsealed := IntentLedger.sealed_attempt i
  have hid : i.sealed.id = i.id := GovernanceIntent.sealed_id i
  have hsucc : (i.id.value + 1).toNat = i.id.value.toNat + 1 := by
    have hlt : i.id.value.toNat ≠ 2 ^ 64 - 1 := fun h => hlast (UInt64.toNat_inj.mp h)
    have hbound := i.id.value.toNat_lt
    rw [UInt64.toNat_add, UInt64.toNat_one, Nat.mod_eq_of_lt (by omega)]
  have hsorted := List.pairwise_cons.mp h.sorted
  have hattempts := h.attempts
  rw [List.map_cons, List.nodup_cons] at hattempts
  have hroom := h.room
  rw [List.length_cons] at hroom
  refine ⟨fun j hj => h.sound j (List.mem_cons_of_mem i hj), hsorted.2, fun j hj => ?_,
    fun id hmem => ?_, hattempts.2, fun j hj hmem => ?_, ?_⟩
  · have hlt := UInt64.lt_iff_toNat_lt.mp (hsorted.1 j hj)
    rw [UInt64.le_iff_toNat_le]
    show (i.id.value + 1).toNat ≤ _
    omega
  · rw [UInt64.lt_iff_toNat_lt]
    show _ < (i.id.value + 1).toNat
    have hmem' : id ∈ l.intents.insertIfNew i.sealed.id i.sealed := hmem
    rcases ExtTreeMap.mem_insertIfNew.mp hmem' with heq | hold
    · rw [← LawfulEqOrd.eq_of_compare heq, hid]
      omega
    · have hlt := UInt64.lt_iff_toNat_lt.mp (h.below id hold)
      have hle := UInt64.le_iff_toNat_le.mp (h.next i List.mem_cons_self)
      omega
  · have hmem' : j.attempt ∈ l.attempts.insertIfNew i.sealed.attempt i.sealed.id := hmem
    rcases ExtTreeMap.mem_insertIfNew.mp hmem' with heq | hold
    · have hsame := LawfulEqOrd.eq_of_compare heq
      rw [hsealed] at hsame
      exact hattempts.1 (hsame ▸ List.mem_map_of_mem hj)
    · exact h.new j (List.mem_cons_of_mem i hj) hold
  · have hintents : (l.intents.insertIfNew i.sealed.id i.sealed).size ≤ l.intents.size + 1 := by
      rw [ExtTreeMap.size_insertIfNew]
      split_ifs <;> omega
    have hcount : (l.attempts.insertIfNew i.sealed.attempt i.sealed.id).size ≤
        l.attempts.size + 1 := by
      rw [ExtTreeMap.size_insertIfNew]
      split_ifs <;> omega
    show (l.intents.insertIfNew i.sealed.id i.sealed).size + _ ≤ l.maxIntents ∧
      (l.attempts.insertIfNew i.sealed.attempt i.sealed.id).size + _ ≤ l.maxAttempts
    omega

/-- The intents of a ledger can be recorded again into an empty one. -/
theorem relistable_allIntents (h : l.Recorded) {maxIntents : ℕ} (hsize : l.intents.size ≤ maxIntents)
    (hceiling : maxIntents ≤ kMaxAttempts) :
    Relistable l.allIntents { maxIntents := maxIntents, maxAttempts := kMaxAttempts } := by
  have hlength : l.allIntents.length = l.intents.size := KeyedMap.length_values _
  have hentry : ∀ e ∈ l.intents.toList, e.2.id = e.1 ∧ e.1.valid = true ∧
      IntentLedger.checkIntent e.2 = .ok () ∧ l.attempts[e.2.attempt]? = some e.1 := by
    intro e he
    have hsome := ExtTreeMap.mem_toList_iff_getElem?_eq_some.mp he
    obtain ⟨hid, hvalid, hcheck⟩ := h.intents e.1 e.2 hsome
    exact ⟨hid, hvalid, hcheck, h.attempts e.1 e.2 hsome⟩
  have hvalues : l.allIntents = l.intents.toList.map Prod.snd := KeyedMap.values_eq_map_toList _
  refine ⟨fun i hi => ?_, ?_, fun i _ => UInt64.zero_le, fun id hmem => ?_, ?_, fun i _ hmem => ?_, ?_⟩
  · rw [hvalues, List.mem_map] at hi
    obtain ⟨e, he, rfl⟩ := hi
    obtain ⟨hid, hvalid, hcheck, -⟩ := hentry e he
    rw [hid]
    exact ⟨hvalid, hcheck⟩
  · -- the identifiers come out in order
    rw [hvalues, List.pairwise_map]
    refine ExtTreeMap.ordered_keys_toList.imp_of_mem fun {e e'} he he' hlt => ?_
    rw [(hentry e he).1, (hentry e' he').1]
    exact Std.compare_eq_lt.mp hlt
  · exact absurd hmem ExtTreeMap.not_mem_empty
  · -- two intents of one attempt are one intent
    rw [hvalues, List.map_map, List.nodup_map_iff_inj_on]
    · intro e he e' he' hsame
      have hfirst := (hentry e he).2.2.2
      have hsecond := (hentry e' he').2.2.2
      have hattempt : e.2.attempt = e'.2.attempt := hsame
      rw [hattempt, hsecond] at hfirst
      have hkey : e'.1 = e.1 := Option.some.inj hfirst
      have hvalue := ExtTreeMap.mem_toList_iff_getElem?_eq_some.mp he
      have hvalue' := ExtTreeMap.mem_toList_iff_getElem?_eq_some.mp he'
      rw [hkey, hvalue] at hvalue'
      exact Prod.ext hkey.symm (Option.some.inj hvalue')
    · exact List.Nodup.of_map Prod.fst (KeyedMap.nodup_keys_toList _)
  · exact absurd hmem ExtTreeMap.not_mem_empty
  · show (∅ : ExtTreeMap IntentId GovernanceIntent).size + _ ≤ maxIntents ∧
      (∅ : ExtTreeMap AttemptId IntentId).size + _ ≤ kMaxAttempts
    rw [ExtTreeMap.size_empty, ExtTreeMap.size_empty, hlength]
    omega

/-- The ledger that the intents of a snapshot make. -/
def reloadedIntents (maxIntents : ℕ) (l : IntentLedger) : IntentLedger :=
  l.allIntents.foldl recordedAs { maxIntents := maxIntents, maxAttempts := kMaxAttempts }

/-- The intents of a snapshot are restored exactly when there is room for them and none of them has
the last identifier. -/
theorem decides_loadIntents (h : l.Recorded) {g : Governor}
    (hceiling : g.config.maxIntents ≤ kMaxAttempts) :
    Decides (loadIntents l.allIntents) g (l.intents.size ≤ g.config.maxIntents ∧
      ∀ i ∈ l.allIntents, i.id.value ≠ u64Max) ()
      { g with intents := reloadedIntents g.config.maxIntents l } := by
  have hlength : l.allIntents.length = l.intents.size := KeyedMap.length_values _
  refine Decides.after (gets_apply _ _) (decides_zoom ?_)
  rw [← hlength]
  refine decides_loadAll fun hle => ?_
  rw [hlength] at hle
  exact decides_forEach (fun _ _ _ hinv => hinv.decides) (fun _ _ _ hinv hlast => hinv.tail hlast)
    (relistable_allIntents h hle hceiling)

end Intents

/-! ## The resumption -/

section Resume

variable {g x : Governor} {key : FlowKey} {now : Tick}

/-- The demotion of the record can be recorded. -/
def Demotable (now : Tick) (r : FlowRecord) : Prop :=
  r.hasClassification = true → ∃ h, r.history.record (demotion now r) = .ok h

/-- The record that `resume_after_restore` leaves. -/
def demoted (boot : BootIdentity) (now : Tick) (r : FlowRecord) : FlowRecord :=
  if r.hasClassification then
    ((r.history.record (demotion now r)).map (demotedRecord boot now r)).toOption.getD r
  else r

theorem setFlow_eq_modify {f : FlowRecord → FlowRecord} (hr : x.flows[key]? = some r) :
    x.setFlow key (f r) = { x with flows := x.flows.modify key f } := by
  have hflows : x.flows.insert key (f r) = x.flows.modify key f := by
    ext k : 1
    rw [ExtTreeMap.getElem?_insert, ExtTreeMap.getElem?_modify, hr]
    rfl
  unfold setFlow
  rw [hflows]

theorem setFlow_same (hr : x.flows[key]? = some r) : x.setFlow key r = x := by
  have hflows : x.flows.insert key r = x.flows := by
    ext k : 1
    by_cases hk : key = k
    · subst hk
      rw [KeyedMap.getElem?_insert_self, hr]
    · rw [KeyedMap.getElem?_insert_of_ne _ hk]
  unfold setFlow
  rw [hflows]

/-- One iteration of the demotion loop. -/
theorem decides_demoteFlow (hr : x.flows[key]? = some r) :
    Decides (demoteFlow now key) x (Demotable now r) ()
      { x with flows := x.flows.modify key (demoted x.boot now) } := by
  rw [← setFlow_eq_modify hr]
  unfold Demotable demoted
  cases hc : r.hasClassification with
  | false =>
    refine (Decides.of_eq ?_).congr (by simp)
    unfold demoteFlow
    simp only [hr, hc, Bool.false_eq_true, not_false_eq_true, if_true, if_false]
    rw [setFlow_same hr]
  | true =>
    rcases hrecord : r.history.record (demotion now r) with e | h
    · have hstep : demoteFlow now key x = (.error e, x) := by
        unfold demoteFlow
        simp only [hr, hc, hrecord, not_true_eq_false, if_false]
      refine ⟨fun hno => ?_, fun _ => ⟨e, x, hstep⟩⟩
      obtain ⟨h, hh⟩ := hno rfl
      cases hh
    · have hstep : demoteFlow now key x =
          (.ok (), x.setFlow key (demotedRecord x.boot now r h)) := by
        unfold demoteFlow
        simp only [hr, hc, hrecord, not_true_eq_false, if_false]
      exact ⟨fun _ => hstep, fun hno => absurd (fun _ => ⟨h, rfl⟩) hno⟩

/-- The demotion loop succeeds exactly when every demotion can be recorded. -/
theorem decides_demotion {ks : List FlowKey} (hnodup : ks.Nodup) (hall : ∀ k ∈ ks, k ∈ g.flows) :
    Decides (forEach (demoteFlow now) ks) g
      (∀ k ∈ ks, ∀ r, g.flows[k]? = some r → Demotable now r) ()
      (ks.foldl (fun x k => { x with flows := x.flows.modify k (demoted g.boot now) }) g) := by
  refine decides_forEach (I := fun ks x => x.boot = g.boot ∧ ks.Nodup ∧
    ∀ k ∈ ks, k ∈ g.flows ∧ x.flows[k]? = g.flows[k]?) ?_ ?_
    ⟨rfl, hnodup, fun k hk => ⟨hall k hk, rfl⟩⟩
  · rintro k ks x ⟨hboot, -, hsame⟩
    obtain ⟨hmem, hx⟩ := hsame k List.mem_cons_self
    obtain ⟨r, hr⟩ := mem_flows_iff.mp hmem
    rw [hr] at hx
    rw [← hboot, hr]
    exact (decides_demoteFlow hx).congr (by simp)
  · rintro k ks x ⟨hboot, hnodup, hsame⟩ -
    rw [List.nodup_cons] at hnodup
    refine ⟨hboot, hnodup.2, fun j hj => ⟨(hsame j (List.mem_cons_of_mem k hj)).1, ?_⟩⟩
    show (x.flows.modify k _)[j]? = _
    rw [ExtTreeMap.getElem?_modify, if_neg]
    · exact (hsame j (List.mem_cons_of_mem k hj)).2
    · intro heq
      rw [LawfulEqOrd.eq_of_compare heq] at hnodup
      exact hnodup.1 hj

theorem foldl_demoted (boot : BootIdentity) (ks : List FlowKey) (g : Governor) :
    ks.foldl (fun x k => { x with flows := x.flows.modify k (demoted boot now) }) g =
      { g with flows := ks.foldl (fun m k => m.modify k (demoted boot now)) g.flows } := by
  induction ks generalizing g with
  | nil => rfl
  | cons k ks ih => rw [List.foldl_cons, ih, List.foldl_cons]

/-- One iteration of the rebuild of the index. -/
theorem sameInputs_reindexFlow (g : Governor) (k : FlowKey) :
    SameInputs { g with flows := g.flows.modify k rebound } (g.reindexFlow k) := by
  rcases reindexFlow_cases g k with ⟨hnone, heq⟩ | ⟨r, hr, heq⟩
  · have hflows : g.flows.modify k rebound = g.flows := by
      ext j : 1
      rw [ExtTreeMap.getElem?_modify]
      split_ifs with hj
      · rw [← LawfulEqOrd.eq_of_compare hj, hnone]
        rfl
      · rfl
    rw [heq, hflows]
    exact .refl g
  · obtain ⟨index, aggregate, hindex⟩ := updateIndex_fst g k r
    have hflows : (g.setFlow k (rebound r)).flows = g.flows.modify k rebound :=
      congrArg Governor.flows (setFlow_eq_modify hr)
    rw [heq, hindex]
    exact ⟨rfl, rfl, rfl, rfl, rfl, rfl, rfl, hflows, rfl, rfl⟩

theorem foldl_reindexFlow (ks : List FlowKey) (g : Governor) :
    SameInputs { g with flows := ks.foldl (fun m k => m.modify k rebound) g.flows }
      (ks.foldl reindexFlow g) := by
  induction ks generalizing g with
  | nil => exact .refl g
  | cons k ks ih =>
    rw [List.foldl_cons, List.foldl_cons]
    have h := sameInputs_reindexFlow g k
    refine SameInputs.trans ?_ (ih (g.reindexFlow k))
    rw [h.flows]
    exact ⟨h.config, h.boot, h.tickGuard, h.policy, h.exitRules, h.capacities, h.paths, rfl,
      h.highestGeneration, h.intentSequence⟩

/-- What the rebuild of the index does to the flows, and what it leaves alone. -/
theorem sameInputs_reindexed (g : Governor) (ks : List FlowKey) :
    SameInputs { g with flows := ks.foldl (fun m k => m.modify k rebound) g.flows }
      (g.reindexed ks) := by
  have h := foldl_reindexFlow ks { g with bindingIndex := ∅, resourceAggregate := ∅ }
  exact ⟨h.config, h.boot, h.tickGuard, h.policy, h.exitRules, h.capacities, h.paths, h.flows,
    h.highestGeneration, h.intentSequence⟩

/-- The governor behind the demotion loop. -/
def withDemotions (g : Governor) (now : Tick) : Governor :=
  { g with flows := g.flows.keys.foldl (fun m k => m.modify k (demoted g.boot now)) g.flows }

/-- The governor that `resume_after_restore` leaves. -/
def resumption (g : Governor) (now : Tick) : Governor :=
  ((g.withDemotions now).reindexed g.flows.keys).resumed now g.flows.keys.length
    (g.flows.values.countP FlowRecord.isElephant)

theorem decides_resume (g : Governor) (now : Tick) :
    Decides (resumeAfterRestore now) g (∀ (k : FlowKey) (r : FlowRecord), g.flows[k]? = some r →
      Demotable now r) () (g.resumption now) := by
  have hkeys : ∀ k ∈ g.flows.keys, k ∈ g.flows := fun k hk => ExtTreeMap.mem_keys.mp hk
  have hloop : Decides (forEach (demoteFlow now) g.flows.keys) g
      (∀ k ∈ g.flows.keys, ∀ r, g.flows[k]? = some r → Demotable now r) () (g.withDemotions now) := by
    unfold withDemotions
    rw [← foldl_demoted]
    exact decides_demotion (KeyedMap.nodup_keys g.flows) hkeys
  refine Decides.after (gets_apply _ _) (Decides.after (gets_apply _ _) ?_)
  refine (hloop.before (modify_apply _ _)).congr ⟨fun h k r hr => ?_, fun h k _ r hr => h k r hr⟩
  exact h k (ExtTreeMap.mem_keys.mpr (mem_flows_iff.mpr ⟨r, hr⟩)) r hr

/-- Behind the resumption every record is demoted and bound again. -/
theorem getElem?_resumption (g : Governor) (now : Tick) (k : FlowKey) :
    (g.resumption now).flows[k]? = g.flows[k]?.map fun r => rebound (demoted g.boot now r) := by
  have hdemoted : ∀ j : FlowKey, (g.withDemotions now).flows[j]? =
      g.flows[j]?.map (demoted g.boot now) := fun j =>
    KeyedMap.getElem?_foldl_modify (KeyedMap.nodup_keys g.flows)
      (fun i hi => ExtTreeMap.mem_keys.mpr hi) _ j
  have hall : ∀ j ∈ (g.withDemotions now).flows, j ∈ g.flows.keys := by
    intro j hj
    obtain ⟨r, hr⟩ := mem_flows_iff.mp hj
    rw [hdemoted, Option.map_eq_some_iff] at hr
    obtain ⟨r₀, hr₀, -⟩ := hr
    exact ExtTreeMap.mem_keys.mpr (mem_flows_iff.mpr ⟨r₀, hr₀⟩)
  have hflows := (sameInputs_reindexed (g.withDemotions now) g.flows.keys).flows
  show ((g.withDemotions now).reindexed g.flows.keys).flows[k]? = _
  rw [hflows]
  refine Eq.trans (KeyedMap.getElem?_foldl_modify (KeyedMap.nodup_keys g.flows) hall _ k) ?_
  rw [hdemoted, Option.map_map]
  rfl

theorem resumption_frame (g : Governor) (now : Tick) :
    (g.resumption now).config = g.config ∧ (g.resumption now).boot = g.boot ∧
    (g.resumption now).policy = g.policy ∧ (g.resumption now).exitRules = g.exitRules ∧
    (g.resumption now).capacities = g.capacities ∧ (g.resumption now).paths = g.paths ∧
    (g.resumption now).highestGeneration = g.highestGeneration := by
  have h := sameInputs_reindexed (g.withDemotions now) g.flows.keys
  exact ⟨h.config, h.boot, h.policy, h.exitRules, h.capacities, h.paths, h.highestGeneration⟩

end Resume

/-! ## The whole restore -/

section Load

variable {source g : Governor} {now : Tick}

/-- What a restore of a snapshot needs: a policy with exit rules, room for the flows and the intents,
flows that can be rebuilt and then demoted, and identifiers that leave one more. -/
structure Loads (source g : Governor) (now : Tick) : Prop where
  policy : ∀ p, source.policy = some p →
    p.validate = .ok () ∧ ∃ rules, effectiveExitRule p = .ok rules
  room : source.flows.size ≤ g.config.maxFlows ∧ source.intents.intents.size ≤ g.config.maxIntents
  flows : ∀ (key : FlowKey) (r : FlowRecord), source.flows[key]? = some r →
    Rebuilds g (key, r) ∧ Demotable now (rebuilt g key r)
  intents : ∀ i ∈ source.intents.allIntents, i.id.value ≠ u64Max

/-- What a restore of a snapshot leaves. -/
structure Loaded (source g g' : Governor) (now : Tick) : Prop where
  config : g'.config = g.config
  boot : g'.boot = g.boot
  policy : g'.policy = source.policy
  exitRules : g'.exitRules = exitRulesOf source.policy
  capacities : g'.capacities = source.capacities
  paths : g'.paths = source.paths
  flows : ∀ key : FlowKey, g'.flows[key]? =
    source.flows[key]?.map fun r => rebound (demoted g.boot now (rebuilt g key r))
  highestGeneration : g'.highestGeneration = source.flows.toList.foldl
    (fun m e => m.insert e.1.flow e.1.generation) ∅

/-- The governor with the policy and the tables of a snapshot. -/
def withTablesOf (g source : Governor) : Governor :=
  { g with
    policy := source.policy
    exitRules := exitRulesOf source.policy
    capacities := source.capacities
    paths := source.paths }

/-- The governor in front of the resumption. -/
def reassembled (source g : Governor) (now : Tick) : Governor :=
  { (g.withTablesOf source).withFlowsOf source with
    intents := reloadedIntents ((g.withTablesOf source).withFlowsOf source).config.maxIntents
      source.intents }.withHeader source.header now

theorem withTables_flows_frame (source g : Governor) :
    ((g.withTablesOf source).withFlowsOf source).config = g.config ∧
    ((g.withTablesOf source).withFlowsOf source).boot = g.boot ∧
    ((g.withTablesOf source).withFlowsOf source).policy = source.policy ∧
    ((g.withTablesOf source).withFlowsOf source).exitRules = exitRulesOf source.policy ∧
    ((g.withTablesOf source).withFlowsOf source).capacities = source.capacities ∧
    ((g.withTablesOf source).withFlowsOf source).paths = source.paths ∧
    ((g.withTablesOf source).withFlowsOf source).highestGeneration =
      source.flows.toList.foldl (fun m e => m.insert e.1.flow e.1.generation) ∅ := by
  obtain ⟨flows, h⟩ := withFlowsOf_frame (g.withTablesOf source) source
  rw [h]
  exact ⟨rfl, rfl, rfl, rfl, rfl, rfl, rfl⟩

theorem getElem?_reassembled (source g : Governor) (now : Tick) (key : FlowKey) :
    (source.reassembled g now).flows[key]? = source.flows[key]?.map (rebuilt g key) := by
  have hrebuilt : rebuilt (g.withTablesOf source) = rebuilt g := rebuilt_congr rfl
  rw [← hrebuilt]
  exact getElem?_withFlowsOf (g.withTablesOf source) source key

/-- What the restore of a snapshot leaves, part by part. -/
theorem loaded_resumption (source g : Governor) (now : Tick) :
    Loaded source g ((source.reassembled g now).resumption now) now := by
  obtain ⟨hconfig, hboot, hpolicy, hexit, hcapacities, hpaths, hhighest⟩ :=
    withTables_flows_frame source g
  obtain ⟨hconfig', hboot', hpolicy', hexit', hcapacities', hpaths', hhighest'⟩ :=
    resumption_frame (source.reassembled g now) now
  refine ⟨hconfig'.trans hconfig, hboot'.trans hboot, hpolicy'.trans hpolicy, hexit'.trans hexit,
    hcapacities'.trans hcapacities, hpaths'.trans hpaths, fun key => ?_, hhighest'.trans hhighest⟩
  have hsame : (source.reassembled g now).boot = g.boot := hboot
  rw [getElem?_resumption, getElem?_reassembled, hsame, Option.map_map]
  rfl

/-- A snapshot is restored exactly when its parts can be rebuilt. -/
theorem decides_load (htables : source.SoundTables) (hintents : source.intents.Recorded)
    (hceiling : g.config.maxIntents ≤ kMaxAttempts) :
    Decides (source.load now) g (Loads source g now) ()
      ((source.reassembled g now).resumption now) := by
  have hconfig := (withTables_flows_frame source g).1
  have hceiling' : ((g.withTablesOf source).withFlowsOf source).config.maxIntents ≤ kMaxAttempts := by
    rw [hconfig]
    exact hceiling
  have hrebuilds := fun entry => rebuilds_congr (x := g.withTablesOf source) (g := g) rfl entry
  refine ((decides_loadPolicy g source.policy).bind fun _ =>
    .after (loadTables_of_sound htables _) ((decides_loadFlows _ source).bind fun _ =>
    (decides_loadIntents hintents hceiling').bind fun _ =>
    .after rfl (decides_resume (source.reassembled g now) now))).congr ?_
  constructor
  · rintro ⟨hpolicy, ⟨hflows, hrecords⟩, ⟨hroom, hlast⟩, hdemote⟩
    refine ⟨hpolicy, ⟨hflows, hconfig ▸ hroom⟩, fun key r hr => ?_, hlast⟩
    refine ⟨(hrebuilds _).mp (hrecords _ (ExtTreeMap.mem_toList_iff_getElem?_eq_some.mpr hr)),
      hdemote key _ ?_⟩
    rw [getElem?_reassembled, hr]
    rfl
  · intro h
    refine ⟨h.policy, ⟨h.room.1, fun entry hentry => ?_⟩, ⟨?_, h.intents⟩, fun key r hr => ?_⟩
    · have hsome := ExtTreeMap.mem_toList_iff_getElem?_eq_some.mp hentry
      exact (hrebuilds _).mpr (h.flows entry.1 entry.2 hsome).1
    · rw [hconfig]
      exact h.room.2
    · rw [getElem?_reassembled, Option.map_eq_some_iff] at hr
      obtain ⟨r₀, hr₀, rfl⟩ := hr
      exact (h.flows key r₀ hr₀).2

end Load

end Governor

end EFG
