/-
# What a superseded incarnation leaves behind

A Hello that registers a worker under a new boot marks the old record as superseded
and touches nothing else: evidence of the old boot, and what was built on it, stays
with the governor.  This module shows where such remains come from.  A governor that
knows nothing of a boot learns of it only through a sample that the boot published
(`Unpublished.feed`), so a boot that published nothing leaves nothing
(`superseded_boot_forgotten`).
-/
import ElephantFlow.Envelope
import ElephantFlow.Nonces
import ElephantFlow.DurableRuns

namespace EFG

open ByteCodec

namespace FlowLedger

variable {l : FlowLedger} {s x : FlowSample}

theorem mem_samples_append (hx : x ∈ (l.append s).2.samples) : x ∈ l.samples ∨ x = s := by
  have hrestart : ∀ y ∈ (l.restartEpoch s).samples, y ∈ l.samples := by
    intro y hy
    unfold restartEpoch at hy
    split_ifs at hy
    · cases hy
    · exact hy
  rcases append_cases l s with (⟨e, h⟩ | h) | ⟨-, -, e, h⟩ | ⟨-, -, h⟩
  · rw [h] at hx
    exact .inl hx
  · rw [h] at hx
    exact .inl hx
  · rw [h] at hx
    exact .inl (hrestart x hx)
  · -- the oldest window may have made room
    rw [h] at hx
    rcases List.mem_append.mp hx with hx | hx
    · split_ifs at hx
      · exact .inl (hrestart x (List.mem_of_mem_tail hx))
      · exact .inl (hrestart x hx)
    · exact .inr (List.mem_singleton.mp hx)

end FlowLedger

namespace Governor

variable {g g' : Governor} {record r : FlowRecord} {now : Tick} {key : FlowKey} {e : Event}
  {id : IntentId} {i : GovernanceIntent} {boot : BootId}

/-! ## The publisher of an issued intent -/

theorem publisherBoot_buildAuthority {v : AuthorityVector} {s : FlowSample}
    (hv : g.buildAuthority record now = .ok v) (hs : record.ledger.latest = some s) :
    v.publisherBoot = s.provenance.publisher.boot := by
  unfold buildAuthority at hv
  rw [hs] at hv
  simp only at hv
  rcases hvalid : makeValidity now g.config.classificationValidityTicks with e | validity
  · rw [hvalid] at hv
    cases hv
  rw [hvalid] at hv
  cases hv
  rcases resolveBinding (g.latestPath record) g.capacities false now with _ | ⟨resource, c⟩
  · rcases g.policy with _ | p
    · rfl
    · rfl
  · rcases g.policy with _ | p
    · rfl
    · rfl

theorem IssuedFor.publisherBoot (hissued : g.IssuedFor record now id i) :
    ∃ s ∈ record.ledger.samples, i.authority.publisherBoot = s.provenance.publisher.boot := by
  obtain ⟨p, c, h, live, -, hc, -, hstate, -, r, -, intent, hintent, heq⟩ := hissued
  obtain ⟨authority, hauthority, hid⟩ := hc.identity
  rw [hc.state] at hstate
  obtain ⟨-, hsus, -⟩ := of_verdict_elephant hstate
  obtain ⟨s, -, hs, -⟩ := of_evidenceSuspension (suspensionReasons_eq_false hsus).1
  refine ⟨s, List.mem_of_getLast? hs, ?_⟩
  rw [heq, GovernanceIntent.sealed_authority]
  show intent.authority.publisherBoot = _
  rw [hintent]
  show c.authorityVector.publisherBoot = _
  rw [hid]
  show authority.publisherBoot = _
  exact publisherBoot_buildAuthority hauthority hs

/-! ## Boots that the governor knows nothing of -/

/-- No retained sample and no live intent goes back to the boot. -/
structure Unpublished (boot : BootId) (g : Governor) : Prop where
  room : g.flows.size ≤ g.config.maxFlows ∧ g.config.maxFlows ≤ kMaxFlows
  samples : ∀ (key : FlowKey) (r : FlowRecord), g.flows[key]? = some r →
    ∀ s ∈ r.ledger.samples, s.provenance.publisher.boot ≠ boot
  intents : ∀ id i, g.intents.Live id i → i.authority.publisherBoot ≠ boot

/-- A move that brings no sample of the boot. -/
def Event.Spares (boot : BootId) : Event → Prop
  | .evidence _ _ s => s.provenance.publisher.boot ≠ boot
  | .restore _ _ => False
  | _ => True

theorem Unpublished.move (hg : g.Unpublished boot) (he : e.Spares boot) (hmove : Move g e g') :
    g'.Unpublished boot := by
  have hbounded : g'.Bounded := Bounded.move ⟨hg.room.1, hg.room.2⟩ hmove
  refine ⟨⟨hbounded.flows, hbounded.config⟩, fun key r hr s hs => ?_, fun id i hlive => ?_⟩
  · cases hmove.becomes hr with
    | same _ _ hbefore => exact hg.samples key r hbefore s hs
    | fresh => cases hs
    | appended r x hbefore =>
      rcases FlowLedger.mem_samples_append hs with hold | rfl
      · exact hg.samples key r hbefore s hold
      · exact he
    | completed r ledger atTick hbefore hledger =>
      rw [FlowLedger.markCompleted_eq_ok hledger] at hs
      exact hg.samples key r hbefore s hs
    | evaluated r now hbefore =>
      rw [evaluate_ledger] at hs
      exact hg.samples key r hbefore s hs
    | cleared r now hbefore => exact hg.samples key r hbefore s hs
    | withdrawn r h now hbefore =>
      rw [rebound_ledger] at hs
      exact hg.samples key r hbefore s hs
    | restored => exact he.elim
  · rcases hmove.live hlive with hold | ⟨key, record, now, -, hrecord, hissued⟩
    · exact hg.intents id i hold
    · obtain ⟨s, hs, hboot⟩ := hissued.publisherBoot
      rw [hboot]
      exact hg.samples key record hrecord s hs

theorem unpublished_make (config : GovernorConfig) (boot : BootId) :
    (make config).Unpublished boot := by
  have hbounded := bounded_make config
  refine ⟨⟨hbounded.flows, hbounded.config⟩, fun key r hr => ?_, fun id i hlive => ?_⟩
  · exact of_getElem?_empty hr
  · exact of_getElem?_empty hlive.1

/-- An operation that brings no sample of the boot. -/
def Command.Spares (boot : BootId) : Command → Prop
  | .submitEvidence s => s.provenance.publisher.boot ≠ boot
  | .deserialize _ _ => False
  | _ => True

theorem Unpublished.exec {cmd : Command} (hg : g.Unpublished boot) (hcmd : Command.Spares boot cmd) :
    (g.exec cmd).Unpublished boot := by
  have hplain : ∀ (x : Governor) (e : Event), e.Plain → e.Spares boot := by
    intro x e he
    cases e with
    | evidence => exact he.elim
    | restore => exact he.elim
    | _ => exact trivial
  have hadmits : g.Admits cmd := by
    cases cmd with
    | deserialize => exact hcmd.elim
    | _ => exact trivial
  have hperforms : Performs (fun _ e => e.Spares boot) g (g.exec cmd) := by
    refine exec_performs_of hplain ?_ ?_ ?_ ?_ hg.room.1 hadmits
    · rintro p rfl
      exact moves_submitPolicy hplain (fun _ => trivial) (fun _ _ _ => trivial)
    · rintro s rfl _ _
      exact hcmd
    · intro s _ _
      exact ⟨fun _ _ _ _ => trivial, fun _ _ _ => trivial⟩
    · rintro bytes now rfl
      exact hcmd.elim
  exact hperforms.invariant (fun x e x' hx hcond hmove => hx.move hcond hmove) hg

end Governor

open Governor

/-! ## Backings -/

theorem DurableGovernor.governor_recordEvidence (d : DurableGovernor) (s : FlowSample) :
    (d.recordEvidence s).2.governor = d.governor ∨
      (d.recordEvidence s).2.governor = (d.governor.submitEvidence s).2 := by
  unfold recordEvidence
  split_ifs
  · exact .inl rfl
  rcases d.journal.append .flowClassified (encode s).flatten with e | journal
  · exact .inl rfl
  simp only
  split_ifs
  · refine .inr ?_
    rcases compactSnapshot_cases { d with
      governor := (d.governor.submitEvidence s).2
      journal := journal
      recordsSinceSnapshot := d.recordsSinceSnapshot + 1 } with heq | ⟨file, -, j, records, heq⟩
    · rw [heq]
    · rw [heq]
  · exact .inr rfl

namespace Backing

variable {b : Backing} {boot : BootId}

/-- An input that brings no sample of the boot. -/
def Spares (boot : BootId) : SessionInput → Prop
  | .evidence s => s.provenance.publisher.boot ≠ boot
  | .completion _ _ _ => True

theorem unpublished_feed (hb : b.governor.Unpublished boot) {input : SessionInput}
    (hinput : Spares boot input) : (b.feed input).governor.Unpublished boot := by
  cases input with
  | evidence s =>
    have htaken : (b.governor.exec (.submitEvidence s)).Unpublished boot := hb.exec hinput
    cases b with
    | inline g => exact htaken
    | store d =>
      show (d.recordEvidence s).2.governor.Unpublished boot
      rcases d.governor_recordEvidence s with heq | heq
      · rw [heq]
        exact hb
      · rw [heq]
        exact htaken
  | completion flow generation atTick =>
    have htaken : (b.governor.exec (.completeFlow flow generation atTick)).Unpublished boot :=
      hb.exec trivial
    cases b with
    | inline g => exact htaken
    | store d => exact htaken

theorem unpublished_feeds (hb : b.governor.Unpublished boot) {inputs : List SessionInput}
    (hinputs : ∀ input ∈ inputs, Spares boot input) :
    (inputs.foldl feed b).governor.Unpublished boot := by
  induction inputs generalizing b with
  | nil => exact hb
  | cons input inputs ih =>
    rw [List.foldl_cons]
    refine ih (unpublished_feed hb (hinputs input List.mem_cons_self)) fun x hx => ?_
    exact hinputs x (List.mem_cons_of_mem _ hx)

/-- The governor is in memory and knows nothing of the boot. -/
def InMemory (boot : BootId) : Backing → Prop
  | .inline g => g.Unpublished boot
  | .store _ => False

theorem InMemory.unpublished (hb : b.InMemory boot) : b.governor.Unpublished boot := by
  cases b with
  | inline g => exact hb
  | store d => exact hb.elim

theorem inMemory_submitPolicy (p : PolicyDocument) (b : Backing) (hb : b.InMemory boot) :
    (b.submitPolicy p).2.InMemory boot := by
  cases b with
  | inline g =>
    show (g.exec (.submitPolicy p)).Unpublished boot
    exact Unpublished.exec hb trivial
  | store d => exact hb.elim

theorem inMemory_submitCapacity (c : ResourceCapacity) (b : Backing) (hb : b.InMemory boot) :
    (b.submitCapacity c).2.InMemory boot := by
  cases b with
  | inline g =>
    show (g.exec (.submitCapacity c)).Unpublished boot
    exact Unpublished.exec hb trivial
  | store d => exact hb.elim

theorem inMemory_submitPath (p : PathDescriptor) (b : Backing) (hb : b.InMemory boot) :
    (b.submitPath p).2.InMemory boot := by
  cases b with
  | inline g =>
    show (g.exec (.submitPath p)).Unpublished boot
    exact Unpublished.exec hb trivial
  | store d => exact hb.elim

end Backing

namespace Coordinator

open Serving

variable {c : Coordinator} {boot : BootId}

/-! ## Sessions -/

/-- No evidence batch of the frame carries a sample that the boot published. -/
def Silent (maxBatch : ℕ) (boot : BootId) (f : Frame) : Prop :=
  f.header.type = .evidenceBatch → ∀ samples, decodeEvidenceBatch maxBatch f.payload = .ok samples →
    ∀ x ∈ samples, x.provenance.publisher.boot ≠ boot

theorem unpublished_serveOne (hc : c.governor.Unpublished boot) {reads : List (Except Status Frame)}
    (hsilent : ∀ f, .ok f ∈ reads → Silent c.limits.maxBatch boot f) :
    (c.serveOne reads).governor.Unpublished boot := by
  rcases serve_effect c reads with ⟨hsame, -⟩ | ⟨hello, body, h, worker, applied, rfl, hreg, heq, -⟩
  · unfold serveOne governor
    rw [hsame]
    exact hc
  unfold serveOne governor
  rw [heq]
  refine Backing.unpublished_feeds hc fun input hinput => ?_
  obtain ⟨⟨f, inputs⟩, hf, hinput⟩ := List.mem_flatMap.mp hinput
  have hread : (.ok f : Except Status Frame) ∈ body :=
    hreg.sublist.subset (List.mem_map.mpr ⟨(f, inputs), hf, rfl⟩)
  have hcarries : Carries c.limits.maxBatch f inputs := hreg.carries _ hf
  cases hcarries with
  | batch samples htype hbatch =>
    obtain ⟨x, hx, rfl⟩ := List.mem_map.mp hinput
    exact hsilent f (List.mem_cons_of_mem _ hread) htype samples hbatch x hx
  | completion =>
    rw [List.mem_singleton.mp hinput]
    trivial

theorem unpublished_serveAll (hc : c.governor.Unpublished boot)
    {sessions : List (List (Except Status Frame))}
    (hsilent : ∀ reads ∈ sessions, ∀ f, .ok f ∈ reads → Silent c.limits.maxBatch boot f) :
    (c.serveAll sessions).governor.Unpublished boot := by
  induction sessions using List.reverseRecOn with
  | nil => exact hc
  | append_singleton before reads ih =>
    have hbefore := ih fun r hr => hsilent r (List.mem_append_left _ hr)
    rw [serveAll_append]
    refine unpublished_serveOne hbefore fun f hf => ?_
    rw [(serveAll_boot c before).2]
    exact hsilent reads (List.mem_append_right _ List.mem_cons_self) f hf

theorem unpublished_create {config : CoordinatorConfig} (hc : create config none = .ok c)
    (boot : BootId) : c.governor.Unpublished boot := by
  obtain ⟨b₀, b₁, b₂, b₃, h₀, h₁, h₂, h₃, rfl⟩ := create_eq_ok hc
  have hstart : b₀.InMemory boot := by
    cases h₀
    show ((make config.governor).exec (.setIncarnation config.boot)).Unpublished boot
    exact (unpublished_make config.governor boot).exec trivial
  have hpolicy := configure_keeps Backing.inMemory_submitPolicy hstart h₁
  have hcapacity := configure_keeps Backing.inMemory_submitCapacity hpolicy h₂
  exact (configure_keeps Backing.inMemory_submitPath hcapacity h₃).unpublished

/-- The Hello re-registers a worker whose registered boot is another one. -/
def Supersedes (c : Coordinator) (hello : Frame) (boot : BootId) : Prop :=
  ∃ h worker next record, Registers c hello h worker next ∧
    findWorker c.workers worker = some record ∧ record.boot = boot ∧ boot ≠ ⟨h.boot⟩

/-- No live intent names the boot, and no Elephant rests on a sample of it. -/
def Forgets (c : Coordinator) (boot : BootId) : Prop :=
  (∀ id i, c.governor.intents.Live id i → i.authority.publisherBoot ≠ boot) ∧
  ∀ (key : FlowKey) (r : FlowRecord) (s : FlowSample), c.governor.flows[key]? = some r →
    r.isElephant = true → r.ledger.latest = some s → s.provenance.publisher.boot ≠ boot

theorem forgets_of_unpublished (h : c.governor.Unpublished boot) : c.Forgets boot :=
  ⟨h.intents, fun key r s hr _ hs => h.samples key r hr s (List.mem_of_getLast? hs)⟩

/-- If nothing that a boot published reached the governor before a Hello supersedes it, then behind
this Hello no live intent names the boot and no Elephant rests on a sample of it; nor behind any later
session, the one that the Hello opens among them, while no batch brings a sample of it. -/
theorem superseded_boot_forgotten (c : Coordinator) (sessions : List (List (Except Status Frame)))
    (hello : Frame) (s' : Serving) (written : Except Status Unit)
    (hunknown : ∀ boot, (c.serveAll sessions).Supersedes hello boot →
      c.governor.Unpublished boot ∧
        ∀ reads ∈ sessions, ∀ f, .ok f ∈ reads → Silent c.limits.maxBatch boot f)
    (haccepted : handleHello { coordinator := c.serveAll sessions } hello =
      (.registered written, s')) :
    ∀ boot, (c.serveAll sessions).Supersedes hello boot → s'.coordinator.Forgets boot ∧
      ∀ later, (∀ reads ∈ later, ∀ f, .ok f ∈ reads → Silent c.limits.maxBatch boot f) →
        (c.serveAll (sessions ++ later)).Forgets boot := by
  intro boot hsupersedes
  obtain ⟨hstart, hsilent⟩ := hunknown boot hsupersedes
  have hsame : s'.coordinator.backing = (c.serveAll sessions).backing := by
    have hkept := backing_handleHello { coordinator := c.serveAll sessions } hello
    rw [haccepted] at hkept
    exact hkept
  refine ⟨forgets_of_unpublished ?_, fun later hlater => forgets_of_unpublished ?_⟩
  · unfold governor
    rw [hsame]
    exact unpublished_serveAll hstart hsilent
  · refine unpublished_serveAll hstart fun reads hreads => ?_
    rcases List.mem_append.mp hreads with hbefore | hafter
    · exact hsilent reads hbefore
    · exact hlater reads hafter

/-- A worker that asks for an identifier is given it. -/
theorem assignWorker_requested {maxWorkers : ℕ} {next next' worker : WorkerId} {requested : UInt64}
    (hrequested : requested ≠ 0)
    (hassigned : assignWorker maxWorkers next requested = .ok (worker, next')) :
    worker = ⟨requested⟩ := by
  unfold assignWorker at hassigned
  rw [if_neg hrequested] at hassigned
  by_cases hceiling : requested.toNat > maxWorkers
  · rw [if_pos hceiling] at hassigned
    cases hassigned
  · rw [if_neg hceiling] at hassigned
    cases hassigned
    rfl

/-! ## The small sessions once more -/

namespace Scenario

/-- The worker comes back under another boot. -/
def comeback (boot : UInt64) : Frame := helloFrame (hello boot 2)

/-- Worker 1 registered under `boot` in its first session, and comes back under another boot. -/
theorem supersedes_comeback {c : Coordinator} (boot boot' : UInt64) (hepoch : c.boot.epoch = ⟨1⟩)
    (hworkers : 0 < c.limits.maxWorkers) (hfree : 2 ∉ c.seenNonces)
    (hrecord : ∃ r, findWorker c.workers ⟨1⟩ = some r ∧ r.boot = ⟨boot⟩)
    (hne : boot ≠ boot') : c.Supersedes (comeback boot') ⟨boot⟩ ∧
      ∃ written s', handleHello { coordinator := c } (comeback boot') = (.registered written, s') := by
  obtain ⟨next, hreg⟩ := registers_hello boot' 2 hepoch hworkers hfree
  obtain ⟨record, hfound, hboot⟩ := hrecord
  refine ⟨⟨hello boot' 2, ⟨1⟩, next, record, hreg, hfound, hboot, ?_⟩, ?_⟩
  · intro heq
    exact hne (StrongId.mk.inj heq)
  · exact handleHello_of_registers hreg

theorem supersedes_comeback_eq {c : Coordinator} {boot' : UInt64} {boot : BootId}
    (hsupersedes : c.Supersedes (comeback boot') boot) :
    ∃ r, findWorker c.workers ⟨1⟩ = some r ∧ r.boot = boot := by
  obtain ⟨h, worker, next, record, hreg, hfound, rfl, -⟩ := hsupersedes
  obtain ⟨rest, hpayload⟩ := hreg.payload
  have hpayload' := payload_helloFrame boot' 2
  rw [show helloFrame (hello boot' 2) = comeback boot' from rfl, hpayload] at hpayload'
  obtain rfl : h = hello boot' 2 := (Prod.mk.inj (Except.ok.inj hpayload')).1
  have hne : (hello boot' 2).requestedWorker ≠ 0 := by
    show (1 : UInt64) ≠ 0
    decide
  have hworker : worker = ⟨1⟩ := assignWorker_requested hne hreg.assigned
  rw [← hworker]
  exact ⟨record, hfound, rfl⟩

end Scenario

open Scenario

/-- The worker of boot 1 is superseded, but its intent stays live and its flow an Elephant. -/
theorem superseded_boot_remains : ∃ (c : Coordinator) (s' : Serving) (written : Except Status Unit)
    (id : IntentId) (i : GovernanceIntent) (key : FlowKey) (r : FlowRecord) (s : FlowSample),
    create Scenario.config none = .ok c ∧
    handleHello { coordinator := c.serveAll [session 1] } (comeback 2) =
      (.registered written, s') ∧
    (c.serveAll [session 1]).Supersedes (comeback 2) ⟨1⟩ ∧
    s'.coordinator.governor.intents.Live id i ∧ i.authority.publisherBoot = ⟨1⟩ ∧
    s'.coordinator.governor.flows[key]? = some r ∧ r.isElephant = true ∧
    r.ledger.latest = some s ∧ s.provenance.publisher.boot = ⟨1⟩ := by
  obtain ⟨c, hc, hepoch, hworkers, hfree, hrecord, ⟨i, hi, hlive, hpublisher⟩, r, hr, hel, s, hs,
      hboot⟩ : ∃ c, create Scenario.config none = .ok c ∧
      let c' := c.serveAll [session 1]
      c'.boot.epoch = ⟨1⟩ ∧ 0 < c'.limits.maxWorkers ∧ 2 ∉ c'.seenNonces ∧
      (∃ r, findWorker c'.workers ⟨1⟩ = some r ∧ r.boot = ⟨1⟩) ∧
      (∃ i, c'.governor.intents.intents[(⟨1⟩ : IntentId)]? = some i ∧ isLive i.state = true ∧
        i.authority.publisherBoot = ⟨1⟩) ∧
      ∃ r, c'.governor.flows[(⟨⟨1⟩, ⟨1⟩⟩ : FlowKey)]? = some r ∧ r.isElephant = true ∧
        ∃ s, r.ledger.latest = some s ∧ s.provenance.publisher.boot = ⟨1⟩ := by decide +kernel
  obtain ⟨hsupersedes, written, s', haccepted⟩ :=
    supersedes_comeback 1 2 hepoch hworkers hfree hrecord (by decide)
  have hsame := backing_handleHello { coordinator := c.serveAll [session 1] }
    (comeback 2)
  rw [haccepted] at hsame
  have hgovernor : s'.coordinator.governor = (c.serveAll [session 1]).governor :=
    congrArg Backing.governor hsame
  rw [← hgovernor] at hi hr
  exact ⟨c, s', written, _, i, _, r, s, hc, haccepted, hsupersedes, ⟨hi, hlive⟩, hpublisher, hr, hel,
    hs, hboot⟩

/-- The worker of boot 2, whose session brought a sample of boot 1, is superseded by boot 3: nothing
in the governor names boot 2. -/
theorem superseded_boot_forgotten_scenario : ∃ (c : Coordinator) (s' : Serving)
    (written : Except Status Unit), create Scenario.config none = .ok c ∧
    handleHello { coordinator := c.serveAll [session 2] } (comeback 3) =
      (.registered written, s') ∧
    (c.serveAll [session 2]).Supersedes (comeback 3) ⟨2⟩ ∧
    ∀ boot, (c.serveAll [session 2]).Supersedes (comeback 3) boot →
      s'.coordinator.Forgets boot := by
  obtain ⟨c, hc, hepoch, hworkers, hfree, hrecord, samples, hbatch, hall⟩ : ∃ c,
      create Scenario.config none = .ok c ∧
      let c' := c.serveAll [session 2]
      c'.boot.epoch = ⟨1⟩ ∧ 0 < c'.limits.maxWorkers ∧ 2 ∉ c'.seenNonces ∧
      (∃ r, findWorker c'.workers ⟨1⟩ = some r ∧ r.boot = ⟨2⟩) ∧
      ∃ samples, decodeEvidenceBatch c.limits.maxBatch
        (batchFrame ⟨2⟩ [Governor.Scenario.sample]).payload = .ok samples ∧
        ∀ x ∈ samples, x.provenance.publisher.boot ≠ ⟨2⟩ := by decide +kernel
  obtain ⟨hsupersedes, written, s', haccepted⟩ :=
    supersedes_comeback 2 3 hepoch hworkers hfree hrecord (by decide)
  refine ⟨c, s', written, hc, haccepted, hsupersedes, fun boot hboot => (superseded_boot_forgotten c
    _ _ s' written (fun boot hboot => ⟨unpublished_create hc boot,
      fun reads hreads f hf htype samples' hok x hx => ?_⟩) haccepted boot hboot).1⟩
  -- the superseded boot is boot 2, and the only batch of the run holds a sample of boot 1
  obtain rfl : boot = ⟨2⟩ := by
    obtain ⟨record, hfound, hb⟩ := hrecord
    obtain ⟨record', hfound', hb'⟩ := supersedes_comeback_eq hboot
    rw [hfound] at hfound'
    cases hfound'
    exact hb'.symm.trans hb
  rw [List.mem_singleton.mp hreads] at hf
  unfold session at hf
  rw [List.mem_pair] at hf
  rcases hf with hf | hf
  · cases hf
    cases htype
  · cases hf
    rw [hbatch] at hok
    cases hok
    exact hall x hx

end Coordinator

end EFG
