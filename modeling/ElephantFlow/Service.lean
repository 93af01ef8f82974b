/-
# The service wrapper

`GovernorService` puts a bounded request queue and one worker thread in front of a
governor.  One mutex guards the queue, the state machine and the queue accounting;
it is released before every governor call, before every sink call and before the
worker is joined.  Each definition below is one region that runs under the mutex
(`start`, `submit`, `takeRequest`, `stop`, `stopTail`, `cancel`, `cancelTail`,
`finish`) or one piece of code that runs between two regions (`handleRequest`,
`settle`).  How the threads interleave them is `ServiceRuns`.

The condition variables only say when a waiting thread looks again, so they appear
as the guard of the region that waits on them.  A sink is modelled by whether it
throws on a decision, which is all that `invoke_sink` observes.
-/
import ElephantFlow.Runs

namespace EFG

/-! ## Data -/

/-- `limits::kDefaultQueueCapacity`. -/
def kDefaultQueueCapacity : ℕ := 2 ^ 14

/-- `limits::kMaxQueueCapacity`. -/
def kMaxQueueCapacity : ℕ := 2 ^ 20

/-- `ServiceState`. -/
inductive ServiceState
  | idle | running | stopping | stopped
  deriving DecidableEq, Repr, Inhabited

/-- `RequestKind`. -/
inductive RequestKind
  | evidence | tick | completion
  deriving DecidableEq, Repr, Inhabited

/-- `ServiceRequest`. -/
structure ServiceRequest where
  kind : RequestKind := .evidence
  sample : FlowSample := {}
  flow : FlowId := {}
  generation : Generation := {}
  tick : Tick := 0
  deriving DecidableEq, Repr, Inhabited

namespace ServiceRequest

/-- The request that `submit_tick` queues. -/
def ofTick (now : Tick) : ServiceRequest := { kind := .tick, tick := now }

/-- The governor call that `process_request` makes for a request. -/
def command (r : ServiceRequest) : Command :=
  match r.kind with
  | .evidence => .submitEvidence r.sample
  | .completion => .completeFlow r.flow r.generation r.tick
  | .tick => .tick r.tick

end ServiceRequest

/-- `DecisionSink`, by whether the callable throws on a decision. -/
abbrev DecisionSink := FlowDecision → Bool

/-- The atomic counters of the service. -/
structure ServiceCounters where
  submitted : UInt64 := 0
  processed : UInt64 := 0
  rejectedFull : UInt64 := 0
  rejectedClosed : UInt64 := 0
  cancelled : UInt64 := 0
  decisionBatches : UInt64 := 0
  flowsDecided : UInt64 := 0
  elephants : UInt64 := 0
  suspensions : UInt64 := 0
  sinksInvoked : UInt64 := 0
  sinkFailures : UInt64 := 0
  lastTick : Tick := 0
  deriving DecidableEq, Repr, Inhabited

/-- `GovernorService::Config`. -/
structure ServiceConfig where
  queueCapacity : ℕ := kDefaultQueueCapacity
  governor : GovernorConfig := {}

/-- Where the worker thread is in `worker_main`: before its first region, at the wait, with a popped
request before and after the governor call, after `process_request`, out of the loop, and done. -/
inductive WorkerPhase
  | entering
  | waiting
  | holding (r : ServiceRequest)
  | handled (r : ServiceRequest)
  | settling
  | leaving
  | finished
  deriving DecidableEq, Repr, Inhabited

/-- A worker thread that has been created and not yet joined, with the sink it was given. -/
structure Worker where
  sink : Option DecisionSink
  phase : WorkerPhase

/-- `GovernorService`.  `worker` is `worker_`, and `none` means that it is not joinable. -/
structure GovernorService where
  queueCapacity : ℕ
  queue : List ServiceRequest := []
  state : ServiceState := .idle
  queueHighWater : ℕ := 0
  accepting : Bool := false
  drain : Bool := true
  governor : Governor
  worker : Option Worker := none
  counters : ServiceCounters := {}

/-! ## Counting decisions -/

namespace ServiceCounters

/-- `invoke_sink`. -/
def invokeSink (c : ServiceCounters) (sink : DecisionSink) (decision : FlowDecision) :
    ServiceCounters :=
  { c with
    sinksInvoked := c.sinksInvoked + 1
    sinkFailures := if sink decision then c.sinkFailures + 1 else c.sinkFailures }

/-- `if (sink) invoke_sink(sink, decision)`. -/
def offer (c : ServiceCounters) (sink : Option DecisionSink) (decision : FlowDecision) :
    ServiceCounters :=
  match sink with
  | some f => c.invokeSink f decision
  | none => c

/-- What `process_request` counts for a decision on evidence. -/
def countEvidence (c : ServiceCounters) (sink : Option DecisionSink) (decision : FlowDecision) :
    ServiceCounters :=
  let decided := { c with
    flowsDecided := c.flowsDecided + 1
    elephants :=
      if decision.classification.state = ElephantState.elephant then c.elephants + 1
      else c.elephants
    suspensions :=
      if decision.classification.state = ElephantState.suspended then c.suspensions + 1
      else c.suspensions }
  decided.offer sink decision

/-- What `process_request` counts for one decision of a sweep; elephants are not counted there. -/
def countSwept (sink : Option DecisionSink) (c : ServiceCounters) (decision : FlowDecision) :
    ServiceCounters :=
  let decided := { c with
    flowsDecided := c.flowsDecided + 1
    suspensions :=
      if decision.classification.state = ElephantState.suspended then c.suspensions + 1
      else c.suspensions }
  decided.offer sink decision

/-- What `process_request` counts for a sweep. -/
def countBatch (c : ServiceCounters) (sink : Option DecisionSink) (batch : DecisionBatch) :
    ServiceCounters :=
  batch.decisions.foldl (countSwept sink) { c with decisionBatches := c.decisionBatches + 1 }

/-- Two readings agree on the counters that account for the work. -/
def SameWork (c d : ServiceCounters) : Prop :=
  d.submitted = c.submitted ∧ d.processed = c.processed ∧ d.cancelled = c.cancelled

theorem SameWork.refl (c : ServiceCounters) : c.SameWork c := ⟨rfl, rfl, rfl⟩

theorem SameWork.trans {c d e : ServiceCounters} (h : c.SameWork d) (h' : d.SameWork e) :
    c.SameWork e :=
  ⟨h'.1.trans h.1, h'.2.1.trans h.2.1, h'.2.2.trans h.2.2⟩

theorem sameWork_offer (c : ServiceCounters) (sink : Option DecisionSink)
    (decision : FlowDecision) : c.SameWork (c.offer sink decision) := by
  cases sink with
  | none => exact SameWork.refl c
  | some f => exact ⟨rfl, rfl, rfl⟩

theorem sameWork_countEvidence (c : ServiceCounters) (sink : Option DecisionSink)
    (decision : FlowDecision) : c.SameWork (c.countEvidence sink decision) := by
  refine SameWork.trans ?_ (sameWork_offer _ sink decision)
  exact ⟨rfl, rfl, rfl⟩

theorem sameWork_countSwept (sink : Option DecisionSink) (c : ServiceCounters)
    (decision : FlowDecision) : c.SameWork (countSwept sink c decision) := by
  refine SameWork.trans ?_ (sameWork_offer _ sink decision)
  exact ⟨rfl, rfl, rfl⟩

theorem sameWork_foldl (sink : Option DecisionSink) (ds : List FlowDecision)
    (c : ServiceCounters) : c.SameWork (ds.foldl (countSwept sink) c) := by
  induction ds generalizing c with
  | nil => exact SameWork.refl c
  | cons d ds ih => exact (sameWork_countSwept sink c d).trans (ih _)

theorem sameWork_countBatch (c : ServiceCounters) (sink : Option DecisionSink)
    (batch : DecisionBatch) : c.SameWork (c.countBatch sink batch) := by
  refine SameWork.trans ?_ (sameWork_foldl sink batch.decisions _)
  exact ⟨rfl, rfl, rfl⟩

end ServiceCounters

/-! ## Regions -/

namespace GovernorService

/-- The constructor: the queue capacity is forced into `[1, kMaxQueueCapacity]`. -/
def make (config : ServiceConfig) : GovernorService :=
  { queueCapacity := GovernorConfig.clampTo 1 kMaxQueueCapacity config.queueCapacity
    governor := Governor.make config.governor }

/-- A change of the counters only. -/
def count (s : GovernorService) (f : ServiceCounters → ServiceCounters) : GovernorService :=
  { s with counters := f s.counters }

/-- `worker_.joinable()`. -/
def joinable (s : GovernorService) : Bool := s.worker.isSome

/-- The region of `start`; on success the caller creates the worker thread afterwards. -/
def start (s : GovernorService) : Except Status Unit × GovernorService :=
  if s.state = .running ∨ s.state = .stopping then
    (makeStatus .alreadyExists "service is already running", s)
  else if s.joinable then
    (makeStatus .busy "previous worker thread has not been joined", s)
  else
    (.ok (), { s with
      queue := []
      queueHighWater := 0
      accepting := true
      drain := true
      state := .running })

/-- The thread creation at the end of `start`. -/
def launch (s : GovernorService) (sink : Option DecisionSink) : GovernorService :=
  { s with worker := some ⟨sink, .entering⟩ }

/-- `submit`. -/
def submit (s : GovernorService) (r : ServiceRequest) : Except Status Unit × GovernorService :=
  if s.accepting = false ∨ s.state ≠ .running then
    (makeStatus .shuttingDown "service is not accepting work",
      s.count fun c => { c with rejectedClosed := c.rejectedClosed + 1 })
  else if s.queue.length ≥ s.queueCapacity then
    (makeStatus .capacityExceeded "service queue is full",
      s.count fun c => { c with rejectedFull := c.rejectedFull + 1 })
  else
    let queue := s.queue ++ [r]
    (.ok (), { s with
      queue := queue
      queueHighWater := if queue.length > s.queueHighWater then queue.length else s.queueHighWater
      counters := { s.counters with submitted := s.counters.submitted + 1 } })

/-- The region at the head of the worker loop.  `none` is a worker that goes on waiting, and the
first component is `none` when it breaks out of the loop. -/
def takeRequest (s : GovernorService) : Option (Option ServiceRequest × GovernorService) :=
  match s.queue with
  | [] => if s.state = .running then none else some (none, s)
  | r :: rest => some (some r, { s with queue := rest })

/-- The `switch` of `process_request`: the governor call, and what is counted of its result. -/
def handleRequest (s : GovernorService) (sink : Option DecisionSink) (r : ServiceRequest) :
    GovernorService :=
  match r.kind with
  | .evidence =>
    match s.governor.submitEvidence r.sample with
    | (.ok decision, g) =>
      { s with governor := g, counters := s.counters.countEvidence sink decision }
    | (.error _, g) => { s with governor := g }
  | .completion => { s with governor := (s.governor.completeFlow r.flow r.generation r.tick).2 }
  | .tick =>
    match s.governor.tick r.tick with
    | (.ok batch, g) => { s with governor := g, counters := s.counters.countBatch sink batch }
    | (.error _, g) => { s with governor := g }

/-- The end of `process_request`. -/
def settle (s : GovernorService) (r : ServiceRequest) : GovernorService :=
  s.count fun c => { c with
    processed := c.processed + 1
    lastTick := if r.tick > c.lastTick then r.tick else c.lastTick }

/-- The region that ends `worker_main`. -/
def finish (s : GovernorService) : GovernorService := { s with state := .stopped }

/-- The worker thread moves to another place of `worker_main`. -/
def workerAt (s : GovernorService) (sink : Option DecisionSink) (phase : WorkerPhase) :
    GovernorService :=
  { s with worker := some ⟨sink, phase⟩ }

/-- The first region of `stop`, with its local `already_stopped`. -/
def stop (s : GovernorService) : Bool × GovernorService :=
  (s.state = .idle, { s with
    accepting := false
    drain := true
    state := if s.state = .running then .stopping else s.state })

/-- `worker_.join()` has returned. -/
def joined (s : GovernorService) : GovernorService := { s with worker := none }

/-- The region at the end of `stop`. -/
def stopTail (s : GovernorService) (alreadyStopped : Bool) : GovernorService :=
  { s with
    state := if alreadyStopped = false ∨ s.state = .stopping then .stopped else s.state
    queue := []
    queueHighWater := 0
    accepting := false }

/-- The first region of `cancel`. -/
def cancel (s : GovernorService) : GovernorService :=
  { s with
    accepting := false
    drain := false
    state := if s.state = .running then .stopping else s.state
    counters := { s.counters with
      cancelled := s.counters.cancelled + UInt64.ofNat s.queue.length }
    queue := [] }

/-- The region at the end of `cancel`. -/
def cancelTail (s : GovernorService) : GovernorService :=
  { s with state := .stopped, queue := [], queueHighWater := 0 }

/-! ## What one request does -/

/-- The governor sees a request as the public call it stands for. -/
theorem governor_handleRequest (s : GovernorService) (sink : Option DecisionSink)
    (r : ServiceRequest) : (s.handleRequest sink r).governor = s.governor.exec r.command := by
  unfold handleRequest ServiceRequest.command
  cases r.kind with
  | evidence =>
    dsimp only [Governor.exec]
    rcases s.governor.submitEvidence r.sample with ⟨e | d, g⟩ <;> rfl
  | completion => rfl
  | tick =>
    dsimp only [Governor.exec]
    rcases s.governor.tick r.tick with ⟨e | d, g⟩ <;> rfl

/-- What handling a request leaves alone: it only touches the governor and the counters, and not
the counters that account for the work. -/
theorem handleRequest_frame (s : GovernorService) (sink : Option DecisionSink)
    (r : ServiceRequest) :
    ∃ g c, s.handleRequest sink r = { s with governor := g, counters := c } ∧
      s.counters.SameWork c := by
  unfold handleRequest
  cases r.kind with
  | evidence =>
    rcases s.governor.submitEvidence r.sample with ⟨e | d, g⟩
    · exact ⟨g, s.counters, rfl, .refl _⟩
    · exact ⟨g, _, rfl, ServiceCounters.sameWork_countEvidence _ _ _⟩
  | completion => exact ⟨_, s.counters, rfl, .refl _⟩
  | tick =>
    rcases s.governor.tick r.tick with ⟨e | d, g⟩
    · exact ⟨g, s.counters, rfl, .refl _⟩
    · exact ⟨g, _, rfl, ServiceCounters.sameWork_countBatch _ _ _⟩

variable {s s' : GovernorService} {r : ServiceRequest}

/-- What acceptance takes, and what it does. -/
theorem submit_ok (h : s.submit r = (.ok (), s')) :
    s.state = .running ∧ s.queue.length < s.queueCapacity ∧
      ∃ high, s' = { s with
        queue := s.queue ++ [r]
        queueHighWater := high
        counters := { s.counters with submitted := s.counters.submitted + 1 } } := by
  unfold submit at h
  split_ifs at h with hclosed hfull
  · cases congrArg Prod.fst h
  · cases congrArg Prod.fst h
  · push Not at hclosed
    exact ⟨hclosed.2, by omega, _, (congrArg Prod.snd h).symm⟩

/-- A refused request is counted and nothing else. -/
theorem submit_error {e : Status} (h : s.submit r = (.error e, s')) :
    ∃ c, s' = { s with counters := c } ∧ s.counters.SameWork c := by
  unfold submit at h
  split_ifs at h with hclosed hfull
  · exact ⟨_, (congrArg Prod.snd h).symm, rfl, rfl, rfl⟩
  · exact ⟨_, (congrArg Prod.snd h).symm, rfl, rfl, rfl⟩
  · cases congrArg Prod.fst h

theorem start_ok (h : s.start = (.ok (), s')) :
    s.state ≠ .running ∧ s.worker = none ∧
      s' = { s with
        queue := []
        queueHighWater := 0
        accepting := true
        drain := true
        state := .running } := by
  unfold start at h
  split_ifs at h with hbusy hjoin
  · cases congrArg Prod.fst h
  · cases congrArg Prod.fst h
  · push Not at hbusy
    refine ⟨hbusy.1, ?_, (congrArg Prod.snd h).symm⟩
    simpa [joinable] using hjoin

/-- A refused start changes nothing. -/
theorem start_error {e : Status} (h : s.start = (.error e, s')) : s' = s := by
  unfold start at h
  split_ifs at h
  · exact (congrArg Prod.snd h).symm
  · exact (congrArg Prod.snd h).symm
  · cases congrArg Prod.fst h

end GovernorService

end EFG
