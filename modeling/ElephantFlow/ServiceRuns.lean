/-
# Threads of the service

One controlling thread calls `start`, `stop` and `cancel`, any number of threads
call `submit`, and at most one worker thread runs `worker_main`.  A step of the
system is one region under the mutex, or one piece of code between two regions:
the creation of the thread, the governor call, the end of `process_request`, the
return of `join`.  Between any two steps any other thread may go (`Step`).

Two invariants carry the development.  `Phased` ties the queue and the state to
where the threads are: without a worker that is still going to look at the queue,
the queue is empty and the service does not run.  That is why the clears in
`start`, `stop` and at the end of `cancel` never drop a request.  `Accounted` then
relates the queue to what was accepted, what the governor received and what was
cancelled (`HandOff.Accounts`), and the counters to the lengths of those lists.
-/
import ElephantFlow.HandOff
import ElephantFlow.Service

namespace EFG

open HandOff

/-! ## Steps -/

/-- Where the controlling thread is: in no call, between the region of `start` and the creation of
the worker, or between the two regions of `stop` or of `cancel`. -/
inductive Controller
  | free
  | launching (sink : Option DecisionSink)
  | stopping (alreadyStopped : Bool)
  | cancelling

/-- A call that the governor receives: from the worker, or from the owner while there is none. -/
inductive GovernorCall
  | direct (cmd : Command)
  | request (r : ServiceRequest)

namespace GovernorCall

/-- The operation that a call runs. -/
def command : GovernorCall → Command
  | .direct cmd => cmd
  | .request r => r.command

/-- The request that a call handles. -/
def request? : GovernorCall → Option ServiceRequest
  | .direct _ => none
  | .request r => some r

end GovernorCall

/-- The service with its threads, and the history of the run: the requests that `submit` accepted,
the calls that the governor received and the requests that `cancel` discarded. -/
structure System where
  service : GovernorService
  controller : Controller := .free
  accepted : List ServiceRequest := []
  calls : List GovernorCall := []
  cancelled : List ServiceRequest := []

/-- The steps, by the code they run. -/
inductive Action
  | start (sink : Option DecisionSink)
  | launch
  | direct (cmd : Command)
  | submit (r : ServiceRequest)
  | enter
  | take
  | handle
  | settle
  | rest
  | leave
  | stop
  | stopReturn
  | cancel
  | cancelReturn
  | join

namespace System

/-- The service right after its construction. -/
def init (config : ServiceConfig) : System := { service := .make config }

/-- The requests that the governor received. -/
def received (x : System) : List ServiceRequest := x.calls.filterMap GovernorCall.request?

/-- One step of one thread. -/
inductive Step : System → Action → System → Prop
  | start {x : System} {s : GovernorService} (sink : Option DecisionSink)
      (hfree : x.controller = .free) (h : x.service.start = (.ok (), s)) :
      Step x (.start sink) { x with service := s, controller := .launching sink }
  | startRefused {x : System} {s : GovernorService} {e : Status} (sink : Option DecisionSink)
      (hfree : x.controller = .free) (h : x.service.start = (.error e, s)) :
      Step x (.start sink) { x with service := s }
  | launch {x : System} {sink : Option DecisionSink} (h : x.controller = .launching sink) :
      Step x .launch { x with service := x.service.launch sink, controller := .free }
  | direct {x : System} (cmd : Command) (hfree : x.controller = .free)
      (h : x.service.worker = none) :
      Step x (.direct cmd)
        { x with
          service := { x.service with governor := x.service.governor.exec cmd }
          calls := x.calls ++ [.direct cmd] }
  | submit {x : System} {s : GovernorService} {r : ServiceRequest}
      (h : x.service.submit r = (.ok (), s)) :
      Step x (.submit r) { x with service := s, accepted := x.accepted ++ [r] }
  | submitRefused {x : System} {s : GovernorService} {r : ServiceRequest} {e : Status}
      (h : x.service.submit r = (.error e, s)) :
      Step x (.submit r) { x with service := s }
  | enter {x : System} {sink : Option DecisionSink}
      (hw : x.service.worker = some ⟨sink, .entering⟩) :
      Step x .enter { x with service := x.service.workerAt sink .waiting }
  | take {x : System} {s : GovernorService} {sink : Option DecisionSink} {r : ServiceRequest}
      (hw : x.service.worker = some ⟨sink, .waiting⟩)
      (h : x.service.takeRequest = some (some r, s)) :
      Step x .take { x with service := s.workerAt sink (.holding r) }
  | quit {x : System} {s : GovernorService} {sink : Option DecisionSink}
      (hw : x.service.worker = some ⟨sink, .waiting⟩)
      (h : x.service.takeRequest = some (none, s)) :
      Step x .take { x with service := s.workerAt sink .leaving }
  | handle {x : System} {sink : Option DecisionSink} {r : ServiceRequest}
      (hw : x.service.worker = some ⟨sink, .holding r⟩) :
      Step x .handle
        { x with
          service := (x.service.handleRequest sink r).workerAt sink (.handled r)
          calls := x.calls ++ [.request r] }
  | settle {x : System} {sink : Option DecisionSink} {r : ServiceRequest}
      (hw : x.service.worker = some ⟨sink, .handled r⟩) :
      Step x .settle { x with service := (x.service.settle r).workerAt sink .settling }
  | rest {x : System} {sink : Option DecisionSink}
      (hw : x.service.worker = some ⟨sink, .settling⟩) :
      Step x .rest { x with service := x.service.workerAt sink .waiting }
  | leave {x : System} {sink : Option DecisionSink}
      (hw : x.service.worker = some ⟨sink, .leaving⟩) :
      Step x .leave { x with service := x.service.finish.workerAt sink .finished }
  | stop {x : System} (hfree : x.controller = .free) :
      Step x .stop
        { x with service := x.service.stop.2, controller := .stopping x.service.stop.1 }
  | stopReturn {x : System} {alreadyStopped : Bool}
      (hc : x.controller = .stopping alreadyStopped) (hw : x.service.worker = none) :
      Step x .stopReturn
        { x with service := x.service.stopTail alreadyStopped, controller := .free }
  | cancel {x : System} (hfree : x.controller = .free) :
      Step x .cancel
        { x with
          service := x.service.cancel
          controller := .cancelling
          cancelled := x.cancelled ++ x.service.queue }
  | cancelReturn {x : System} (hc : x.controller = .cancelling)
      (hw : x.service.worker = none) :
      Step x .cancelReturn { x with service := x.service.cancelTail, controller := .free }
  | join {x : System} {sink : Option DecisionSink}
      (hc : (∃ alreadyStopped, x.controller = .stopping alreadyStopped) ∨
        x.controller = .cancelling)
      (hw : x.service.worker = some ⟨sink, .finished⟩) :
      Step x .join { x with service := x.service.joined }

/-- The states that some interleaving of the threads reaches. -/
def Reaches (config : ServiceConfig) : System → Prop :=
  Relation.ReflTransGen (fun x y => ∃ a, Step x a y) (init config)

variable {config : ServiceConfig} {x y : System} {s s' : GovernorService}
  {sink : Option DecisionSink} {phase : WorkerPhase}

theorem Reaches.step {a : Action} (h : Reaches config x) (hs : Step x a y) : Reaches config y :=
  h.tail ⟨a, hs⟩

/-- What holds at the start and is kept by every step holds in every reachable state. -/
theorem Reaches.invariant {P : System → Prop} (h0 : P (init config))
    (hstep : ∀ {x a y}, P x → Step x a y → P y) (h : Reaches config x) : P x := by
  induction h with
  | refl => exact h0
  | tail _ hs ih =>
    obtain ⟨a, hs⟩ := hs
    exact hstep ih hs

/-! ## Where the threads are -/

/-- No further step of the worker looks at the queue: there is no worker and none is being created,
or it is out of its loop. -/
def Unattended (x : System) : Prop :=
  match x.service.worker with
  | none => ∀ sink, x.controller ≠ .launching sink
  | some w => w.phase = .leaving ∨ w.phase = .finished

/-- While nobody attends to the queue it is empty and the service does not run, and a worker is
created only for a running service that has none. -/
structure Phased (x : System) : Prop where
  unattended : Unattended x → x.service.queue = [] ∧ x.service.state ≠ .running
  launching : ∀ sink, x.controller = .launching sink → x.service.worker = none

theorem phased_init (config : ServiceConfig) : Phased (init config) := by
  constructor
  · intro _
    exact ⟨rfl, ServiceState.noConfusion⟩
  · intro sink h
    cases h

theorem Phased.attended (h : Phased x) (hrun : x.service.state = .running) : ¬ Unattended x :=
  fun hu => (h.unattended hu).2 hrun

theorem takeRequest_some {r : ServiceRequest} (h : s.takeRequest = some (some r, s')) :
    s.queue = r :: s'.queue ∧ s' = { s with queue := s'.queue } := by
  unfold GovernorService.takeRequest at h
  split at h
  case h_1 hq =>
    split_ifs at h with hrun
    cases h
  case h_2 q rest hq =>
    cases h
    exact ⟨hq, rfl⟩

/-- The worker leaves its loop only over an empty queue of a service that does not run. -/
theorem takeRequest_none (h : s.takeRequest = some (none, s')) :
    s.queue = [] ∧ s.state ≠ .running ∧ s' = s := by
  unfold GovernorService.takeRequest at h
  split at h
  case h_1 hq =>
    split_ifs at h with hrun
    cases h
    exact ⟨hq, hrun, rfl⟩
  case h_2 r rest hq => cases h

/-- A worker that is still in its loop attends to the queue. -/
theorem attended_of_phase (hw : x.service.worker = some ⟨sink, phase⟩) (hl : phase ≠ .leaving)
    (hf : phase ≠ .finished) :
    ¬ Unattended x := by
  intro hu
  simp only [Unattended, hw] at hu
  exact hu.elim hl hf

theorem unattended_of_phase (hw : x.service.worker = some ⟨sink, phase⟩)
    (h : phase = .leaving ∨ phase = .finished) :
    Unattended x := by
  simp only [Unattended, hw]
  exact h

theorem unattended_of_none (hw : x.service.worker = none)
    (hc : ∀ sink, x.controller ≠ .launching sink) : Unattended x := by
  simp only [Unattended, hw]
  exact hc

/-- Attention depends on the worker and on the controlling thread only. -/
theorem Unattended.congr (hu : Unattended y) (hw : y.service.worker = x.service.worker)
    (hc : (∀ sink, y.controller ≠ .launching sink) → ∀ sink, x.controller ≠ .launching sink) :
    Unattended x := by
  unfold Unattended at hu ⊢
  rw [hw] at hu
  split at hu
  · exact hc hu
  · exact hu

theorem Phased.worker_none (h : Phased x) {w : Worker} (hw : x.service.worker = some w)
    (sink : Option DecisionSink) :
    x.controller ≠ .launching sink := by
  intro hc
  rw [h.launching sink hc] at hw
  cases hw

/-- The worker goes on to a place from which it looks at the queue again. -/
theorem Phased.work (h : Phased x) {w : Worker} (hw : x.service.worker = some w)
    (hy : y.service.worker = some ⟨sink, phase⟩) (hl : phase ≠ .leaving) (hf : phase ≠ .finished)
    (hc : y.controller = x.controller) : Phased y := by
  constructor
  · intro hu
    exact absurd hu (attended_of_phase hy hl hf)
  · intro k hk
    rw [hc] at hk
    exact absurd hk (h.worker_none hw k)

theorem notRunning_ite (state : ServiceState) :
    (if state = .running then ServiceState.stopping else state) ≠ .running := by
  split_ifs with h
  · exact ServiceState.noConfusion
  · exact h

/-- Every step keeps the queue of an unattended service empty. -/
theorem Phased.step {a : Action} (h : Phased x) (hs : Step x a y) : Phased y := by
  cases hs with
  | @start s sink hfree hstart =>
    obtain ⟨-, hnone, rfl⟩ := GovernorService.start_ok hstart
    constructor
    · intro hu
      simp only [Unattended, hnone] at hu
      exact absurd rfl (hu sink)
    · intro _ _
      exact hnone
  | startRefused sink hfree hstart =>
    obtain rfl := GovernorService.start_error hstart
    exact h
  | launch hc =>
    constructor
    · intro hu
      exact absurd hu (attended_of_phase rfl (by decide) (by decide))
    · intro k hk
      cases hk
  | direct cmd hfree hw => exact ⟨fun hu => h.unattended (hu.congr rfl id), h.launching⟩
  | submit hsub =>
    obtain ⟨hrun, -, high, rfl⟩ := GovernorService.submit_ok hsub
    exact ⟨fun hu => absurd (hu.congr rfl id) (h.attended hrun), h.launching⟩
  | submitRefused hsub =>
    obtain ⟨c, rfl, -⟩ := GovernorService.submit_error hsub
    exact ⟨fun hu => h.unattended (hu.congr rfl id), h.launching⟩
  | enter hw => exact h.work hw rfl (by decide) (by decide) rfl
  | take hw htake => exact h.work hw rfl WorkerPhase.noConfusion WorkerPhase.noConfusion rfl
  | quit hw htake =>
    obtain ⟨hq, hrun, rfl⟩ := takeRequest_none htake
    exact ⟨fun _ => ⟨hq, hrun⟩, fun k hk => absurd hk (h.worker_none hw k)⟩
  | handle hw => exact h.work hw rfl WorkerPhase.noConfusion WorkerPhase.noConfusion rfl
  | settle hw => exact h.work hw rfl (by decide) (by decide) rfl
  | rest hw => exact h.work hw rfl (by decide) (by decide) rfl
  | leave hw =>
    obtain ⟨hq, -⟩ := h.unattended (unattended_of_phase hw (Or.inl rfl))
    exact ⟨fun _ => ⟨hq, ServiceState.noConfusion⟩, fun k hk => absurd hk (h.worker_none hw k)⟩
  | stop hfree =>
    refine ⟨fun hu => ⟨?_, notRunning_ite _⟩, fun k hk => by cases hk⟩
    exact (h.unattended (hu.congr rfl fun _ k hk => by rw [hfree] at hk; cases hk)).1
  | stopReturn hc hw =>
    refine ⟨fun _ => ⟨rfl, ?_⟩, fun k hk => by cases hk⟩
    have hidle := h.unattended (unattended_of_none hw fun k hk => by rw [hc] at hk; cases hk)
    show (if _ then ServiceState.stopped else x.service.state) ≠ .running
    split_ifs
    · exact ServiceState.noConfusion
    · exact hidle.2
  | cancel hfree => exact ⟨fun _ => ⟨rfl, notRunning_ite _⟩, fun k hk => by cases hk⟩
  | cancelReturn hc hw => exact ⟨fun _ => ⟨rfl, ServiceState.noConfusion⟩, fun k hk => by cases hk⟩
  | join hc hw =>
    have hdone := h.unattended (unattended_of_phase hw (Or.inr rfl))
    exact ⟨fun _ => hdone, fun _ _ => rfl⟩

end System

/-! ## Where the requests are -/

namespace WorkerPhase

/-- The popped request that the governor has not yet seen. -/
def inHand : WorkerPhase → List ServiceRequest
  | .holding r => [r]
  | _ => []

/-- The request that the governor has seen and that is not yet counted as processed. -/
def uncounted : WorkerPhase → List ServiceRequest
  | .handled r => [r]
  | _ => []

end WorkerPhase

namespace GovernorService

/-- The popped request that the governor has not yet seen. -/
def inHand (s : GovernorService) : List ServiceRequest :=
  match s.worker with
  | some w => w.phase.inHand
  | none => []

/-- The request that the governor has seen and that is not yet counted as processed. -/
def uncounted (s : GovernorService) : List ServiceRequest :=
  match s.worker with
  | some w => w.phase.uncounted
  | none => []

/-- The worker holds a popped request. -/
def holdsRequest (s : GovernorService) : Bool :=
  match s.worker with
  | some ⟨_, .holding _⟩ => true
  | some ⟨_, .handled _⟩ => true
  | _ => false

variable {s : GovernorService}

theorem inHand_of_worker {w : Worker} (hw : s.worker = some w) : s.inHand = w.phase.inHand := by
  simp only [inHand, hw]

theorem uncounted_of_worker {w : Worker} (hw : s.worker = some w) :
    s.uncounted = w.phase.uncounted := by
  simp only [uncounted, hw]

theorem inHand_of_none (hw : s.worker = none) : s.inHand = [] := by
  simp only [inHand, hw]

theorem uncounted_of_none (hw : s.worker = none) : s.uncounted = [] := by
  simp only [uncounted, hw]

theorem length_held (s : GovernorService) :
    s.inHand.length + s.uncounted.length = if s.holdsRequest then 1 else 0 := by
  unfold inHand uncounted holdsRequest
  rcases s.worker with _ | ⟨sink, _ | _ | _ | _ | _ | _ | _⟩ <;> rfl

theorem holdsRequest_of_none (hw : s.worker = none) : s.holdsRequest = false := by
  simp only [holdsRequest, hw]

end GovernorService

namespace System

/-- The requests of the run are where the history says, and the counters count them. -/
structure Accounted (config : ServiceConfig) (x : System) : Prop where
  work : Accounts x.accepted x.received (x.service.inHand ++ x.service.queue) x.cancelled
  governor : x.service.governor =
    (Governor.make config.governor).run (x.calls.map GovernorCall.command)
  submitted : x.service.counters.submitted = UInt64.ofNat x.accepted.length
  processed : x.service.counters.processed + UInt64.ofNat x.service.uncounted.length =
    UInt64.ofNat x.received.length
  cancelled : x.service.counters.cancelled = UInt64.ofNat x.cancelled.length

variable {config : ServiceConfig} {x y : System} {s : GovernorService} {sink : Option DecisionSink}
  {r : ServiceRequest} {a : Action}

theorem accounted_init (config : ServiceConfig) : Accounted config (init config) :=
  ⟨Accounts.start, rfl, rfl, rfl, rfl⟩

/-- A step that moves no request keeps the accounts. -/
theorem Accounted.frame (h : Accounted config x) {c : Controller} (hq : s.queue = x.service.queue)
    (hi : s.inHand = x.service.inHand) (hu : s.uncounted = x.service.uncounted)
    (hg : s.governor = x.service.governor) (hc : x.service.counters.SameWork s.counters) :
    Accounted config { x with service := s, controller := c } := by
  obtain ⟨hsub, hproc, hcan⟩ := hc
  constructor
  · show Accounts x.accepted x.received (s.inHand ++ s.queue) x.cancelled
    rw [hi, hq]
    exact h.work
  · exact hg.trans h.governor
  · exact hsub.trans h.submitted
  · show s.counters.processed + UInt64.ofNat s.uncounted.length = UInt64.ofNat x.received.length
    rw [hproc, hu]
    exact h.processed
  · exact hcan.trans h.cancelled

/-- The worker moves between two places at which it has no request. -/
theorem Accounted.moved (h : Accounted config x) {p q : WorkerPhase}
    (hw : x.service.worker = some ⟨sink, p⟩) (hi : q.inHand = p.inHand)
    (hu : q.uncounted = p.uncounted) :
    Accounted config { x with service := x.service.workerAt sink q } := by
  refine h.frame rfl ?_ ?_ rfl (.refl _)
  · rw [GovernorService.inHand_of_worker hw]
    exact hi
  · rw [GovernorService.uncounted_of_worker hw]
    exact hu

theorem ofNat_length_snoc {α : Type} (l : List α) (a : α) :
    UInt64.ofNat (l ++ [a]).length = UInt64.ofNat l.length + 1 := by
  rw [List.length_append, UInt64.ofNat_add]
  rfl

theorem run_snoc (g : Governor) (calls : List GovernorCall) (call : GovernorCall) :
    g.run ((calls ++ [call]).map GovernorCall.command) =
      (g.run (calls.map GovernorCall.command)).exec call.command := by
  simp [Governor.run]

/-- The owner's own calls are no requests. -/
theorem received_direct (x : System) (s : GovernorService) (cmd : Command) :
    received { x with service := s, calls := x.calls ++ [.direct cmd] } = x.received := by
  simp [received, GovernorCall.request?]

theorem received_request (x : System) (s : GovernorService) (r : ServiceRequest) :
    received { x with service := s, calls := x.calls ++ [.request r] } = x.received ++ [r] := by
  simp [received, GovernorCall.request?]

/-- The governor receives the request that the worker has in hand. -/
theorem Accounted.handle (h : Accounted config x) (hw : x.service.worker = some ⟨sink, .holding r⟩) :
    Accounted config
      { x with
        service := (x.service.handleRequest sink r).workerAt sink (.handled r)
        calls := x.calls ++ [.request r] } := by
  have hgov := GovernorService.governor_handleRequest x.service sink r
  obtain ⟨g, c, heq, hsub, hproc, hcan⟩ := GovernorService.handleRequest_frame x.service sink r
  rw [heq] at hgov ⊢
  have hwork := h.work
  have hcount := h.processed
  rw [GovernorService.inHand_of_worker hw] at hwork
  rw [GovernorService.uncounted_of_worker hw] at hcount
  constructor
  · rw [received_request]
    exact hwork.deliver
  · rw [run_snoc, ← h.governor]
    exact hgov
  · exact hsub.trans h.submitted
  · rw [received_request, ofNat_length_snoc, ← hcount]
    show c.processed + 1 = x.service.counters.processed + 0 + 1
    rw [hproc, UInt64.add_zero]
  · exact hcan.trans h.cancelled

/-- The request that the governor has seen is counted. -/
theorem Accounted.settle (h : Accounted config x) (hw : x.service.worker = some ⟨sink, .handled r⟩) :
    Accounted config
      { x with service := (x.service.settle r).workerAt sink .settling } := by
  have hwork := h.work
  have hcount := h.processed
  rw [GovernorService.inHand_of_worker hw] at hwork
  rw [GovernorService.uncounted_of_worker hw] at hcount
  refine ⟨hwork, h.governor, h.submitted, ?_, h.cancelled⟩
  show x.service.counters.processed + 1 + 0 = UInt64.ofNat x.received.length
  rw [UInt64.add_zero]
  exact hcount

/-- The worker pops the head of the queue. -/
theorem Accounted.take (h : Accounted config x) (hw : x.service.worker = some ⟨sink, .waiting⟩)
    (htake : x.service.takeRequest = some (some r, s)) :
    Accounted config { x with service := s.workerAt sink (.holding r) } := by
  obtain ⟨hq, hs⟩ := takeRequest_some htake
  have hwork := h.work
  have hcount := h.processed
  rw [GovernorService.inHand_of_worker hw, hq] at hwork
  rw [GovernorService.uncounted_of_worker hw] at hcount
  generalize s.queue = rest at hs hwork
  subst hs
  exact ⟨hwork, h.governor, h.submitted, hcount, h.cancelled⟩

/-- A cancellation discards what is queued, and only that. -/
theorem Accounted.cancel (h : Accounted config x) :
    Accounted config
      { x with
        service := x.service.cancel
        controller := .cancelling
        cancelled := x.cancelled ++ x.service.queue } := by
  refine ⟨?_, h.governor, h.submitted, h.processed, ?_⟩
  · show Accounts x.accepted x.received (x.service.inHand ++ []) _
    rw [List.append_nil]
    exact h.work.discard
  · show x.service.counters.cancelled + UInt64.ofNat x.service.queue.length =
      UInt64.ofNat (x.cancelled ++ x.service.queue).length
    rw [List.length_append, UInt64.ofNat_add, h.cancelled]

theorem Accounted.step (h : Accounted config x) (hp : Phased x) (hs : Step x a y) :
    Accounted config y := by
  -- a clear drops nothing where the controlling thread is not creating a worker and there is none
  have hclear : x.service.worker = none → (∀ sink, x.controller ≠ .launching sink) →
      [] = x.service.queue :=
    fun hw hc => (hp.unattended (unattended_of_none hw hc)).1.symm
  cases hs with
  | start sink hfree hstart =>
    obtain ⟨-, hnone, rfl⟩ := GovernorService.start_ok hstart
    refine h.frame (hclear hnone fun k hk => ?_) rfl rfl rfl (.refl _)
    rw [hfree] at hk
    cases hk
  | startRefused sink hfree hstart =>
    obtain rfl := GovernorService.start_error hstart
    exact h
  | launch hc =>
    have hnone := hp.launching _ hc
    refine h.frame rfl ?_ ?_ rfl (.refl _)
    · rw [GovernorService.inHand_of_none hnone]
      rfl
    · rw [GovernorService.uncounted_of_none hnone]
      rfl
  | direct cmd hfree hw =>
    refine ⟨?_, ?_, h.submitted, ?_, h.cancelled⟩
    · rw [received_direct]
      exact h.work
    · rw [run_snoc, ← h.governor]
      rfl
    · rw [received_direct]
      exact h.processed
  | @submit s r hsub =>
    obtain ⟨-, -, high, rfl⟩ := GovernorService.submit_ok hsub
    refine ⟨?_, h.governor, ?_, h.processed, h.cancelled⟩
    · have hadd := h.work.accept r
      rw [List.append_assoc] at hadd
      exact hadd
    · show x.service.counters.submitted + 1 = UInt64.ofNat (x.accepted ++ [r]).length
      rw [ofNat_length_snoc, h.submitted]
  | submitRefused hsub =>
    obtain ⟨c, rfl, hsame⟩ := GovernorService.submit_error hsub
    exact h.frame rfl rfl rfl rfl hsame
  | enter hw => exact h.moved hw rfl rfl
  | take hw htake => exact h.take hw htake
  | quit hw htake =>
    obtain ⟨-, -, rfl⟩ := takeRequest_none htake
    exact h.moved hw rfl rfl
  | handle hw => exact h.handle hw
  | settle hw => exact h.settle hw
  | rest hw => exact h.moved hw rfl rfl
  | leave hw => exact (h.moved (q := .finished) hw rfl rfl).frame rfl rfl rfl rfl (.refl _)
  | stop hfree => exact h.frame rfl rfl rfl rfl (.refl _)
  | stopReturn hc hw =>
    refine h.frame (hclear hw fun k hk => ?_) rfl rfl rfl (.refl _)
    rw [hc] at hk
    cases hk
  | cancel hfree => exact h.cancel
  | cancelReturn hc hw =>
    refine h.frame (hclear hw fun k hk => ?_) rfl rfl rfl (.refl _)
    rw [hc] at hk
    cases hk
  | join hc hw =>
    refine h.frame rfl ?_ ?_ rfl (.refl _)
    · rw [GovernorService.inHand_of_worker hw]
      rfl
    · rw [GovernorService.uncounted_of_worker hw]
      rfl

/-- Both invariants hold in every state that an interleaving reaches. -/
theorem Reaches.sound (h : Reaches config x) : Phased x ∧ Accounted config x := by
  refine Reaches.invariant (P := fun x => Phased x ∧ Accounted config x)
    ⟨phased_init config, accounted_init config⟩ ?_ h
  intro x a y ⟨hp, ha⟩ hs
  exact ⟨hp.step hs, ha.step hp hs⟩

/-! ## Accepted work is kept -/

theorem Accounted.balance (h : Accounted config x) :
    x.service.counters.submitted =
      x.service.counters.processed + x.service.counters.cancelled +
        UInt64.ofNat x.service.queue.length +
        UInt64.ofNat (if x.service.holdsRequest then 1 else 0) := by
  have hlen := h.work.length_accepted
  rw [List.length_append] at hlen
  rw [h.submitted, hlen, h.cancelled, ← GovernorService.length_held]
  simp only [UInt64.ofNat_add]
  rw [← h.processed]
  ac_rfl

/-- Only a cancellation discards requests: those that are queued at that moment. -/
theorem Step.cancelled (hs : Step x a y) :
    (a = .cancel → y.cancelled = x.cancelled ++ x.service.queue) ∧
      (a ≠ .cancel → y.cancelled = x.cancelled) := by
  cases hs
  case cancel => exact ⟨fun _ => rfl, fun h => absurd rfl h⟩
  all_goals exact ⟨fun h => Action.noConfusion h, fun _ => rfl⟩

/-- Both shutdown calls return with an empty queue and without a worker. -/
theorem Step.returned (hs : Step x a y) (ha : a = .stopReturn ∨ a = .cancelReturn) :
    y.service.queue = [] ∧ y.service.worker = none := by
  rcases ha with rfl | rfl
  · cases hs with
    | stopReturn hc hw => exact ⟨rfl, hw⟩
  · cases hs with
    | cancelReturn hc hw => exact ⟨rfl, hw⟩

/-- In every interleaving, the governor receives a subsequence of the accepted requests in the order
of their acceptance, every accepted request is received, in hand, queued or cancelled exactly once,
and the counters say so; a cancellation takes exactly the queued requests; and when `stop` or
`cancel` returns, nothing is queued or in flight and every accepted request is processed or
cancelled. -/
theorem accepted_work_kept (config : ServiceConfig) (x : System) (h : Reaches config x) :
    x.received.Sublist x.accepted ∧
    x.service.governor =
      (Governor.make config.governor).run (x.calls.map GovernorCall.command) ∧
    (x.received ++ (x.service.inHand ++ x.service.queue) ++ x.cancelled).Perm x.accepted ∧
    x.service.counters.submitted =
      x.service.counters.processed + x.service.counters.cancelled +
        UInt64.ofNat x.service.queue.length +
        UInt64.ofNat (if x.service.holdsRequest then 1 else 0) ∧
    x.service.counters.cancelled = UInt64.ofNat x.cancelled.length ∧
    ∀ (a : Action) (y : System), Step x a y →
      (a = .cancel → y.cancelled = x.cancelled ++ x.service.queue) ∧
      (a ≠ .cancel → y.cancelled = x.cancelled) ∧
      (a = .stopReturn ∨ a = .cancelReturn →
        y.service.queue = [] ∧ y.service.holdsRequest = false ∧
          y.service.counters.submitted =
            y.service.counters.processed + y.service.counters.cancelled) := by
  obtain ⟨hp, hx⟩ := h.sound
  refine ⟨hx.work.delivered_sublist, hx.governor, hx.work.complete, hx.balance, hx.cancelled, ?_⟩
  intro a y hs
  refine ⟨hs.cancelled.1, hs.cancelled.2, fun ha => ?_⟩
  obtain ⟨hq, hw⟩ := hs.returned ha
  have hheld := GovernorService.holdsRequest_of_none hw
  refine ⟨hq, hheld, ?_⟩
  have hbalance := (hx.step hp hs).balance
  rw [hq, hheld] at hbalance
  simpa using hbalance

/-- A run in which one request is being handled while another one is queued and then cancelled. -/
theorem accepted_work_kept_cancelled :
    ∃ x : System, Reaches {} x ∧ x.accepted = [.ofTick 1, .ofTick 2] ∧
      x.cancelled = [.ofTick 2] ∧ x.received.Sublist x.accepted ∧
      x.service.counters.submitted =
        x.service.counters.processed + x.service.counters.cancelled +
          UInt64.ofNat x.service.queue.length +
          UInt64.ofNat (if x.service.holdsRequest then 1 else 0) := by
  have hstart : Reaches {} _ := Relation.ReflTransGen.refl.tail ⟨_, Step.start none rfl rfl⟩
  have hlaunch := hstart.step (Step.launch rfl)
  have henter := hlaunch.step (Step.enter rfl)
  have hfirst := henter.step (Step.submit (r := .ofTick 1) rfl)
  have htake := hfirst.step (Step.take rfl rfl)
  have hsecond := htake.step (Step.submit (r := .ofTick 2) rfl)
  have hhandle := hsecond.step (Step.handle rfl)
  have hcancel := hhandle.step (Step.cancel rfl)
  obtain ⟨hsub, -, -, hbalance, -⟩ := accepted_work_kept {} _ hcancel
  exact ⟨_, hcancel, rfl, rfl, hsub, hbalance⟩

end System

end EFG
