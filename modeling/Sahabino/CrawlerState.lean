import Sahabino.Ingestion
import Sahabino.Lib.Pool
import Sahabino.ProxyPool

/-!
# The crawler's state and its commands

What the crawler's threads share, and the atomic steps they take on it:
the attributes of a client object, the methods of the circuit breaker and
of the proxy provider (each holds its lock from end to end), the
lifecycle transactions, the executor's queue and futures, and the calls
that leave the program - adapters, hooks, the classifier, the clock, the
publisher and the registry - which may raise anything.

Health of the proxies and rate-limit counters can change between any two
steps of a client, so every step on the provider starts from whatever
the environment says the others left.

The last fields of a component say what happened and are stored nowhere.
-/

namespace Sahabino

open Conc

/-! ## Components -/

/-- `ApplicationPlayStoreClient`: its own attributes. Adapters are numbered. -/
structure ClientState where
  contextId : ContextId
  lease : LeaseRef
  primary : Option Nat
  refreshEgressBeforeOperation : Bool

/-- A primary operation: the lease its adapter was created from, the lease of the
client at that time, and whether that was released. -/
structure PrimaryUse where
  adapterLease : Option LeaseRef
  clientLease : LeaseRef
  released : Bool
deriving DecidableEq

/-- Client objects, the adapters by the lease they were created from, and
`last_primary_attempt` of each thread's call. -/
structure ClientHeap where
  clients : List ClientState
  adapters : List LeaseRef
  lastPrimaryAttempt : Nat → Nat
  uses : List PrimaryUse

/-- The breaker. `admitted` is the token a thread got, `probe` the one that set
the flag, and `recorded` the threads that handed their token back. -/
structure Breaker where
  circuit : Circuit Seconds
  admitted : Nat → Option (Option Nat)
  probe : Option Nat
  recorded : List Nat

inductive CrawlTaskStatus where
  | pending
  | running
  | retrying
  | succeeded
  | failed
deriving DecidableEq, Repr

inductive CrawlRunStatus where
  | running
  | succeeded
  | partiallyFailed
  | failed
deriving DecidableEq, Repr

/-- `CrawlTaskStatus.value`. -/
def CrawlTaskStatus.value : CrawlTaskStatus → String
  | pending => "pending"
  | running => "running"
  | retrying => "retrying"
  | succeeded => "succeeded"
  | failed => "failed"

/-- A run, with the thread of this process that created it and whether its tasks
were. -/
structure CrawlRunRow where
  status : CrawlRunStatus
  startedBy : Option Nat
  tasksCreated : Bool
deriving DecidableEq

structure CrawlTaskRow where
  crawlRunId : Nat
  applicationId : Uuid
  taskType : TaskType
  status : CrawlTaskStatus
  attemptCount : Nat
  errorCode : Option String
deriving DecidableEq

/-- The tables of the lifecycle, rows by number; `attempts` lists the numbers the
attempt hook of a task was called with, `published` the tasks whose
publisher call returned, and `illegal` the tasks a transition was refused for. -/
structure Lifecycle where
  runs : List CrawlRunRow
  tasks : List CrawlTaskRow
  attempts : Nat → List Nat
  published : List Nat
  illegal : List Nat

structure ApplicationRef where
  applicationId : Uuid
  packageName : String
deriving DecidableEq

/-- `executor.submit(command.execute, application, tasks_for_app)`. -/
structure WorkItem where
  run : Nat
  application : ApplicationRef
  details : Nat
  reviews : Nat
deriving DecidableEq

/-- The queue of submitted work, how far it was taken and by whom, and the
futures. -/
structure Executor where
  submitted : List WorkItem
  takenBy : List Nat
  futures : Nat → Option (Except PyError Unit)

structure CrawlerState where
  heap : ClientHeap
  breaker : Breaker
  provider : Provider
  lifecycle : Lifecycle
  executor : Executor

structure CrawlerConfig where
  circuit : CircuitConfig Seconds
  provider : ProviderKind
  rateLimitRotateAfter : Nat
  maxAttempts : Nat
  maxDelaySeconds : Seconds
  secondaryEnabled : Bool
  maxAttempts_pos : 1 ≤ maxAttempts

/-- What is chosen from outside for one step. -/
structure CrawlerEnv where
  now : Seconds
  random : Seconds
  raises : Option PyError
  classified : Except PyError CrawlerError
  health : Option EgressHealth
  applications : List ApplicationRef

/-- A call that leaves the program. -/
def CrawlerEnv.outcome {α : Type} (e : CrawlerEnv) (a : α) : Except PyError α :=
  match e.raises with
  | some x => .error x
  | none => .ok a

/-- `time.sleep`, which raises no exception of the crawler's own. -/
def CrawlerEnv.slept (e : CrawlerEnv) : Except PyError Unit :=
  match e.raises with
  | some (.other name message) => .error (.other name message)
  | _ => .ok ()

abbrev CrawlerStep (α : Type) := Except PyError α × CrawlerState

/-! ## The client object -/

inductive ClientCmd where
  | init (contextId : ContextId) (lease : LeaseRef)
  | attributes (client : Nat)
  | setPrimary (client : Nat) (adapter : Option Nat)
  | setLease (client : Nat) (lease : LeaseRef)
  | setRefresh (client : Nat) (refresh : Bool)
  | setLastPrimaryAttempt (attemptNumber : Nat)
  | lastPrimaryAttempt

def ClientCmd.Answer : ClientCmd → Type
  | init _ _ => Nat
  | attributes _ => ClientState
  | lastPrimaryAttempt => Nat
  | _ => Unit

def ClientHeap.modify (client : Nat) (f : ClientState → ClientState) (h : ClientHeap) :
    ClientHeap :=
  { h with clients := h.clients.modify client f }

def ClientCmd.exec (i : Nat) : (c : ClientCmd) → ClientHeap → Option (c.Answer × ClientHeap)
  | init contextId lease, h =>
      some (h.clients.length,
        { h with clients := h.clients ++ [⟨contextId, lease, none, false⟩] })
  | attributes client, h => h.clients[client]?.map fun c => (c, h)
  | setPrimary client adapter, h =>
      some ((), h.modify client fun c => { c with primary := adapter })
  | setLease client lease, h => some ((), h.modify client fun c => { c with lease := lease })
  | setRefresh client refresh, h =>
      some ((), h.modify client fun c => { c with refreshEgressBeforeOperation := refresh })
  | setLastPrimaryAttempt n, h =>
      some ((), { h with
        lastPrimaryAttempt := fun j => if j = i then n else h.lastPrimaryAttempt j })
  | lastPrimaryAttempt, h => some (h.lastPrimaryAttempt i, h)

/-! ## The breaker -/

inductive BreakerCmd where
  | beforeCall
  | recordSuccess (callToken : Option Nat)
  | recordFailure (error : PyError) (proxied : Bool) (callToken : Option Nat)

def BreakerCmd.Answer : BreakerCmd → Type
  | beforeCall => Option Nat
  | _ => Unit

/-- A call that passes a half-open breaker is the probe. -/
def Breaker.beforeCall (cfg : CircuitConfig Seconds) (now : Seconds) (i : Nat) (b : Breaker) :
    Except PyError (Option Nat) × Breaker :=
  match b.circuit.beforeCall cfg now with
  | (.error x, circuit) => (.error x, { b with circuit := circuit })
  | (.ok token, circuit) =>
      (.ok token, { b with
        circuit := circuit
        admitted := fun j => if j = i then some token else b.admitted j
        probe := if circuit.state = .halfOpen then some i else b.probe })

/-- The probe is given back when the flag is cleared, whoever does it. -/
def Breaker.record (circuit : Circuit Seconds) (i : Nat) (b : Breaker) : Breaker :=
  { b with
    circuit := circuit
    probe := if circuit.probeInFlight then b.probe else none
    recorded := b.recorded ++ [i] }

def BreakerCmd.exec (cfg : CircuitConfig Seconds) (now : Seconds) (i : Nat) :
    (c : BreakerCmd) → Breaker → Except PyError c.Answer × Breaker
  | beforeCall, b => b.beforeCall cfg now i
  | recordSuccess token, b => (.ok (), b.record (b.circuit.recordSuccess cfg token) i)
  | recordFailure error proxied token, b =>
      (.ok (), b.record (b.circuit.recordFailure cfg now error proxied token) i)

/-! ## The provider and the network policy -/

inductive EgressCmd where
  | acquire (contextId : ContextId)
  | rotate (lease : LeaseRef) (contextId : ContextId)
  | release (lease : LeaseRef)
  | isUsable (lease : LeaseRef)
  | handleFailure (error : PyError) (lease : LeaseRef) (contextId : ContextId)
      (allowRotation : Bool)
  | recordSuccess (lease : LeaseRef)

def EgressCmd.Answer : EgressCmd → Type
  | acquire _ => LeaseRef
  | rotate _ _ => LeaseRef
  | isUsable _ => Bool
  | handleFailure _ _ _ _ => LeaseRef
  | _ => Unit

def EgressCmd.exec (cfg : CrawlerConfig) (now : Seconds) :
    (c : EgressCmd) → Provider → Except PyError c.Answer × Provider
  | acquire contextId, p => p.acquire cfg.provider now contextId none
  | rotate lease contextId, p => p.rotate cfg.provider now lease contextId
  | release lease, p => (.ok (), p.release cfg.provider lease)
  | isUsable lease, p =>
      let (usable, p') := p.isUsable cfg.provider now lease
      (.ok usable, p')
  | handleFailure error lease contextId allowRotation, p =>
      NetworkPolicy.handleFailure cfg.provider now cfg.rateLimitRotateAfter error lease contextId
        allowRotation p
  | recordSuccess lease, p => (.ok (), NetworkPolicy.recordSuccess cfg.provider lease p)

theorem EgressCmd.raises {cfg : CrawlerConfig} {now : Seconds} {c : EgressCmd} {p : Provider}
    {x : PyError} (h : (c.exec cfg now p).1 = .error x) : x = proxyUnavailable := by
  cases c with
  | acquire contextId => exact Provider.acquire_raises (Prod.ext h rfl)
  | rotate lease contextId => exact Provider.acquire_raises (Prod.ext h rfl)
  | release lease => cases h
  | isUsable lease => cases h
  | handleFailure error lease contextId allowRotation =>
      rcases NetworkPolicy.handleFailure_cases (Prod.ext h rfl) with ⟨hok, -⟩ | ⟨p₁, -, hrotate⟩
      · cases hok
      · exact Provider.acquire_raises hrotate
  | recordSuccess lease => cases h

/-! ## Calls that leave the program -/

inductive OutsideCmd where
  | create (contextId : ContextId) (lease : LeaseRef)
  | close (client adapter : Nat)
  | primaryOperation (client adapter : Nat)
  | secondaryOperation
  | classify (error : PyError)
  | hook
  | delayFor (attemptNumber : Nat) (error : PyError)
  | sleep (seconds : Seconds)
  | publish (task : Nat)
  | listActiveApplications

def OutsideCmd.Answer : OutsideCmd → Type
  | create _ _ => Nat
  | classify _ => CrawlerError
  | delayFor _ _ => Seconds
  | listActiveApplications => List ApplicationRef
  | _ => Unit

/-- `RetryPolicy.delay_for`; from the 1025th attempt on the power of two is no
float any more. -/
def delayFor (maxDelaySeconds random : Seconds) (attemptNumber : Nat) (error : PyError) :
    Except PyError Seconds :=
  if 1024 ≤ attemptNumber - 1 then
    .error (.other "OverflowError" "int too large to convert to float")
  else
    let backoff := min (2 ^ (attemptNumber - 1) + random) maxDelaySeconds
    match error with
    | .crawler x =>
        match x.retryAfterSeconds with
        | some seconds =>
            if error.isInstance [.rateLimited, .upstreamFailure] then .ok (max backoff seconds)
            else .ok backoff
        | none => .ok backoff
    | .other _ _ => .ok backoff

/-- The log entry of a primary operation. -/
def CrawlerState.use (client adapter : Nat) (s : CrawlerState) : CrawlerState :=
  match s.heap.clients[client]? with
  | none => s
  | some c => { s with heap := { s.heap with uses := s.heap.uses ++
      [⟨s.heap.adapters[adapter]?, c.lease, s.provider.table.isReleased c.lease⟩] } }

/-- The classifier leaves the crawler's own exceptions alone. -/
def classify (e : CrawlerEnv) : PyError → Except PyError CrawlerError
  | .crawler error => .ok error
  | .other _ _ => e.classified

def OutsideCmd.exec (cfg : CrawlerConfig) (e : CrawlerEnv) :
    (c : OutsideCmd) → CrawlerState → CrawlerStep c.Answer
  | create _ lease, s =>
      match e.raises with
      | some x => (.error x, s)
      | none => (.ok s.heap.adapters.length,
          { s with heap := { s.heap with adapters := s.heap.adapters ++ [lease] } })
  | primaryOperation client adapter, s => (e.outcome (), s.use client adapter)
  | classify error, s => (Sahabino.classify e error, s)
  | delayFor attemptNumber error, s =>
      (Sahabino.delayFor cfg.maxDelaySeconds e.random attemptNumber error, s)
  | publish task, s =>
      match e.raises with
      | some x => (.error x, s)
      | none => (.ok (), { s with
          lifecycle := { s.lifecycle with published := s.lifecycle.published ++ [task] } })
  | listActiveApplications, s => (e.outcome e.applications, s)
  | close _ _, s => (e.outcome (), s)
  | secondaryOperation, s => (e.outcome (), s)
  | hook, s => (e.outcome (), s)
  | sleep _, s => (e.slept, s)

/-- What the outside world does not reach. -/
theorem OutsideCmd.exec_frame {cfg : CrawlerConfig} {e : CrawlerEnv} (c : OutsideCmd)
    (s : CrawlerState) : (c.exec cfg e s).2.breaker = s.breaker ∧
      (c.exec cfg e s).2.provider = s.provider ∧ (c.exec cfg e s).2.executor = s.executor := by
  cases c with
  | create contextId lease =>
      simp only [OutsideCmd.exec]
      split <;> exact ⟨rfl, rfl, rfl⟩
  | primaryOperation client adapter =>
      simp only [OutsideCmd.exec, CrawlerState.use]
      split <;> exact ⟨rfl, rfl, rfl⟩
  | publish task =>
      simp only [OutsideCmd.exec]
      split <;> exact ⟨rfl, rfl, rfl⟩
  | close client adapter => exact ⟨rfl, rfl, rfl⟩
  | secondaryOperation => exact ⟨rfl, rfl, rfl⟩
  | classify error => exact ⟨rfl, rfl, rfl⟩
  | hook => exact ⟨rfl, rfl, rfl⟩
  | delayFor attemptNumber error => exact ⟨rfl, rfl, rfl⟩
  | sleep seconds => exact ⟨rfl, rfl, rfl⟩
  | listActiveApplications => exact ⟨rfl, rfl, rfl⟩

/-! ## Lifecycle transactions -/

inductive LifecycleCmd where
  | createRun
  | createTasks (run : Nat) (applications : List ApplicationRef)
  | beginAttempt (task attempt : Nat)
  | markRetrying (task : Nat)
  | markTaskSucceeded (task : Nat)
  | markTaskFailed (task : Nat) (errorCode : String)
  | finishRun (run : Nat) (forcedStatus : Option CrawlRunStatus)

/-- The entries of `task_ids`, in the order of their insertion. -/
abbrev TaskIds := List ((Uuid × TaskType) × Nat)

def LifecycleCmd.Answer : LifecycleCmd → Type
  | createRun => Nat
  | createTasks _ _ => TaskIds
  | _ => Unit

namespace Lifecycle

/-- `CrawlTaskType`, in its order. -/
def taskTypes : List TaskType := [.appDetails, .reviews]

def newTasks (run : Nat) (applications : List ApplicationRef) : List CrawlTaskRow :=
  applications.flatMap fun a =>
    taskTypes.map fun type => ⟨run, a.applicationId, type, .pending, 0, none⟩

def createTasks (run : Nat) (applications : List ApplicationRef) (l : Lifecycle) :
    TaskIds × Lifecycle :=
  let rows := newTasks run applications
  ((rows.zipIdx l.tasks.length).map fun (row, id) => ((row.applicationId, row.taskType), id),
    { l with
      tasks := l.tasks ++ rows
      runs := l.runs.modify run fun row => { row with tasksCreated := true } })

/-- `_task` and a transition of the task's status: refused unless it starts from
one of the given statuses. -/
def transition (task : Nat) (verb : String) (sources : List CrawlTaskStatus)
    (f : CrawlTaskRow → CrawlTaskRow) (l : Lifecycle) : Except PyError Unit × Lifecycle :=
  match l.tasks[task]? with
  | none => (.error (.other "LookupError" s!"crawl task {task} was not found"), l)
  | some row =>
      if sources.contains row.status then (.ok (), { l with tasks := l.tasks.set task (f row) })
      else (.error (.other "ValueError" s!"cannot {verb} task in '{row.status.value}'"), l)

/-- A transition of the first three kinds that is refused is noted. -/
def noting (task : Nat) (r : Except PyError Unit × Lifecycle) : Except PyError Unit × Lifecycle :=
  match r with
  | (.ok (), l) => (.ok (), l)
  | (.error x, l) => (.error x, { l with illegal := l.illegal ++ [task] })

def beginAttempt (task attempt : Nat) (l : Lifecycle) : Except PyError Unit × Lifecycle :=
  noting task (transition task "begin an attempt for" [.pending, .retrying]
    (fun row => { row with
      status := .running, attemptCount := row.attemptCount + 1, errorCode := none })
    { l with attempts := fun k => if k = task then l.attempts k ++ [attempt] else l.attempts k })

def markRetrying (task : Nat) (l : Lifecycle) : Except PyError Unit × Lifecycle :=
  noting task (transition task "retry" [.running]
    (fun row => { row with status := .retrying }) l)

def markTaskSucceeded (task : Nat) (l : Lifecycle) : Except PyError Unit × Lifecycle :=
  noting task (transition task "succeed" [.running]
    (fun row => { row with status := .succeeded, errorCode := none }) l)

def markTaskFailed (task : Nat) (errorCode : String) (l : Lifecycle) :
    Except PyError Unit × Lifecycle :=
  transition task "fail" [.pending, .running, .retrying]
    (fun row => { row with status := .failed, errorCode := some errorCode }) l

def taskStatuses (run : Nat) (l : Lifecycle) : List CrawlTaskStatus :=
  (l.tasks.filter fun row => row.crawlRunId = run).map (·.status)

/-- The status of a run by those of its tasks. -/
def overall (statuses : List CrawlTaskStatus) : CrawlRunStatus :=
  if statuses = [] ∨ statuses.count .succeeded = statuses.length then .succeeded
  else if statuses.count .failed = statuses.length then .failed
  else .partiallyFailed

def finishRun (run : Nat) (forcedStatus : Option CrawlRunStatus) (l : Lifecycle) :
    Except PyError Unit × Lifecycle :=
  if run < l.runs.length then
    (.ok (), { l with
      runs := l.runs.modify run fun row =>
        { row with status := forcedStatus.getD (overall (l.taskStatuses run)) } })
  else (.error (.other "LookupError" s!"crawl run {run} was not found"), l)

end Lifecycle

def LifecycleCmd.exec (i : Nat) :
    (c : LifecycleCmd) → Lifecycle → Except PyError c.Answer × Lifecycle
  | createRun, l => (.ok l.runs.length, { l with runs := l.runs ++ [⟨.running, some i, false⟩] })
  | createTasks run applications, l =>
      let (ids, l') := l.createTasks run applications
      (.ok ids, l')
  | beginAttempt task attempt, l => l.beginAttempt task attempt
  | markRetrying task, l => l.markRetrying task
  | markTaskSucceeded task, l => l.markTaskSucceeded task
  | markTaskFailed task errorCode, l => l.markTaskFailed task errorCode
  | finishRun run forcedStatus, l => l.finishRun run forcedStatus

/-! ## The executor -/

inductive ExecutorCmd where
  | submit (item : WorkItem)
  | take
  | setResult (future : Nat) (result : Except PyError Unit)
  | result (future : Nat)
  | shutdown (run : Nat)

def ExecutorCmd.Answer : ExecutorCmd → Type
  | submit _ => Nat
  | take => Nat × WorkItem
  | _ => Unit

/-- `take`, `result` and `shutdown` wait: for work, for a future, and for all
futures of a run's executor. -/
def ExecutorCmd.exec (i : Nat) :
    (c : ExecutorCmd) → Executor → Option (Except PyError c.Answer × Executor)
  | submit item, x => some (.ok x.submitted.length, { x with submitted := x.submitted ++ [item] })
  | take, x =>
      x.submitted[x.takenBy.length]?.map fun item =>
        (.ok (x.takenBy.length, item), { x with takenBy := x.takenBy ++ [i] })
  | setResult future r, x =>
      some (.ok (), { x with futures := fun k => if k = future then some r else x.futures k })
  | result future, x => (x.futures future).map fun r => (r, x)
  | shutdown run, x =>
      if x.submitted.zipIdx.all fun (item, k) => item.run ≠ run || (x.futures k).isSome then
        some (.ok (), x)
      else none

/-! ## All commands -/

inductive CrawlerCmd where
  | client (c : ClientCmd)
  | breaker (c : BreakerCmd)
  | egress (c : EgressCmd)
  | outside (c : OutsideCmd)
  | lifecycle (c : LifecycleCmd)
  | executor (c : ExecutorCmd)

def CrawlerCmd.Answer : CrawlerCmd → Type
  | client c => c.Answer
  | breaker c => c.Answer
  | egress c => c.Answer
  | outside c => c.Answer
  | lifecycle c => c.Answer
  | executor c => c.Answer

/-- The provider as the others left it. -/
def CrawlerState.shared (e : CrawlerEnv) (s : CrawlerState) : Provider :=
  { s.provider with health := e.health.getD s.provider.health }

def crawlerExec (cfg : CrawlerConfig) :
    Exec CrawlerState CrawlerCmd CrawlerEnv PyError CrawlerCmd.Answer :=
  fun i e c s =>
    match c with
    | .client c => (c.exec i s.heap).map fun (a, heap) => (.ok a, { s with heap := heap })
    | .breaker c =>
        let (r, breaker) := c.exec cfg.circuit e.now i s.breaker
        some (r, { s with breaker := breaker })
    | .egress c =>
        let (r, provider) := c.exec cfg e.now (s.shared e)
        some (r, { s with provider := provider })
    | .outside c => some (c.exec cfg e s)
    | .lifecycle c =>
        let (r, lifecycle) := c.exec i s.lifecycle
        some (r, { s with lifecycle := lifecycle })
    | .executor c =>
        (c.exec i s.executor).map fun (r, executor) => (r, { s with executor := executor })

abbrev CrawlerProg := Prog CrawlerCmd CrawlerCmd.Answer PyError

/-! ## Issuing a command -/

abbrev onClient (c : ClientCmd) : CrawlerProg c.Answer := Prog.cmd (CrawlerCmd.client c)

abbrev onBreaker (c : BreakerCmd) : CrawlerProg c.Answer := Prog.cmd (CrawlerCmd.breaker c)

abbrev onEgress (c : EgressCmd) : CrawlerProg c.Answer := Prog.cmd (CrawlerCmd.egress c)

abbrev outside (c : OutsideCmd) : CrawlerProg c.Answer := Prog.cmd (CrawlerCmd.outside c)

abbrev onLifecycle (c : LifecycleCmd) : CrawlerProg c.Answer := Prog.cmd (CrawlerCmd.lifecycle c)

abbrev onExecutor (c : ExecutorCmd) : CrawlerProg c.Answer := Prog.cmd (CrawlerCmd.executor c)

end Sahabino
