import Sahabino.PlayStoreClient

/-!
# The crawl

`ApplicationCrawlCommand`, which runs the two tasks of one application
over a client of its own, and `CrawlerService.crawl_once`, which creates a
run with its tasks, hands one command per application to a thread pool,
waits for all of them and finishes the run.

The hooks of an operation are lifecycle transactions: the task's state
machine is driven by the attempts of the retry policy and by the fallback,
and the failure handlers around them. A transaction does nothing but what
the repository's method says; that the database itself can fail is left
out.

A worker thread takes the next item of the queue; a thread of the pool is
any number of such workers, one after the other.
-/

namespace Sahabino

open Conc

/-- `str(ExceptionGroup(message, exceptions))`. -/
def exceptionGroup (message : String) (exceptions : Nat) : PyError :=
  .other "ExceptionGroup" s!"{message} ({exceptions} sub-exceptions)"

def PyError.isValueError : PyError → Bool
  | .crawler _ => false
  | .other name _ => name = "ValueError"

/-! ## One application -/

namespace ApplicationCrawlCommand

/-- `_error_code`. -/
def errorCode : PyError → String
  | .crawler error => error.cls.code
  | .other _ _ => ErrorClass.crawlerError.code

/-- `_hooks`. -/
def hooks (task : Nat) : OperationHooks where
  beforeAttempt attempt := onLifecycle (.beginAttempt task attempt)
  beforeRetry _ := onLifecycle (.markRetrying task)

def markSucceeded (task : Nat) : CrawlerProg Unit := onLifecycle (.markTaskSucceeded task)

def markFailed (task : Nat) (error : PyError) : CrawlerProg Unit :=
  onLifecycle (.markTaskFailed task (errorCode error))

def markFailedOr (message : String) (task : Nat) (error : PyError) : CrawlerProg Unit :=
  (markFailed task error).tryCatch fun _ => Prog.raise (exceptionGroup message 2)

def markExpectedFailure : Nat → PyError → CrawlerProg Unit :=
  markFailedOr "crawler failure and task finalization failed"

def markUnexpectedFailure : Nat → PyError → CrawlerProg Unit :=
  markFailedOr "application failure and task finalization failed"

/-- One task: the operation with its hooks, and the publisher. -/
def runTask (cfg : CrawlerConfig) (client task : Nat) : CrawlerProg Unit := do
  match ← (fetchAndPublish cfg client task).outcome with
  | .ok () => markSucceeded task
  | .error (.crawler error) => markExpectedFailure task (.crawler error)
  | .error (.other name message) => do
      markUnexpectedFailure task (.other name message)
      Prog.raise (.other name message)
where
  fetchAndPublish (cfg : CrawlerConfig) (client task : Nat) : CrawlerProg Unit := do
    ApplicationPlayStoreClient.execute cfg client (hooks task)
    outside (.publish task)

/-- `_run_details`. -/
def runDetails (cfg : CrawlerConfig) (client task : Nat) : CrawlerProg Unit :=
  runTask cfg client task

/-- `_run_reviews`. -/
def runReviews (cfg : CrawlerConfig) (client task : Nat) : CrawlerProg Unit :=
  runTask cfg client task

/-- `_fail_open_tasks` for one task: a task that is closed already is passed over. -/
def failOpenTask (task : Nat) (error : PyError) : CrawlerProg (List PyError) := do
  match ← (markFailed task error).outcome with
  | .ok () => return []
  | .error finalizationError =>
      return if finalizationError.isValueError then [] else [finalizationError]

/-- `_fail_open_tasks`. -/
def failOpenTasks (item : WorkItem) (error : PyError) : CrawlerProg (List PyError) := do
  let first ← failOpenTask item.details error
  let second ← failOpenTask item.reviews error
  return first ++ second

open ApplicationPlayStoreClient in
/-- The body of `execute`: both tasks over one client. -/
def runTasks (cfg : CrawlerConfig) (item : WorkItem) : CrawlerProg Unit := do
  let client ← openApplication item.application.applicationId.text
  (do
    runDetails cfg client item.details
    runReviews cfg client item.reviews).ensure (close client)

def execute (cfg : CrawlerConfig) (item : WorkItem) : CrawlerProg Unit := do
  match ← (runTasks cfg item).outcome with
  | .ok () => return ()
  | .error (.crawler error) => do
      let finalizationErrors ← failOpenTasks item (.crawler error)
      if finalizationErrors ≠ [] then
        Prog.raise (exceptionGroup "crawler failure and task finalization failure"
          (finalizationErrors.length + 1))
      else return ()
  | .error (.other name message) => do
      let finalizationErrors ← failOpenTasks item (.other name message)
      if finalizationErrors ≠ [] then
        Prog.raise (exceptionGroup "application command and task finalization failed"
          (finalizationErrors.length + 1))
      else Prog.raise (.other name message)

end ApplicationCrawlCommand

/-! ## One run -/

/-- `task_ids[key]`: the last insertion wins. -/
def TaskIds.get (ids : TaskIds) (key : Uuid × TaskType) : Option Nat :=
  ((ids.filter fun entry => entry.1 = key).getLast?).map (·.2)

namespace CrawlerService

def keyError : PyError := .other "KeyError" "task_ids"

/-- The loop that submits one command per application. -/
def submitAll (run : Nat) (taskIds : TaskIds) : List ApplicationRef → CrawlerProg (List Nat)
  | [] => return []
  | application :: applications =>
      match taskIds.get (application.applicationId, .appDetails),
        taskIds.get (application.applicationId, .reviews) with
      | some details, some reviews => do
          let future ← submit ⟨run, application, details, reviews⟩
          let futures ← submitAll run taskIds applications
          return future :: futures
      | _, _ => Prog.raise keyError
where
  submit (item : WorkItem) : CrawlerProg Nat := onExecutor (.submit item)

/-- `for future in futures: future.result()`. -/
def awaitAll : List Nat → CrawlerProg Unit
  | [] => return ()
  | future :: futures => do
      onExecutor (.result future)
      awaitAll futures

def createRun : CrawlerProg Nat := onLifecycle .createRun

def createTasks (run : Nat) (applications : List ApplicationRef) : CrawlerProg TaskIds :=
  onLifecycle (.createTasks run applications)

def finishRun (run : Nat) (forcedStatus : Option CrawlRunStatus) : CrawlerProg Unit :=
  onLifecycle (.finishRun run forcedStatus)

/-- `_finish_failed_preserving`. -/
def finishFailedPreserving (run : Nat) : CrawlerProg Unit :=
  (finishRun run (some .failed)).tryCatch fun _ =>
    Prog.raise (exceptionGroup "crawl orchestration and run finalization failed" 2)

/-- The executor's block: on the way out of it, all its commands are waited for. -/
def runAll (run : Nat) (taskIds : TaskIds) (applications : List ApplicationRef) :
    CrawlerProg Unit :=
  Prog.ensure (do
    let futures ← submitAll run taskIds applications
    awaitAll futures) (onExecutor (.shutdown run))

def crawl (run : Nat) (applications : List ApplicationRef) : CrawlerProg Unit := do
  let taskIds ← createTasks run applications
  runAll run taskIds applications
  finishRun run none

def listActiveApplications : CrawlerProg (List ApplicationRef) := outside .listActiveApplications

def crawlOnce : CrawlerProg Nat := do
  let run ← createRun
  match ← listActiveApplications.outcome with
  | .error _ => do
      finishFailedPreserving run
      return run
  | .ok applications => do
      match ← (crawl run applications).outcome with
      | .ok () => return run
      | .error error => do
          finishFailedPreserving run
          Prog.raise error

/-- A worker of the thread pool. -/
def work (cfg : CrawlerConfig) : CrawlerProg Unit := do
  let (future, item) ← take
  let result ← (ApplicationCrawlCommand.execute cfg item).outcome
  onExecutor (.setResult future result)
where
  take : CrawlerProg (Nat × WorkItem) := onExecutor .take

end CrawlerService

/-! ## The process -/

inductive CrawlerThread where
  | crawlOnce
  | worker
deriving DecidableEq

/-- Any number of crawls and workers. A crawl answers its run. -/
def crawler (cfg : CrawlerConfig) : System CrawlerState CrawlerCmd CrawlerEnv Empty CrawlerThread
    PyError (Option Nat) CrawlerCmd.Answer where
  exec := crawlerExec cfg
  prog
    | .crawlOnce => do
        let run ← CrawlerService.crawlOnce
        return some run
    | .worker => do
        CrawlerService.work cfg
        return none
  crash _ s := s
  ext x := nomatch x

abbrev CrawlerWorld :=
  World CrawlerState CrawlerCmd CrawlerThread PyError (Option Nat) CrawlerCmd.Answer

end Sahabino
