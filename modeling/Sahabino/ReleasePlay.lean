import Sahabino.CrawlerDrain
import Sahabino.ReleaseContainers

/-!
# The release play

The block of `deploy.yml` that applies and verifies a release, and its
rescue: the tasks of `release.yml` and `verify.yml` in their order, with
the tools that they run. A task fails the play unless it says otherwise;
a tool does so by raising.
-/

namespace Sahabino

namespace Deploy

open Py (JsonVal)
open Conc (Prog)
open ReleaseBackup (CompletedProcess)

/-- The variables of the play. `rounds` is no variable: it bounds how often a tool may poll. -/
structure PlayVars where
  project : String
  revision : String
  /-- what the checkout resolved the revision to -/
  resolved : String
  compose : List String
  groupCommand : List String
  allowInterruption : Bool
  drainInteractive : Bool
  drainTimeout : ℚ
  drainPoll : ℚ
  retries : Nat
  delay : ℚ
  /-- a credential of the Grafana reader is enrolled and valid -/
  grafana : Bool
  rounds : Nat

/-! ## Tasks -/

/-- A task that must succeed. -/
def taskOk (t : PlayTask) : Tool CompletedProcess := do
  let result ← task t
  if result.returncode ≠ 0 then failWith "non-zero return code" else pure result

/-- A task with `retries` and `until`. -/
def retried (t : PlayTask) (ok : CompletedProcess → Bool) (delay : ℚ) : Nat → Tool Unit
  | 0 => do
      let result ← task t
      if result.returncode = 0 && ok result then pure () else failWith "retries exhausted"
  | n + 1 => do
      let result ← task t
      if result.returncode = 0 && ok result then pure ()
      else
        sleep delay
        retried t ok delay n

/-- The images of the loop whose inspection failed. -/
def missingImages : List String → Tool (List String)
  | [] => pure []
  | image :: rest => do
      let result ← task (.inspectBase image)
      let others ← missingImages rest
      pure (if result.returncode ≠ 0 then image :: others else others)

/-- The exit code of `crawler_drain.py`. -/
def exitCode (p : Tool ℤ) : Tool ℤ := do
  match ← p.outcome with
  | .ok code => pure code
  | .error (.crawlState _) => pure 2
  | .error .stillPolling => .raise .stillPolling
  | .error _ => pure 1

def drainExit (v : PlayVars) : Tool ℤ := do
  match ← waitForDrain v.compose v.drainTimeout v.drainPoll v.rounds with
  | some code => pure code
  | none => .raise .stillPolling

/-! ## Up to the maintenance window -/

/-- The images of the release. -/
def prepareImages : Tool Unit := do
  let _ ← taskOk .preflight
  let missing ← missingImages ["python:3.12-slim", "python:3.12-slim-bookworm",
    "ghcr.io/astral-sh/uv:0.12.1"]
  forEach (fun image => retried (.pullBase image) (fun _ => true) 15 3) missing
  let _ ← taskOk .build
  forEach (fun service => do let _ ← taskOk (.tagImage service); pure ()) APPLICATION
  let _ ← taskOk .preflight
  let _ ← taskOk .pullInfrastructure
  pure ()

section

variable (lib : Stdlib) (loads : String → Except Py.Exc JsonVal) (quote : String → String)
  (isLetter : Char → Bool) (v : PlayVars)

/-- `release_containers.py` -/
def containerTool (mode : Mode) : Tool Unit := main lib loads quote v.project mode v.compose

def prepareStorage : Tool Unit := do
  containerTool lib loads quote v (.ensure "seaweedfs")
  retried .seaweedReady (fun _ => true) v.delay v.retries
  let _ ← taskOk .seaweedRuntime
  let _ ← taskOk .initBucket
  pure ()

/-- Whether the operator types that active work is to be interrupted, if it comes to that. -/
def askInterruption (code : ℤ) : Tool Bool := do
  if code = 3 ∧ v.drainInteractive = true ∧ v.allowInterruption = false then
    let choice ← task .askInterruption
    pure (choice.stdout = "2")
  else pure false

/-- Wait for the crawler, and see whether it may be stopped. -/
def drainCrawler : Tool Unit := do
  let code ← exitCode (drainExit v)
  if code ∉ [0, 3, NO_CRAWLER] then failWith "Crawler-state verification failed"
  else
    let chosen ← askInterruption v code
    let authorized := v.allowInterruption || chosen
    if code = 3 ∧ authorized = false then
      failWith "Active crawler work remained after the drain timeout; deployment is safely aborted."
    else if code ≠ NO_CRAWLER then
      if (← exitCode (finalCheck v.compose authorized)) ≠ 0 then failWith "non-zero return code"
      else pure ()
    else pure ()

def beforeWindow : Tool Unit := do
  prepareImages
  prepareStorage lib loads quote v
  drainCrawler v

/-! ## The maintenance window -/

/-- `text.startswith("CREATED:")`, and the rest. -/
def createdPath (text : String) : Option String :=
  if text.toList.take 8 = "CREATED:".toList then some (String.ofList (text.toList.drop 8)) else none

def checkDump (path : String) : Tool Unit := do
  if ← isAbsentOrEmpty (.of path) then
    failWith "The PostgreSQL backup file was not created correctly."
  else
    let _ ← taskOk (.pgRestoreList path)
    pure ()

/-- The role `sahabino_backup`, and that it created something. -/
def postgresBackup : Tool String := do
  let created ← taskOk .postgresDump
  match createdPath created.stdout with
  | none => failWith "The consistent pre-migration PostgreSQL dump was not created."
  | some path => do
      checkDump path
      pure path

/-- The manifest of the last line that says where a verified snapshot is. -/
def manifestPath (stdout : String) : Option HostPath :=
  let found := (Py.textLines stdout).filterMap fun line =>
    if line.toList.take 16 = "BACKUP_VERIFIED:".toList then
      some (String.ofList (line.toList.drop 16))
    else none
  found.getLast?.map fun bundle => .of (bundle ++ "/manifest.json")

/-- Both backups. -/
def snapshotAll : Tool String := do
  let dump ← postgresBackup
  let snapshot ← taskOk (.snapshot dump)
  if !contains "BACKUP_VERIFIED:" snapshot.stdout then
    failWith "Persistent-data snapshot did not complete; refusing migration."
  else pure snapshot.stdout

def cleanContainers (snapshot : String) : Tool Unit := do
  containerTool lib loads quote v .removeStale
  match manifestPath snapshot with
  | none => failWith "No first item, sequence was empty."
  | some path => containerTool lib loads quote v (.removeStalePersisted (some path))

def reconcile : Tool Unit := do
  let _ ← taskOk .reconcileSeaweed
  retried .seaweedHealth (fun result => ReleaseBackup.stripped result.stdout = "healthy") 3 30
  retried .kafkaReady (fun _ => true) 3 30

/-- `regex_replace('\s+\(head\)$', '')` of a line. -/
def stripHead (line : List Char) : List Char :=
  let back := line.reverse
  if back.take 6 = "(head)".toList.reverse ∧ (back.drop 6).head?.any Py.isSpace then
    ((back.drop 6).dropWhile Py.isSpace).reverse
  else line

/-- The database is at the head of the code. -/
def revisionsAgree (heads database : CompletedProcess) : Bool :=
  match (Py.textLines heads.stdout).filter (· ≠ "") with
  | [head] => ReleaseBackup.stripped database.stdout ≠ ""
      && (ReleaseBackup.stripped database.stdout).toList = stripHead head.toList
  | _ => false

def checkHead : Tool Unit := do
  let heads ← taskOk .alembicHeads
  let database ← taskOk .databaseRevision
  if !revisionsAgree heads database then
    failWith "The database Alembic revision does not match the checked-out code head."
  else pure ()

def migrate : Tool Unit := do
  let _ ← taskOk .alembicUpgrade
  checkHead

/-- `grafana_postgres.yml`: its own rescue turns the data source off. -/
def configureGrafana : Tool Unit := do
  if v.grafana then
    match ← (taskOk .grafanaReader).outcome with
    | .ok _ => pure ()
    | .error _ => do
        let _ ← taskOk .disableGrafana
        pure ()
  else pure ()

def startServices : Tool Unit := do
  let _ ← taskOk .startApi
  let _ ← taskOk .startWorkers
  let _ ← taskOk .startCrawler
  let _ ← taskOk .startObservability
  let _ ← taskOk .waitAll
  pure ()

/-- `kafka_group_health.py` -/
def groupHealth : Tool Unit := do
  match ← waitForHealthyGroup isLetter v.groupCommand 180 5 v.rounds with
  | some true => pure ()
  | some false => failWith "non-zero return code"
  | none => .raise .stillPolling

/-- `verify.yml` -/
def verifyRelease : Tool Unit := do
  let _ ← taskOk .verifyRuntime
  groupHealth isLetter v
  containerTool lib loads quote v (.verify v.revision)
  if v.resolved ≠ v.revision then
    failWith "Checkout/desired revision mismatch; do not mark this deployment successful."
  else pure ()

def inWindow : Tool Unit := do
  containerTool lib loads quote v .stopApp
  forEach (fun service => containerTool lib loads quote v (.ensure service)) ["postgres", "kafka"]
  retried .postgresReady (fun _ => true) v.delay v.retries
  retried .kafkaReady (fun _ => true) v.delay v.retries
  let snapshot ← snapshotAll
  cleanContainers lib loads quote v snapshot
  reconcile
  migrate
  configureGrafana v
  let _ ← taskOk .provisionTopics
  startServices
  verifyRelease lib loads quote isLetter v

/-! ## The block and its rescue -/

/-- Nothing can go wrong with a fact that is set. -/
def markWriterStop {α : Type} (next : Tool α) : Tool α := .call .markWriterStop fun _ => next

def abort : Tool Unit := failWith "Release failed."

/-- The rescue asks for the fact that the mark sets: a failure before it only aborts. -/
def deploy : Tool Unit := do
  match ← (beforeWindow lib loads quote v).outcome with
  | .error _ => abort
  | .ok () =>
      markWriterStop do
        match ← (inWindow lib loads quote isLetter v).outcome with
        | .ok () => pure ()
        | .error _ => do
            let _ ← (containerTool lib loads quote v .stopApp).outcome
            abort

end

end Deploy

end Sahabino
