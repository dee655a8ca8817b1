import Sahabino.Lib.Json
import Sahabino.Lib.PyLines
import Sahabino.Lib.Transcript
import Sahabino.ReleaseBackup

/-!
# The host of a release

The commands of the release tools: what they ask of Docker, of the disk
and of the clock, and the tasks of the release play. Nothing is said here
about what the host answers; `json.loads` is a parameter wherever a tool
reads what Docker printed.
-/

namespace Sahabino

namespace Deploy

open Py (JsonVal)
open Conc (Prog)
open ReleaseBackup (CompletedProcess)

/-- What the tools raise. -/
inductive ToolRaise where
  | runtimeError (message : String)
  | exc (e : Py.Exc)
  | osError (message : String)
  | timeoutExpired
  /-- `CrawlStateError` -/
  | crawlState (message : String)
  /-- not an exception: a loop that has not come to its end within the rounds it is given -/
  | stillPolling
deriving DecidableEq

/-! ## Docker -/

inductive DockerCommand where
  | psService (project service : String)
  | psVolume (volume : String)
  | inspect (ids : List String)
  | imageInspect (image : String)
  | imageId (tag : String)
  | volumeInspect (name : String)
  | stop (id : String)
  | rm (id : String)
  | start (id : String)
  | config (compose : List String)
  | pull (compose : List String) (service : String)
  | up (compose : List String) (recreate : Bool) (service : String)
  | psCrawler (compose : List String)
  | crawlCount (compose : List String)
  | groupState (command : List String)
deriving DecidableEq

def SCHEMA_QUERY : String :=
  "\nSELECT CASE\n  WHEN to_regclass('public.crawl_runs') IS NOT NULL THEN 'READY'\n" ++
  "  WHEN EXISTS (\n    SELECT 1 FROM pg_catalog.pg_tables WHERE schemaname = 'public'\n" ++
  "  ) THEN 'INCOMPLETE'\n  ELSE 'FRESH'\nEND;\n"

def QUERY : String :=
  "SELECT COUNT(*) FROM public.crawl_runs WHERE status IN ('pending', 'running');"

def QUERY_COMMAND : String :=
  "state=\"$(psql --no-psqlrc --set ON_ERROR_STOP=1 --tuples-only --no-align " ++
  "--username \"$POSTGRES_USER\" --dbname \"$POSTGRES_DB\" --command \"$1\")\"; " ++
  "case \"$state\" in FRESH) printf \"0\\n\" ;; " ++
  "READY) exec psql --no-psqlrc --set ON_ERROR_STOP=1 --tuples-only --no-align " ++
  "--username \"$POSTGRES_USER\" --dbname \"$POSTGRES_DB\" --command \"$2\" ;; " ++
  "*) printf \"Incomplete or unrecognized crawler schema: %s\\n\" \"$state\" >&2; exit 3 ;; esac"

namespace DockerCommand

def argv : DockerCommand → List String
  | psService project service => ["docker", "ps", "-aq",
      "--filter", "label=com.docker.compose.project=" ++ project,
      "--filter", "label=com.docker.compose.service=" ++ service]
  | psVolume volume => ["docker", "ps", "-aq", "--filter", "volume=" ++ volume]
  | inspect ids => ["docker", "inspect", "--type", "container"] ++ ids
  | imageInspect image => ["docker", "image", "inspect", image]
  | imageId tag => ["docker", "image", "inspect", "--format", "\x7b\x7b.Id\x7d\x7d", tag]
  | volumeInspect name => ["docker", "volume", "inspect", name]
  | stop id => ["docker", "stop", "--time", "60", id]
  | rm id => ["docker", "rm", id]
  | start id => ["docker", "start", id]
  | config compose => compose ++ ["config", "--format", "json"]
  | pull compose service => compose ++ ["pull", "--policy", "missing", service]
  | up compose recreate service => compose ++ ["up", "-d", "--no-deps", "--no-build", "--pull", "never"]
      ++ (if recreate then [] else ["--no-recreate"]) ++ [service]
  | psCrawler compose => compose ++ ["ps", "--quiet", "crawler"]
  | crawlCount compose => compose ++ ["exec", "-T", "postgres", "sh", "-eu", "-c", QUERY_COMMAND, "sh",
      SCHEMA_QUERY, QUERY]
  | groupState command => command

end DockerCommand

/-! ## The disk -/

inductive HostPath where
  | of (text : String)
  | join (p : HostPath) (name : String)
  | parent (p : HostPath)
deriving DecidableEq

inductive FileChange where
  | makeDir (p : HostPath)
  | chmod (p : HostPath) (mode : Nat)
  | writeTar (source target : HostPath)
  | replace (p q : HostPath)
  | writeText (p : HostPath) (text : String)
  | unlink (p : HostPath)
  | rmtree (p : HostPath)
deriving DecidableEq

/-! ## The play -/

/-- The tasks of the release that are not one of the tools in this development. -/
inductive PlayTask where
  /-- `release_backup.py --preflight-only` -/
  | preflight
  | inspectBase (image : String)
  | pullBase (image : String)
  | build
  | tagImage (service : String)
  | pullInfrastructure
  | seaweedReady
  | seaweedRuntime
  | initBucket
  /-- what the operator types when asked whether to interrupt -/
  | askInterruption
  | postgresReady
  | kafkaReady
  /-- the role `sahabino_backup` -/
  | postgresDump
  | pgRestoreList (path : String)
  /-- `release_backup.py` -/
  | snapshot (pgDump : String)
  | reconcileSeaweed
  | seaweedHealth
  | alembicUpgrade
  | alembicHeads
  | databaseRevision
  | grafanaReader
  | disableGrafana
  | provisionTopics
  | startApi
  | startWorkers
  | startCrawler
  | startObservability
  | waitAll
  /-- the checks of `verify.yml` up to the consumer group, which only read -/
  | verifyRuntime
deriving DecidableEq

/-! ## Commands and answers -/

inductive HostCommand where
  | docker (c : DockerCommand)
  | isSymlink (p : HostPath)
  | isDir (p : HostPath)
  | isFile (p : HostPath)
  | size (p : HostPath)
  | owner (p : HostPath)
  | readText (p : HostPath)
  | sha256 (p : HostPath)
  | geteuid
  | treeSize (p : HostPath)
  | diskFree (p : HostPath)
  | tarNames (p : HostPath)
  /-- the time and the process id, as they are put into the name of a bundle -/
  | stamp
  | change (c : FileChange)
  | monotonic
  | sleep (seconds : ℚ)
  | markWriterStop
  | task (t : PlayTask)
deriving DecidableEq

def HostReply : HostCommand → Type
  | .docker _ => CompletedProcess
  | .isSymlink _ => Bool
  | .isDir _ => Bool
  | .isFile _ => Bool
  | .size _ => Nat
  | .owner _ => Nat
  | .readText _ => String
  | .sha256 _ => String
  | .geteuid => Nat
  | .treeSize _ => Nat
  | .diskFree _ => Nat
  | .tarNames _ => List String
  | .stamp => String
  | .change _ => Unit
  | .monotonic => ℚ
  | .sleep _ => Unit
  | .markWriterStop => Unit
  | .task _ => CompletedProcess

abbrev Tool (α : Type) := Prog HostCommand HostReply ToolRaise α

abbrev HostState (W : Type) := Conc.Recorded HostCommand HostReply ToolRaise W

def lift {α : Type} : Except ToolRaise α → Tool α
  | .ok a => .ret a
  | .error e => .raise e

def py {α : Type} (x : Except Py.Exc α) : Tool α := lift (x.mapError .exc)

def failWith {α : Type} (message : String) : Tool α := .raise (.runtimeError message)

/-- `runner(argv, check=False)` -/
def runner (c : DockerCommand) : Tool CompletedProcess := Prog.cmd (HostCommand.docker c)

def isSymlink (p : HostPath) : Tool Bool := Prog.cmd (HostCommand.isSymlink p)

def isDir (p : HostPath) : Tool Bool := Prog.cmd (HostCommand.isDir p)

def isFile (p : HostPath) : Tool Bool := Prog.cmd (HostCommand.isFile p)

def sizeOf (p : HostPath) : Tool Nat := Prog.cmd (HostCommand.size p)

def ownerOf (p : HostPath) : Tool Nat := Prog.cmd (HostCommand.owner p)

def readText (p : HostPath) : Tool String := Prog.cmd (HostCommand.readText p)

def sha256Of (p : HostPath) : Tool String := Prog.cmd (HostCommand.sha256 p)

def geteuid : Tool Nat := Prog.cmd HostCommand.geteuid

def treeSize (p : HostPath) : Tool Nat := Prog.cmd (HostCommand.treeSize p)

def diskFree (p : HostPath) : Tool Nat := Prog.cmd (HostCommand.diskFree p)

def tarNames (p : HostPath) : Tool (List String) := Prog.cmd (HostCommand.tarNames p)

def stamp : Tool String := Prog.cmd HostCommand.stamp

def change (c : FileChange) : Tool Unit := Prog.cmd (HostCommand.change c)

def monotonic : Tool ℚ := Prog.cmd HostCommand.monotonic

def sleep (seconds : ℚ) : Tool Unit := Prog.cmd (HostCommand.sleep seconds)

def task (t : PlayTask) : Tool CompletedProcess := Prog.cmd (HostCommand.task t)

/-- `for x in items: body(x)` -/
def forEach {α : Type} (body : α → Tool Unit) : List α → Tool Unit
  | [] => pure ()
  | x :: rest => do
      body x
      forEach body rest

/-- `any(check(x) for x in items)` -/
def anyTool {α : Type} (check : α → Tool Bool) : List α → Tool Bool
  | [] => pure false
  | x :: rest => do if ← check x then pure true else anyTool check rest

/-- A text where an argument of a command is wanted. -/
def asArgument : JsonVal → Tool String
  | .str s => pure s
  | _ => .raise (.exc .typeError)

/-- `command` -/
def command (c : DockerCommand) : Tool String := do
  let result ← runner c
  if result.returncode ≠ 0 then
    failWith ("Command failed (" ++ toString result.returncode ++ "): "
      ++ " ".intercalate c.argv ++ ": " ++ ReleaseBackup.stripped result.stderr)
  else pure (ReleaseBackup.stripped result.stdout)

/-- A host with nothing on its disk. -/
def bareReply (docker : DockerCommand → CompletedProcess) (time : ℚ) : (c : HostCommand) →
    HostReply c
  | .docker c => docker c
  | .isSymlink _ | .isDir _ | .isFile _ => false
  | .size _ | .owner _ | .geteuid | .treeSize _ | .diskFree _ => (0 : Nat)
  | .readText _ | .sha256 _ | .stamp => ""
  | .tarNames _ => ([] : List String)
  | .change _ | .sleep _ | .markWriterStop => ()
  | .monotonic => time
  | .task _ => (⟨0, "", ""⟩ : CompletedProcess)

/-! ## Reasoning -/

/-- Commands that leave the containers as they are. -/
def HostCommand.isQuiet : HostCommand → Bool
  | .docker (.stop _) | .docker (.rm _) | .docker (.start _) | .docker (.up _ _ _) => false
  | .markWriterStop | .task _ => false
  | _ => true

section

open Conc (Audit Said Grown Evident evident_said)

variable {W : Type} {A : Audit HostCommand HostReply ToolRaise W} {α β : Type} {s : HostState W}

/-- Docker's answer to a command. -/
def Told (c : DockerCommand) (r : CompletedProcess) (s : HostState W) : Prop :=
  Said (HostCommand.docker c) r s

/-- A query of the disk was answered so. -/
def Saw (c : HostCommand) (a : HostReply c) (s : HostState W) : Prop := Said c a s

theorem evident_told {c : DockerCommand} {r : CompletedProcess} :
    Evident (Told (W := W) c r) := evident_said

theorem evident_saw {c : HostCommand} {a : HostReply c} : Evident (Saw (W := W) c a) := evident_said

/-- `p` keeps the discipline, and ends with `Q` if it does not raise. -/
abbrev Safe (A : Audit HostCommand HostReply ToolRaise W) (p : Tool α) (Q : α → HostState W → Prop)
    (s : HostState W) : Prop := A.Meets p Q (fun _ _ => True) s

/-- More transcript. -/
abbrev Later (s s' : HostState W) : Prop := Grown (fun _ => True) s s'

theorem safe_raise {e : ToolRaise} {Q : α → HostState W → Prop} : Safe A (.raise e) Q s := trivial

theorem safe_fail {message : String} {Q : α → HostState W → Prop} :
    Safe A (failWith message) Q s := trivial

theorem safe_py {x : Except Py.Exc α} {Q : α → HostState W → Prop} (h : ∀ a, x = .ok a → Q a s) :
    Safe A (py x) Q s := by
  cases x with
  | ok a => exact h a rfl
  | error e => trivial

/-- The discipline asks nothing for commands that change nothing. -/
def Lenient (A : Audit HostCommand HostReply ToolRaise W) : Prop :=
  ∀ c s, c.isQuiet = true → A.pre c s

theorem safe_quiet (hA : Lenient A) {c : HostCommand} (hc : c.isQuiet = true)
    {Q : HostReply c → HostState W → Prop}
    (h : ∀ a t, Later s t → Saw c a t → Q a t) : Safe A (Prog.cmd c) Q s :=
  Audit.meets_said (hA c s hc) h

theorem safe_command {c : DockerCommand} (hpre : A.pre (.docker c) s)
    {Q : String → HostState W → Prop}
    (h : ∀ r t, Later s t → Told c r t → r.returncode = 0 → Q (ReleaseBackup.stripped r.stdout) t) :
    Safe A (command c) Q s := by
  refine Audit.meets_seq (Audit.meets_said hpre fun r t ht hsaid => ?_)
  split
  · exact safe_fail
  · rename_i hcode
    exact h r t ht hsaid (not_not.mp hcode)

theorem safe_asArgument {x : JsonVal} {Q : String → HostState W → Prop}
    (h : ∀ text, x = .str text → Q text s) : Safe A (asArgument x) Q s := by
  cases x with
  | str text => exact h text rfl
  | _ => exact safe_raise

end

end Deploy

end Sahabino
