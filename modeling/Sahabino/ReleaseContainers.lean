import Sahabino.Metadata
import Sahabino.ReleaseHost

/-!
# The container tool

`release_containers.py`: stopping the application, removing stale
containers, and bringing up the persistent infrastructure without ever
putting an empty data volume in the place of a filled one. A function of
the source is a `Tool`; what Docker prints is JSON of any shape.
-/

namespace Sahabino

namespace Deploy

open Py (JsonVal)
open Conc (Prog)
open ReleaseBackup (CompletedProcess)

def APPLICATION : List String := ["api", "ingestion", "crawler", "network-analyzer"]

/-- The volume of a service, and where it is mounted. -/
structure VolumeMount where
  source : String
  target : String
deriving DecidableEq

/-- `DATABASE_VOLUMES` -/
def databaseVolume : String → Option VolumeMount
  | "postgres" => some ⟨"postgres_data", "/var/lib/postgresql/data"⟩
  | "kafka" => some ⟨"kafka_data", "/var/lib/kafka/data"⟩
  | _ => none

/-- `PERSISTENT_MOUNTS` -/
def persistentMount : String → Option VolumeMount
  | "seaweedfs" => some ⟨"seaweedfs_data", "/data"⟩
  | service => databaseVolume service

def RECOVERY_RESERVE_BYTES : Nat := 1024 * 1024 * 1024

/-- A look-up in one of these tables. -/
def tableAt (entry : Option VolumeMount) : Tool VolumeMount :=
  match entry with
  | some m => pure m
  | none => .raise (.exc .keyError)

section

variable (lib : Stdlib) (loads : String → Except Py.Exc JsonVal)

/-! ## Reading Docker -/

/-- `containers`: whatever the inspection printed, a list if all is well. -/
def containers (project service : String) : Tool JsonVal := do
  let ids := Py.textLines (← command (.psService project service))
  if 1 < ids.length then
    failWith ("Ambiguous " ++ service ++ " containers; no automated deletion")
  else if ids.isEmpty then pure (.arr [])
  else py (loads (← command (.inspect ids)))

/-- `len(value)` -/
def lengthOf : JsonVal → Except Py.Exc Nat
  | .arr items => .ok items.length
  | .obj fields => .ok fields.length
  | .str s => .ok s.length
  | _ => .error .typeError

/-- `value[0]` of a value that is not empty. -/
def firstOf : JsonVal → Except Py.Exc JsonVal
  | .arr (x :: _) => .ok x
  | .str s => .ok (.str (String.ofList (s.toList.take 1)))
  | .arr [] | .obj _ => .error .keyError
  | _ => .error .typeError

/-- `image_exists` -/
def imageExists (image : String) : Tool Bool := do
  let result ← runner (.imageInspect image)
  pure (result.returncode = 0)

/-- `item["State"]["Running"]` -/
def isRunning (item : JsonVal) : Tool Bool := do
  let state ← py (item.index "State")
  let running ← py (state.index "Running")
  pure running.truthy

/-- `item[name]`, as an argument of a command. -/
def argumentAt (item : JsonVal) (name : String) : Tool String := do
  asArgument (← py (item.index name))

/-! ## The application -/

def stopItem (item : JsonVal) : Tool Bool := do
  if ← isRunning item then
    let ident ← argumentAt item "Id"
    let _ ← command (.stop ident)
    pure true
  else pure false

/-- The services of `items` for which `body` did something. -/
def collect (body : JsonVal → Tool Bool) (service : String) : List JsonVal → Tool (List String)
  | [] => pure []
  | item :: rest => do
      let did ← body item
      let others ← collect body service rest
      pure (if did then service :: others else others)

/-- `for service in services: for item in containers(project, service): …` -/
def overContainers (project : String) (body : String → JsonVal → Tool Bool) :
    List String → Tool (List String)
  | [] => pure []
  | service :: rest => do
      let items ← py (← containers loads project service).elements
      let here ← collect (body service) service items
      let others ← overContainers project body rest
      pure (here ++ others)

/-- `stop_application` -/
def stopApplication (project : String) : Tool (List String) :=
  overContainers loads project (fun _ => stopItem) APPLICATION

/-- The body of the loop of `remove_stale`; whether the container was removed. -/
def removeStaleItem (service : String) (item : JsonVal) : Tool Bool := do
  let ident ← py (item.index "Id")
  if ← imageExists (← argumentAt item "Image") then pure false
  else if ← isRunning item then
    failWith ("Refusing to delete RUNNING " ++ service ++ " container " ++ lib.str ident)
  else if (← py (item.get "Mounts")).truthy then
    failWith ("Refusing to delete mounted " ++ service ++ " container " ++ lib.str ident)
  else
    let _ ← command (.rm (← asArgument ident))
    pure true

/-- `remove_stale` -/
def removeStale (project : String) : Tool (List String) :=
  overContainers loads project (removeStaleItem lib) APPLICATION

/-! ## Stale containers with a volume -/

/-- `m.get("Type") == "volume" and m.get("Name") == name` -/
def isVolumeNamed (name : String) (m : JsonVal) : Except Py.Exc Bool := do
  if ¬(← m.get "Type").Equal (.str "volume") then pure false
  else pure (decide ((← m.get "Name").Equal (.str name)))

def anyMount (check : JsonVal → Except Py.Exc Bool) : List JsonVal → Except Py.Exc Bool
  | [] => .ok false
  | m :: rest => do if ← check m then pure true else anyMount check rest

/-- `item.get("Mounts", [])`, as what a loop goes through. -/
def mountsOf (item : JsonVal) : Except Py.Exc (List JsonVal) := do
  (← item.getOr "Mounts" (.arr [])).elements

/-- The body of the loop of `remove_stale_persisted`. -/
def removePersistedItem (project : String) (manifest : JsonVal) (path : HostPath) (service : String)
    (item : JsonVal) : Tool Bool := do
  if ← imageExists (← argumentAt item "Image") then pure false
  else
    let volume := project ++ "_" ++ service ++ "_data"
    if !(← py (do anyMount (isVolumeNamed volume) (← mountsOf item))) then
      failWith ("Refusing to remove " ++ service ++ " without expected mounted volume")
    else
      let record ← py (do (← manifest.getOr "volumes" (.obj [])).get service)
      if !record.truthy then failWith ("No verified backup for " ++ service)
      else
        let archive := HostPath.join (.parent path) (← argumentAt record "file")
        if !(← isFile archive) then failWith ("Missing backup archive for " ++ service)
        else
          let digest ← sha256Of archive
          if ¬(JsonVal.str digest).Equal (← py (record.index "sha256")) then
            failWith ("Backup checksum mismatch for " ++ service)
          else
            if ← isRunning item then
              let _ ← command (.stop (← argumentAt item "Id"))
            let _ ← command (.rm (← argumentAt item "Id"))
            pure true

/-- `remove_stale_persisted` -/
def removeStalePersisted (project : String) (path : HostPath) : Tool (List String) := do
  let manifest ← py (loads (← readText path))
  if ¬(← py (manifest.get "project")).Equal (.str project)
      ∨ (← py (manifest.get "local_only")) ≠ .bool true then
    failWith "Backup manifest/project mismatch"
  else
    overContainers loads project (removePersistedItem project manifest path)
      ["seaweedfs", "loki", "grafana", "alloy"]

/-! ## Orphan volumes -/

def volumeName (project : String) (m : VolumeMount) : String := project ++ "_" ++ m.source

/-- `text in s` -/
def contains (text s : String) : Bool := (Py.find text.toList s.toList).isSome

/-- Whether a text is an absolute path. -/
def isAbsolute (text : String) : Bool := text.toList.head? = some '/'

/-- `record.get("Name") != name or …` -/
def isOtherVolume (project name : String) (record : JsonVal) : Except Py.Exc Bool := do
  let labels := (← record.get "Labels").orElse (.obj [])
  if ¬(← record.get "Name").Equal (.str name) then pure true
  else if ¬(← record.get "Driver").Equal (.str "local") then pure true
  else
    pure (decide ¬(← labels.getOr "com.docker.compose.project" (.str project)).Equal (.str project))

/-- `orphan_volume` -/
def orphanVolume (project service : String) : Tool (Option HostPath) := do
  let name := volumeName project (← tableAt (databaseVolume service))
  let result ← runner (.volumeInspect name)
  if result.returncode ≠ 0 then
    if contains "No such volume" result.stderr ∨
        contains "no such volume" (lib.lower result.stderr) then pure none
    else failWith ("Cannot inspect " ++ name ++ ": " ++ ReleaseBackup.stripped result.stderr)
  else
    let records ← py (loads result.stdout)
    if (← py (lengthOf records)) ≠ 1 then
      failWith ("Ambiguous Docker volume metadata: " ++ name)
    else
      let record ← py (firstOf records)
      if ← py (isOtherVolume project name record) then
        failWith ("Unexpected Docker volume identity/driver: " ++ name)
      else
        let text ← argumentAt record "Mountpoint"
        let mount := HostPath.of text
        if !isAbsolute text then failWith ("Unsafe Docker volume mountpoint for " ++ name)
        else if ← isSymlink mount then
          failWith ("Unsafe Docker volume mountpoint for " ++ name)
        else if !(← isDir mount) then
          failWith ("Unsafe Docker volume mountpoint for " ++ name)
        else pure (some mount)

/-! ## The Compose configuration -/

def isAttached (m : VolumeMount) (mount : JsonVal) : Except Py.Exc Bool := do
  if ¬(← mount.get "type").Equal (.str "volume") then pure false
  else if ¬(← mount.get "source").Equal (.str m.source) then pure false
  else if ¬(← mount.get "target").Equal (.str m.target) then pure false
  else pure (!(← mount.getOr "read_only" (.bool false)).truthy)

def requiredNames (service : String) : List String :=
  if service = "postgres" then ["POSTGRES_DB", "POSTGRES_USER", "POSTGRES_PASSWORD"]
  else ["CLUSTER_ID", "KAFKA_NODE_ID"]

/-- `any(not str(environment.get(name, "")) for name in names)` -/
def lacksOne (environment : JsonVal) : List String → Except Py.Exc Bool
  | [] => .ok false
  | name :: rest => do
      if lib.str (← environment.getOr name (.str "")) = "" then pure true
      else lacksOne environment rest

/-- The checks of one service in what `compose config` printed. -/
def checkService (project service : String) (model : JsonVal) : Tool JsonVal := do
  let configured ← py (do (← model.getOr "services" (.obj [])).get service)
  match configured with
  | .obj _ =>
      let m ← tableAt (databaseVolume service)
      let mounts ← py (do (← configured.getOr "volumes" (.arr [])).elements)
      if !(← py (anyMount (isAttached m) mounts)) then
        failWith ("Compose " ++ service ++ " does not attach the expected volume at " ++ m.target)
      else
        let volume ← py (do (← model.getOr "volumes" (.obj [])).getOr m.source (.obj []))
        if ¬(← py (volume.getOr "name" (.str (volumeName project m)))).Equal
            (.str (volumeName project m)) then
          failWith ("Compose " ++ service ++ " overrides the persisted volume identity")
        else
          let environment := (← py (configured.get "environment")).orElse (.obj [])
          if ← py (lacksOne lib environment (requiredNames service)) then
            failWith ("Missing production " ++ service ++ " environment; refusing to reattach data")
          else pure configured
  | _ => failWith ("Missing Compose service: " ++ service)

/-- `checked_compose_service` -/
def checkedComposeService (project service : String) (compose : List String) : Tool JsonVal := do
  if compose.take 2 ≠ ["docker", "compose"] ∨ "--project-name" ∉ compose then
    failWith "Explicit project-scoped Compose command required for recovery"
  else if compose[compose.idxOf "--project-name" + 1]? ≠ some project then
    failWith "Compose project does not match the expected persisted volume"
  else
    let model ← py (loads (← command (.config compose)))
    checkService lib project service model

/-! ## The data of an orphan volume -/

/-- `re.fullmatch(r"postgres:(\d+)(?:[.-].+)?", image)`: the first group. -/
def postgresMajor (image : String) : Option String :=
  if image.toList.take 9 = "postgres:".toList then
    let rest := image.toList.drop 9
    let digits := rest.takeWhile fun c => (Py.decimalValue c).isSome
    match digits, rest.drop digits.length with
    | [], _ => none
    | _, [] => some (String.ofList digits)
    | _, c :: more =>
        if (c = '.' ∨ c = '-') ∧ more ≠ [] ∧ '\n' ∉ more then some (String.ofList digits) else none
  else none

/-- The entries of a properties file, the last one first. -/
def properties (text : String) : List (String × String) :=
  ((Py.textLines text).filterMap fun raw =>
    let line := Py.strip raw.toList
    if line = [] ∨ line.head? = some '#' ∨ '=' ∉ line then none
    else some (String.ofList (line.takeWhile (· ≠ '=')),
      String.ofList ((line.dropWhile (· ≠ '=')).drop 1))).reverse

/-- Something that is a regular file and not empty. -/
def isAbsentOrEmpty (p : HostPath) : Tool Bool := do
  if ← isSymlink p then pure true
  else if !(← isFile p) then pure true
  else pure (decide ((← sizeOf p) = 0))

def isNotDirectory (p : HostPath) : Tool Bool := do
  if ← isSymlink p then pure true
  else pure !(← isDir p)

def validatePostgres (mount : HostPath) (configured : JsonVal) : Tool Unit := do
  let version := mount.join "PG_VERSION"
  if ← isAbsentOrEmpty version then failWith noCluster
  else if ← isAbsentOrEmpty ((mount.join "global").join "pg_control") then failWith noCluster
  else if ← anyTool isNotDirectory
    [mount.join "global", mount.join "base", mount.join "pg_wal"] then
    failWith noCluster
  else
    match postgresMajor (← asArgument (← py (configured.getOr "image" (.str "")))) with
    | none => failWith otherMajor
    | some major =>
        if ReleaseBackup.stripped (← readText version) ≠ major then failWith otherMajor else pure ()
where
  noCluster : String :=
    "PostgreSQL orphan volume has no complete existing cluster; refusing initialization"
  otherMajor : String := "PostgreSQL data major version and configured image do not match"

def validateKafka (mount : HostPath) (configured : JsonVal) : Tool Unit := do
  let metadata := mount.join "meta.properties"
  if ← isAbsentOrEmpty metadata then
    failWith "Kafka orphan volume lacks KRaft meta.properties; refusing initialization"
  else
    let values := properties (← readText metadata)
    let environment := (← py (configured.get "environment")).orElse (.obj [])
    if (values.lookup "cluster.id").getD "" = "" then failWith otherIdentity
    else if values.lookup "cluster.id" ≠
        some (lib.str (← py (environment.getOr "CLUSTER_ID" (.str "")))) then
      failWith otherIdentity
    else if values.lookup "node.id" ≠
        some (lib.str (← py (environment.getOr "KAFKA_NODE_ID" (.str "")))) then
      failWith otherIdentity
    else if ¬(← py (configured.get "image")).Equal (.str "apache/kafka:4.3.1") then
      failWith "Unexpected Kafka image for persisted KRaft data"
    else pure ()
where
  otherIdentity : String := "Kafka cluster/node identity does not match the saved volume"

/-- `validate_orphan_data` -/
def validateOrphanData (service : String) (mount : HostPath) (configured : JsonVal) : Tool Unit :=
  if service = "postgres" then validatePostgres mount configured
  else if service = "kafka" then validateKafka lib mount configured
  else pure ()

/-! ## The cold copy -/

def memberOf (service : String) : String :=
  if service = "postgres" then "data/PG_VERSION" else "data/meta.properties"

/-- `json.dumps(…, indent=2) + "\n"` of the manifest of a cold copy; `quote` writes a text as
JSON. -/
def coldManifest (quote : String → String) (project service sha : String) : String :=
  "\x7b\n".append ("  \"project\": " ++ quote project ++ ",\n  \"service\": " ++ quote service
    ++ ",\n  \"local_only\": true,\n  \"archive\": " ++ quote (service ++ ".tar")
    ++ ",\n  \"sha256\": " ++ quote sha ++ "\n\x7d\n")

variable (quote : String → String)

/-- The `try` block. -/
def writeColdCopy (project service : String) (mount bundle : HostPath) : Tool HostPath := do
  let archive := bundle.join (service ++ ".tar")
  let partialTar := bundle.join (service ++ ".tar.partial")
  change (.writeTar mount partialTar)
  change (.chmod partialTar 0o600)
  let names ← tarNames partialTar
  if "data" ∉ names ∨ memberOf service ∉ names then
    failWith ("Incomplete cold recovery archive for " ++ service)
  else
    change (.replace partialTar archive)
    let sha ← sha256Of archive
    let manifest := bundle.join "manifest.json"
    change (.writeText manifest (coldManifest quote project service sha))
    change (.chmod manifest 0o600)
    pure manifest

/-- `cold_recovery_snapshot`; `int(size * 1.25)` is exact here. -/
def coldRecoverySnapshot (project service : String) (mount root : HostPath) : Tool HostPath := do
  if (← geteuid) ≠ 0 then failWith "Persistent-volume recovery requires root"
  else if ← isSymlink root then failWith "Recovery backup root may not be a symlink"
  else
    change (.makeDir root)
    if ← isSymlink root then
      failWith "Recovery backup root must be root-owned and non-symlink"
    else if (← ownerOf root) ≠ 0 then
      failWith "Recovery backup root must be root-owned and non-symlink"
    else
      change (.chmod root 0o700)
      let size ← treeSize mount
      let available ← diskFree root
      let required := size * 5 / 4 + RECOVERY_RESERVE_BYTES
      if available < required then
        failWith ("Insufficient disk for cold " ++ service ++ " recovery snapshot: need="
          ++ toString required ++ " free=" ++ toString available)
      else
        let bundle := root.join ("orphan-" ++ project ++ "-" ++ service ++ "-" ++ (← stamp))
        change (.makeDir bundle)
        (writeColdCopy quote project service mount bundle).tryCatch fun e => do
          change (.unlink (bundle.join (service ++ ".tar.partial")))
          change (.rmtree bundle)
          .raise e

/-! ## Bringing up the infrastructure -/

/-- `entry.get("Destination") == target`, and the others. -/
def isReattached (name target : String) (entry : JsonVal) : Except Py.Exc Bool := do
  if !(← isVolumeNamed name entry) then pure false
  else pure (decide ((← entry.get "Destination").Equal (.str target)))

def keepMounts (check : JsonVal → Except Py.Exc Bool) : List JsonVal → Except Py.Exc (List JsonVal)
  | [] => .ok []
  | m :: rest => do
      let kept ← check m
      let others ← keepMounts check rest
      pure (if kept then m :: others else others)

/-- `mounted[0].get("Type") != "volume" or …` -/
def isUnsafeMount (name : String) (m : JsonVal) : Except Py.Exc Bool := do
  if !(← isVolumeNamed name m) then pure true
  else pure (decide ((← m.get "RW") = .bool false))

/-- `verify_existing_persistent_mount` -/
def verifyExistingPersistentMount (project service : String) (item : JsonVal) : Tool Unit := do
  let m ← tableAt (persistentMount service)
  let expected := volumeName project m
  let mounted ← py (do
    keepMounts (fun x => do pure (decide ((← x.get "Destination").Equal (.str m.target))))
      (← mountsOf item))
  let unsafeMount ← match mounted with
    | [x] => py (isUnsafeMount expected x)
    | _ => pure true
  if unsafeMount then
    failWith ("Unsafe " ++ service ++ " data mount; expected writable named volume " ++ expected
      ++ " at " ++ m.target ++ "; refusing to start or trust this container")
  else pure ()

inductive RecoveryStatus where
  | existing
  | newInstall
  | recovered (manifest : HostPath)
deriving DecidableEq

/-- The branch for a volume that is not there. -/
def checkNewInstall (project service : String) : Tool RecoveryStatus := do
  let partner := if service = "postgres" then "kafka" else "postgres"
  if (← orphanVolume lib loads project partner).isSome then
    failWith (service ++ " volume is missing while " ++ partner
      ++ " volume exists; refusing new empty state")
  else if (← containers loads project partner).truthy then
    failWith (service ++ " volume is missing while " ++ partner
      ++ " container exists; refusing new empty state")
  else
    let seaweed ← runner (.volumeInspect (project ++ "_seaweedfs_data"))
    if seaweed.returncode = 0 then
      failWith (service ++ " volume is missing while SeaweedFS volume exists; "
        ++ "refusing new empty state")
    else if !contains "no such volume" (lib.lower seaweed.stderr) then
      failWith ("Cannot inspect SeaweedFS state: " ++ ReleaseBackup.stripped seaweed.stderr)
    else pure .newInstall

/-- The image of the service is there, or is pulled. -/
def ensureImage (compose : List String) (service image : String) : Tool Unit := do
  if ← imageExists image then pure ()
  else
    let _ ← command (.pull compose service)
    if ← imageExists image then pure ()
    else failWith ("Cannot obtain " ++ service ++ " image after verified cold snapshot")

/-- The branch for a volume without a container. -/
def reattach (project service : String) (compose : List String) (root mount : HostPath)
    (m : VolumeMount) : Tool RecoveryStatus := do
  if (← geteuid) ≠ 0 then failWith "Orphan recovery requires root"
  else
    let configured ← checkedComposeService lib loads project service compose
    validateOrphanData lib service mount configured
    let name := volumeName project m
    if (← command (.psVolume name)) ≠ "" then
      failWith ("Orphan " ++ name ++ " is attached to another container; refusing recovery")
    else
      let manifest ← coldRecoverySnapshot quote project service mount root
      let image := lib.str (← py (configured.getOr "image" (.str "")))
      if image = "" then failWith ("Missing pinned " ++ service ++ " image in Compose")
      else
        ensureImage compose service image
        let _ ← command (.up compose false service)
        let found ← containers loads project service
        if (← py (lengthOf found)) ≠ 1 then
          failWith ("Recovered " ++ service ++ " did not attach the original " ++ name
            ++ "; stop and inspect")
        else if ← py (do anyMount (isReattached name m.target) (← mountsOf (← firstOf found))) then
          pure (.recovered manifest)
        else
          failWith ("Recovered " ++ service ++ " did not attach the original " ++ name
            ++ "; stop and inspect")

/-- `recover_missing_database` -/
def recoverMissingDatabase (project service : String) (compose : List String) (root : HostPath) :
    Tool RecoveryStatus := do
  match databaseVolume service with
  | none => failWith "Orphan recovery is restricted to PostgreSQL and Kafka"
  | some m =>
      let found ← containers loads project service
      if found.truthy then
        verifyExistingPersistentMount project service (← py (firstOf found))
        pure .existing
      else
        match ← orphanVolume lib loads project service with
        | none => checkNewInstall lib loads project service
        | some mount => reattach lib loads quote project service compose root mount m

def releaseBackups : HostPath := .of "/var/backups/sahabino/releases"

/-- `ensure_infrastructure`, when there is no container. -/
def createInfrastructure (project service : String) (compose : List String) : Tool Unit := do
  if compose.take 2 ≠ ["docker", "compose"] then
    failWith "Explicit Compose command required for first creation"
  else
    let status ←
      if (databaseVolume service).isSome then
        recoverMissingDatabase lib loads quote project service compose releaseBackups
      else pure .newInstall
    match status with
    | .recovered _ => pure ()
    | _ => do
        let _ ← command (.up compose true service)
        pure ()

/-- `ensure_infrastructure` -/
def ensureInfrastructure (project service : String) (compose : List String) : Tool Unit := do
  if service ∉ ["postgres", "kafka", "seaweedfs"] then
    failWith "Only declared persistent infrastructure can be ensured"
  else
    let found ← containers loads project service
    if !found.truthy then createInfrastructure lib loads quote project service compose
    else
      let item ← py (firstOf found)
      verifyExistingPersistentMount project service item
      if ← isRunning item then pure ()
      else
        let _ ← command (.start (← argumentAt item "Id"))
        pure ()

/-! ## Verification -/

/-- The body of the loop of `verify`. -/
def verifyService (project revision service : String) : Tool Unit := do
  let found ← containers loads project service
  if (← py (lengthOf found)) ≠ 1 then
    failWith ("Missing or stopped application service: " ++ service)
  else
    let item ← py (firstOf found)
    if !(← isRunning item) then
      failWith ("Missing or stopped application service: " ++ service)
    else
      let expected ← command (.imageId (project ++ "-" ++ service ++ ":" ++ revision))
      if ¬(← py (item.index "Image")).Equal (.str expected) then
        failWith ("Stale image for " ++ service
          ++ ": running container differs from newly built tag")
      else pure ()

/-- `verify` -/
def verify (project revision : String) : Tool Unit :=
  forEach (verifyService loads project revision) APPLICATION

/-! ## The command line -/

inductive Mode where
  | stopApp
  | removeStale
  | removeStalePersisted (manifest : Option HostPath)
  | ensure (service : String)
  | recoverMissing (service : String) (root : HostPath)
  | verify (revision : String)

def isProjectChar (c : Char) : Bool :=
  ('a' ≤ c && c ≤ 'z') || ('A' ≤ c && c ≤ 'Z') || ('0' ≤ c && c ≤ '9') || c = '_' || c = '-'

def isHex (c : Char) : Bool :=
  ('0' ≤ c && c ≤ '9') || ('a' ≤ c && c ≤ 'f') || ('A' ≤ c && c ≤ 'F')

/-- `main`, with its arguments parsed. -/
def main (project : String) (mode : Mode) (compose : List String) : Tool Unit := do
  if project = "" ∨ ¬project.toList.all isProjectChar then failWith "Unsafe Compose project name"
  else
    match mode with
    | .stopApp => do
        let _ ← stopApplication loads project
        pure ()
    | .removeStale => do
        let _ ← removeStale lib loads project
        pure ()
    | .removeStalePersisted none => failWith "Verified backup manifest is required"
    | .removeStalePersisted (some path) => do
        if !(← isFile path) then failWith "Verified backup manifest is required"
        else
          let _ ← removeStalePersisted loads project path
          pure ()
    | .ensure service => ensureInfrastructure lib loads quote project service compose
    | .recoverMissing service root => do
        if (databaseVolume service).isNone then
          failWith "Recover-missing requires postgres or kafka"
        else
          let _ ← recoverMissingDatabase lib loads quote project service compose root
          pure ()
    | .verify revision => do
        if revision.length ≠ 40 ∨ ¬revision.toList.all isHex then
          failWith "Full 40-character release SHA required for verification"
        else verify loads project revision

end

end Deploy

end Sahabino
