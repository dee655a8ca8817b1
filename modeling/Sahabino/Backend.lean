import Mathlib.Data.List.Sort
import Sahabino.Ingestion
import Sahabino.Lib.Pool

/-!
# The shared backend

PostgreSQL, the object store and the two Kafka topics as one shared state,
and the commands the capture code issues against it. A command is what
takes effect at one instant: a statement of its own, a storage or broker
call, or the end of a transaction. A plain `SELECT` takes no lock, and the
ORM's flush is sent together with the commit, so an object that was loaded
earlier is written back over whatever the row holds by then
(`NetworkCapture.writeBack`).

Every call that leaves the process can fail: before it took effect, or
after, with the answer lost (`Fault`). Locks are the advisory transaction
locks on idempotency keys and object keys; they go away with the
transaction or with its connection.

`history` is not stored anywhere. It records who claimed an attempt, who
committed, and which analysis events the broker acknowledged, so that
statements can speak about what happened earlier.
-/

namespace Sahabino

/-- `ObjectMetadata`, the answer of a HEAD request. -/
structure ObjectMetadata where
  sizeBytes : Nat
  contentType : Option String
deriving DecidableEq

/-- What the advisory locks are taken on. -/
inductive LockKey where
  | idempotency (key : Uuid)
  | object (objectKey : String)
deriving DecidableEq

inductive HistoryEvent where
  | claimed (session : Nat) (captureId : Uuid) (attemptStartedAt : Timestamp)
  | committed (session : Nat)
  | analysisPublished (eventId : Uuid)
deriving DecidableEq

structure Backend where
  categories : List NonBlankString
  crawlTasks : List CrawlTask
  applications : ApplicationTable
  captures : CaptureTable
  idempotencyKeys : KeyTable
  ingested : IngestTables
  objects : String → Option ObjectMetadata
  locks : LockKey → Option Nat
  readyTopic : List (EventEnvelope NetworkCaptureReadyV1)
  collectedTopic : List (EventEnvelope NetworkAnalysisCollectedV1)
  history : List HistoryEvent

/-- What the migrations and the registry put there before the first capture. -/
structure Seed where
  categories : List NonBlankString
  crawlTasks : List CrawlTask
  applications : ApplicationTable

namespace Backend

/-- No capture, no object, no record yet. -/
def initial (seed : Seed) : Backend where
  categories := seed.categories
  crawlTasks := seed.crawlTasks
  applications := seed.applications
  captures := Rel.Table.empty
  idempotencyKeys := Rel.Table.empty
  ingested := IngestTables.empty
  objects := fun _ => none
  locks := fun _ => none
  readyTopic := []
  collectedTopic := []
  history := []

def refs (s : Backend) : Refs := ⟨s.crawlTasks, s.applications, s.captures⟩

/-- The end of a transaction releases its advisory locks. -/
def releaseLocks (i : Nat) (s : Backend) : Backend :=
  { s with locks := fun k => if s.locks k = some i then none else s.locks k }

def log (event : HistoryEvent) (s : Backend) : Backend :=
  { s with history := s.history ++ [event] }

end Backend

/-! ## Exceptions

`NetworkCaptureError` and its subclasses, and the other exceptions that
pass through the capture code. -/

inductive CaptureError where
  | captureNotFound (captureId : Uuid)
  | idempotencyConflict
  | captureMetadataConflict
  | invalidCaptureState (message : String)
  | captureObjectMissing (message : String)
  | captureObjectSizeMismatch (message : String)
  | storageUnavailable (message : String)
  | captureTooLarge (message : String)
  | captureDispatch (message : String)
  | cleanupConflict (message : String)
  | terminalAnalysis (code message : String)
  | applicationNotFound (applicationId : Uuid)
  | analyzerConsistency (message : String)
  | analysisClaimUnavailable (message : String)
  | integrityError
  | dataError
  | databaseError
  | consumerError
  | runtimeError (message : String)
  | valueError (message : String)
  | assertionError
  | unexpected (description : String)
deriving DecidableEq

/-! ## The local side of an analysis -/

/-- What reading a file can raise: `TerminalAnalysisError`, or anything else. -/
inductive AnalysisFailure where
  | terminal (code message : String)
  | other (description : String)

def AnalysisFailure.raised : AnalysisFailure → CaptureError
  | terminal code message => .terminalAnalysis code message
  | other description => .unexpected description

/-- A downloaded file as far as `analyze_capture` looks at it: the format its
magic bytes announce, its hash, and what the engine makes of it. -/
structure LocalFile where
  captureFormat : Except AnalysisFailure CaptureFormat
  sha256 : Sha256
  readPackets : Except AnalysisFailure (MetricGroups × NonBlankString × Timestamp)

def analyzerVersion : NonBlankString := ⟨"1.0.0", by decide⟩

def analyzeCapture (file : LocalFile) (transferFileSizeBytes : Nat)
    (declaredFormat : CaptureFormat) (expectedSha256 : Sha256) :
    Except CaptureError AnalysisMetrics :=
  if transferFileSizeBytes = 0 then
    .error (.valueError "transfer_file_size_bytes must be positive")
  else
    match file.captureFormat with
    | .error e => .error e.raised
    | .ok actualFormat =>
        if actualFormat ≠ declaredFormat then
          .error (.terminalAnalysis "invalid_capture"
            "Capture header does not match the declared format")
        else if file.sha256 ≠ expectedSha256 then
          .error (.terminalAnalysis "checksum_mismatch"
            "Capture SHA-256 does not match the registered hash")
        else
          match file.readPackets with
          | .error e => .error e.raised
          | .ok (groups, tsharkVersion, analyzedAt) =>
              .ok { toMetricGroups := groups, analyzedAt := analyzedAt,
                    analyzerVersion := analyzerVersion, tsharkVersion := tsharkVersion,
                    verifiedSha256 := file.sha256 }

/-- Metrics only come out of a file with the registered hash. -/
theorem analyzeCapture_sha256 {file : LocalFile} {transferFileSizeBytes : Nat}
    {declaredFormat : CaptureFormat} {expectedSha256 : Sha256} {metrics : AnalysisMetrics}
    (h : analyzeCapture file transferFileSizeBytes declaredFormat expectedSha256 = .ok metrics) :
    metrics.verifiedSha256 = expectedSha256 := by
  unfold analyzeCapture at h
  split at h
  · cases h
  · split at h
    · cases h
    · split at h
      · cases h
      · split at h
        · cases h
        · rename_i hsha
          split at h
          · cases h
          · rw [← Except.ok.inj h]
            exact not_not.mp hsha

/-! ## Writes -/

/-- The column that an `UPDATE` of the changed columns leaves behind. -/
def pickColumn {α : Type} [DecidableEq α] (loaded new stored : α) : α :=
  if new = loaded then stored else new

/-- What the ORM's flush does to the stored row of an object that was loaded
as `loaded` and is now `new`: the changed columns are overwritten, whatever
they hold by then, and the others stay. -/
def NetworkCapture.writeBack (loaded new stored : NetworkCapture) : NetworkCapture :=
  { stored with
    verifiedSha256 := pickColumn loaded.verifiedSha256 new.verifiedSha256 stored.verifiedSha256
    status := pickColumn loaded.status new.status stored.status
    analysisAttemptCount :=
      pickColumn loaded.analysisAttemptCount new.analysisAttemptCount stored.analysisAttemptCount
    uploadedAt := pickColumn loaded.uploadedAt new.uploadedAt stored.uploadedAt
    analysisStartedAt :=
      pickColumn loaded.analysisStartedAt new.analysisStartedAt stored.analysisStartedAt
    analysisFinishedAt :=
      pickColumn loaded.analysisFinishedAt new.analysisFinishedAt stored.analysisFinishedAt
    objectDeletedAt := pickColumn loaded.objectDeletedAt new.objectDeletedAt stored.objectDeletedAt
    errorCode := pickColumn loaded.errorCode new.errorCode stored.errorCode
    errorMessage := pickColumn loaded.errorMessage new.errorMessage stored.errorMessage }

/-- What a session has to write when it is flushed. The identity map holds one
object per row, so `updates` is read as a map from the primary key. -/
structure UnitOfWork where
  insertCapture : Option NetworkCapture
  updates : List (NetworkCapture × NetworkCapture)
  insertKey : Option NetworkCaptureIdempotencyKey

namespace UnitOfWork

def nothing : UnitOfWork := ⟨none, [], none⟩

/-- The stored row after the `UPDATE`s. -/
def writeRow (work : UnitOfWork) (stored : NetworkCapture) : NetworkCapture :=
  match work.updates.find? fun u => u.1.id = stored.id with
  | some (loaded, new) => loaded.writeBack new stored
  | none => stored

theorem writeRow_identity (work : UnitOfWork) (stored : NetworkCapture) :
    (work.writeRow stored).toCaptureIdentity = stored.toCaptureIdentity := by
  unfold writeRow
  split <;> rfl

/-- A row is written back from an object of its own id, or left alone. -/
theorem writeRow_cases (work : UnitOfWork) (stored : NetworkCapture) :
    work.writeRow stored = stored ∨ ∃ loaded new, (loaded, new) ∈ work.updates ∧
      loaded.id = stored.id ∧ work.writeRow stored = loaded.writeBack new stored := by
  unfold writeRow
  split
  · rename_i loaded new hfind
    have hid : loaded.id = stored.id := by simpa using List.find?_some hfind
    exact Or.inr ⟨loaded, new, List.mem_of_find?_eq_some hfind, hid, rfl⟩
  · exact Or.inl rfl

end UnitOfWork

/-- `created_at` is the server's default; text and numbers that the columns
cannot hold are rejected by the driver, and a missing application or a taken
unique value is an integrity error. -/
def insertCapture (now : Timestamp) (applications : ApplicationTable) (t : CaptureTable) :
    Option NetworkCapture → Except CaptureError CaptureTable
  | none => .ok t
  | some capture =>
      if !capture.storable then .error .dataError
      else if (applications.find capture.applicationId).isNone then .error .integrityError
      else
        match t.insert { capture with createdAt := now } with
        | some t' => .ok t'
        | none => .error .integrityError

def insertKey (captures : CaptureTable) (t : KeyTable) :
    Option NetworkCaptureIdempotencyKey → Except CaptureError KeyTable
  | none => .ok t
  | some mapping =>
      if captures.rows.any fun c => c.id = mapping.captureId then
        match t.insert mapping with
        | some t' => .ok t'
        | none => .error .integrityError
      else .error .integrityError

/-- Flush and commit: all of it or nothing. The updates of a table go out before
its inserts, and keys after the captures they refer to. -/
def Backend.flush (now : Timestamp) (work : UnitOfWork) (s : Backend) :
    Except CaptureError Backend :=
  let updated := s.captures.update work.writeRow work.writeRow_identity
  match insertCapture now s.applications updated work.insertCapture with
  | .error e => .error e
  | .ok captures =>
      match insertKey captures s.idempotencyKeys work.insertKey with
      | .error e => .error e
      | .ok idempotencyKeys =>
          .ok { s with captures := captures, idempotencyKeys := idempotencyKeys }

theorem mem_insertCapture {now : Timestamp} {applications : ApplicationTable}
    {t t' : CaptureTable} {capture : Option NetworkCapture}
    (h : insertCapture now applications t capture = .ok t') (r : NetworkCapture) :
    r ∈ t'.rows ↔ r ∈ t.rows ∨ ∃ c, capture = some c ∧ r = { c with createdAt := now } := by
  cases capture with
  | none =>
      obtain rfl := Except.ok.inj h
      simp
  | some c =>
      simp only [insertCapture] at h
      split at h
      · cases h
      · split at h
        · cases h
        · split at h
          · rename_i hinsert
            obtain rfl := Except.ok.inj h
            rw [Rel.Table.mem_insert hinsert]
            simp
          · cases h

theorem mem_insertKey {captures : CaptureTable} {t t' : KeyTable}
    {mapping : Option NetworkCaptureIdempotencyKey} (h : insertKey captures t mapping = .ok t')
    (k : NetworkCaptureIdempotencyKey) : k ∈ t'.rows ↔ k ∈ t.rows ∨ mapping = some k := by
  cases mapping with
  | none =>
      obtain rfl := Except.ok.inj h
      simp
  | some m =>
      simp only [insertKey] at h
      split at h
      · split at h
        · rename_i hinsert
          obtain rfl := Except.ok.inj h
          rw [Rel.Table.mem_insert hinsert, Option.some.injEq, eq_comm]
        · cases h
      · cases h

/-- A flush changes the two capture tables only: the stored rows are the old
ones, written back, and the inserted one. -/
theorem Backend.flush_ok {now : Timestamp} {work : UnitOfWork} {s s' : Backend}
    (h : s.flush now work = .ok s') :
    ∃ captures idempotencyKeys,
      s' = { s with captures := captures, idempotencyKeys := idempotencyKeys } ∧
      (∀ r, r ∈ captures.rows ↔ (∃ r₀ ∈ s.captures.rows, r = work.writeRow r₀) ∨
        ∃ c, work.insertCapture = some c ∧ r = { c with createdAt := now }) ∧
      (∀ k, k ∈ idempotencyKeys.rows ↔
        k ∈ s.idempotencyKeys.rows ∨ work.insertKey = some k) := by
  simp only [Backend.flush] at h
  split at h
  · cases h
  · rename_i captures hcap
    split at h
    · cases h
    · rename_i keys hkeys
      refine ⟨captures, keys, (Except.ok.inj h).symm, fun r => ?_, mem_insertKey hkeys⟩
      rw [mem_insertCapture hcap r, CaptureTable.rows_update, List.mem_map]
      simp only [eq_comm]

/-- An inserted capture has an id that no stored row has. -/
theorem Backend.flush_fresh {now : Timestamp} {work : UnitOfWork} {s s' : Backend}
    (h : s.flush now work = .ok s') {c : NetworkCapture} (hc : work.insertCapture = some c)
    {r : NetworkCapture} (hr : r ∈ s.captures.rows) : r.id ≠ c.id := by
  simp only [Backend.flush, hc, insertCapture] at h
  split at h
  · cases h
  · rename_i captures hcap
    split at hcap
    · cases hcap
    · split at hcap
      · cases hcap
      · split at hcap
        · rename_i t hins
          have hmem : work.writeRow r ∈
              (s.captures.update work.writeRow work.writeRow_identity).rows :=
            List.mem_map_of_mem hr
          intro hid
          have hrid := congrArg CaptureIdentity.id (work.writeRow_identity r)
          exact Rel.Table.not_clash_of_insert hins hmem (Or.inl (hrid.trans hid))
        · cases hcap

/-! ## The analyzer's conditional updates -/

/-- The `UPDATE ... WHERE` statements of `AnalyzerRepository`. -/
inductive AttemptUpdate where
  | claimAttempt (captureId : Uuid) (attemptStartedAt staleBefore : Timestamp)
  | releaseAttempt (captureId : Uuid) (attemptStartedAt : Timestamp)
  | markVerified (captureId : Uuid) (sha256 : Sha256) (attemptStartedAt : Timestamp)
  | markAnalyzed (captureId : Uuid) (sha256 : Sha256) (attemptStartedAt : Timestamp)
  | markFailed (captureId : Uuid) (code message : String) (attemptStartedAt : Timestamp)

namespace AttemptUpdate

def captureId : AttemptUpdate → Uuid
  | claimAttempt captureId _ _ => captureId
  | releaseAttempt captureId _ => captureId
  | markVerified captureId _ _ => captureId
  | markAnalyzed captureId _ _ => captureId
  | markFailed captureId _ _ _ => captureId

/-- The row is in the hands of the attempt that started then. -/
def owns (attemptStartedAt : Timestamp) (c : NetworkCapture) : Bool :=
  c.status = .analyzing && c.analysisStartedAt = some attemptStartedAt

/-- The `WHERE` clause. -/
def applies : AttemptUpdate → NetworkCapture → Bool
  | claimAttempt captureId _ staleBefore, c =>
      c.id = captureId && (c.status = .uploaded || (c.status = .analyzing &&
        match c.analysisStartedAt with
        | none => true
        | some startedAt => decide (startedAt ≤ staleBefore)))
  | releaseAttempt captureId t, c => c.id = captureId && owns t c
  | markVerified captureId sha256 t, c =>
      c.id = captureId && owns t c && c.expectedSha256 = sha256
  | markAnalyzed captureId sha256 t, c =>
      c.id = captureId && owns t c && c.expectedSha256 = sha256
  | markFailed captureId _ _ t, c => c.id = captureId && owns t c

/-- The `SET` clause; `now` is the clock of the worker. -/
def values (now : Timestamp) : AttemptUpdate → NetworkCapture → NetworkCapture
  | claimAttempt _ t _, c =>
      { c with status := .analyzing, analysisAttemptCount := c.analysisAttemptCount + 1,
               analysisStartedAt := some t, analysisFinishedAt := none,
               errorCode := none, errorMessage := none }
  | releaseAttempt _ _, c => { c with status := .uploaded }
  | markVerified _ sha256 _, c => { c with verifiedSha256 := some sha256 }
  | markAnalyzed _ sha256 _, c =>
      { c with verifiedSha256 := some sha256, status := .analyzed,
               analysisFinishedAt := some now, errorCode := none, errorMessage := none }
  | markFailed _ code message _, c =>
      { c with status := .failed, analysisFinishedAt := some now, errorCode := some code,
               errorMessage := some (String.ofList (message.toList.take 1000)) }

def writeRow (now : Timestamp) (u : AttemptUpdate) (c : NetworkCapture) : NetworkCapture :=
  if u.applies c then u.values now c else c

theorem writeRow_identity (now : Timestamp) (u : AttemptUpdate) (c : NetworkCapture) :
    (u.writeRow now c).toCaptureIdentity = c.toCaptureIdentity := by
  unfold writeRow
  split
  · cases u <;> rfl
  · rfl

theorem id_of_applies {u : AttemptUpdate} {c : NetworkCapture} (h : u.applies c) :
    c.id = u.captureId := by
  cases u <;> simp only [applies, Bool.and_eq_true, decide_eq_true_eq] at h
  · exact h.1
  · exact h.1
  · exact h.1.1
  · exact h.1.1
  · exact h.1

/-- A successful claim is remembered. -/
def remember (i : Nat) : AttemptUpdate → Backend → Backend
  | claimAttempt captureId t _, s => s.log (.claimed i captureId t)
  | _, s => s

/-- The statement and the commit, when a row is hit. -/
def run (i : Nat) (now : Timestamp) (u : AttemptUpdate) (s : Backend) : Backend :=
  u.remember i { s with captures := s.captures.update (u.writeRow now) (u.writeRow_identity now) }

end AttemptUpdate

/-! ## Commands -/

/-- The calls that change nothing. -/
inductive Query where
  | getIdempotencyKey (key : Uuid)
  | get (captureId : Uuid)
  | getLogical (applicationId : Uuid) (scenario : Scenario) (expectedSha256 : Sha256)
  | getVerifiedObject (objectKey : String)
  | applicationPackageName (applicationId : Uuid)
  | withPackageName (captureId : Uuid)
  | reconcilable
  | references (objectKey : String)
  | headObject (objectKey : String)
  | generatePresignedPut (objectKey contentType : String)
  | downloadFile (objectKey : String)
  | now
  | uuid4
  | poll
  | commitOffset

/-- A record of the capture-ready topic as the decoder leaves it. -/
inductive ReadyMessage where
  | invalid
  | event (event : EventEnvelope NetworkCaptureReadyV1)

@[reducible] def Query.Answer : Query → Type
  | getIdempotencyKey _ => Option NetworkCaptureIdempotencyKey
  | get _ => Option NetworkCapture
  | getLogical _ _ _ => Option NetworkCapture
  | getVerifiedObject _ => Option NetworkCapture
  | applicationPackageName _ => Option NonBlankString
  | withPackageName _ => Option (NetworkCapture × NonBlankString)
  | reconcilable => List (NetworkCapture × NonBlankString)
  | references _ => List NetworkCapture
  | headObject _ => Option ObjectMetadata
  | generatePresignedPut _ _ => String
  | downloadFile _ => LocalFile
  | now => Timestamp
  | uuid4 => Uuid
  | poll => Option ReadyMessage
  | commitOffset => Unit

inductive Cmd where
  | query (q : Query)
  | lock (key : LockKey)
  | commit (work : UnitOfWork)
  | rollback
  | deleteObject (objectKey : String)
  | publishReady (event : EventEnvelope NetworkCaptureReadyV1)
  | publishAnalysis (event : EventEnvelope NetworkAnalysisCollectedV1)
  | attempt (u : AttemptUpdate)

/-- The conditional updates answer whether they hit a row. -/
@[reducible] def Cmd.Answer : Cmd → Type
  | query q => q.Answer
  | attempt _ => Bool
  | _ => Unit

inductive Fault where
  | none
  | before
  | after
deriving DecidableEq

/-- What the environment decides in one step. `choice` breaks ties where the
query leaves the order open; any record may be delivered to a worker, since
all it relies on is what it checks itself. -/
structure Env where
  fault : Fault
  now : Timestamp
  uuid : Uuid
  choice : Nat
  url : String
  message : Option ReadyMessage
  file : LocalFile

/-- The exception of a call that fails for reasons of its own. -/
def Cmd.failure : Cmd → Option CaptureError
  | query .now => none
  | query .uuid4 => none
  | query (.headObject _) => some (.storageUnavailable "Could not inspect the capture object")
  | query (.generatePresignedPut _ _) => some (.storageUnavailable "Could not create an upload URL")
  | query (.downloadFile _) => some (.storageUnavailable "Could not download the capture object")
  | query .poll => some .consumerError
  | query .commitOffset => some .consumerError
  | query _ => some .databaseError
  | lock _ => some .databaseError
  | commit _ => some .databaseError
  | rollback => none
  | deleteObject _ => some (.storageUnavailable "Could not delete the capture object")
  | publishReady _ => some (.captureDispatch "Could not publish the capture-ready event")
  | publishAnalysis _ => some (.captureDispatch "Could not publish the analysis event")
  | attempt _ => some .databaseError

/-- `analysis_finished_at DESC NULLS LAST`: nothing comes strictly before. -/
def finishedBefore : Option Timestamp → Option Timestamp → Bool
  | some a, some b => decide (b < a)
  | some _, none => true
  | none, _ => false

/-- `get_verified_object`: the candidates that may come first, and one of them. -/
def verifiedObject (captures : CaptureTable) (objectKey : String) (choice : Nat) :
    Option NetworkCapture :=
  let candidates := captures.rows.filter fun c =>
    c.objectKey = objectKey && c.verifiedSha256.isSome && c.objectDeletedAt.isNone
  let first := candidates.filter fun c => candidates.all fun d =>
    !finishedBefore d.analysisFinishedAt c.analysisFinishedAt
  first[choice % first.length]?

/-- The rows `reconcile_captures` selects, by creation time and id. -/
def reconcilableRows (applications : ApplicationTable) (captures : CaptureTable) :
    List (NetworkCapture × NonBlankString) :=
  let rows := captures.rows.filterMap fun c =>
    if c.status = .pendingUpload || c.status = .uploaded || c.status = .analyzing then
      (applications.packageName c.applicationId).map fun p => (c, p)
    else none
  rows.insertionSort fun a b => a.1.createdAt < b.1.createdAt ∨
    (a.1.createdAt = b.1.createdAt ∧ a.1.id.bits.toNat ≤ b.1.id.bits.toNat)

def Query.answer (e : Env) (s : Backend) : (q : Query) → Except CaptureError q.Answer
  | .getIdempotencyKey key => .ok (s.idempotencyKeys.rows.find? fun m => m.idempotencyKey = key)
  | .get captureId => .ok (s.captures.rows.find? fun c => c.id = captureId)
  | .getLogical applicationId scenario expectedSha256 =>
      .ok (s.captures.rows.find? fun c => c.logical = (applicationId, scenario, expectedSha256))
  | .getVerifiedObject objectKey => .ok (verifiedObject s.captures objectKey e.choice)
  | .applicationPackageName applicationId => .ok (s.applications.packageName applicationId)
  | .withPackageName captureId => .ok (captureWithPackage s.applications s.captures captureId)
  | .reconcilable => .ok (reconcilableRows s.applications s.captures)
  | .references objectKey => .ok (s.captures.rows.filter fun c =>
      c.objectKey = objectKey && c.objectDeletedAt.isNone)
  | .headObject objectKey => .ok (s.objects objectKey)
  | .generatePresignedPut _ _ => .ok e.url
  | .downloadFile objectKey =>
      match s.objects objectKey with
      | some _ => .ok e.file
      | none => .error (.captureObjectMissing "The completed capture object no longer exists")
  | .now => .ok e.now
  | .uuid4 => .ok e.uuid
  | .poll => .ok e.message
  | .commitOffset => .ok ()

/-- A command that gets through. `none` is a lock that another session holds. -/
def perform (i : Nat) (e : Env) : (c : Cmd) → Backend →
    Option (Except CaptureError c.Answer × Backend)
  | .query q, s => some (q.answer e s, s)
  | .lock key, s =>
      match s.locks key with
      | none => some (.ok (), { s with locks := Function.update s.locks key (some i) })
      | some j => if j = i then some (.ok (), s) else none
  | .commit work, s =>
      match s.flush e.now work with
      | .ok s' => some (.ok (), (s'.releaseLocks i).log (.committed i))
      | .error x => some (.error x, s)
  | .rollback, s => some (.ok (), s.releaseLocks i)
  | .deleteObject objectKey, s =>
      some (.ok (), { s with objects := Function.update s.objects objectKey none })
  | .publishReady event, s => some (.ok (), { s with readyTopic := s.readyTopic ++ [event] })
  | .publishAnalysis event, s =>
      some (.ok (), { s with collectedTopic := s.collectedTopic ++ [event] })
  | .attempt u, s =>
      if s.captures.rows.any u.applies then some (.ok true, u.run i e.now s)
      else some (.ok false, s)

/-- The broker's acknowledgement of an analysis event is remembered. -/
def acknowledge : Cmd → Backend → Backend
  | .publishAnalysis event, s => s.log (.analysisPublished event.eventId)
  | _, s => s

def exec : Conc.Exec Backend Cmd Env CaptureError Cmd.Answer := fun i e c s =>
  match e.fault, c.failure with
  | .before, some x => some (.error x, s)
  | .after, some x => (perform i e c s).map fun p => (.error x, p.2)
  | _, _ => (perform i e c s).map fun p => (p.1, acknowledge c p.2)

/-! ## What a command can do -/

/-- The changes of the backend a command can make: none, because it only reads
or failed on the way, or the one change it stands for. -/
inductive Effect (i : Nat) (now : Timestamp) (s : Backend) : Cmd → Backend → Prop
  | idle (c : Cmd) : Effect i now s c s
  | locked (key : LockKey) : s.locks key = none →
      Effect i now s (.lock key) { s with locks := Function.update s.locks key (some i) }
  | committed (work : UnitOfWork) (s₁ : Backend) : s.flush now work = .ok s₁ →
      Effect i now s (.commit work) ((s₁.releaseLocks i).log (.committed i))
  | rolledBack : Effect i now s .rollback (s.releaseLocks i)
  | deleted (objectKey : String) : Effect i now s (.deleteObject objectKey)
      { s with objects := Function.update s.objects objectKey none }
  | readyPublished (event : EventEnvelope NetworkCaptureReadyV1) :
      Effect i now s (.publishReady event) { s with readyTopic := s.readyTopic ++ [event] }
  | analysisSent (event : EventEnvelope NetworkAnalysisCollectedV1) :
      Effect i now s (.publishAnalysis event)
        { s with collectedTopic := s.collectedTopic ++ [event] }
  | analysisPublished (event : EventEnvelope NetworkAnalysisCollectedV1) :
      Effect i now s (.publishAnalysis event)
        (Backend.log (.analysisPublished event.eventId)
          { s with collectedTopic := s.collectedTopic ++ [event] })
  | attempted (u : AttemptUpdate) : s.captures.rows.any u.applies = true →
      Effect i now s (.attempt u) (u.run i now s)

theorem perform_effect {i : Nat} {e : Env} {c : Cmd} {s s' : Backend}
    {v : Except CaptureError c.Answer} (h : perform i e c s = some (v, s')) :
    Effect i e.now s c s' ∧ Effect i e.now s c (acknowledge c s') := by
  cases c with
  | query q =>
      obtain ⟨-, rfl⟩ := Prod.mk.injEq .. |>.mp (Option.some.inj h)
      exact ⟨.idle _, .idle _⟩
  | lock key =>
      simp only [perform] at h
      split at h
      · rename_i hfree
        obtain ⟨-, rfl⟩ := Prod.mk.injEq .. |>.mp (Option.some.inj h)
        exact ⟨.locked key hfree, .locked key hfree⟩
      · split at h
        · obtain ⟨-, rfl⟩ := Prod.mk.injEq .. |>.mp (Option.some.inj h)
          exact ⟨.idle _, .idle _⟩
        · cases h
  | commit work =>
      simp only [perform] at h
      split at h
      · rename_i s₁ hflush
        obtain ⟨-, rfl⟩ := Prod.mk.injEq .. |>.mp (Option.some.inj h)
        exact ⟨.committed work s₁ hflush, .committed work s₁ hflush⟩
      · obtain ⟨-, rfl⟩ := Prod.mk.injEq .. |>.mp (Option.some.inj h)
        exact ⟨.idle _, .idle _⟩
  | rollback =>
      obtain ⟨-, rfl⟩ := Prod.mk.injEq .. |>.mp (Option.some.inj h)
      exact ⟨.rolledBack, .rolledBack⟩
  | deleteObject objectKey =>
      obtain ⟨-, rfl⟩ := Prod.mk.injEq .. |>.mp (Option.some.inj h)
      exact ⟨.deleted _, .deleted _⟩
  | publishReady event =>
      obtain ⟨-, rfl⟩ := Prod.mk.injEq .. |>.mp (Option.some.inj h)
      exact ⟨.readyPublished _, .readyPublished _⟩
  | publishAnalysis event =>
      obtain ⟨-, rfl⟩ := Prod.mk.injEq .. |>.mp (Option.some.inj h)
      exact ⟨.analysisSent _, .analysisPublished _⟩
  | attempt u =>
      simp only [perform] at h
      split at h
      · rename_i hany
        obtain ⟨-, rfl⟩ := Prod.mk.injEq .. |>.mp (Option.some.inj h)
        exact ⟨.attempted u hany, .attempted u hany⟩
      · obtain ⟨-, rfl⟩ := Prod.mk.injEq .. |>.mp (Option.some.inj h)
        exact ⟨.idle _, .idle _⟩

/-- An execution fails on the way, gets through and loses its answer, or gets
through. -/
theorem exec_cases {i : Nat} {e : Env} {c : Cmd} {s s' : Backend}
    {v : Except CaptureError c.Answer} (h : exec i e c s = some (v, s')) :
    (∃ x, c.failure = some x ∧ v = .error x ∧ s' = s) ∨
    (∃ x v₁, c.failure = some x ∧ perform i e c s = some (v₁, s') ∧ v = .error x) ∨
    (∃ s₁, perform i e c s = some (v, s₁) ∧ s' = acknowledge c s₁) := by
  unfold exec at h
  split at h
  · rename_i x _ hx
    obtain ⟨rfl, rfl⟩ := Prod.mk.injEq .. |>.mp (Option.some.inj h)
    exact Or.inl ⟨x, hx, rfl, rfl⟩
  · rename_i x _ hx
    obtain ⟨⟨v₁, s₁⟩, hp, heq⟩ := Option.map_eq_some_iff.mp h
    obtain ⟨rfl, rfl⟩ := Prod.mk.injEq .. |>.mp heq
    exact Or.inr (Or.inl ⟨x, v₁, hx, hp, rfl⟩)
  · obtain ⟨⟨v₁, s₁⟩, hp, heq⟩ := Option.map_eq_some_iff.mp h
    obtain ⟨rfl, rfl⟩ := Prod.mk.injEq .. |>.mp heq
    exact Or.inr (Or.inr ⟨s₁, hp, rfl⟩)

theorem exec_effect {i : Nat} {e : Env} {c : Cmd} {s s' : Backend}
    {v : Except CaptureError c.Answer} (h : exec i e c s = some (v, s')) :
    Effect i e.now s c s' := by
  rcases exec_cases h with ⟨x, -, -, rfl⟩ | ⟨x, v₁, -, hp, -⟩ | ⟨s₁, hp, rfl⟩
  · exact .idle c
  · exact (perform_effect hp).1
  · exact (perform_effect hp).2

end Sahabino
