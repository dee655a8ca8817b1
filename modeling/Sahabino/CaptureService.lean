import Sahabino.Backend

/-!
# The capture processes

`CaptureService.create` and `complete`, the operator commands
`reconcile_captures`, `retry_capture` and `cleanup_capture_object`, and
`NetworkAnalyzerWorker.process_next`, as processes over the backend: one
command per call of the source, in the order of the source.

A session that takes no advisory lock leaves nothing behind when it ends,
so only `create` and `cleanup_capture_object` end theirs explicitly
(`withSession`).

`captureSystem` is the pool of all of them, with clients uploading
objects, the application registry and the ingestion transactions as the
outside world.
-/

namespace Sahabino

open Conc (Prog)

abbrev Process := Prog Cmd Cmd.Answer CaptureError

def query (q : Query) : Process q.Answer := Prog.cmd (Cmd.query q)

def issue (c : Cmd) : Process c.Answer := Prog.cmd c

/-- The `with` block of a session: leaving it ends the transaction. -/
def withSession {α : Type} (body : Process α) : Process α := body.ensure (issue .rollback)

/-! ## The repository and the publisher -/

/-- `refresh`; the row cannot have disappeared, rows are never deleted. -/
def refresh (capture : NetworkCapture) : Process NetworkCapture := do
  match ← query (.get capture.id) with
  | some current => pure current
  | none => Prog.raise (.unexpected "Could not refresh instance")

def packageNameForCapture (capture : NetworkCapture) : Process NonBlankString := do
  match ← query (.applicationPackageName capture.applicationId) with
  | some packageName => pure packageName
  | none => Prog.raise .assertionError

def readyPayload (capture : NetworkCapture) (packageName : NonBlankString)
    (uploadedAt : Timestamp) : NetworkCaptureReadyV1 where
  captureId := capture.id
  analysisId := capture.analysisId
  applicationId := capture.applicationId
  packageName := packageName
  scenario := capture.scenario
  objectKey := capture.objectKey
  captureFormat := capture.captureFormat
  captureSizeBytes := capture.captureSizeBytes
  transferFileSizeBytes := capture.transferFileSizeBytes
  expectedSha256 := capture.expectedSha256
  uploadedAt := uploadedAt

def publishReady (capture : NetworkCapture) (packageName : NonBlankString) : Process Unit :=
  match capture.uploadedAt with
  | none => Prog.raise (.valueError "an uploaded timestamp is required before publication")
  | some uploadedAt => issue (.publishReady
      (captureReadyEnvelope (readyPayload capture packageName uploadedAt) capture.readyEventId))

def publishAnalysis (capture : NetworkCapture) (payload : NetworkAnalysisCollectedV1) :
    Process Unit :=
  issue (.publishAnalysis (analysisCollectedEnvelope payload capture.analysisEventId))

/-! ## Moves of the lifecycle made through loaded objects -/

namespace NetworkCapture

/-- `_reopen_expired`; `object_deleted_at` is not among the columns it resets. -/
def reopenExpired (capture : NetworkCapture) : Option NetworkCapture :=
  if capture.status ≠ .expired then none
  else some { capture with
    status := .pendingUpload
    verifiedSha256 := none
    uploadedAt := none
    analysisStartedAt := none
    analysisFinishedAt := none
    errorCode := none
    errorMessage := none }

/-- The assignments of `complete` and of `reconcile_captures` for a present
object. -/
def setUploaded (capture : NetworkCapture) (now : Timestamp) : NetworkCapture :=
  { capture with
    status := .uploaded
    uploadedAt := some now
    objectDeletedAt := none
    errorCode := none
    errorMessage := none }

def setExpired (capture : NetworkCapture) (code message : String) : NetworkCapture :=
  { capture with status := .expired, errorCode := some code, errorMessage := some message }

/-- The assignments of `retry_capture`. -/
def setRetried (capture : NetworkCapture) : NetworkCapture :=
  { capture with
    status := .uploaded
    errorCode := none
    errorMessage := none
    analysisFinishedAt := none }

def setObjectDeleted (capture : NetworkCapture) (deletedAt : Timestamp) : NetworkCapture :=
  { capture with objectDeletedAt := some deletedAt }

def terminal (capture : NetworkCapture) : Bool :=
  capture.status = .analyzed || capture.status = .failed || capture.status = .expired

/-- The states in which `create` replays the ready event. -/
def dispatchable (capture : NetworkCapture) : Bool :=
  capture.status = .uploaded || capture.status = .analyzing

end NetworkCapture

/-! ## `CaptureService.create` -/

structure CaptureCreateResponse where
  captureId : Uuid
  analysisId : Uuid
  readyEventId : Uuid
  status : CaptureStatus
  uploadRequired : Bool
  uploadUrl : Option String
  expiresIn : Option Nat

/-- `_create_response`. -/
def createResponse (settings : Settings) (capture : NetworkCapture) :
    Process CaptureCreateResponse :=
  if capture.status = .pendingUpload then do
    let url ← query (.generatePresignedPut capture.objectKey capture.contentType)
    pure ⟨capture.id, capture.analysisId, capture.readyEventId, capture.status, true, some url,
      some settings.objectStoragePresignExpirySeconds⟩
  else
    pure ⟨capture.id, capture.analysisId, capture.readyEventId, capture.status, false, none, none⟩

def publishReadyIfDispatchable (capture : NetworkCapture)
    (packageName : Option NonBlankString) : Process Unit :=
  if capture.dispatchable then
    match packageName with
    | some packageName => publishReady capture packageName
    | none => do
        let packageName ← packageNameForCapture capture
        publishReady capture packageName
  else pure ()

/-- `_publish_ready_if_dispatchable`, then `_create_response`. -/
def dispatchAndRespond (settings : Settings) (capture : NetworkCapture)
    (packageName : Option NonBlankString) : Process CaptureCreateResponse := do
  publishReadyIfDispatchable capture packageName
  createResponse settings capture

/-- `_validate_logical_metadata`. -/
def metadataMatches (capture : NetworkCapture) (data : CaptureCreate) : Bool :=
  capture.captureFormat = data.captureFormat && capture.captureSizeBytes = data.captureSizeBytes
    && capture.transferFileSizeBytes = data.transferFileSizeBytes

/-- The branch of a key that is already mapped. -/
def resumeMapped (settings : Settings) (data : CaptureCreate)
    (mapping : NetworkCaptureIdempotencyKey) : Process CaptureCreateResponse :=
  if mapping.requestFingerprint ≠ requestFingerprint settings data then
    Prog.raise .idempotencyConflict
  else do
    match ← query (.get mapping.captureId) with
    | none =>
        Prog.raise (.runtimeError "Idempotency mapping references a missing network capture")
    | some mapped =>
        issue (.lock (.object mapped.objectKey))
        let capture ← refresh mapped
        match capture.reopenExpired with
        | some reopened =>
            issue (.commit ⟨none, [(capture, reopened)], none⟩)
            dispatchAndRespond settings reopened none
        | none => dispatchAndRespond settings capture none

/-- Validate, reopen, bind the key and answer from a logical row. -/
def bindLogical (settings : Settings) (data : CaptureCreate) (idempotencyKey : Uuid)
    (logical : NetworkCapture) : Process CaptureCreateResponse :=
  if metadataMatches logical data then
    let mapping : NetworkCaptureIdempotencyKey :=
      ⟨idempotencyKey, logical.id, requestFingerprint settings data⟩
    match logical.reopenExpired with
    | some reopened => do
        issue (.commit ⟨none, [(logical, reopened)], some mapping⟩)
        dispatchAndRespond settings reopened none
    | none => do
        issue (.commit ⟨none, [], some mapping⟩)
        dispatchAndRespond settings logical none
  else Prog.raise .captureMetadataConflict

/-- The branch of an existing logical row; its own object key is locked too
when it is not the requested one. -/
def reuseLogical (settings : Settings) (data : CaptureCreate) (idempotencyKey : Uuid)
    (logical : NetworkCapture) : Process CaptureCreateResponse :=
  if logical.objectKey ≠ objectKeyFor data.sha256 data.captureFormat then do
    issue (.lock (.object logical.objectKey))
    let logical ← refresh logical
    bindLogical settings data idempotencyKey logical
  else bindLogical settings data idempotencyKey logical

/-- After `IntegrityError`: another request won the race for the key or for
the logical identity. -/
def recoverCreate (settings : Settings) (data : CaptureCreate) (idempotencyKey : Uuid) :
    Process CaptureCreateResponse := do
  issue .rollback
  issue (.lock (.idempotency idempotencyKey))
  match ← query (.getIdempotencyKey idempotencyKey) with
  | some mapping => resumeMapped settings data mapping
  | none =>
      issue (.lock (.object (objectKeyFor data.sha256 data.captureFormat)))
      match ← query (.getLogical data.applicationId data.scenario data.sha256) with
      | some winner => reuseLogical settings data idempotencyKey winner
      | none => Prog.raise .integrityError

/-- The verified row to share the object of, checked against storage. -/
def reusableObject (data : CaptureCreate) : Process (Option NetworkCapture) := do
  let objectKey := objectKeyFor data.sha256 data.captureFormat
  match ← query (.getVerifiedObject objectKey) with
  | none => pure none
  | some verified =>
      if verified.captureSizeBytes ≠ data.captureSizeBytes then
        Prog.raise (.captureObjectSizeMismatch
          "capture_size_bytes conflicts with the verified content-addressed object")
      else do
        match ← query (.headObject objectKey) with
        | none => pure none
        | some metadata =>
            if metadata.sizeBytes ≠ data.captureSizeBytes then
              Prog.raise (.captureObjectSizeMismatch
                "The verified content-addressed object size is inconsistent with storage")
            else pure (some verified)

/-- The four identities drawn for a new row. -/
structure DrawnIds where
  id : Uuid
  readyEventId : Uuid
  analysisId : Uuid
  analysisEventId : Uuid

/-- The row `create` inserts; `created_at` is filled in by the server. -/
def newCapture (data : CaptureCreate) (verified : Option NetworkCapture) (now : Timestamp)
    (ids : DrawnIds) : NetworkCapture where
  id := ids.id
  applicationId := data.applicationId
  scenario := data.scenario
  originalFilename := data.filename
  captureFormat := data.captureFormat
  contentType := data.contentType
  objectKey := objectKeyFor data.sha256 data.captureFormat
  expectedSha256 := data.sha256
  captureSizeBytes := data.captureSizeBytes
  transferFileSizeBytes := data.transferFileSizeBytes
  readyEventId := ids.readyEventId
  analysisId := ids.analysisId
  analysisEventId := ids.analysisEventId
  createdAt := now
  verifiedSha256 := verified.bind (·.verifiedSha256)
  status := if verified.isSome then .uploaded else .pendingUpload
  analysisAttemptCount := 0
  uploadedAt := if verified.isSome then some now else none
  analysisStartedAt := none
  analysisFinishedAt := none
  objectDeletedAt := none
  errorCode := none
  errorMessage := none

def drawIds : Process DrawnIds := do
  let id ← query .uuid4
  let readyEventId ← query .uuid4
  let analysisId ← query .uuid4
  let analysisEventId ← query .uuid4
  pure ⟨id, readyEventId, analysisId, analysisEventId⟩

/-- Insert the row and its key; `false` is the caught `IntegrityError`. -/
def insertNew (settings : Settings) (data : CaptureCreate) (idempotencyKey : Uuid)
    (capture : NetworkCapture) : Process Bool :=
  Prog.tryCatch
    (do
      issue (.commit ⟨some capture, [],
        some ⟨idempotencyKey, capture.id, requestFingerprint settings data⟩⟩)
      pure true)
    fun
      | .integrityError => pure false
      | e => Prog.raise e

def createFresh (settings : Settings) (data : CaptureCreate) (idempotencyKey : Uuid) :
    Process CaptureCreateResponse := do
  match ← query (.applicationPackageName data.applicationId) with
  | none => Prog.raise (.applicationNotFound data.applicationId)
  | some packageName =>
      let verified ← reusableObject data
      let now ← query .now
      let ids ← drawIds
      let capture := newCapture data verified now ids
      let inserted ← insertNew settings data idempotencyKey capture
      if inserted then dispatchAndRespond settings capture (some packageName)
      else recoverCreate settings data idempotencyKey

def create (settings : Settings) (data : CaptureCreate) (idempotencyKey : Uuid) :
    Process CaptureCreateResponse := do
  issue (.lock (.idempotency idempotencyKey))
  match ← query (.getIdempotencyKey idempotencyKey) with
  | some mapping => resumeMapped settings data mapping
  | none =>
      if settings.objectStorageMaxCaptureSizeBytes < data.captureSizeBytes then
        Prog.raise (.captureTooLarge "capture_size_bytes exceeds the configured maximum")
      else do
        issue (.lock (.object (objectKeyFor data.sha256 data.captureFormat)))
        match ← query (.getLogical data.applicationId data.scenario data.sha256) with
        | some logical => reuseLogical settings data idempotencyKey logical
        | none => createFresh settings data idempotencyKey

/-! ## `CaptureService.complete` -/

def statusText : CaptureStatus → String
  | .pendingUpload => "pending_upload"
  | .uploaded => "uploaded"
  | .analyzing => "analyzing"
  | .analyzed => "analyzed"
  | .failed => "failed"
  | .expired => "expired"

/-- The tail of `complete`: replay the ready event where there is work left. -/
def announceCompleted (capture : NetworkCapture) : Process NetworkCapture :=
  if capture.dispatchable then do
    let packageName ← packageNameForCapture capture
    publishReady capture packageName
    pure capture
  else pure capture

def complete (captureId : Uuid) : Process NetworkCapture := do
  match ← query (.get captureId) with
  | none => Prog.raise (.captureNotFound captureId)
  | some capture =>
      if capture.status = .failed || capture.status = .expired then
        Prog.raise (.invalidCaptureState
          ("Capture in status '" ++ statusText capture.status ++ "' cannot be completed"))
      else do
        match ← query (.headObject capture.objectKey) with
        | none => Prog.raise (.captureObjectMissing "The uploaded capture object was not found")
        | some metadata =>
            if metadata.sizeBytes ≠ capture.captureSizeBytes then
              Prog.raise (.captureObjectSizeMismatch
                "The uploaded object size does not match capture_size_bytes")
            else if capture.status = .pendingUpload then do
              let now ← query .now
              issue (.commit ⟨none, [(capture, capture.setUploaded now)], none⟩)
              announceCompleted (capture.setUploaded now)
            else announceCompleted capture

/-! ## Operator commands -/

/-- The locals of `reconcile_captures`, with the objects it dirtied. -/
structure Reconciled where
  updates : List (NetworkCapture × NetworkCapture)
  toPublish : List (Uuid × NonBlankString)
  uploaded : Nat
  expired : Nat

namespace Reconciled

def expire (acc : Reconciled) (capture : NetworkCapture) (code message : String) : Reconciled :=
  { acc with
    updates := acc.updates ++ [(capture, capture.setExpired code message)],
    expired := acc.expired + 1 }

def upload (acc : Reconciled) (capture : NetworkCapture) (packageName : NonBlankString)
    (current : Timestamp) : Reconciled :=
  { acc with
    updates := acc.updates ++ [(capture, capture.setUploaded current)],
    uploaded := acc.uploaded + 1,
    toPublish := acc.toPublish ++ [(capture.id, packageName)] }

def republish (acc : Reconciled) (capture : NetworkCapture) (packageName : NonBlankString) :
    Reconciled :=
  { acc with toPublish := acc.toPublish ++ [(capture.id, packageName)] }

end Reconciled

/-- An attempt that started at or before the cutoff, as far as it is known. -/
def staleAnalysis (capture : NetworkCapture) (analyzingCutoff : Timestamp) : Bool :=
  capture.status = .analyzing &&
    match capture.analysisStartedAt with
    | some startedAt => decide (startedAt ≤ analyzingCutoff)
    | none => false

/-- The loop of `reconcile_captures`. -/
def reconcileRows (settings : Settings) (current : Timestamp) :
    List (NetworkCapture × NonBlankString) → Reconciled → Process Reconciled
  | [], acc => pure acc
  | (capture, packageName) :: rows, acc =>
      if capture.status = .pendingUpload then
        if current - seconds settings.networkPendingUploadExpirySeconds < capture.createdAt then
          reconcileRows settings current rows acc
        else do
          match ← query (.headObject capture.objectKey) with
          | none => reconcileRows settings current rows (acc.expire capture "upload_expired"
              "No object was found before the upload deadline")
          | some metadata =>
              if metadata.sizeBytes ≠ capture.captureSizeBytes then
                reconcileRows settings current rows
                  (acc.expire capture "capture_object_size_mismatch"
                    "Uploaded object size did not match registered size")
              else reconcileRows settings current rows (acc.upload capture packageName current)
      else if capture.status = .uploaded ||
          staleAnalysis capture (current - seconds settings.networkStaleAnalysisSeconds) then
        reconcileRows settings current rows (acc.republish capture packageName)
      else reconcileRows settings current rows acc

def publishAll : List (Uuid × NonBlankString) → Process Unit
  | [] => pure ()
  | (captureId, packageName) :: rest => do
      match ← query (.get captureId) with
      | some capture => do
          publishReady capture packageName
          publishAll rest
      | none => publishAll rest

def reconcileCaptures (settings : Settings) (now : Option Timestamp) : Process Reconciled := do
  let current ← match now with
    | some now => pure now
    | none => query .now
  let rows ← query .reconcilable
  let acc ← reconcileRows settings current rows ⟨[], [], 0, 0⟩
  issue (.commit ⟨none, acc.updates, none⟩)
  publishAll acc.toPublish
  pure acc

def retryCapture (captureId : Uuid) : Process NetworkCapture := do
  match ← query (.withPackageName captureId) with
  | none => Prog.raise (.captureNotFound captureId)
  | some (capture, packageName) =>
      if capture.status ≠ .failed then
        Prog.raise (.invalidCaptureState "Only a failed capture is eligible for explicit retry")
      else if capture.objectDeletedAt.isSome then
        Prog.raise (.invalidCaptureState
          "A capture whose raw object was deleted cannot be retried")
      else do
        issue (.commit ⟨none, [(capture, capture.setRetried)], none⟩)
        match ← query (.get captureId) with
        | none => Prog.raise .assertionError
        | some capture => do
            publishReady capture packageName
            pure capture

/-- Delete what is still there and mark the references. -/
def deleteReferences (objectKey : String) (references : List NetworkCapture) : Process Nat := do
  match ← query (.headObject objectKey) with
  | some _ => issue (.deleteObject objectKey)
  | none => pure ()
  let deletedAt ← query .now
  issue (.commit ⟨none, references.map fun c => (c, c.setObjectDeleted deletedAt), none⟩)
  pure references.length

def cleanupCaptureObject (captureId : Uuid) : Process Nat := do
  match ← query (.get captureId) with
  | none => Prog.raise (.captureNotFound captureId)
  | some loaded =>
      issue (.lock (.object loaded.objectKey))
      let capture ← refresh loaded
      let selected ← query (.references capture.objectKey)
      -- the refreshed object is already in the identity map and stays as it is
      let references := selected.map fun c => if c.id = capture.id then capture else c
      if references.any fun c => !c.terminal then
        Prog.raise (.cleanupConflict
          "Raw object is still required by a non-terminal logical capture")
      else if references = [] then do
        issue (.commit UnitOfWork.nothing)
        pure 0
      else deleteReferences capture.objectKey references

/-! ## `NetworkAnalyzerWorker.process_next` -/

/-- The mismatch test of `load_and_validate`. -/
def readyMatches (capture : NetworkCapture) (packageName : NonBlankString)
    (event : EventEnvelope NetworkCaptureReadyV1) : Bool :=
  capture.readyEventId = event.eventId && capture.analysisId = event.payload.analysisId
    && capture.applicationId = event.payload.applicationId
    && packageName = event.payload.packageName && capture.scenario = event.payload.scenario
    && capture.objectKey = event.payload.objectKey
    && capture.captureFormat = event.payload.captureFormat
    && capture.captureSizeBytes = event.payload.captureSizeBytes
    && capture.transferFileSizeBytes = event.payload.transferFileSizeBytes
    && capture.expectedSha256 = event.payload.expectedSha256

def loadAndValidate (row : Option (NetworkCapture × NonBlankString))
    (event : EventEnvelope NetworkCaptureReadyV1) :
    Except CaptureError (NetworkCapture × NonBlankString) :=
  match row with
  | none => .error (.analyzerConsistency "capture does not exist")
  | some (capture, packageName) =>
      if readyMatches capture packageName event then .ok (capture, packageName)
      else .error (.analyzerConsistency "capture-ready event does not match lifecycle state")

def analysisPayload (event : EventEnvelope NetworkCaptureReadyV1) (packageName : NonBlankString)
    (metrics : AnalysisMetrics) : NetworkAnalysisCollectedV1 where
  toAnalysisMetrics := metrics
  analysisId := event.payload.analysisId
  captureId := event.payload.captureId
  applicationId := event.payload.applicationId
  packageName := packageName
  scenario := event.payload.scenario

/-- A claimed attempt, as `process_next` carries it from one transaction to the
next. -/
structure Attempt where
  captureId : Uuid
  packageName : NonBlankString
  startedAt : Timestamp

/-- The first transaction: validate, and claim unless there is nothing to do. -/
def claimWork (settings : Settings) (event : EventEnvelope NetworkCaptureReadyV1) :
    Process (Option Attempt) := do
  let row ← query (.withPackageName event.payload.captureId)
  match loadAndValidate row event with
  | .error e => Prog.raise e
  | .ok (capture, packageName) =>
      if capture.terminal then do
        query .commitOffset
        pure none
      else do
        let startedAt ← query .now
        let claimed ← issue (.attempt (.claimAttempt capture.id startedAt
          (startedAt - seconds settings.networkStaleAnalysisSeconds)))
        if claimed then pure (some ⟨capture.id, packageName, startedAt⟩)
        else Prog.raise (.analysisClaimUnavailable
          "capture is already owned by a fresh analyzer attempt")

/-- An update that must still find the row in the hands of this attempt. -/
def requireOwned (u : AttemptUpdate) : Process Unit := do
  let updated ← issue (.attempt u)
  if updated then pure ()
  else Prog.raise (.analyzerConsistency "analyzer attempt no longer owns the capture")

def analyze (event : EventEnvelope NetworkCaptureReadyV1) (work : Attempt) : Process Unit := do
  let file ← query (.downloadFile event.payload.objectKey)
  match analyzeCapture file event.payload.transferFileSizeBytes event.payload.captureFormat
      event.payload.expectedSha256 with
  | .error e => Prog.raise e
  | .ok metrics => do
      requireOwned (.markVerified work.captureId metrics.verifiedSha256 work.startedAt)
      match ← query (.get work.captureId) with
      | none => Prog.raise (.analyzerConsistency "capture disappeared before publication")
      | some capture => do
          publishAnalysis capture (analysisPayload event work.packageName metrics)
          requireOwned (.markAnalyzed work.captureId metrics.verifiedSha256 work.startedAt)

/-- `TerminalAnalysisError` and `CaptureObjectMissingError`, as the former. -/
def terminalError : CaptureError → Option (String × String)
  | .terminalAnalysis code message => some (code, message)
  | .captureObjectMissing message => some ("capture_object_missing", message)
  | _ => none

/-- The two `except` clauses around `analyze`. -/
def handleFailure (work : Attempt) (error : CaptureError) : Process Unit :=
  match terminalError error with
  | some (code, message) =>
      requireOwned (.markFailed work.captureId code message work.startedAt)
  | none => do
      Prog.tryCatch
        (do
          let _ ← issue (.attempt (.releaseAttempt work.captureId work.startedAt))
          pure ())
        fun _ => pure ()
      Prog.raise error

/-- Every way out that does not raise acknowledges the message. -/
def processNext (settings : Settings) : Process Bool := do
  match ← query .poll with
  | none => pure false
  | some .invalid => do
      query .commitOffset
      pure true
  | some (.event event) => do
      match ← claimWork settings event with
      | none => pure true
      | some work => do
          Prog.tryCatch (analyze event work) (handleFailure work)
          query .commitOffset
          pure true

/-! ## The pool -/

inductive Request where
  | create (data : CaptureCreate) (idempotencyKey : Uuid)
  | complete (captureId : Uuid)
  | reconcile (now : Option Timestamp)
  | retry (captureId : Uuid)
  | cleanup (captureId : Uuid)
  | processNext

inductive Reply where
  | created (response : CaptureCreateResponse)
  | capture (capture : NetworkCapture)
  | reconciled (outcome : Reconciled)
  | cleaned (references : Nat)
  | processed (polled : Bool)

def serve (settings : Settings) : Request → Process Reply
  | .create data idempotencyKey => do
      let response ← withSession (create settings data idempotencyKey)
      pure (.created response)
  | .complete captureId => do
      let capture ← complete captureId
      pure (.capture capture)
  | .reconcile now => do
      let outcome ← reconcileCaptures settings now
      pure (.reconciled outcome)
  | .retry captureId => do
      let capture ← retryCapture captureId
      pure (.capture capture)
  | .cleanup captureId => do
      let n ← withSession (cleanupCaptureObject captureId)
      pure (.cleaned n)
  | .processNext => do
      let polled ← processNext settings
      pure (.processed polled)

/-- What happens to the backend from outside the capture code. -/
inductive External where
  | putObject (objectKey : String) (metadata : ObjectMetadata)
  | createApplication (data : ApplicationCreate) (id : Uuid) (now : Timestamp)
  | updateApplication (applicationId : Uuid) (data : ApplicationUpdate) (now : Timestamp)
  | deactivateApplication (applicationId : Uuid) (now : Timestamp)
  | ingest (event : SupportedEvent) (source : TopicPartition) (offset : Nat) (env : TxEnv)

/-- A registry call or transaction that raises leaves the backend alone. -/
def Backend.setApplications (s : Backend) :
    Except RegistryError ApplicationTable → Backend
  | .ok applications => { s with applications := applications }
  | .error _ => s

def external : External → Backend → Option Backend
  | .putObject objectKey metadata, s =>
      some { s with objects := Function.update s.objects objectKey (some metadata) }
  | .createApplication data id now, s =>
      some (s.setApplications (createApplication s.categories data id now s.applications))
  | .updateApplication applicationId data now, s =>
      some (s.setApplications
        (updateApplication s.categories applicationId data now s.applications))
  | .deactivateApplication applicationId now, s =>
      some (s.setApplications (deactivateApplication applicationId now s.applications))
  | .ingest event source offset env, s =>
      match ingestTransaction s.refs event source offset env s.ingested with
      | .ok (_, ingested) => some { s with ingested := ingested }
      | .error _ => some s

/-- All of it together; a killed process loses its connection and its locks. -/
def captureSystem (settings : Settings) :
    Conc.System Backend Cmd Env External Request CaptureError Reply Cmd.Answer where
  exec := exec
  prog := serve settings
  crash := Backend.releaseLocks
  ext := external

end Sahabino
