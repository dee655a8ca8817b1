import Sahabino.Registry

/-!
# Ingestion: tables and handlers

The database transaction of one ingested event: `claim_event` inserts the
event's identity with `ON CONFLICT DO NOTHING`, and a claimed event is
handled in the same transaction (`handle_event`). A handler that raises
rolls the transaction back, so the whole is a function to the new tables
or to the exception.

Identity columns and `now()` come from the transaction's environment
(`TxEnv`): a rolled-back transaction still consumes sequence values, so
they are not a function of the stored rows.
-/

namespace Sahabino

inductive TaskType where
  | appDetails
  | reviews
deriving DecidableEq, Repr

structure CrawlTask where
  id : Uuid
  applicationId : Uuid
  taskType : TaskType
deriving DecidableEq

structure TopicPartition where
  topic : String
  partition : Nat
deriving DecidableEq

/-! ## Tables -/

structure IngestedEvent where
  eventId : Uuid
  eventType : String
  schemaVersion : Nat
  source : TopicPartition
  offset : Nat
  processedAt : Timestamp

/-- The primary key and `uq_ingested_events_topic_partition_offset`. -/
def IngestedClash (a b : IngestedEvent) : Prop :=
  a.eventId = b.eventId ∨ (a.source = b.source ∧ a.offset = b.offset)

instance : DecidableRel IngestedClash := fun a b => by
  unfold IngestedClash
  infer_instance

structure PlaystoreAppSnapshot where
  id : Nat
  crawlTaskId : Uuid
  applicationId : Uuid
  packageName : String
  collectedAt : Timestamp
  minInstalls : Nat
  score : Rel.Double
  ratingsCount : Nat
  reviewsCount : Nat
  storeUpdatedOn : Option Int
  version : Option String
  adSupported : Bool
  sourceAdapter : String
  createdAt : Timestamp

def SnapshotClash (a b : PlaystoreAppSnapshot) : Prop :=
  a.id = b.id ∨ a.crawlTaskId = b.crawlTaskId

instance : DecidableRel SnapshotClash := fun a b => by
  unfold SnapshotClash
  infer_instance

structure Review where
  id : Nat
  applicationId : Uuid
  externalReviewId : String
  sourceAt : Timestamp
  authorName : String
  thumbsUpCount : Nat
  score : Nat
  content : String
  sourceAdapter : String
  firstObservedAt : Timestamp
  lastObservedAt : Timestamp
  createdAt : Timestamp
  updatedAt : Timestamp

def ReviewClash (a b : Review) : Prop :=
  a.id = b.id ∨ (a.applicationId = b.applicationId ∧ a.externalReviewId = b.externalReviewId)

instance : DecidableRel ReviewClash := fun a b => by
  unfold ReviewClash
  infer_instance

structure ReviewObservation where
  crawlTaskId : Uuid
  reviewId : Nat
  observedAt : Timestamp
  position : Nat
  score : Nat
  thumbsUpCount : Nat
  sourceAdapter : String
  content : Option String
  sourceAt : Option Timestamp

def ObservationClash (a b : ReviewObservation) : Prop :=
  a.crawlTaskId = b.crawlTaskId ∧ a.reviewId = b.reviewId

instance : DecidableRel ObservationClash := fun a b => by
  unfold ObservationClash
  infer_instance

/-- The flattened columns of one analysis; an absent metric group is a group
of `NULL` columns. -/
structure NetworkAnalysisResult extends NetworkAnalysisCollectedV1 where
  createdAt : Timestamp

/-- The primary key and `uq_network_analysis_results_capture_id`. -/
def ResultClash (a b : NetworkAnalysisResult) : Prop :=
  a.analysisId = b.analysisId ∨ a.captureId = b.captureId

instance : DecidableRel ResultClash := fun a b => by
  unfold ResultClash
  infer_instance

/-- The tables ingestion writes. -/
structure IngestTables where
  ingestedEvents : Rel.Table IngestedEvent IngestedClash
  appSnapshots : Rel.Table PlaystoreAppSnapshot SnapshotClash
  reviews : Rel.Table Review ReviewClash
  observations : Rel.Table ReviewObservation ObservationClash
  analysisResults : Rel.Table NetworkAnalysisResult ResultClash

def IngestTables.empty : IngestTables :=
  ⟨Rel.Table.empty, Rel.Table.empty, Rel.Table.empty, Rel.Table.empty, Rel.Table.empty⟩

/-- The tables ingestion only reads. -/
structure Refs where
  crawlTasks : List CrawlTask
  applications : ApplicationTable
  captures : CaptureTable

structure TxEnv where
  now : Timestamp
  snapshotId : Nat
  reviewId : Nat

inductive IngestError where
  | consistency (message : String)
  | uniqueViolation
deriving DecidableEq

/-! ## The repository -/

def claimEvent (t : Rel.Table IngestedEvent IngestedClash) (event : SupportedEvent)
    (source : TopicPartition) (offset : Nat) (env : TxEnv) :
    Option (Rel.Table IngestedEvent IngestedClash) :=
  t.insert
    { eventId := event.eventId, eventType := event.eventType,
      schemaVersion := event.schemaVersion, source := source, offset := offset,
      processedAt := env.now }

def validateCrawlTask (refs : Refs) (crawlTaskId applicationId : Uuid)
    (expectedTaskType : TaskType) : Except IngestError Unit :=
  if refs.crawlTasks.any fun t => t.id = crawlTaskId ∧ t.applicationId = applicationId ∧
      t.taskType = expectedTaskType then .ok ()
  else .error (.consistency
    "crawl task is missing or does not match the event application and task type")

/-- `ON CONFLICT (crawl_task_id) DO NOTHING`. -/
def insertAppSnapshot (payload : AppStatsCollectedV1) (env : TxEnv)
    (t : Rel.Table PlaystoreAppSnapshot SnapshotClash) :
    Except IngestError (Rel.Table PlaystoreAppSnapshot SnapshotClash) :=
  if t.rows.any fun r => r.crawlTaskId = payload.crawlTaskId then .ok t
  else
    match t.insert
      { id := env.snapshotId, crawlTaskId := payload.crawlTaskId,
        applicationId := payload.applicationId, packageName := payload.packageName.1,
        collectedAt := payload.collectedAt, minInstalls := payload.minInstalls,
        score := payload.score.1, ratingsCount := payload.ratingsCount,
        reviewsCount := payload.reviewsCount, storeUpdatedOn := payload.storeUpdatedOn,
        version := payload.version, adSupported := payload.adSupported,
        sourceAdapter := payload.sourceAdapter.1, createdAt := env.now } with
    | some t' => .ok t'
    | none => .error .uniqueViolation

/-- The `DO UPDATE` assignments: the source fields follow the observation when
it is not older than the stored one. -/
def mergeReview (payload : ReviewObservedV1) (env : TxEnv) (r : Review) : Review :=
  let merged := { r with
    firstObservedAt := min r.firstObservedAt payload.observedAt, updatedAt := env.now }
  if r.lastObservedAt ≤ payload.observedAt then
    { merged with
      sourceAt := payload.sourceAt, authorName := payload.authorName,
      thumbsUpCount := payload.thumbsUpCount, score := payload.score.1,
      content := payload.content, sourceAdapter := payload.sourceAdapter.1,
      lastObservedAt := payload.observedAt }
  else merged

theorem mergeReview_keys (payload : ReviewObservedV1) (env : TxEnv) (r : Review) :
    (mergeReview payload env r).id = r.id
      ∧ (mergeReview payload env r).applicationId = r.applicationId
      ∧ (mergeReview payload env r).externalReviewId = r.externalReviewId := by
  unfold mergeReview
  split <;> exact ⟨rfl, rfl, rfl⟩

/-- Merging one review changes no key column, so it makes no two rows clash. -/
theorem mergeReview_clash (payload : ReviewObservedV1) (env : TxEnv) (id : Nat) (a b : Review)
    (h : ReviewClash (if a.id = id then mergeReview payload env a else a)
      (if b.id = id then mergeReview payload env b else b)) : ReviewClash a b := by
  obtain ⟨ha₁, ha₂, ha₃⟩ := mergeReview_keys payload env a
  obtain ⟨hb₁, hb₂, hb₃⟩ := mergeReview_keys payload env b
  unfold ReviewClash at *
  split at h <;> split at h <;> simp_all

/-- `ON CONFLICT (application_id, external_review_id) DO UPDATE ... RETURNING id`. -/
def upsertReview (payload : ReviewObservedV1) (env : TxEnv) (t : Rel.Table Review ReviewClash) :
    Except IngestError (Nat × Rel.Table Review ReviewClash) :=
  match t.rows.find? fun r => r.applicationId = payload.applicationId ∧
      r.externalReviewId = payload.externalReviewId.1 with
  | some r => .ok (r.id,
      t.modify (fun x => if x.id = r.id then mergeReview payload env x else x)
        (mergeReview_clash payload env r.id))
  | none =>
      match t.insert
        { id := env.reviewId, applicationId := payload.applicationId,
          externalReviewId := payload.externalReviewId.1, sourceAt := payload.sourceAt,
          authorName := payload.authorName, thumbsUpCount := payload.thumbsUpCount,
          score := payload.score.1, content := payload.content,
          sourceAdapter := payload.sourceAdapter.1, firstObservedAt := payload.observedAt,
          lastObservedAt := payload.observedAt, createdAt := env.now, updatedAt := env.now } with
      | some t' => .ok (env.reviewId, t')
      | none => .error .uniqueViolation

/-- `ON CONFLICT (crawl_task_id, review_id) DO NOTHING`: the key is the primary
key, so a clash is the conflict. -/
def insertReviewObservation (payload : ReviewObservedV1) (reviewId : Nat)
    (t : Rel.Table ReviewObservation ObservationClash) :
    Rel.Table ReviewObservation ObservationClash :=
  (t.insert
    { crawlTaskId := payload.crawlTaskId, reviewId := reviewId, observedAt := payload.observedAt,
      position := payload.position.1, score := payload.score.1,
      thumbsUpCount := payload.thumbsUpCount, sourceAdapter := payload.sourceAdapter.1,
      content := some payload.content, sourceAt := some payload.sourceAt }).getD t

/-- The capture joined with its application's package name. -/
def captureWithPackage (applications : ApplicationTable) (captures : CaptureTable)
    (captureId : Uuid) : Option (NetworkCapture × NonBlankString) :=
  match captures.rows.find? fun c => c.id = captureId with
  | some c => (applications.packageName c.applicationId).map fun p => (c, p)
  | none => none

/-- The mismatch test of `validate_network_analysis`. -/
def analysisMatches (capture : NetworkCapture) (packageName : NonBlankString)
    (payload : NetworkAnalysisCollectedV1) : Bool :=
  capture.analysisId = payload.analysisId && capture.applicationId = payload.applicationId
    && packageName = payload.packageName && capture.scenario = payload.scenario
    && capture.verifiedSha256 = some payload.verifiedSha256

def validateNetworkAnalysis (refs : Refs) (payload : NetworkAnalysisCollectedV1) :
    Except IngestError Unit :=
  match captureWithPackage refs.applications refs.captures payload.captureId with
  | none => .error (.consistency "network capture does not exist")
  | some (capture, packageName) =>
      if analysisMatches capture packageName payload then .ok ()
      else .error (.consistency
        "network analysis does not match capture and application state")

def insertNetworkAnalysis (payload : NetworkAnalysisCollectedV1) (env : TxEnv)
    (t : Rel.Table NetworkAnalysisResult ResultClash) :
    Except IngestError (Rel.Table NetworkAnalysisResult ResultClash) :=
  match t.insert { toNetworkAnalysisCollectedV1 := payload, createdAt := env.now } with
  | some t' => .ok t'
  | none => .error .uniqueViolation

/-! ## Handlers -/

def handleAppStats (refs : Refs) (payload : AppStatsCollectedV1) (env : TxEnv)
    (t : IngestTables) : Except IngestError IngestTables := do
  validateCrawlTask refs payload.crawlTaskId payload.applicationId .appDetails
  let appSnapshots ← insertAppSnapshot payload env t.appSnapshots
  pure { t with appSnapshots := appSnapshots }

def handleReviewObserved (refs : Refs) (payload : ReviewObservedV1) (env : TxEnv)
    (t : IngestTables) : Except IngestError IngestTables := do
  validateCrawlTask refs payload.crawlTaskId payload.applicationId .reviews
  let (reviewId, reviews) ← upsertReview payload env t.reviews
  pure { t with
    reviews := reviews,
    observations := insertReviewObservation payload reviewId t.observations }

def handleNetworkAnalysis (refs : Refs) (payload : NetworkAnalysisCollectedV1) (env : TxEnv)
    (t : IngestTables) : Except IngestError IngestTables := do
  validateNetworkAnalysis refs payload
  let analysisResults ← insertNetworkAnalysis payload env t.analysisResults
  pure { t with analysisResults := analysisResults }

def handleEvent (refs : Refs) (event : SupportedEvent) (env : TxEnv) (t : IngestTables) :
    Except IngestError IngestTables :=
  match event with
  | .appStats e => handleAppStats refs e.payload env t
  | .reviewObserved e => handleReviewObserved refs e.payload env t
  | .networkAnalysis e => handleNetworkAnalysis refs e.payload env t

/-- The transaction of `process_next`: claim, and handle what was claimed. The
answer says whether the event was claimed. -/
def ingestTransaction (refs : Refs) (event : SupportedEvent) (source : TopicPartition)
    (offset : Nat) (env : TxEnv) (t : IngestTables) : Except IngestError (Bool × IngestTables) :=
  match claimEvent t.ingestedEvents event source offset env with
  | none => .ok (false, t)
  | some ingestedEvents => do
      let t' ← handleEvent refs event env { t with ingestedEvents := ingestedEvents }
      pure (true, t')

end Sahabino
