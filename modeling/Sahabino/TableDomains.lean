import Mathlib.Data.List.Forall2
import Sahabino.StoredColumns

/-!
# Event contracts and column domains

A payload that passed validation is compared, column by column, with the
columns its handler writes. The bounds of the contracts repeat the `CHECK`
constraints wherever there is one, so what is left between the two
schemas is: integers from 2^63 on, texts with U+0000, and the NaN of a
float that has an upper bound.
-/

namespace Sahabino

open Rel

/-! ## One column -/

section

variable {name : String}

end

/-! ## The metric groups -/

def storableIn (columns : List Column) (values : List (String × Field)) : Bool :=
  accepted columns (values.map fun f => (f.1, f.2.value))

/-- A row that a statement proposes or leaves behind. -/
inductive IngestRow where
  | snapshot (r : PlaystoreAppSnapshot)
  | review (r : Review)
  | observation (r : ReviewObservation)
  | analysis (r : NetworkAnalysisResult)

/-- With `ck_reviews_observation_order`. -/
def Review.storable (r : Review) : Bool :=
  storableIn reviewColumns r.values && decide (r.firstObservedAt ≤ r.lastObservedAt)

def IngestRow.storable : IngestRow → Bool
  | snapshot r => storableIn snapshotColumns r.values
  | review r => r.storable
  | observation r => storableIn observationColumns r.values
  | analysis r => storableIn networkAnalysisColumns r.values

def snapshotRow (payload : AppStatsCollectedV1) (env : TxEnv) : PlaystoreAppSnapshot where
  id := env.snapshotId
  crawlTaskId := payload.crawlTaskId
  applicationId := payload.applicationId
  packageName := payload.packageName.1
  collectedAt := payload.collectedAt
  minInstalls := payload.minInstalls
  score := payload.score.1
  ratingsCount := payload.ratingsCount
  reviewsCount := payload.reviewsCount
  storeUpdatedOn := payload.storeUpdatedOn
  version := payload.version
  adSupported := payload.adSupported
  sourceAdapter := payload.sourceAdapter.1
  createdAt := env.now

def reviewRow (payload : ReviewObservedV1) (env : TxEnv) : Review where
  id := env.reviewId
  applicationId := payload.applicationId
  externalReviewId := payload.externalReviewId.1
  sourceAt := payload.sourceAt
  authorName := payload.authorName
  thumbsUpCount := payload.thumbsUpCount
  score := payload.score.1
  content := payload.content
  sourceAdapter := payload.sourceAdapter.1
  firstObservedAt := payload.observedAt
  lastObservedAt := payload.observedAt
  createdAt := env.now
  updatedAt := env.now

def observationRow (payload : ReviewObservedV1) (reviewId : Nat) : ReviewObservation where
  crawlTaskId := payload.crawlTaskId
  reviewId := reviewId
  observedAt := payload.observedAt
  position := payload.position.1
  score := payload.score.1
  thumbsUpCount := payload.thumbsUpCount
  sourceAdapter := payload.sourceAdapter.1
  content := some payload.content
  sourceAt := some payload.sourceAt

def storedReview (payload : ReviewObservedV1) (t : Rel.Table Review ReviewClash) : Option Review :=
  t.rows.find? fun r => r.applicationId = payload.applicationId ∧
    r.externalReviewId = payload.externalReviewId.1

/-- The rows of the handler's statements. An upsert is checked twice: the
proposed row, before the conflict is noticed, and the row it becomes. -/
def writtenRows (event : SupportedEvent) (env : TxEnv) (t : IngestTables) : List IngestRow :=
  match event with
  | .appStats e => [.snapshot (snapshotRow e.payload env)]
  | .reviewObserved e =>
      match storedReview e.payload t.reviews with
      | some r => [.review (reviewRow e.payload env), .review (mergeReview e.payload env r),
          .observation (observationRow e.payload r.id)]
      | none => [.review (reviewRow e.payload env),
          .observation (observationRow e.payload env.reviewId)]
  | .networkAnalysis e =>
      [.analysis { toNetworkAnalysisCollectedV1 := e.payload, createdAt := env.now }]

theorem ReviewClash.symm {a b : Review} (h : ReviewClash a b) : ReviewClash b a := by
  rcases h with hid | ⟨happ, hext⟩
  · exact Or.inl hid.symm
  · exact Or.inr ⟨happ.symm, hext.symm⟩

theorem insertAppSnapshot_rows {payload : AppStatsCollectedV1} {env : TxEnv}
    {t t' : Rel.Table PlaystoreAppSnapshot SnapshotClash}
    (h : insertAppSnapshot payload env t = .ok t') {r : PlaystoreAppSnapshot} (hr : r ∈ t'.rows) :
    r ∈ t.rows ∨ r = snapshotRow payload env := by
  unfold insertAppSnapshot at h
  split at h
  · obtain rfl := Except.ok.inj h
    exact Or.inl hr
  · split at h
    · rename_i t₁ ht₁
      obtain rfl := Except.ok.inj h
      exact (Table.mem_insert ht₁).mp hr
    · cases h

/-- The upsert stores the proposed row, or merges it into the stored one. -/
theorem upsertReview_rows {payload : ReviewObservedV1} {env : TxEnv}
    {t t' : Rel.Table Review ReviewClash} {id : Nat}
    (h : upsertReview payload env t = .ok (id, t')) :
    (∃ stored, storedReview payload t = some stored ∧ id = stored.id ∧
        ∀ r ∈ t'.rows, r ∈ t.rows ∨ r = mergeReview payload env stored) ∨
      storedReview payload t = none ∧ id = env.reviewId ∧
        ∀ r ∈ t'.rows, r ∈ t.rows ∨ r = reviewRow payload env := by
  unfold upsertReview at h
  split at h
  · rename_i stored hstored
    obtain ⟨rfl, rfl⟩ := Prod.mk.inj (Except.ok.inj h)
    refine Or.inl ⟨stored, hstored, rfl, fun r hr => ?_⟩
    obtain ⟨x, hx, rfl⟩ := List.mem_map.mp hr
    split
    · rename_i hid
      have hmem : stored ∈ t.rows := List.mem_of_find?_eq_some hstored
      have hx : x = stored := t.eq_of_clash ReviewClash.symm hx hmem (Or.inl hid)
      exact Or.inr (by rw [hx])
    · exact Or.inl hx
  · rename_i hstored
    split at h
    · rename_i t₁ ht₁
      obtain ⟨rfl, rfl⟩ := Prod.mk.inj (Except.ok.inj h)
      exact Or.inr ⟨hstored, rfl, fun r hr => (Table.mem_insert ht₁).mp hr⟩
    · cases h

theorem insertReviewObservation_rows {payload : ReviewObservedV1} {reviewId : Nat}
    {t : Rel.Table ReviewObservation ObservationClash} {r : ReviewObservation}
    (hr : r ∈ (insertReviewObservation payload reviewId t).rows) :
    r ∈ t.rows ∨ r = observationRow payload reviewId := by
  unfold insertReviewObservation at hr
  cases hinsert : t.insert (observationRow payload reviewId) with
  | none =>
      simp only [observationRow] at hinsert
      rw [hinsert] at hr
      exact Or.inl hr
  | some t' =>
      have hmem := Table.mem_insert hinsert (x := r)
      simp only [observationRow] at hinsert
      rw [hinsert] at hr
      exact hmem.mp hr

/-- `writtenRows` is complete: a handler stores nothing else. -/
theorem handleEvent_rows {refs : Refs} {event : SupportedEvent} {env : TxEnv}
    {t t' : IngestTables} (h : handleEvent refs event env t = .ok t') :
    (∀ r ∈ t'.appSnapshots.rows, r ∈ t.appSnapshots.rows ∨
        .snapshot r ∈ writtenRows event env t) ∧
      (∀ r ∈ t'.reviews.rows, r ∈ t.reviews.rows ∨ .review r ∈ writtenRows event env t) ∧
      (∀ r ∈ t'.observations.rows, r ∈ t.observations.rows ∨
        .observation r ∈ writtenRows event env t) ∧
      ∀ r ∈ t'.analysisResults.rows, r ∈ t.analysisResults.rows ∨
        .analysis r ∈ writtenRows event env t := by
  cases event with
  | appStats e =>
      obtain ⟨-, -, h⟩ := Rel.bind_eq_ok h
      obtain ⟨snapshots, hinsert, h⟩ := Rel.bind_eq_ok h
      obtain rfl := Except.ok.inj h
      refine ⟨fun r hr => ?_, fun r hr => Or.inl hr, fun r hr => Or.inl hr,
        fun r hr => Or.inl hr⟩
      rcases insertAppSnapshot_rows hinsert hr with hold | rfl
      · exact Or.inl hold
      · exact Or.inr (List.mem_singleton_self _)
  | reviewObserved e =>
      obtain ⟨-, -, h⟩ := Rel.bind_eq_ok h
      obtain ⟨⟨id, reviews⟩, hupsert, h⟩ := Rel.bind_eq_ok h
      obtain rfl := Except.ok.inj h
      refine ⟨fun r hr => Or.inl hr, fun r hr => ?_, fun r hr => ?_, fun r hr => Or.inl hr⟩
      · rcases upsertReview_rows hupsert with ⟨stored, hstored, -, hrows⟩ | ⟨hstored, -, hrows⟩
        · refine (hrows r hr).imp_right fun hmerged => ?_
          simp [writtenRows, hstored, hmerged]
        · refine (hrows r hr).imp_right fun hproposed => ?_
          simp [writtenRows, hstored, hproposed]
      · refine (insertReviewObservation_rows hr).imp_right fun hrow => ?_
        rcases upsertReview_rows hupsert with ⟨stored, hstored, rfl, -⟩ | ⟨hstored, rfl, -⟩
        · simp [writtenRows, hstored, hrow]
        · simp [writtenRows, hstored, hrow]
  | networkAnalysis e =>
      obtain ⟨-, -, h⟩ := Rel.bind_eq_ok h
      obtain ⟨results, hinsert, h⟩ := Rel.bind_eq_ok h
      obtain rfl := Except.ok.inj h
      refine ⟨fun r hr => Or.inl hr, fun r hr => Or.inl hr, fun r hr => Or.inl hr,
        fun r hr => ?_⟩
      unfold insertNetworkAnalysis at hinsert
      split at hinsert
      · rename_i t₁ ht₁
        obtain rfl := Except.ok.inj hinsert
        rcases (Table.mem_insert ht₁).mp hr with hold | rfl
        · exact Or.inl hold
        · exact Or.inr (List.mem_singleton_self _)
      · cases hinsert

/-! ## The condition -/

namespace Sample

/-- The worker's references: one crawl task of each kind. -/
def tasks : Refs where
  crawlTasks := [⟨⟨1⟩, ⟨7⟩, .appDetails⟩, ⟨⟨2⟩, ⟨7⟩, .reviews⟩]
  applications := Rel.Table.empty
  captures := Rel.Table.empty

def observed : ReviewObservedV1 where
  crawlTaskId := ⟨2⟩
  applicationId := ⟨7⟩
  packageName := appPackage
  observedAt := 5
  position := ⟨1000, by decide⟩
  externalReviewId := ⟨"r1", by decide⟩
  sourceAt := 1
  authorName := "A"
  thumbsUpCount := 9223372036854775807
  score := ⟨5, by decide⟩
  content := "good"
  sourceAdapter := gplay

end Sample

end Sahabino
