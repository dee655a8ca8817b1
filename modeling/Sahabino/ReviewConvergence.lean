import Sahabino.Lib.Register
import Sahabino.TableDomains

/-!
# Convergence of stored reviews

`handle_review_observed` merges an observation into the stored review and
records the observation itself. Observations of a review come from many
crawl tasks and in any order, so the stored row is a register: its source
fields follow the observation with the greatest `observed_at`, the last
one processed among equals, and its two time stamps are the bounds of all
of them (`Reflects`).

`IngestHandled` are the histories of the ingestion tables: events of any kind,
one transaction after the other. The events of one review are picked out
of the history (`reviewsOf`), and what is stored depends on these alone
(`review_converges`).
-/

namespace Sahabino

open Reg

/-! ## Histories -/

/-- An event with the tables it was checked against and the values the database
supplied. -/
structure IngestStep where
  refs : Refs
  event : SupportedEvent
  env : TxEnv

/-- The transactions so far, from the empty tables. The handler runs after the claim,
which only changes `ingested_events`. -/
inductive IngestHandled : List IngestStep → IngestTables → Prop
  | start : IngestHandled [] IngestTables.empty
  | step {steps : List IngestStep} {t t' : IngestTables} (x : IngestStep)
      (ingestedEvents : Rel.Table IngestedEvent IngestedClash) : IngestHandled steps t →
      handleEvent x.refs x.event x.env { t with ingestedEvents := ingestedEvents } = .ok t' →
      IngestHandled (steps ++ [x]) t'

def Concerns (applicationId : Uuid) (externalReviewId : String) (p : ReviewObservedV1) : Prop :=
  p.applicationId = applicationId ∧ p.externalReviewId.1 = externalReviewId

instance (applicationId : Uuid) (externalReviewId : String) (p : ReviewObservedV1) :
    Decidable (Concerns applicationId externalReviewId p) := inferInstanceAs (Decidable (_ ∧ _))

/-- The observation in an event, if it is one of this review. -/
def SupportedEvent.review (applicationId : Uuid) (externalReviewId : String) :
    SupportedEvent → Option ReviewObservedV1
  | .reviewObserved e => if Concerns applicationId externalReviewId e.payload then some e.payload
      else none
  | _ => none

/-- The observations of one review, in the order in which they were processed. -/
def reviewsOf (applicationId : Uuid) (externalReviewId : String) (steps : List IngestStep) :
    List ReviewObservedV1 :=
  steps.filterMap fun x => x.event.review applicationId externalReviewId

/-! ## What a row remembers -/

/-- The source fields of the row are those of the observation. -/
structure SourceFields (p : ReviewObservedV1) (r : Review) : Prop where
  sourceAt : r.sourceAt = p.sourceAt
  authorName : r.authorName = p.authorName
  thumbsUpCount : r.thumbsUpCount = p.thumbsUpCount
  score : r.score = p.score.1
  content : r.content = p.content
  sourceAdapter : r.sourceAdapter = p.sourceAdapter.1

/-- The row is the register of these observations. -/
structure Reflects (ps : List ReviewObservedV1) (r : Review) : Prop where
  first : IsLeast (stamps ReviewObservedV1.observedAt ps) r.firstObservedAt
  latest : ∃ p, Latest ReviewObservedV1.observedAt ps p ∧ SourceFields p r ∧
    r.lastObservedAt = p.observedAt

theorem Reflects.inserted (p : ReviewObservedV1) (env : TxEnv) : Reflects [p] (reviewRow p env) :=
  ⟨isLeast_singleton _ p, p, .singleton _ p, ⟨rfl, rfl, rfl, rfl, rfl, rfl⟩, rfl⟩

theorem Reflects.merged {ps : List ReviewObservedV1} {r : Review} (h : Reflects ps r)
    (p : ReviewObservedV1) (env : TxEnv) : Reflects (ps ++ [p]) (mergeReview p env r) := by
  obtain ⟨hfirst, q, hq, hfields, hlast⟩ := h
  unfold mergeReview
  split
  · rename_i hcurrent
    rw [hlast] at hcurrent
    exact ⟨isLeast_concat hfirst, p, hq.newer hcurrent, ⟨rfl, rfl, rfl, rfl, rfl, rfl⟩, rfl⟩
  · rename_i hcurrent
    rw [hlast] at hcurrent
    exact ⟨isLeast_concat hfirst, q, hq.older (not_le.mp hcurrent),
      ⟨hfields.sourceAt, hfields.authorName, hfields.thumbsUpCount, hfields.score,
        hfields.content, hfields.sourceAdapter⟩, hlast⟩

theorem Reflects.isGreatest {ps : List ReviewObservedV1} {r : Review} (h : Reflects ps r) :
    IsGreatest (stamps ReviewObservedV1.observedAt ps) r.lastObservedAt := by
  obtain ⟨p, hp, -, hlast⟩ := h.latest
  rw [hlast]
  exact hp.isGreatest

/-- The columns that say what was observed: not the surrogate key, and not the times
at which the row itself was written. -/
def Review.observed (r : Review) : Review := { r with id := 0, createdAt := 0, updatedAt := 0 }

/-- With distinct times, the row does not depend on the order. -/
theorem Reflects.eq_of_perm {ps qs : List ReviewObservedV1} {r r' : Review} (h : Reflects ps r)
    (h' : Reflects qs r') (hperm : ps.Perm qs)
    (hdistinct : ps.Pairwise fun a b => a.observedAt ≠ b.observedAt)
    (happ : r.applicationId = r'.applicationId)
    (hext : r.externalReviewId = r'.externalReviewId) : r.observed = r'.observed := by
  obtain ⟨p, hp, hfields, hlast⟩ := h.latest
  obtain ⟨q, hq, hfields', hlast'⟩ := h'.latest
  obtain rfl := hp.eq_of_perm hperm hdistinct hq
  have hfirst : r.firstObservedAt = r'.firstObservedAt :=
    h.first.unique (stamps_perm hperm ▸ h'.first)
  simp only [Review.observed, happ, hext, hfields.sourceAt, hfields.authorName,
    hfields.thumbsUpCount, hfields.score, hfields.content, hfields.sourceAdapter,
    hfields'.sourceAt, hfields'.authorName, hfields'.thumbsUpCount, hfields'.score,
    hfields'.content, hfields'.sourceAdapter, hlast, hlast', hfirst]

/-! ## The statements -/

section Statements

variable {payload : ReviewObservedV1} {env : TxEnv}

/-- What an upsert of `payload` does to the rows; `id` is the answer. -/
structure Upserted (payload : ReviewObservedV1) (env : TxEnv) (rows rows' : List Review)
    (id : Nat) : Prop where
  kept : ∀ r ∈ rows, ∃ r' ∈ rows', r'.id = r.id ∧ r'.applicationId = r.applicationId ∧
    r'.externalReviewId = r.externalReviewId
  origin : ∀ r' ∈ rows',
    (r' ∈ rows ∧ ¬Concerns r'.applicationId r'.externalReviewId payload) ∨
    (∃ r ∈ rows, Concerns r.applicationId r.externalReviewId payload ∧
      r' = mergeReview payload env r) ∨
    (r' = reviewRow payload env ∧
      ∀ r ∈ rows, ¬Concerns r.applicationId r.externalReviewId payload)
  target : ∃ r' ∈ rows', r'.id = id ∧ Concerns r'.applicationId r'.externalReviewId payload

theorem upsertReview_spec {t t' : Rel.Table Review ReviewClash} {id : Nat}
    (h : upsertReview payload env t = .ok (id, t')) : Upserted payload env t.rows t'.rows id := by
  unfold upsertReview at h
  split at h
  · -- the review is stored: its row is merged, and the others have other keys
    rename_i r hfind
    obtain ⟨rfl, rfl⟩ := Prod.mk.inj (Except.ok.inj h)
    have hr : r ∈ t.rows := List.mem_of_find?_eq_some hfind
    have hkey : r.applicationId = payload.applicationId ∧
        r.externalReviewId = payload.externalReviewId.1 := by simpa using List.find?_some hfind
    obtain ⟨hid, happ, hext⟩ := mergeReview_keys payload env r
    have hmerged : mergeReview payload env r ∈ t.rows.map
        fun x => if x.id = r.id then mergeReview payload env x else x :=
      List.mem_map.mpr ⟨r, hr, if_pos rfl⟩
    refine ⟨fun x hx => ?_, fun r' hr' => ?_, _, hmerged, hid, ?_⟩
    · refine ⟨_, List.mem_map_of_mem hx, ?_⟩
      split
      · exact mergeReview_keys payload env x
      · exact ⟨rfl, rfl, rfl⟩
    · obtain ⟨x, hx, rfl⟩ := List.mem_map.mp hr'
      split
      · rename_i hsame
        rw [t.eq_of_clash ReviewClash.symm hx hr (Or.inl hsame)]
        exact Or.inr (Or.inl ⟨r, hr, ⟨hkey.1.symm, hkey.2.symm⟩, rfl⟩)
      · rename_i hother
        refine Or.inl ⟨hx, fun hconcerns => hother ?_⟩
        rw [t.eq_of_clash ReviewClash.symm hx hr
          (Or.inr ⟨hconcerns.1.symm.trans hkey.1.symm, hconcerns.2.symm.trans hkey.2.symm⟩)]
    · rw [happ, hext]
      exact ⟨hkey.1.symm, hkey.2.symm⟩
  · rename_i hfind
    split at h
    · rename_i t₁ hins
      obtain ⟨rfl, rfl⟩ := Prod.mk.inj (Except.ok.inj h)
      have hrows : ∀ r', r' ∈ t₁.rows ↔ r' ∈ t.rows ∨ r' = reviewRow payload env :=
        fun r' => Rel.Table.mem_insert hins
      have hnew : ∀ r ∈ t.rows, ¬Concerns r.applicationId r.externalReviewId payload := by
        intro r hr hkey
        have hno := List.find?_eq_none.mp hfind r hr
        simp [hkey.1, hkey.2] at hno
      refine ⟨fun r hr => ⟨r, (hrows r).mpr (Or.inl hr), rfl, rfl, rfl⟩, fun r' hr' => ?_,
        _, (hrows _).mpr (Or.inr rfl), rfl, rfl, rfl⟩
      rcases (hrows r').mp hr' with hold | rfl
      · exact Or.inl ⟨hold, hnew r' hold⟩
      · exact Or.inr (Or.inr ⟨rfl, hnew⟩)
    · cases h

/-- An observation is recorded unless its task has recorded one of this review. -/
theorem insertReviewObservation_spec (payload : ReviewObservedV1) (reviewId : Nat)
    (t : Rel.Table ReviewObservation ObservationClash) :
    ((∃ o ∈ t.rows, o.crawlTaskId = payload.crawlTaskId ∧ o.reviewId = reviewId) ∧
      insertReviewObservation payload reviewId t = t) ∨
    ((∀ o ∈ t.rows, ¬(o.crawlTaskId = payload.crawlTaskId ∧ o.reviewId = reviewId)) ∧
      ∀ o, o ∈ (insertReviewObservation payload reviewId t).rows ↔
        o = observationRow payload reviewId ∨ o ∈ t.rows) := by
  have heq : insertReviewObservation payload reviewId t =
      (t.insert (observationRow payload reviewId)).getD t := rfl
  rw [heq]
  cases hins : t.insert (observationRow payload reviewId) with
  | none =>
      obtain ⟨o, ho, hclash⟩ := Rel.Table.insert_eq_none.mp hins
      exact Or.inl ⟨⟨o, ho, hclash⟩, rfl⟩
  | some t' =>
      refine Or.inr ⟨fun o ho hkey => Rel.Table.not_clash_of_insert hins ho hkey, fun o => ?_⟩
      rw [Option.getD_some, Rel.Table.mem_insert hins, or_comm]

/-- Recorded before or now, and nothing is lost. -/
theorem insertReviewObservation_holds (payload : ReviewObservedV1) (reviewId : Nat)
    (t : Rel.Table ReviewObservation ObservationClash) :
    (∃ o ∈ (insertReviewObservation payload reviewId t).rows,
      o.crawlTaskId = payload.crawlTaskId ∧ o.reviewId = reviewId) ∧
    ∀ o ∈ t.rows, o ∈ (insertReviewObservation payload reviewId t).rows := by
  rcases insertReviewObservation_spec payload reviewId t with ⟨hold, heq⟩ | ⟨-, hrows⟩
  · rw [heq]
    exact ⟨hold, fun o ho => ho⟩
  · exact ⟨⟨_, (hrows _).mpr (Or.inl rfl), rfl, rfl⟩, fun o ho => (hrows o).mpr (Or.inr ho)⟩

end Statements

/-! ## The history of a review -/

section History

variable {steps : List IngestStep} {x : IngestStep} {t t' : IngestTables} {applicationId : Uuid}
  {externalReviewId : String} {p : ReviewObservedV1}

theorem reviewsOf_concat_of_none (h : x.event.review applicationId externalReviewId = none) :
    reviewsOf applicationId externalReviewId (steps ++ [x]) =
      reviewsOf applicationId externalReviewId steps := by
  simp [reviewsOf, List.filterMap_append, h]

theorem reviewsOf_concat_of_some (h : x.event.review applicationId externalReviewId = some p) :
    reviewsOf applicationId externalReviewId (steps ++ [x]) =
      reviewsOf applicationId externalReviewId steps ++ [p] := by
  simp [reviewsOf, List.filterMap_append, h]

/-- The stored reviews and observations, seen from the history. -/
structure ReviewsKept (steps : List IngestStep) (t : IngestTables) : Prop where
  reflects : ∀ r ∈ t.reviews.rows,
    Reflects (reviewsOf r.applicationId r.externalReviewId steps) r
  stored : ∀ applicationId externalReviewId, reviewsOf applicationId externalReviewId steps ≠ [] →
    ∃ r ∈ t.reviews.rows, r.applicationId = applicationId ∧ r.externalReviewId = externalReviewId
  recorded : ∀ o ∈ t.observations.rows, ∃ r ∈ t.reviews.rows, ∃ p,
    (reviewsOf r.applicationId r.externalReviewId steps).find?
      (fun q => q.crawlTaskId = o.crawlTaskId) = some p ∧ o = observationRow p r.id
  complete : ∀ r ∈ t.reviews.rows, ∀ p ∈ reviewsOf r.applicationId r.externalReviewId steps,
    ∃ o ∈ t.observations.rows, o.crawlTaskId = p.crawlTaskId ∧ o.reviewId = r.id

/-- A step that leaves the two tables alone and brings no observation. -/
theorem ReviewsKept.other (h : ReviewsKept steps t) (hreviews : t'.reviews = t.reviews)
    (hobservations : t'.observations = t.observations)
    (hno : ∀ a e, x.event.review a e = none) : ReviewsKept (steps ++ [x]) t' := by
  have hsame : ∀ a e, reviewsOf a e (steps ++ [x]) = reviewsOf a e steps :=
    fun a e => reviewsOf_concat_of_none (hno a e)
  refine ⟨?_, ?_, ?_, ?_⟩
  · simp only [hsame, hreviews]
    exact h.reflects
  · simp only [hsame, hreviews]
    exact h.stored
  · simp only [hsame, hreviews, hobservations]
    exact h.recorded
  · simp only [hsame, hreviews, hobservations]
    exact h.complete

theorem reviewsOf_eq_nil (h : ReviewsKept steps t)
    (hno : ∀ r ∈ t.reviews.rows, ¬(r.applicationId = applicationId ∧
      r.externalReviewId = externalReviewId)) :
    reviewsOf applicationId externalReviewId steps = [] := by
  by_contra hne
  obtain ⟨r, hr, hkey⟩ := h.stored _ _ hne
  exact hno r hr hkey

/-- The rows after the upsert reflect the longer history. -/
theorem ReviewsKept.reflects_upserted (h : ReviewsKept steps t) {rows' : List Review} {id : Nat}
    (hup : Upserted p x.env t.reviews.rows rows' id)
    (hx : ∀ a e, x.event.review a e = if Concerns a e p then some p else none) :
    ∀ r' ∈ rows', Reflects (reviewsOf r'.applicationId r'.externalReviewId (steps ++ [x])) r' := by
  intro r' hr'
  rcases hup.origin r' hr' with ⟨hold, hno⟩ | ⟨r, hr, hconcerns, rfl⟩ | ⟨rfl, hnew⟩
  · rw [reviewsOf_concat_of_none (by rw [hx, if_neg hno])]
    exact h.reflects r' hold
  · obtain ⟨-, happ, hext⟩ := mergeReview_keys p x.env r
    rw [happ, hext, reviewsOf_concat_of_some (by rw [hx, if_pos hconcerns])]
    exact (h.reflects r hr).merged p x.env
  · have hself : Concerns (reviewRow p x.env).applicationId
        (reviewRow p x.env).externalReviewId p := ⟨rfl, rfl⟩
    rw [reviewsOf_concat_of_some (by rw [hx, if_pos hself]), reviewsOf_eq_nil h]
    · exact .inserted p x.env
    · exact fun r hr hkey => hnew r hr ⟨hkey.1.symm, hkey.2.symm⟩

/-- Where a row after the upsert comes from, with the observations known by then. -/
theorem ReviewsKept.past (h : ReviewsKept steps t) {rows' : List Review} {id : Nat}
    (hup : Upserted p x.env t.reviews.rows rows' id) {r' : Review} (hr' : r' ∈ rows') :
    (∃ r ∈ t.reviews.rows, r'.id = r.id ∧ r'.applicationId = r.applicationId ∧
      r'.externalReviewId = r.externalReviewId) ∨
    reviewsOf r'.applicationId r'.externalReviewId steps = [] := by
  rcases hup.origin r' hr' with ⟨hold, -⟩ | ⟨r, hr, -, rfl⟩ | ⟨rfl, hnew⟩
  · exact Or.inl ⟨r', hold, rfl, rfl, rfl⟩
  · exact Or.inl ⟨r, hr, mergeReview_keys p x.env r⟩
  · exact Or.inr (reviewsOf_eq_nil h fun r hr hkey => hnew r hr ⟨hkey.1.symm, hkey.2.symm⟩)

/-- The observations known before the step have their records. -/
theorem ReviewsKept.complete_past (h : ReviewsKept steps t) {rows' : List Review} {id : Nat}
    (hup : Upserted p x.env t.reviews.rows rows' id) {r' : Review} (hr' : r' ∈ rows')
    {q : ReviewObservedV1} (hq : q ∈ reviewsOf r'.applicationId r'.externalReviewId steps) :
    ∃ o ∈ t.observations.rows, o.crawlTaskId = q.crawlTaskId ∧ o.reviewId = r'.id := by
  rcases h.past hup hr' with ⟨r, hr, hid, happ, hext⟩ | hnone
  · rw [happ, hext] at hq
    rw [hid]
    exact h.complete r hr q hq
  · rw [hnone] at hq
    cases hq

/-- A record stays the record of the first observation of its task. -/
theorem ReviewsKept.recorded_past (h : ReviewsKept steps t) {rows' : List Review} {id : Nat}
    (hup : Upserted p x.env t.reviews.rows rows' id)
    (hx : ∀ a e, x.event.review a e = if Concerns a e p then some p else none)
    {o : ReviewObservation} (ho : o ∈ t.observations.rows) :
    ∃ r ∈ rows', ∃ q, (reviewsOf r.applicationId r.externalReviewId (steps ++ [x])).find?
      (fun q => q.crawlTaskId = o.crawlTaskId) = some q ∧ o = observationRow q r.id := by
  obtain ⟨r, hr, q, hfind, heq⟩ := h.recorded o ho
  obtain ⟨r', hr', hid, happ, hext⟩ := hup.kept r hr
  refine ⟨r', hr', q, ?_, by rw [hid]; exact heq⟩
  rw [happ, hext]
  by_cases hthis : Concerns r.applicationId r.externalReviewId p
  · rw [reviewsOf_concat_of_some (by rw [hx, if_pos hthis]), List.find?_append, hfind]
    rfl
  · rw [reviewsOf_concat_of_none (by rw [hx, if_neg hthis])]
    exact hfind

/-- Where a record comes from that is there after the step. -/
theorem ReviewsKept.recorded_observed (h : ReviewsKept steps t) {rows' : List Review} {id : Nat}
    (hup : Upserted p x.env t.reviews.rows rows' id)
    (hx : ∀ a e, x.event.review a e = if Concerns a e p then some p else none)
    {o : ReviewObservation} (ho : o ∈ (insertReviewObservation p id t.observations).rows) :
    ∃ r ∈ rows', ∃ q, (reviewsOf r.applicationId r.externalReviewId (steps ++ [x])).find?
      (fun q => q.crawlTaskId = o.crawlTaskId) = some q ∧ o = observationRow q r.id := by
  rcases insertReviewObservation_spec p id t.observations with ⟨-, heq⟩ | ⟨hfree, hrows⟩
  · rw [heq] at ho
    exact h.recorded_past hup hx ho
  · rcases (hrows o).mp ho with rfl | hold
    · obtain ⟨target, htarget, hid, hconcerns⟩ := hup.target
      refine ⟨target, htarget, p, ?_, by rw [hid]⟩
      have hnone : (reviewsOf target.applicationId target.externalReviewId steps).find?
          (fun q => q.crawlTaskId = (observationRow p id).crawlTaskId) = none := by
        refine List.find?_eq_none.mpr fun q hq htask => ?_
        obtain ⟨o, ho, hotask, hoid⟩ := h.complete_past hup htarget hq
        exact hfree o ho ⟨hotask.trans (of_decide_eq_true htask), hoid.trans hid⟩
      have htask : decide (p.crawlTaskId = (observationRow p id).crawlTaskId) = true :=
        decide_eq_true rfl
      rw [reviewsOf_concat_of_some (by rw [hx, if_pos hconcerns]), List.find?_append, hnone,
        Option.none_or, List.find?_cons, htask]
    · exact h.recorded_past hup hx hold

/-- Every observation has its record after the step, the one of the step included. -/
theorem ReviewsKept.complete_observed (h : ReviewsKept steps t)
    {reviews : Rel.Table Review ReviewClash} {id : Nat}
    (hup : Upserted p x.env t.reviews.rows reviews.rows id)
    (hx : ∀ a e, x.event.review a e = if Concerns a e p then some p else none) {r' : Review}
    (hr' : r' ∈ reviews.rows) {q : ReviewObservedV1}
    (hq : q ∈ reviewsOf r'.applicationId r'.externalReviewId (steps ++ [x])) :
    ∃ o ∈ (insertReviewObservation p id t.observations).rows,
      o.crawlTaskId = q.crawlTaskId ∧ o.reviewId = r'.id := by
  obtain ⟨hnow, hkept⟩ := insertReviewObservation_holds p id t.observations
  have hpast : q ∈ reviewsOf r'.applicationId r'.externalReviewId steps →
      ∃ o ∈ (insertReviewObservation p id t.observations).rows,
        o.crawlTaskId = q.crawlTaskId ∧ o.reviewId = r'.id := by
    intro hold
    obtain ⟨o, ho, hkey⟩ := h.complete_past hup hr' hold
    exact ⟨o, hkept o ho, hkey⟩
  by_cases hthis : Concerns r'.applicationId r'.externalReviewId p
  · rw [reviewsOf_concat_of_some (by rw [hx, if_pos hthis])] at hq
    rcases List.mem_append.mp hq with hq | hq
    · exact hpast hq
    · obtain rfl := List.mem_singleton.mp hq
      obtain ⟨target, htarget, hid, hconcerns⟩ := hup.target
      have hsame : r' = target := reviews.eq_of_clash ReviewClash.symm hr' htarget
        (Or.inr ⟨hthis.1.symm.trans hconcerns.1, hthis.2.symm.trans hconcerns.2⟩)
      rw [hsame, hid]
      exact hnow
  · rw [reviewsOf_concat_of_none (by rw [hx, if_neg hthis])] at hq
    exact hpast hq

theorem ReviewsKept.observed (h : ReviewsKept steps t) {reviews : Rel.Table Review ReviewClash}
    {id : Nat} (hup : Upserted p x.env t.reviews.rows reviews.rows id)
    (hx : ∀ a e, x.event.review a e = if Concerns a e p then some p else none) :
    ReviewsKept (steps ++ [x]) { t with
      reviews := reviews
      observations := insertReviewObservation p id t.observations } := by
  refine ⟨h.reflects_upserted hup hx, fun a e hne => ?_,
    fun o ho => h.recorded_observed hup hx ho,
    fun r' hr' q hq => h.complete_observed hup hx hr' hq⟩
  by_cases hthis : Concerns a e p
  · obtain ⟨target, htarget, -, hconcerns⟩ := hup.target
    exact ⟨target, htarget, hconcerns.1.symm.trans hthis.1, hconcerns.2.symm.trans hthis.2⟩
  · rw [reviewsOf_concat_of_none (by rw [hx, if_neg hthis])] at hne
    obtain ⟨r, hr, happ, hext⟩ := h.stored a e hne
    obtain ⟨r', hr', -, happ', hext'⟩ := hup.kept r hr
    exact ⟨r', hr', happ'.trans happ, hext'.trans hext⟩

theorem ReviewsKept.step (h : ReviewsKept steps t)
    {ingestedEvents : Rel.Table IngestedEvent IngestedClash}
    (hx : handleEvent x.refs x.event x.env { t with ingestedEvents := ingestedEvents } = .ok t') :
    ReviewsKept (steps ++ [x]) t' := by
  cases hevent : x.event with
  | appStats e =>
      rw [hevent] at hx
      obtain ⟨-, -, hx⟩ := Rel.bind_eq_ok hx
      obtain ⟨snapshots, -, hx⟩ := Rel.bind_eq_ok hx
      obtain rfl := Except.ok.inj hx
      exact h.other rfl rfl fun a e => by rw [hevent]; rfl
  | reviewObserved e =>
      rw [hevent] at hx
      obtain ⟨-, -, hx⟩ := Rel.bind_eq_ok hx
      obtain ⟨⟨id, reviews⟩, hupsert, hx⟩ := Rel.bind_eq_ok hx
      obtain rfl := Except.ok.inj hx
      have hkept := h.observed (upsertReview_spec hupsert) fun a e' => by rw [hevent]; rfl
      exact ⟨hkept.reflects, hkept.stored, hkept.recorded, hkept.complete⟩
  | networkAnalysis e =>
      rw [hevent] at hx
      obtain ⟨-, -, hx⟩ := Rel.bind_eq_ok hx
      obtain ⟨results, -, hx⟩ := Rel.bind_eq_ok hx
      obtain rfl := Except.ok.inj hx
      exact h.other rfl rfl fun a e => by rw [hevent]; rfl

theorem reviewsKept_of_handled (h : IngestHandled steps t) : ReviewsKept steps t := by
  induction h with
  | start =>
      exact ⟨fun _ h => absurd h List.not_mem_nil, fun _ _ h => absurd rfl h,
        fun _ h => absurd h List.not_mem_nil, fun _ h => absurd h List.not_mem_nil⟩
  | step x ingestedEvents _ hx ih => exact ih.step hx

end History

/-! ## Convergence -/

/-- The one row of a review, the observations of which were processed in the order
`ps`: what it holds, and what is recorded with it. -/
structure ReviewConverged (applicationId : Uuid) (externalReviewId : String)
    (ps : List ReviewObservedV1) (t : IngestTables) (r : Review) : Prop where
  stored : ∀ r', (r' ∈ t.reviews.rows ∧ r'.applicationId = applicationId ∧
    r'.externalReviewId = externalReviewId) ↔ r' = r
  first : IsLeast (stamps ReviewObservedV1.observedAt ps) r.firstObservedAt
  last : IsGreatest (stamps ReviewObservedV1.observedAt ps) r.lastObservedAt
  fields : ∃ p, Latest ReviewObservedV1.observedAt ps p ∧ SourceFields p r
  ordered : r.firstObservedAt ≤ r.lastObservedAt
  observations : ∀ crawlTaskId o,
    (o ∈ t.observations.rows ∧ o.reviewId = r.id ∧ o.crawlTaskId = crawlTaskId) ↔
      ∃ p, ps.find? (fun p => p.crawlTaskId = crawlTaskId) = some p ∧ o = observationRow p r.id

theorem reviewConverged_of_handled {steps : List IngestStep} {t : IngestTables}
    {applicationId : Uuid} {externalReviewId : String} (h : IngestHandled steps t)
    (hne : reviewsOf applicationId externalReviewId steps ≠ []) :
    ∃ r, ReviewConverged applicationId externalReviewId
      (reviewsOf applicationId externalReviewId steps) t r := by
  have hkept := reviewsKept_of_handled h
  obtain ⟨r, hr, rfl, rfl⟩ := hkept.stored _ _ hne
  have hreflects := hkept.reflects r hr
  obtain ⟨p, hp, hfields, hlast⟩ := hreflects.latest
  refine ⟨r, fun r' => ⟨fun hr' => ?_, fun heq => by rw [heq]; exact ⟨hr, rfl, rfl⟩⟩,
    hreflects.first, hreflects.isGreatest, ⟨p, hp, hfields⟩, ?_, fun crawlTaskId o => ?_⟩
  · exact t.reviews.eq_of_clash ReviewClash.symm hr'.1 hr (Or.inr hr'.2)
  · exact hreflects.first.2 hreflects.isGreatest.1
  · constructor
    · rintro ⟨ho, hid, rfl⟩
      obtain ⟨r', hr', q, hfind, heq⟩ := hkept.recorded o ho
      have hsame : r' = r := t.reviews.eq_of_clash ReviewClash.symm hr' hr
        (Or.inl ((congrArg ReviewObservation.reviewId heq).symm.trans hid))
      rw [hsame] at hfind heq
      exact ⟨q, hfind, heq⟩
    · rintro ⟨q, hfind, rfl⟩
      have htask : q.crawlTaskId = crawlTaskId := by simpa using List.find?_some hfind
      obtain ⟨o, ho, hotask, hoid⟩ := hkept.complete r hr q (List.mem_of_find?_eq_some hfind)
      obtain ⟨r', hr', q', hfind', heq⟩ := hkept.recorded o ho
      have hsame : r' = r := t.reviews.eq_of_clash ReviewClash.symm hr' hr
        (Or.inl ((congrArg ReviewObservation.reviewId heq).symm.trans hoid))
      rw [hsame, hotask, htask, hfind] at hfind'
      obtain rfl := Option.some.inj hfind'
      rw [heq, hsame] at ho
      exact ⟨ho, rfl, htask⟩

/-- After any history with an observation of the review, its row is the register of
its observations, with one record for each crawl task; and with distinct times, any
other order of the same observations gives the same row. -/
theorem review_converges {steps : List IngestStep} {t : IngestTables} {applicationId : Uuid}
    {externalReviewId : String} (h : IngestHandled steps t)
    (hne : reviewsOf applicationId externalReviewId steps ≠ []) :
    ∃ r, ReviewConverged applicationId externalReviewId
        (reviewsOf applicationId externalReviewId steps) t r ∧
      ((reviewsOf applicationId externalReviewId steps).Pairwise
          (fun a b => a.observedAt ≠ b.observedAt) →
        ∀ steps' t' r', IngestHandled steps' t' →
          (reviewsOf applicationId externalReviewId steps).Perm
            (reviewsOf applicationId externalReviewId steps') →
          r' ∈ t'.reviews.rows → r'.applicationId = applicationId →
          r'.externalReviewId = externalReviewId → r.observed = r'.observed) := by
  obtain ⟨r, hr⟩ := reviewConverged_of_handled h hne
  obtain ⟨hmem, rfl, rfl⟩ := (hr.stored r).mpr rfl
  refine ⟨r, hr, fun hdistinct steps' t' r' h' hperm hr' happ hext => ?_⟩
  have hreflects := (reviewsKept_of_handled h).reflects r hmem
  have hreflects' := (reviewsKept_of_handled h').reflects r' hr'
  rw [happ, hext] at hreflects'
  exact hreflects.eq_of_perm hreflects' hperm hdistinct happ.symm hext.symm

namespace Sample

/-- The same review from two tasks; the older observation comes last. -/
def outOfOrder : List IngestStep :=
  [⟨tasks, .reviewObserved ⟨⟨4⟩, 5, observed⟩, ⟨6, 0, 2⟩⟩,
    ⟨tasks, .reviewObserved ⟨⟨5⟩, 3, { observed with observedAt := 3, content := "old" }⟩,
      ⟨7, 0, 3⟩⟩]

end Sample

open Sample in
theorem review_converges_out_of_order : ∃ t r, IngestHandled outOfOrder t ∧
    ReviewConverged ⟨7⟩ "r1" (reviewsOf ⟨7⟩ "r1" outOfOrder) t r := by
  obtain ⟨t, h⟩ : ∃ t, IngestHandled outOfOrder t :=
    ⟨_, (IngestHandled.start.step _ Rel.Table.empty rfl).step _ Rel.Table.empty rfl⟩
  obtain ⟨r, hr, -⟩ := review_converges h
    (show reviewsOf ⟨7⟩ "r1" outOfOrder ≠ [] by decide)
  exact ⟨t, r, h, hr⟩

end Sahabino
