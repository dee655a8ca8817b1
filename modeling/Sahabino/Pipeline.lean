import Sahabino.Fencing

/-!
# The records between the processes

A capture-ready record is made by `create`, `complete`, `reconcile_captures`
or `retry_capture` and checked by the analyzer; an analysis record is made by
the analyzer and checked by ingestion. Records outlive the moment they are
made: they may be delivered any number of times, in any order, at any later
point. What stays true of them is what stays true of the row they were made
from (`Records`).

The identities of a row are allocated once, so no delivery can produce a
second result for a capture (`analysis_results_unique`). The package name
and the verified hash of a record are compared with the *current* ones, and
these are not stable by themselves: records stay acceptable along the runs
that keep both (`records_accepted_of_kept_names`), and an application that
is renamed leaves behind records no consumer accepts
(`not_recordsAccepted_rename`).
-/

namespace Sahabino

open Conc

/-! ## Records in flight -/

/-- Every record was made from a row, and fits it as far as the mode keeps the
row. -/
structure Records (m : Mode) (s : Backend) : Prop where
  ready : ∀ event ∈ s.readyTopic, ReadyRecord m event s
  collected : ∀ event ∈ s.collectedTopic, ∃ c, Known c s ∧ AnalysisRecord m event c s

theorem ReadyRecord.rely {m : Mode} {j : Nat} {event : EventEnvelope NetworkCaptureReadyV1}
    {s s' : Backend} (hr : Rely m j s s') (h : ReadyRecord m event s) : ReadyRecord m event s' := by
  obtain ⟨c, p, uploadedAt, hknown, hnamed, heq⟩ := h
  exact ⟨c, p, uploadedAt, hknown.rely hr, hnamed.rely hr, heq⟩

theorem AnalysisRecord.rely {m : Mode} {j : Nat}
    {event : EventEnvelope NetworkAnalysisCollectedV1} {c : NetworkCapture} {s s' : Backend}
    (hr : Rely m j s s') (h : AnalysisRecord m event c s) : AnalysisRecord m event c s' :=
  { h with
    named := h.named.rely hr
    verified := fun hk => by
      obtain ⟨r, hrow, hid, hsha⟩ := h.verified hk
      obtain ⟨r', hrow', hid', hkeep⟩ := hr.rows r hrow
      exact ⟨r', hrow', hid'.trans hid, hkeep hk _ hsha⟩ }

/-- What a command does to the topics and to the tables of ingestion. -/
theorem Effect.topics {i : Nat} {now : Timestamp} {s s' : Backend} {c : Cmd}
    (h : Effect i now s c s') : s'.ingested = s.ingested ∧
      (s'.readyTopic = s.readyTopic ∨
        ∃ event, c = .publishReady event ∧ s'.readyTopic = s.readyTopic ++ [event]) ∧
      (s'.collectedTopic = s.collectedTopic ∨
        ∃ event, c = .publishAnalysis event ∧
          s'.collectedTopic = s.collectedTopic ++ [event]) := by
  cases h with
  | idle => exact ⟨rfl, Or.inl rfl, Or.inl rfl⟩
  | locked key _ => exact ⟨rfl, Or.inl rfl, Or.inl rfl⟩
  | committed work s₁ hf =>
      obtain ⟨captures, keys, rfl, -, -⟩ := Backend.flush_ok hf
      exact ⟨rfl, Or.inl rfl, Or.inl rfl⟩
  | rolledBack => exact ⟨rfl, Or.inl rfl, Or.inl rfl⟩
  | deleted objectKey => exact ⟨rfl, Or.inl rfl, Or.inl rfl⟩
  | readyPublished event => exact ⟨rfl, Or.inr ⟨event, rfl, rfl⟩, Or.inl rfl⟩
  | analysisSent event => exact ⟨rfl, Or.inl rfl, Or.inr ⟨event, rfl, rfl⟩⟩
  | analysisPublished event => exact ⟨rfl, Or.inl rfl, Or.inr ⟨event, rfl, rfl⟩⟩
  | attempted u _ =>
      obtain ⟨events, heq, -⟩ := u.run_frame i now s
      rw [heq]
      exact ⟨rfl, Or.inl rfl, Or.inl rfl⟩

/-- A command keeps the records, and only adds records it was entitled to. -/
theorem exec_records {m : Mode} {settings : Settings} {req : Request} {i : Nat} {c : Cmd}
    {e : Env} {v : Except CaptureError c.Answer} {s s' : Backend} (hm : ¬m.alone) (hi : Inv m s)
    (hp : Issued m settings req i c s) (ha : Allowed m req i c e s)
    (h : exec i e c s = some (v, s')) (hs : Records m s) : Records m s' := by
  -- any other session's rely describes what happens to the rows
  have hr : Rely m (i + 1) s s' := exec_rely (Nat.succ_ne_self i) hm hi hp ha h
  obtain ⟨-, hready, hcollected⟩ := (exec_effect h).topics
  refine ⟨fun event hmem => ?_, fun event hmem => ?_⟩
  · rcases hready with hsame | ⟨new, rfl, hnew⟩
    · exact (hs.ready event (hsame ▸ hmem)).rely hr
    · rw [hnew] at hmem
      rcases List.mem_append.mp hmem with hmem | hmem
      · exact (hs.ready event hmem).rely hr
      · rw [List.mem_singleton.mp hmem]
        exact ReadyRecord.rely hr hp
  · rcases hcollected with hsame | ⟨new, rfl, hnew⟩
    · obtain ⟨c', hknown, hrec⟩ := hs.collected event (hsame ▸ hmem)
      exact ⟨c', hknown.rely hr, hrec.rely hr⟩
    · rw [hnew] at hmem
      rcases List.mem_append.mp hmem with hmem | hmem
      · obtain ⟨c', hknown, hrec⟩ := hs.collected event hmem
        exact ⟨c', hknown.rely hr, hrec.rely hr⟩
      · rw [List.mem_singleton.mp hmem]
        obtain ⟨c', hknown, hrec⟩ := hp
        exact ⟨c', hknown.rely hr, hrec.rely hr⟩

/-- Records survive whatever any session may count on. -/
theorem Records.rely {m : Mode} {j : Nat} {s s' : Backend} (hs : Records m s)
    (hr : Rely m j s s') (hready : s'.readyTopic = s.readyTopic)
    (hcollected : s'.collectedTopic = s.collectedTopic) : Records m s' := by
  refine ⟨fun event hmem => (hs.ready event (hready ▸ hmem)).rely hr, fun event hmem => ?_⟩
  obtain ⟨c, hknown, hrec⟩ := hs.collected event (hcollected ▸ hmem)
  exact ⟨c, hknown.rely hr, hrec.rely hr⟩

theorem external_records {m : Mode} {x : External} {s s' : Backend} (hm : ¬m.alone)
    (ha : ExternalAllowed m x s) (h : external x s = some s') (hs : Records m s) :
    Records m s' := by
  have hr : Rely m 0 s s' := external_rely hm ha h
  obtain ⟨-, -, hready, hcollected, -, -⟩ := external_frame h
  exact hs.rely hr hready hcollected

theorem records_initial (m : Mode) (seed : Seed) : Records m (Backend.initial seed) :=
  ⟨fun _ he => absurd he List.not_mem_nil, fun _ he => absurd he List.not_mem_nil⟩

theorem records_of_reach {m : Mode} (hm : ¬m.alone) {settings : Settings} {seed : Seed}
    {w : CaptureWorld} (h : (captureSystem settings).Reach
      (captureDiscipline m settings).Allows (initialWorld seed) w) : Records m w.shared :=
  (captureDiscipline_sound hm settings).always
    (fun hi hp ha hx hs => exec_records hm hi hp ha hx hs)
    (fun {i _} _ hs => hs.rely (Rely.releaseLocks (Nat.succ_ne_self i) hm _) rfl rfl)
    (fun _ ha hx hs => external_records hm ha hx hs) (ok_initialWorld m settings seed)
    (records_initial m seed) h

/-! ## One result per capture -/

/-- Every result belongs to a capture whose analysis event has been ingested. -/
def ResultsKept (s : Backend) : Prop :=
  ∀ r ∈ s.ingested.analysisResults.rows, ∃ c ∈ s.captures.rows,
    c.id = r.captureId ∧ c.analysisId = r.analysisId ∧
      ∃ x ∈ s.ingested.ingestedEvents.rows, x.eventId = c.analysisEventId

theorem ResultsKept.rely {m : Mode} {j : Nat} {s s' : Backend} (hs : ResultsKept s)
    (hr : Rely m j s s') (hsame : s'.ingested = s.ingested) : ResultsKept s' := by
  intro r hrow
  rw [hsame] at hrow ⊢
  obtain ⟨c, hc, hid, haid, x, hx, hev⟩ := hs r hrow
  obtain ⟨c', hc', hident, -⟩ := hr.rows c hc
  refine ⟨c', hc', ?_, ?_, x, hx, ?_⟩
  · rw [← hid, ← hident]
  · rw [← haid, ← hident]
  · rw [hev, ← hident]

/-- What a successful transaction adds: its own event, and at most its own
result. -/
theorem ingestTransaction_results {refs : Refs} {event : SupportedEvent}
    {source : TopicPartition} {offset : Nat} {env : TxEnv} {t t' : IngestTables} {claimed : Bool}
    (h : ingestTransaction refs event source offset env t = .ok (claimed, t')) :
    (∀ x ∈ t.ingestedEvents.rows, x ∈ t'.ingestedEvents.rows) ∧
    ∀ r ∈ t'.analysisResults.rows, r ∈ t.analysisResults.rows ∨
      ∃ e, event = .networkAnalysis e ∧ r.toNetworkAnalysisCollectedV1 = e.payload ∧
        ∃ x ∈ t'.ingestedEvents.rows, x.eventId = e.eventId := by
  unfold ingestTransaction at h
  split at h
  · obtain ⟨-, rfl⟩ := Prod.mk.injEq .. |>.mp (Except.ok.inj h)
    exact ⟨fun _ hx => hx, fun _ hr => Or.inl hr⟩
  · rename_i ingestedEvents hclaim
    have hold : ∀ x ∈ t.ingestedEvents.rows, x ∈ ingestedEvents.rows :=
      fun x hx => (Rel.Table.mem_insert hclaim).mpr (Or.inl hx)
    obtain ⟨t₁, hhandle, heq⟩ := Rel.bind_eq_ok h
    obtain ⟨-, rfl⟩ := Prod.mk.injEq .. |>.mp (Except.ok.inj heq)
    cases event with
    | appStats e =>
        obtain ⟨-, -, hrest⟩ := Rel.bind_eq_ok hhandle
        obtain ⟨snapshots, -, heq⟩ := Rel.bind_eq_ok hrest
        obtain rfl := Except.ok.inj heq
        exact ⟨hold, fun _ hr => Or.inl hr⟩
    | reviewObserved e =>
        obtain ⟨-, -, hrest⟩ := Rel.bind_eq_ok hhandle
        obtain ⟨⟨reviewId, reviews⟩, -, heq⟩ := Rel.bind_eq_ok hrest
        obtain rfl := Except.ok.inj heq
        exact ⟨hold, fun _ hr => Or.inl hr⟩
    | networkAnalysis e =>
        obtain ⟨-, -, hrest⟩ := Rel.bind_eq_ok hhandle
        obtain ⟨results, hinsert, heq⟩ := Rel.bind_eq_ok hrest
        obtain rfl := Except.ok.inj heq
        refine ⟨hold, fun r hr => ?_⟩
        unfold insertNetworkAnalysis at hinsert
        split at hinsert
        · rename_i results' hins
          obtain rfl := Except.ok.inj hinsert
          rcases (Rel.Table.mem_insert hins).mp hr with hr | rfl
          · exact Or.inl hr
          · exact Or.inr ⟨e, rfl, rfl, _, (Rel.Table.mem_insert hclaim).mpr (Or.inr rfl), rfl⟩
        · cases hinsert

theorem validateNetworkAnalysis_ne_violation {refs : Refs}
    {payload : NetworkAnalysisCollectedV1} :
    validateNetworkAnalysis refs payload ≠ .error .uniqueViolation := by
  unfold validateNetworkAnalysis
  split
  · exact nofun
  · split
    · exact nofun
    · exact nofun

/-- A violated constraint means an unclaimed event and a result in its place. -/
theorem ingestTransaction_violation {refs : Refs} {e : EventEnvelope NetworkAnalysisCollectedV1}
    {source : TopicPartition} {offset : Nat} {env : TxEnv} {t : IngestTables}
    (h : ingestTransaction refs (.networkAnalysis e) source offset env t =
      .error .uniqueViolation) :
    (∀ x ∈ t.ingestedEvents.rows, x.eventId ≠ e.eventId) ∧
    ∃ r ∈ t.analysisResults.rows,
      r.analysisId = e.payload.analysisId ∨ r.captureId = e.payload.captureId := by
  unfold ingestTransaction at h
  split at h
  · cases h
  · rename_i ingestedEvents hclaim
    refine ⟨fun x hx heq => Rel.Table.not_clash_of_insert hclaim hx (Or.inl heq), ?_⟩
    rcases Rel.bind_eq_error h with hhandle | ⟨t₁, -, heq⟩
    · rcases Rel.bind_eq_error hhandle with hval | ⟨-, -, hrest⟩
      · exact absurd hval validateNetworkAnalysis_ne_violation
      · rcases Rel.bind_eq_error hrest with hins | ⟨results, -, heq⟩
        · unfold insertNetworkAnalysis at hins
          split at hins
          · cases hins
          · rename_i hnone
            obtain ⟨r, hr, hclash⟩ := Rel.Table.insert_eq_none.mp hnone
            exact ⟨r, hr, hclash⟩
        · cases heq
    · cases heq

/-- Ingestion gets analysis records from their topic; everything else is free. -/
def deliversPublished : CaptureLabel → CaptureWorld → Prop
  | .ext (.ingest (.networkAnalysis event) _ _ _), w => event ∈ w.shared.collectedTopic
  | _, _ => True

def Mode.delivering : Mode :=
  { Mode.pool with
    extraExternal := fun x s => ∀ event source offset env,
      x = .ingest (.networkAnalysis event) source offset env → event ∈ s.collectedTopic }

theorem delivering_allows {settings : Settings} {l : CaptureLabel} {w : CaptureWorld}
    (h : deliversPublished l w) : (captureDiscipline Mode.delivering settings).Allows l w := by
  cases l with
  | spawn r => trivial
  | run i e => exact fun _ _ _ _ => ⟨trivial, fun h => h.elim, fun h => h.elim, nofun⟩
  | crash i => trivial
  | ext x =>
      refine ⟨fun event source offset env hx => ?_, fun _ _ _ _ h => h.elim⟩
      subst hx
      exact h

theorem external_resultsKept {x : External} {s s' : Backend}
    (ha : ExternalAllowed Mode.delivering x s) (h : external x s = some s')
    (hrec : Records Mode.delivering s) (hs : ResultsKept s) : ResultsKept s' := by
  have hr : Rely Mode.delivering 0 s s' := external_rely not_false ha h
  rcases external_cases h with rfl | ⟨objectKey, metadata, -, rfl⟩ | ⟨applications, rfl⟩ |
    ⟨event, source, offset, env, claimed, tables, rfl, htx, rfl⟩
  · exact hs
  · exact hs.rely hr rfl
  · exact hs.rely hr rfl
  · obtain ⟨hold, hnew⟩ := ingestTransaction_results htx
    intro r hrow
    rcases hnew r hrow with hrow | ⟨e, rfl, hpayload, x, hx, hev⟩
    · obtain ⟨c, hc, hid, haid, x, hx, hev⟩ := hs r hrow
      exact ⟨c, hc, hid, haid, x, hold x hx, hev⟩
    · -- the new result was published for a stored row
      obtain ⟨c, ⟨c', hc', hident⟩, hc⟩ := hrec.collected e (ha.extra e source offset env rfl)
      refine ⟨c', hc', ?_, ?_, x, hx, ?_⟩
      · rw [hident, ← hc.captureId, hpayload]
      · rw [hident, ← hc.analysisId, hpayload]
      · rw [hev, hc.eventId, hident]

theorem resultsKept_of_reach {settings : Settings} {seed : Seed} {w : CaptureWorld}
    (h : (captureSystem settings).Reach deliversPublished (initialWorld seed) w) :
    Records Mode.delivering w.shared ∧ ResultsKept w.shared := by
  have hm : ¬Mode.delivering.alone := not_false
  have hstart : ResultsKept (Backend.initial seed) := fun _ hr => absurd hr List.not_mem_nil
  refine (captureDiscipline_sound hm settings).always (J := fun s =>
      Records Mode.delivering s ∧ ResultsKept s) ?_ ?_ ?_ (ok_initialWorld _ settings seed)
    ⟨records_initial _ seed, hstart⟩ (h.mono fun _ _ h => delivering_allows h)
  · intro r i c e v s s' hi hp ha hx hs
    have hr := exec_rely (Nat.succ_ne_self i) hm hi hp ha hx
    exact ⟨exec_records hm hi hp ha hx hs.1, hs.2.rely hr (exec_effect hx).topics.1⟩
  · intro i s _ hs
    have hr : Rely Mode.delivering (i + 1) s (s.releaseLocks i) :=
      Rely.releaseLocks (Nat.succ_ne_self i) hm s
    exact ⟨hs.1.rely hr rfl rfl, hs.2.rely hr rfl⟩
  · intro x s s' _ ha hx hs
    exact ⟨external_records hm ha hx hs.1, external_resultsKept ha hx hs.1 hs.2⟩

/-- No two results for one capture or one analysis, and no transaction of a
published record runs into the constraints that say so. -/
structure ResultsUnique (s : Backend) : Prop where
  rows : s.ingested.analysisResults.rows.Pairwise
    fun a b => a.captureId ≠ b.captureId ∧ a.analysisId ≠ b.analysisId
  accepted : ∀ event ∈ s.collectedTopic, ∀ source offset env,
    ingestTransaction s.refs (.networkAnalysis event) source offset env s.ingested
      ≠ .error .uniqueViolation

theorem analysis_results_unique {settings : Settings} {seed : Seed} {w : CaptureWorld}
    (hw : (captureSystem settings).Reach deliversPublished (initialWorld seed) w) :
    ResultsUnique w.shared := by
  obtain ⟨hrec, hres⟩ := resultsKept_of_reach hw
  refine ⟨w.shared.ingested.analysisResults.unique.imp fun h =>
    ⟨fun hc => h (Or.inr hc), fun ha => h (Or.inl ha)⟩, fun event hev source offset env hviol => ?_⟩
  obtain ⟨hunclaimed, r, hr, hclash⟩ := ingestTransaction_violation hviol
  obtain ⟨c, hc, hid, haid, x, hx, hxev⟩ := hres r hr
  obtain ⟨c₀, ⟨c', hc', hident⟩, hc₀⟩ := hrec.collected event hev
  -- the existing result is of the same capture, so the event has been claimed
  have hsame : c = c' := by
    refine w.shared.captures.eq_of_clash CaptureClash.symm hc hc' ?_
    rcases hclash with h | h
    · refine Or.inr (Or.inr (Or.inl ?_))
      rw [haid, h, hc₀.analysisId, hident]
    · refine Or.inl ?_
      rw [hid, h, hc₀.captureId, hident]
  refine hunclaimed x hx ?_
  rw [hxev, hsame, hident, hc₀.eventId]

namespace Sample

/-- The whole way of one capture up to its analysis record. -/
def analyzed : List CaptureLabel := announced ++ analyzedBy 2 4 (seconds 3)

/-- The first record of the topic is ingested. -/
def ingestFirst (w : CaptureWorld) : Option CaptureWorld :=
  match w.shared.collectedTopic with
  | [] => none
  | event :: _ => (captureSystem settings).step
      (.ext (.ingest (.networkAnalysis event) ⟨"analysis", 0⟩ 0 ⟨seconds 5, 0, 0⟩)) w

end Sample

theorem analysis_results_unique_ingested : ∃ w,
    ((captureSystem Sample.settings).run (initialWorld Sample.seed) Sample.analyzed).bind
      Sample.ingestFirst = some w ∧
    w.shared.ingested.analysisResults.rows.length = 1 ∧ ResultsUnique w.shared := by
  have hrun : (((captureSystem Sample.settings).run (initialWorld Sample.seed)
      Sample.analyzed).bind Sample.ingestFirst).map
        (fun w => w.shared.ingested.analysisResults.rows.length) = some 1 := by
    decide +kernel
  obtain ⟨w, hw, hlen⟩ := Option.map_eq_some_iff.mp hrun
  refine ⟨w, hw, hlen, ?_⟩
  obtain ⟨w₁, hw₁, hlast⟩ := Option.bind_eq_some_iff.mp hw
  have hall : ∀ l ∈ Sample.analyzed, ∀ w, deliversPublished l w := by
    have hno : ∀ l ∈ Sample.analyzed, ∀ e o n t, l ≠ .ext (.ingest e o n t) := by
      simp [Sample.analyzed, Sample.announced, Sample.createSteps, Sample.createEnvs,
        Sample.analyzedBy, Sample.steps]
    intro l hl w
    unfold deliversPublished
    split
    · exact absurd rfl (hno _ hl _ _ _ _)
    · trivial
  have hreach := System.reach_of_run hall .refl hw₁
  unfold Sample.ingestFirst at hlast
  split at hlast
  · cases hlast
  · rename_i event rest htopic
    refine analysis_results_unique (hreach.step ?_ hlast)
    have hpublished : event ∈ w₁.shared.collectedTopic := by
      rw [htopic]
      exact List.mem_cons_self
    exact hpublished

/-! ## Acceptance -/

/-- Along the runs within `allow`, every record for one of these applications
passes the check of its consumer, at whatever later point it is delivered. -/
def RecordsAccepted (settings : Settings) (seed : Seed) (applications : Uuid → Prop)
    (allow : CaptureLabel → CaptureWorld → Prop) : Prop :=
  ∀ w, (captureSystem settings).Reach allow (initialWorld seed) w →
  ∀ w', (captureSystem settings).Reach allow w w' →
    (∀ event ∈ w.shared.readyTopic, applications event.payload.applicationId →
      ∃ row, loadAndValidate (captureWithPackage w'.shared.applications w'.shared.captures
        event.payload.captureId) event = .ok row) ∧
    (∀ event ∈ w.shared.collectedTopic, applications event.payload.applicationId →
      validateNetworkAnalysis w'.shared.refs event.payload = .ok ())

/-- The step does not rename one of these applications, and does not reopen a
capture that it loaded with a verified hash. -/
def keepsRecords (applications : Uuid → Prop) : CaptureLabel → CaptureWorld → Prop
  | .ext (.updateApplication a data _), w => applications a →
      ∀ p q, w.shared.applications.packageName a = some p → data.packageName = some q → q = p
  | .run i _, w => ∀ r work k, w.sessions[i]? = some ⟨r, some (.call (.commit work) k)⟩ →
      ∀ u ∈ work.updates, u.2.verifiedSha256 = none → u.1.verifiedSha256 = none
  | _, _ => True

def Mode.keeping (applications : Uuid → Prop) : Mode :=
  { Mode.pool with frozen := applications, keepVerified := True }

theorem keeping_allows {settings : Settings} {applications : Uuid → Prop} {l : CaptureLabel}
    {w : CaptureWorld} (h : keepsRecords applications l w) :
    (captureDiscipline (Mode.keeping applications) settings).Allows l w := by
  cases l with
  | spawn r => trivial
  | run i e =>
      intro r c k hi
      refine ⟨trivial, fun h => h.elim, fun _ work hc => ?_, nofun⟩
      subst hc
      exact h r work k hi
  | crash i => trivial
  | ext x =>
      refine ⟨trivial, fun a data now hx ha => ?_⟩
      subst hx
      exact h ha

/-- The row a consumer joins with its application. -/
theorem captureWithPackage_eq {applications : ApplicationTable} {captures : CaptureTable}
    {c : NetworkCapture} {p : NonBlankString} (hc : c ∈ captures.rows)
    (hp : applications.packageName c.applicationId = some p) :
    captureWithPackage applications captures c.id = some (c, p) := by
  simp only [captureWithPackage, captures.find_id hc, hp, Option.map_some]

theorem ReadyRecord.accepted {m : Mode} {event : EventEnvelope NetworkCaptureReadyV1}
    {s : Backend} (h : ReadyRecord m event s) (hf : m.frozen event.payload.applicationId) :
    ∃ row, loadAndValidate
      (captureWithPackage s.applications s.captures event.payload.captureId) event = .ok row := by
  obtain ⟨c, p, uploadedAt, ⟨r, hr, hident⟩, hnamed, rfl⟩ := h
  have hp : s.applications.packageName r.applicationId = some p := by
    rw [hident]
    exact hnamed hf
  have hrow := captureWithPackage_eq hr hp
  rw [hident] at hrow
  have hcid : (captureReadyEnvelope (readyPayload c p uploadedAt) c.readyEventId).payload.captureId
      = c.id := rfl
  refine ⟨(r, p), ?_⟩
  rw [hcid, hrow]
  have hmatch : readyMatches r p (captureReadyEnvelope (readyPayload c p uploadedAt)
      c.readyEventId) = true := by
    simp [readyMatches, captureReadyEnvelope, readyPayload, hident]
  simp only [loadAndValidate, hmatch, if_true]

theorem AnalysisRecord.accepted {m : Mode} {event : EventEnvelope NetworkAnalysisCollectedV1}
    {c : NetworkCapture} {s : Backend} (h : AnalysisRecord m event c s) (hk : m.keepVerified)
    (hf : m.frozen event.payload.applicationId) :
    validateNetworkAnalysis s.refs event.payload = .ok () := by
  obtain ⟨r, hr, hident, hsha⟩ := h.verified hk
  have hp : s.applications.packageName r.applicationId = some event.payload.packageName := by
    rw [hident]
    exact h.named (h.applicationId ▸ hf)
  have hrow := captureWithPackage_eq hr hp
  rw [hident, ← h.captureId] at hrow
  have hmatch : analysisMatches r event.payload.packageName event.payload = true := by
    simp [analysisMatches, hident, hsha, h.analysisId, h.applicationId, h.scenario]
  have hrefs : captureWithPackage s.refs.applications s.refs.captures event.payload.captureId =
      some (r, event.payload.packageName) := hrow
  simp only [validateNetworkAnalysis, hrefs, hmatch, if_true]

/-- Topics only grow. -/
theorem topics_mono {settings : Settings} {allow : CaptureLabel → CaptureWorld → Prop}
    {w w' : CaptureWorld} (h : (captureSystem settings).Reach allow w w') :
    (∀ event ∈ w.shared.readyTopic, event ∈ w'.shared.readyTopic) ∧
    (∀ event ∈ w.shared.collectedTopic, event ∈ w'.shared.collectedTopic) := by
  induction h with
  | refl => exact ⟨fun _ h => h, fun _ h => h⟩
  | step _ _ hstep ih =>
      rcases System.step_cases hstep with ⟨r, rfl, rfl⟩ |
        ⟨i, e, r, c, k, v, s, rfl, hi, hx, rfl⟩ | ⟨i, r, p, rfl, hi, rfl⟩ | ⟨x, s, rfl, hx, rfl⟩
      · exact ih
      · obtain ⟨-, hready, hcollected⟩ := (exec_effect hx).topics
        refine ⟨fun event he => ?_, fun event he => ?_⟩
        · rcases hready with hsame | ⟨new, -, hnew⟩
          · rw [hsame]
            exact ih.1 event he
          · rw [hnew]
            exact List.mem_append_left _ (ih.1 event he)
        · rcases hcollected with hsame | ⟨new, -, hnew⟩
          · rw [hsame]
            exact ih.2 event he
          · rw [hnew]
            exact List.mem_append_left _ (ih.2 event he)
      · exact ih
      · obtain ⟨-, -, hready, hcollected, -, -⟩ := external_frame hx
        rw [hready, hcollected]
        exact ih

theorem records_accepted_of_kept_names (settings : Settings) (seed : Seed)
    (applications : Uuid → Prop) :
    RecordsAccepted settings seed applications (keepsRecords applications) := by
  intro w hw w' hw'
  have hrec : Records (Mode.keeping applications) w'.shared :=
    records_of_reach not_false ((hw.trans hw').mono fun _ _ h => keeping_allows h)
  obtain ⟨hready, hcollected⟩ := topics_mono hw'
  refine ⟨fun event he ha => ?_, fun event he ha => ?_⟩
  · exact (hrec.ready event (hready event he)).accepted ha
  · obtain ⟨c, -, hc⟩ := hrec.collected event (hcollected event he)
    exact hc.accepted trivial ha

namespace Sample

/-- `update_application` with a new package name. -/
def rename : CaptureLabel :=
  .ext (.updateApplication (uuid 1) ⟨none, some ⟨"org.example.renamed", by decide⟩, none, none⟩
    (seconds 4))

end Sample

open Sample in
/-- An application is renamed between the announcement of a capture and the
delivery of the record. -/
theorem not_recordsAccepted_rename :
    ¬RecordsAccepted Sample.settings Sample.seed (fun _ => True) anyStep := by
  intro hkept
  have hrun : ((captureSystem settings).run (initialWorld seed) announced).bind (fun w =>
      ((captureSystem settings).step rename w).map fun w' =>
        w.shared.readyTopic.all fun event => (loadAndValidate (captureWithPackage
          w'.shared.applications w'.shared.captures event.payload.captureId) event).isOk) =
      some false := by
    decide +kernel
  obtain ⟨w, hw, hnext⟩ := Option.bind_eq_some_iff.mp hrun
  obtain ⟨w', hw', hall⟩ := Option.map_eq_some_iff.mp hnext
  have hreach := System.reach_of_run (fun _ _ _ => trivial) .refl hw
  obtain ⟨hready, -⟩ := hkept w hreach w' (.step .refl trivial hw')
  obtain ⟨event, he, hbad⟩ := List.all_eq_false.mp hall
  obtain ⟨row, hrow⟩ := hready event he trivial
  rw [hrow] at hbad
  exact hbad rfl

end Sahabino
