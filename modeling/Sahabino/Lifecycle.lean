import Sahabino.CaptureSound

/-!
# The capture lifecycle under interleaving

Which changes of a stored status the pool can make. The analyzer's
statements check the status in the database, so each of them is an edge of
the documented lifecycle whatever else happens. A written-back object is
different: its new status follows from the status it was *loaded* with, and
overwrites whatever the row holds by the time of the commit.

So the lifecycle is kept along every run in which each such write finds the
status it was decided on, or already the one it writes
(`lifecycle_of_current_writes`), and not otherwise: two `complete` calls on
one capture, the slower of which commits after the analysis has finished,
take an `analyzed` row back to `uploaded`
(`not_lifecycleKept_stale_complete`).
-/

namespace Sahabino

open Conc

/-! ## The documented edges -/

inductive StatusEdge : CaptureStatus → CaptureStatus → Prop
  | upload : StatusEdge .pendingUpload .uploaded
  | expire : StatusEdge .pendingUpload .expired
  | reopen : StatusEdge .expired .pendingUpload
  | claim : StatusEdge .uploaded .analyzing
  | takeOver : StatusEdge .analyzing .analyzing
  | release : StatusEdge .analyzing .uploaded
  | analyzed : StatusEdge .analyzing .analyzed
  | failed : StatusEdge .analyzing .failed
  | retry : StatusEdge .failed .uploaded

/-- The two tables hold the same captures, and every status moved along an
edge, if it moved at all. -/
def StatusesMove (t t' : CaptureTable) : Prop :=
  ∀ c ∈ t.rows, ∃ c' ∈ t'.rows, c'.id = c.id ∧
    (c'.status = c.status ∨ StatusEdge c.status c'.status)

theorem StatusesMove.refl (t : CaptureTable) : StatusesMove t t :=
  fun c hc => ⟨c, hc, rfl, Or.inl rfl⟩

theorem Move.edge {m : Mode} {s : Backend} {c c' : NetworkCapture} (h : Move m s c c') :
    c'.status = c.status ∨ StatusEdge c.status c'.status := by
  cases h with
  | reopen h =>
      obtain ⟨hst, rfl⟩ := NetworkCapture.reopenExpired_eq h
      rw [hst]
      exact Or.inr .reopen
  | upload now hst _ =>
      rw [hst]
      exact Or.inr .upload
  | expire code message hst =>
      rw [hst]
      exact Or.inr .expire
  | retry hst _ =>
      rw [hst]
      exact Or.inr .retry
  | delete _ _ => exact Or.inl rfl

/-- A status written back over the status it was decided on, or over itself. -/
theorem Move.writeBack_edge {m : Mode} {s : Backend} {c c' r : NetworkCapture}
    (h : Move m s c c')
    (hcur : c.status ≠ c'.status → r.status = c.status ∨ r.status = c'.status) :
    (c.writeBack c' r).status = r.status ∨ StatusEdge r.status (c.writeBack c' r).status := by
  have hcol : (c.writeBack c' r).status = pickColumn c.status c'.status r.status := rfl
  rw [hcol]
  unfold pickColumn
  split
  · exact Or.inl rfl
  · rename_i hne
    rcases hcur (Ne.symm hne) with hcur | hcur
    · rw [hcur]
      exact h.edge
    · exact Or.inl hcur.symm

theorem AttemptUpdate.writeRow_edge (u : AttemptUpdate) (now : Timestamp) (c : NetworkCapture) :
    (u.writeRow now c).status = c.status ∨ StatusEdge c.status (u.writeRow now c).status := by
  unfold AttemptUpdate.writeRow
  split
  · rename_i happ
    cases u with
    | claimAttempt captureId t staleBefore =>
        simp only [applies, Bool.and_eq_true, Bool.or_eq_true, decide_eq_true_eq] at happ
        rcases happ.2 with hst | ⟨hst, -⟩
        · rw [hst]
          exact Or.inr .claim
        · exact Or.inl hst.symm
    | releaseAttempt captureId t =>
        simp only [applies, Bool.and_eq_true, owns_iff] at happ
        rw [happ.2.1]
        exact Or.inr .release
    | markVerified captureId sha256 t => exact Or.inl rfl
    | markAnalyzed captureId sha256 t =>
        simp only [applies, Bool.and_eq_true, owns_iff] at happ
        rw [happ.1.2.1]
        exact Or.inr .analyzed
    | markFailed captureId code message t =>
        simp only [applies, Bool.and_eq_true, owns_iff] at happ
        rw [happ.2.1]
        exact Or.inr .failed
  · exact Or.inl rfl

/-! ## Runs with current writes -/

/-- Where the commit writes a status, the row still has the one its object was
loaded with, or already the new one. -/
def CurrentWork (work : UnitOfWork) (s : Backend) : Prop :=
  ∀ u ∈ work.updates, u.1.status ≠ u.2.status → ∀ c ∈ s.captures.rows, c.id = u.1.id →
    c.status = u.1.status ∨ c.status = u.2.status

/-- The step is not a commit of an outdated object. -/
def currentWrites : CaptureLabel → CaptureWorld → Prop
  | .run i _, w => ∀ r work k, w.sessions[i]? = some ⟨r, some (.call (.commit work) k)⟩ →
      CurrentWork work w.shared
  | _, _ => True

/-- Along the runs within `allow`, every change of a stored status is an edge,
and an analyzed capture stays analyzed. -/
def LifecycleKept (settings : Settings) (seed : Seed)
    (allow : CaptureLabel → CaptureWorld → Prop) : Prop :=
  ∀ w, (captureSystem settings).Reach allow (initialWorld seed) w →
    (∀ l w', allow l w → (captureSystem settings).step l w = some w' →
      StatusesMove w.shared.captures w'.shared.captures) ∧
    (∀ w', (captureSystem settings).Reach allow w w' →
      ∀ c ∈ w.shared.captures.rows, c.status = .analyzed →
        ∃ c' ∈ w'.shared.captures.rows, c'.id = c.id ∧ c'.status = .analyzed)

def Mode.current : Mode :=
  { Mode.pool with extra := fun _ _ c _ s => ∀ work, c = .commit work → CurrentWork work s }

theorem current_allows {settings : Settings} {l : CaptureLabel} {w : CaptureWorld}
    (h : currentWrites l w) : (captureDiscipline Mode.current settings).Allows l w := by
  cases l with
  | spawn r => trivial
  | run i e =>
      intro r c k hi
      refine ⟨fun work hc => ?_, fun h => h.elim, fun h => h.elim, nofun⟩
      subst hc
      exact h r work k hi
  | crash i => trivial
  | ext x => exact ⟨trivial, fun _ _ _ _ h => h.elim⟩

theorem exec_statusesMove {settings : Settings} {req : Request} {i : Nat} {c : Cmd} {e : Env}
    {v : Except CaptureError c.Answer} {s s' : Backend}
    (hp : Issued Mode.current settings req i c s)
    (hcur : ∀ work, c = .commit work → CurrentWork work s)
    (h : exec i e c s = some (v, s')) : StatusesMove s.captures s'.captures := by
  cases exec_effect h with
  | idle => exact StatusesMove.refl _
  | locked key _ => exact StatusesMove.refl _
  | committed work s₁ hf =>
      obtain ⟨captures, keys, rfl, hrows, -⟩ := Backend.flush_ok hf
      intro r hr
      refine ⟨work.writeRow r, (hrows _).mpr (Or.inl ⟨r, hr, rfl⟩),
        congrArg CaptureIdentity.id (work.writeRow_identity r), ?_⟩
      rcases work.writeRow_cases r with heq | ⟨c, c', hu, hid, heq⟩
      · rw [heq]
        exact Or.inl rfl
      · rw [heq]
        exact (CommitOk.updates hp _ hu).2.writeBack_edge fun hne =>
          hcur work rfl _ hu hne r hr hid.symm
  | rolledBack => exact StatusesMove.refl _
  | deleted objectKey => exact StatusesMove.refl _
  | readyPublished event => exact StatusesMove.refl _
  | analysisSent event => exact StatusesMove.refl _
  | analysisPublished event => exact StatusesMove.refl _
  | attempted u _ =>
      intro r hr
      refine ⟨u.writeRow e.now r, ?_,
        congrArg CaptureIdentity.id (u.writeRow_identity e.now r), u.writeRow_edge e.now r⟩
      rw [AttemptUpdate.run_captures]
      exact List.mem_map_of_mem hr

theorem step_statusesMove {settings : Settings} {seed : Seed} {l : CaptureLabel}
    {w w' : CaptureWorld}
    (hreach : (captureSystem settings).Reach currentWrites (initialWorld seed) w)
    (hl : currentWrites l w) (hstep : (captureSystem settings).step l w = some w') :
    StatusesMove w.shared.captures w'.shared.captures := by
  have hsound := captureDiscipline_sound (m := Mode.current) not_false settings
  have hok := hsound.ok_of_reach (ok_initialWorld _ settings seed)
    (hreach.mono fun _ _ h => current_allows h)
  rcases System.step_cases hstep with ⟨r, rfl, rfl⟩ | ⟨i, e, r, c, k, v, s, rfl, hi, hx, rfl⟩ |
    ⟨i, r, p, rfl, hi, rfl⟩ | ⟨x, s, rfl, hx, rfl⟩
  · exact StatusesMove.refl _
  · exact exec_statusesMove (hok.issued hsound hi)
      (fun work hc => by subst hc; exact hl r work k hi) hx
  · exact StatusesMove.refl _
  · rw [(external_frame hx).1]
    exact StatusesMove.refl _

/-- No edge leaves `analyzed`. -/
theorem not_edge_from_analyzed {b : CaptureStatus} : ¬StatusEdge .analyzed b := nofun

theorem lifecycle_of_current_writes (settings : Settings) (seed : Seed) :
    LifecycleKept settings seed currentWrites := by
  intro w hw
  refine ⟨fun l w' hl hstep => step_statusesMove hw hl hstep, fun w' hw' => ?_⟩
  induction hw' with
  | refl => exact fun c hc hst => ⟨c, hc, rfl, hst⟩
  | step hw₁ hl hstep ih =>
      intro c hc hst
      obtain ⟨c₁, hc₁, hid₁, hst₁⟩ := ih c hc hst
      obtain ⟨c₂, hc₂, hid₂, hmove⟩ := step_statusesMove (hw.trans hw₁) hl hstep c₁ hc₁
      refine ⟨c₂, hc₂, hid₂.trans hid₁, ?_⟩
      rcases hmove with hsame | hedge
      · exact hsame.trans hst₁
      · rw [hst₁] at hedge
        exact absurd hedge not_edge_from_analyzed

/-! ## A small setting

One application, one file and one clock, for the runs below and in the
modules that follow. -/

namespace Sample

def uuid (n : Nat) : Uuid := ⟨BitVec.ofNat 128 n⟩

def sha : Sha256 :=
  ⟨"aaaaaaaaaaaaaaaaaaaaaaaaaaaaaaaaaaaaaaaaaaaaaaaaaaaaaaaaaaaaaaaa", by decide⟩

def packageName : NonBlankString := ⟨"org.example.app", by decide⟩

def application : Application where
  id := uuid 1
  name := ⟨"Example", by decide⟩
  packageName := packageName
  languageCode := none
  countryCode := none
  isActive := true
  deactivatedAt := none
  updatedAt := 0
  categoryAssignments := []

def seed : Seed where
  categories := []
  crawlTasks := []
  applications := ⟨[application], List.pairwise_singleton _ _⟩

/-- A digest that distinguishes the requests of these runs. -/
def settings : Settings where
  objectStorageMaxCaptureSizeBytes := 1000
  networkPendingUploadExpirySeconds := 60
  networkStaleAnalysisSeconds := 60
  objectStoragePresignExpirySeconds := 600
  hexdigest := fun r => toString r.captureSizeBytes ++ r.captureFormat.text

def zeroFloat : NonNegativeFloat := ⟨.finite 0, by decide⟩

def groups : MetricGroups where
  capture := ⟨.pcap, ⟨100, by decide⟩, ⟨10, by decide⟩, zeroFloat, 0, 0, 0, []⟩
  capabilities := ⟨false, false, false, false, false, false, false, false, false, false, false⟩
  traffic := ⟨0, none, none, 0, none, none, 0, none, none, none⟩
  protocolMix := ⟨0, 0, 0, none, none, none, none, none⟩
  ip := ⟨0, none, 0, none, 0⟩
  flow := ⟨0, none, none, 0, zeroFloat⟩
  transfer := ⟨none, none, none, none, none, none, zeroFloat, none⟩
  tcp := none
  quic := none
  udp := none
  dns := none

def file : LocalFile := ⟨.ok .pcap, sha, .ok (groups, ⟨"4.4", by decide⟩, 0)⟩

/-- A step in which nothing fails, at the second `t`. -/
def clock (t : Nat) : Env := ⟨.none, seconds t, uuid 0, 0, "", none, file⟩

/-- One of the draws of `uuid4`. -/
def draw (t n : Nat) : Env := { clock t with uuid := uuid n }

def data (scenario : Scenario) : CaptureCreate where
  applicationId := uuid 1
  scenario := scenario
  filename := "a.pcap"
  captureSizeBytes := 100
  transferFileSizeBytes := 10
  sha256 := sha
  filename_ok := by decide
  captureSize_pos := by decide
  transferFileSize_pos := by decide

/-- `n` commands of session `i`, all at `t`. -/
def steps (i t n : Nat) : List CaptureLabel := List.replicate n (.run i (clock t))

/-- The choices of a `create` call for a new capture with the identities `n`,
`n + 1`, ...: seven commands up to the draws, the four draws, and the three
after them. -/
def createEnvs (t n : Nat) : List Env :=
  List.replicate 7 (clock t) ++ [draw t n, draw t (n + 1), draw t (n + 2), draw t (n + 3)] ++
    List.replicate 3 (clock t)

def createSteps (i t n : Nat) : List CaptureLabel := (createEnvs t n).map (.run i)

def objectKey : String := objectKeyFor sha .pcap

/-- The record that announces the capture with the identities 10, 11 and 12. -/
def readyEvent (uploadedAt : Timestamp) : EventEnvelope NetworkCaptureReadyV1 where
  eventId := uuid 11
  occurredAt := uploadedAt
  payload :=
    { captureId := uuid 10, analysisId := uuid 12, applicationId := uuid 1,
      packageName := packageName, scenario := .upload, objectKey := objectKey,
      captureFormat := .pcap, captureSizeBytes := 100, transferFileSizeBytes := 10,
      expectedSha256 := sha, uploadedAt := uploadedAt }

/-- The capture is created, uploaded, completed and announced. -/
def announced : List CaptureLabel :=
  .spawn (.create (data .upload) (uuid 5)) :: createSteps 0 1 10 ++
  [.ext (.putObject objectKey ⟨100, none⟩), .spawn (.complete (uuid 10))] ++ steps 1 3 6

/-- The capture is created, its object uploaded, and two `complete` calls are
made; the second one does all of its work while the first one is still on its
way from the HEAD request to its commit. -/
def racingCompletes : List CaptureLabel :=
  .spawn (.create (data .upload) (uuid 5)) :: createSteps 0 1 10 ++
  [.ext (.putObject objectKey ⟨100, none⟩), .spawn (.complete (uuid 10)),
    .spawn (.complete (uuid 10))] ++ steps 1 2 3 ++ steps 2 3 6

/-- A worker gets the record and analyzes the capture. -/
def analyzedBy (i t : Nat) (uploadedAt : Timestamp) : List CaptureLabel :=
  [.spawn .processNext, .run i { clock t with message := some (.event (readyEvent uploadedAt)) }] ++
    steps i t 8

def statuses (w : CaptureWorld) : List CaptureStatus :=
  w.shared.captures.rows.map (·.status)

end Sample

open Sample in
/-- The first `complete` call commits what it decided before the analysis. -/
theorem not_lifecycleKept_stale_complete :
    ¬LifecycleKept Sample.settings Sample.seed anyStep := by
  intro hkept
  have hrun : ((captureSystem settings).run (initialWorld seed)
      (racingCompletes ++ analyzedBy 3 4 (seconds 3))).map statuses = some [.analyzed] := by
    decide +kernel
  have hnext : (((captureSystem settings).run (initialWorld seed)
      (racingCompletes ++ analyzedBy 3 4 (seconds 3))).bind fun w =>
        (captureSystem settings).step (.run 1 (clock 5)) w).map statuses = some [.uploaded] := by
    decide +kernel
  obtain ⟨w, hw, hst⟩ := Option.map_eq_some_iff.mp hrun
  rw [hw, Option.bind_some] at hnext
  obtain ⟨w', hw', hst'⟩ := Option.map_eq_some_iff.mp hnext
  have hreach := System.reach_of_run (fun _ _ _ => trivial) .refl hw
  obtain ⟨c, hc, hcst⟩ : ∃ c ∈ w.shared.captures.rows, c.status = .analyzed := by
    have : CaptureStatus.analyzed ∈ w.shared.captures.rows.map (·.status) := by
      rw [show w.shared.captures.rows.map (·.status) = _ from hst]
      exact List.mem_singleton.mpr rfl
    exact List.mem_map.mp this
  obtain ⟨c', hc', -, hmove⟩ := (hkept w hreach).1 _ w' trivial hw' c hc
  have hup : c'.status = .uploaded := by
    have : c'.status ∈ w'.shared.captures.rows.map (·.status) := List.mem_map_of_mem hc'
    rw [show w'.shared.captures.rows.map (·.status) = _ from hst'] at this
    exact List.mem_singleton.mp this
  rw [hcst, hup] at hmove
  rcases hmove with hsame | hedge
  · cases hsame
  · exact not_edge_from_analyzed hedge

end Sahabino
