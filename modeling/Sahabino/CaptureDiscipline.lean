import Sahabino.CaptureService

/-!
# What the capture processes owe each other

The discipline of the capture pool. `Inv` holds in every state, `Rely` is
what a session may count on between two of its commands, and `Issued` says
for each command what its issuer has established: which locks it holds,
that a written-back object was loaded from a stored row and moved by one
of the moves of the lifecycle, that a published record was made from a
stored row, that an attempt was claimed before it is marked.

The same proofs serve two worlds. In the pool, other sessions run between
any two commands, and a loaded object is only known to be *some* earlier
version of its row. When an operation runs alone (`Mode.alone`), nothing
moves, and what was read is what is stored. A `Mode` also carries the
conditions under which some of the results hold.
-/

namespace Sahabino

open Conc (Prog Proto)

/-! ## Row conditions -/

/-- What holds of a row in any interleaving. -/
structure CaptureSane (c : NetworkCapture) : Prop where
  verified : ∀ x, c.verifiedSha256 = some x → x = c.expectedSha256
  objectKey : c.objectKey = objectKeyFor c.expectedSha256 c.captureFormat

/-- What holds of a row when operations run one after the other. -/
structure CaptureOk (c : NetworkCapture) : Prop extends CaptureSane c where
  uploadedAt : c.status = .uploaded ∨ c.status = .analyzing ∨ c.status = .analyzed ∨
    c.status = .failed → c.uploadedAt.isSome
  unverified : c.status = .pendingUpload ∨ c.status = .expired → c.verifiedSha256 = none
  errorCode : c.errorCode.isSome ↔ c.status = .failed ∨ c.status = .expired
  finished : c.analysisFinishedAt.isSome ↔ c.status = .analyzed ∨ c.status = .failed
  started : c.status = .analyzing → c.analysisStartedAt.isSome
  analyzed : c.status = .analyzed → c.verifiedSha256 = some c.expectedSha256
  deleted : c.objectDeletedAt.isSome → c.status ≠ .uploaded ∧ c.status ≠ .analyzing

/-! ## Modes, invariant and rely -/

structure Mode where
  /-- One operation at a time. -/
  alone : Prop
  /-- Applications that keep their package name. -/
  frozen : Uuid → Prop
  /-- A verified hash is never taken back. -/
  keepVerified : Prop
  /-- The one format, per hash, whose requests may meet a row of the other. -/
  direction : Option (Sha256 → CaptureFormat)
  /-- Any further condition on the steps. -/
  extra : Request → Nat → Cmd → Env → Backend → Prop
  extraExternal : External → Backend → Prop

structure Inv (m : Mode) (s : Backend) : Prop where
  sane : ∀ c ∈ s.captures.rows, CaptureSane c
  ok : m.alone → ∀ c ∈ s.captures.rows, CaptureOk c

structure Rely (m : Mode) (i : Nat) (s s' : Backend) : Prop where
  rows : ∀ c ∈ s.captures.rows, ∃ c' ∈ s'.captures.rows,
    c'.toCaptureIdentity = c.toCaptureIdentity ∧
      (m.keepVerified → ∀ x, c.verifiedSha256 = some x → c'.verifiedSha256 = some x)
  keys : ∀ k ∈ s.idempotencyKeys.rows, k ∈ s'.idempotencyKeys.rows
  locks : ∀ k, s'.locks k = some i ↔ s.locks k = some i
  unmapped : ∀ key, s.locks (.idempotency key) = some i →
    ∀ k ∈ s'.idempotencyKeys.rows, k.idempotencyKey = key → k ∈ s.idempotencyKeys.rows
  history : ∀ h ∈ s.history, h ∈ s'.history
  committed : .committed i ∈ s'.history → .committed i ∈ s.history
  names : ∀ a p, m.frozen a → s.applications.packageName a = some p →
    s'.applications.packageName a = some p
  alone : m.alone → s' = s

theorem Rely.refl (m : Mode) (i : Nat) (s : Backend) : Rely m i s s where
  rows := fun c hc => ⟨c, hc, rfl, fun _ _ hx => hx⟩
  keys := fun _ hk => hk
  locks := fun _ => Iff.rfl
  unmapped := fun _ _ _ hk _ => hk
  history := fun _ hh => hh
  committed := fun h => h
  names := fun _ _ _ h => h
  alone := fun _ => rfl

theorem Rely.trans {m : Mode} {i : Nat} {s s' s'' : Backend} (h : Rely m i s s')
    (h' : Rely m i s' s'') : Rely m i s s'' where
  rows := by
    intro c hc
    obtain ⟨c₁, hc₁, hid₁, hv₁⟩ := h.rows c hc
    obtain ⟨c₂, hc₂, hid₂, hv₂⟩ := h'.rows c₁ hc₁
    exact ⟨c₂, hc₂, hid₂.trans hid₁, fun hk x hx => hv₂ hk x (hv₁ hk x hx)⟩
  keys := fun k hk => h'.keys k (h.keys k hk)
  locks := fun k => (h'.locks k).trans (h.locks k)
  unmapped := fun key hkey k hk hkk =>
    h.unmapped key hkey k (h'.unmapped key ((h.locks _).mpr hkey) k hk hkk) hkk
  history := fun x hx => h'.history x (h.history x hx)
  committed := fun hc => h.committed (h'.committed hc)
  names := fun a p ha hp => h'.names a p ha (h.names a p ha hp)
  alone := fun ha => (h'.alone ha).trans (h.alone ha)

/-! ## What a session knows -/

/-- The row of a loaded object is still there, with the same identity. -/
def Known (c : NetworkCapture) (s : Backend) : Prop :=
  ∃ r ∈ s.captures.rows, r.toCaptureIdentity = c.toCaptureIdentity

/-- The stored row of a known capture has its identity. -/
theorem Known.identity {c r : NetworkCapture} {s : Backend} (h : Known c s)
    (hr : r ∈ s.captures.rows) (hid : r.id = c.id) :
    r.toCaptureIdentity = c.toCaptureIdentity := by
  obtain ⟨r', hr', hid'⟩ := h
  have hsame : r.id = r'.id := hid.trans (congrArg CaptureIdentity.id hid').symm
  obtain rfl := s.captures.eq_of_id hr hr' hsame
  exact hid'

/-- An object loaded from the table. Alone, it is the stored row itself. -/
structure Seen (m : Mode) (c : NetworkCapture) (s : Backend) : Prop where
  known : Known c s
  sane : CaptureSane c
  stored : m.alone → c ∈ s.captures.rows

/-- An object the publisher accepts: alone, work to dispatch has its upload
time. -/
def Fit (m : Mode) (c : NetworkCapture) : Prop :=
  m.alone → c.dispatchable = true → c.uploadedAt.isSome

/-- The package name that was read for an application. -/
def Named (m : Mode) (applicationId : Uuid) (p : NonBlankString) (s : Backend) : Prop :=
  m.frozen applicationId → s.applications.packageName applicationId = some p

theorem Known.rely {m : Mode} {i : Nat} {c : NetworkCapture} {s s' : Backend}
    (hr : Rely m i s s') (h : Known c s) : Known c s' := by
  obtain ⟨r, hrow, hid⟩ := h
  obtain ⟨r', hrow', hid', -⟩ := hr.rows r hrow
  exact ⟨r', hrow', hid'.trans hid⟩

theorem Seen.rely {m : Mode} {i : Nat} {c : NetworkCapture} {s s' : Backend}
    (hr : Rely m i s s') (h : Seen m c s) : Seen m c s' where
  known := h.known.rely hr
  sane := h.sane
  stored := fun ha => by
    rw [hr.alone ha]
    exact h.stored ha

theorem Named.rely {m : Mode} {i : Nat} {a : Uuid} {p : NonBlankString} {s s' : Backend}
    (hr : Rely m i s s') (h : Named m a p s) : Named m a p s' :=
  fun ha => hr.names a p ha (h ha)

theorem Seen.of_mem {m : Mode} {c : NetworkCapture} {s : Backend} (hi : Inv m s)
    (h : c ∈ s.captures.rows) : Seen m c s :=
  ⟨⟨c, h, rfl⟩, hi.sane c h, fun _ => h⟩

theorem Seen.fit {m : Mode} {c : NetworkCapture} {s : Backend} (hi : Inv m s)
    (h : Seen m c s) : Fit m c := by
  intro ha hd
  have hok := hi.ok ha c (h.stored ha)
  simp only [NetworkCapture.dispatchable, Bool.or_eq_true, decide_eq_true_eq] at hd
  rcases hd with hd | hd
  · exact hok.uploadedAt (Or.inl hd)
  · exact hok.uploadedAt (Or.inr (Or.inl hd))

/-! ## Moves of the lifecycle -/

/-- What a session can have done to an object between loading it and writing it
back. -/
inductive Move (m : Mode) (s : Backend) : NetworkCapture → NetworkCapture → Prop
  | reopen {c c' : NetworkCapture} : c.reopenExpired = some c' → Move m s c c'
  | upload {c : NetworkCapture} (now : Timestamp) : c.status = .pendingUpload →
      (m.alone → ∃ metadata, s.objects c.objectKey = some metadata ∧
        metadata.sizeBytes = c.captureSizeBytes) →
      Move m s c (c.setUploaded now)
  | expire {c : NetworkCapture} (code message : String) : c.status = .pendingUpload →
      Move m s c (c.setExpired code message)
  | retry {c : NetworkCapture} : c.status = .failed → c.objectDeletedAt = none →
      Move m s c c.setRetried
  | delete {c : NetworkCapture} (deletedAt : Timestamp) : c.terminal = true →
      Move m s c (c.setObjectDeleted deletedAt)

theorem NetworkCapture.reopenExpired_eq {c c' : NetworkCapture}
    (h : c.reopenExpired = some c') : c.status = .expired ∧
      c' = { c with
        status := .pendingUpload, verifiedSha256 := none, uploadedAt := none,
        analysisStartedAt := none, analysisFinishedAt := none,
        errorCode := none, errorMessage := none } := by
  unfold NetworkCapture.reopenExpired at h
  split at h
  · cases h
  · rename_i hst
    exact ⟨not_not.mp hst, (Option.some.inj h).symm⟩

theorem Move.identity {m : Mode} {s : Backend} {c c' : NetworkCapture} (h : Move m s c c') :
    c'.toCaptureIdentity = c.toCaptureIdentity := by
  cases h with
  | reopen h =>
      rw [(NetworkCapture.reopenExpired_eq h).2]
  | upload _ _ _ => rfl
  | expire _ _ _ => rfl
  | retry _ _ => rfl
  | delete _ _ => rfl

theorem Move.createdAt {m : Mode} {s : Backend} {c c' : NetworkCapture} (h : Move m s c c') :
    c'.createdAt = c.createdAt := by
  cases h with
  | reopen h =>
      rw [(NetworkCapture.reopenExpired_eq h).2]
  | upload _ _ _ => rfl
  | expire _ _ _ => rfl
  | retry _ _ => rfl
  | delete _ _ => rfl

/-- No move writes a hash; the reopening takes it back. -/
theorem Move.verified {m : Mode} {s : Backend} {c c' : NetworkCapture} (h : Move m s c c') :
    c'.verifiedSha256 = c.verifiedSha256 ∨ c'.verifiedSha256 = none := by
  cases h with
  | reopen h =>
      rw [(NetworkCapture.reopenExpired_eq h).2]
      exact Or.inr rfl
  | upload _ _ _ => exact Or.inl rfl
  | expire _ _ _ => exact Or.inl rfl
  | retry _ _ => exact Or.inl rfl
  | delete _ _ => exact Or.inl rfl

theorem Move.sane {m : Mode} {s : Backend} {c c' : NetworkCapture} (h : Move m s c c')
    (hc : CaptureSane c) : CaptureSane c' := by
  have hid := h.identity
  refine ⟨fun x hx => ?_, ?_⟩
  · have hexp : c'.expectedSha256 = c.expectedSha256 :=
      congrArg CaptureIdentity.expectedSha256 hid
    rw [hexp]
    rcases h.verified with hv | hv
    · exact hc.verified x (hv ▸ hx)
    · rw [hv] at hx
      cases hx
  · have hkey := hc.objectKey
    rwa [← hid] at hkey

/-! ## The obligations of a command -/

/-- The row `create` inserts: a verified hash is the requested one, and it is
only taken over from a row whose object was just seen in storage. -/
structure NewRow (m : Mode) (data : CaptureCreate) (c : NetworkCapture) (s : Backend) :
    Prop where
  shape : ∃ verified now ids, c = newCapture data verified now ids ∧
    (verified.isSome → c.verifiedSha256 = some data.sha256)
  stored : m.alone → c.status = .uploaded → ∃ metadata,
    s.objects c.objectKey = some metadata ∧ metadata.sizeBytes = c.captureSizeBytes

/-- A new key is bound by the `create` call for it, under its lock, while it is
unmapped. -/
structure NewKey (settings : Settings) (req : Request) (i : Nat)
    (k : NetworkCaptureIdempotencyKey) (s : Backend) : Prop where
  request : ∃ data, req = .create data k.idempotencyKey ∧
    k.requestFingerprint = requestFingerprint settings data
  lock : s.locks (.idempotency k.idempotencyKey) = some i
  unmapped : ∀ k' ∈ s.idempotencyKeys.rows, k'.idempotencyKey ≠ k.idempotencyKey

structure CommitOk (m : Mode) (settings : Settings) (req : Request) (i : Nat)
    (work : UnitOfWork) (s : Backend) : Prop where
  updates : ∀ u ∈ work.updates, Seen m u.1 s ∧ Move m s u.1 u.2
  capture : ∀ c, work.insertCapture = some c →
    ∃ data key, req = .create data key ∧ NewRow m data c s
  key : ∀ k, work.insertKey = some k → NewKey settings req i k s

/-- The records `publish_ready` can produce for a stored row. -/
def ReadyRecord (m : Mode) (event : EventEnvelope NetworkCaptureReadyV1) (s : Backend) : Prop :=
  ∃ c packageName uploadedAt, Known c s ∧ Named m c.applicationId packageName s ∧
    event = captureReadyEnvelope (readyPayload c packageName uploadedAt) c.readyEventId

/-- The records `publish_analysis` can produce for a stored row. -/
structure AnalysisRecord (m : Mode) (event : EventEnvelope NetworkAnalysisCollectedV1)
    (c : NetworkCapture) (s : Backend) : Prop where
  eventId : event.eventId = c.analysisEventId
  analysisId : event.payload.analysisId = c.analysisId
  captureId : event.payload.captureId = c.id
  applicationId : event.payload.applicationId = c.applicationId
  scenario : event.payload.scenario = c.scenario
  sha256 : event.payload.verifiedSha256 = c.expectedSha256
  named : Named m c.applicationId event.payload.packageName s
  verified : m.keepVerified → ∃ r ∈ s.captures.rows,
    r.toCaptureIdentity = c.toCaptureIdentity ∧
      r.verifiedSha256 = some event.payload.verifiedSha256

/-- The second object key a `create` call locks: the one of the logical row, for
a request in the other format. -/
structure SecondLock (m : Mode) (data : CaptureCreate) (objectKey : String) (i : Nat)
    (s : Backend) : Prop where
  held : ∀ k, s.locks (.object k) = some i → k = objectKeyFor data.sha256 data.captureFormat
  other : ∃ f, objectKey = objectKeyFor data.sha256 f ∧ f ≠ data.captureFormat
  direction : ∀ dir, m.direction = some dir → data.captureFormat = dir data.sha256

def AttemptOk (settings : Settings) (i : Nat) (s : Backend) : AttemptUpdate → Prop
  | .claimAttempt _ t staleBefore =>
      staleBefore = t - seconds settings.networkStaleAnalysisSeconds
  | .releaseAttempt captureId t => .claimed i captureId t ∈ s.history
  | .markVerified captureId _ t => .claimed i captureId t ∈ s.history
  | .markAnalyzed captureId _ t => .claimed i captureId t ∈ s.history ∧
      ∃ c ∈ s.captures.rows, c.id = captureId ∧ .analysisPublished c.analysisEventId ∈ s.history
  | .markFailed captureId _ _ t => .claimed i captureId t ∈ s.history

/-- The operations that take object locks. -/
def Request.locking : Request → Prop
  | .create _ _ => True
  | .cleanup _ => True
  | _ => False

def Issued (m : Mode) (settings : Settings) (req : Request) (i : Nat) : Cmd → Backend → Prop
  | .query _, _ => True
  | .lock (.idempotency key), s =>
      (∃ data, req = .create data key) ∧ ∀ k, s.locks k ≠ some i
  | .lock (.object objectKey), s => req.locking ∧
      ((∀ k, s.locks (.object k) ≠ some i) ∨
        ∃ data key, req = .create data key ∧ SecondLock m data objectKey i s)
  | .commit work, s => CommitOk m settings req i work s
  | .rollback, _ => True
  | .deleteObject _, _ => ∃ captureId, req = .cleanup captureId
  | .publishReady event, s => ReadyRecord m event s
  | .publishAnalysis event, s => ∃ c, Known c s ∧ AnalysisRecord m event c s
  | .attempt u, s => req = .processNext ∧ AttemptOk settings i s u

/-- The steps a mode speaks about. -/
structure Allowed (m : Mode) (req : Request) (i : Nat) (c : Cmd) (e : Env) (s : Backend) :
    Prop where
  extra : m.extra req i c e s
  alone : m.alone → ((∃ work, c = .commit work) ∨ ∃ k, c = .deleteObject k) → e.fault = .none
  keepVerified : m.keepVerified → ∀ work, c = .commit work → ∀ u ∈ work.updates,
    u.2.verifiedSha256 = none → u.1.verifiedSha256 = none
  direction : ∀ dir, m.direction = some dir → ∀ data key, req = .create data key →
    (∃ a sc sha, c = .query (.getLogical a sc sha)) →
      ∀ r ∈ s.captures.rows, r.logical = (data.applicationId, data.scenario, data.sha256) →
        r.captureFormat ≠ data.captureFormat → data.captureFormat = dir data.sha256

/-- The steps of the outside world a mode speaks about: frozen applications are
not renamed. -/
structure ExternalAllowed (m : Mode) (x : External) (s : Backend) : Prop where
  extra : m.extraExternal x s
  frozen : ∀ a data now, x = .updateApplication a data now → m.frozen a →
    ∀ p q, s.applications.packageName a = some p → data.packageName = some q → q = p

def captureProto (m : Mode) (settings : Settings) (req : Request) : Proto Backend Cmd Env :=
  ⟨Inv m, Rely m, Issued m settings req, Allowed m req⟩

/-! ## Rows under the commands -/

theorem pickColumn_self {α : Type} [DecidableEq α] (loaded new : α) :
    pickColumn loaded new loaded = new := by
  unfold pickColumn
  split
  · rename_i h
    exact h.symm
  · rfl

/-- An object written back over the row it was loaded from becomes the row. -/
theorem NetworkCapture.writeBack_self {c c' : NetworkCapture}
    (hid : c'.toCaptureIdentity = c.toCaptureIdentity) (hcr : c'.createdAt = c.createdAt) :
    c.writeBack c' c = c' := by
  unfold NetworkCapture.writeBack
  simp only [pickColumn_self, ← hid, ← hcr]

theorem Move.writeBack_sane {m : Mode} {s : Backend} {c c' r : NetworkCapture}
    (h : Move m s c c') (hr : CaptureSane r) : CaptureSane (c.writeBack c' r) := by
  refine ⟨fun x hx => ?_, hr.objectKey⟩
  have hpick : pickColumn c.verifiedSha256 c'.verifiedSha256 r.verifiedSha256 = some x := hx
  unfold pickColumn at hpick
  split at hpick
  · exact hr.verified x hpick
  · rename_i hne
    rcases h.verified with hv | hv
    · exact absurd hv hne
    · rw [hv] at hpick
      cases hpick

theorem Move.ok {m : Mode} {s : Backend} {c c' : NetworkCapture} (h : Move m s c c')
    (hc : CaptureOk c) : CaptureOk c' := by
  have hsane := h.sane hc.toCaptureSane
  cases h with
  | reopen h =>
      obtain ⟨hst, rfl⟩ := NetworkCapture.reopenExpired_eq h
      refine ⟨hsane, ?_, ?_, ?_, ?_, ?_, ?_, ?_⟩ <;> simp
  | upload now hst _ =>
      have hfin := hc.finished
      rw [hst] at hfin
      refine ⟨hsane, ?_, ?_, ?_, ?_, ?_, ?_, ?_⟩ <;> simp [NetworkCapture.setUploaded]
      simpa using hfin
  | expire code message hst =>
      have hfin := hc.finished
      have hver := hc.unverified (Or.inl hst)
      rw [hst] at hfin
      refine ⟨hsane, ?_, ?_, ?_, ?_, ?_, ?_, ?_⟩ <;> simp [NetworkCapture.setExpired]
      · exact hver
      · simpa using hfin
  | retry hst hdel =>
      have hup := hc.uploadedAt (Or.inr (Or.inr (Or.inr hst)))
      refine ⟨hsane, ?_, ?_, ?_, ?_, ?_, ?_, ?_⟩ <;> simp [NetworkCapture.setRetried]
      · exact hup
      · exact hdel
  | delete deletedAt hterm =>
      refine ⟨hsane, hc.uploadedAt, hc.unverified, hc.errorCode, hc.finished, hc.started,
        hc.analyzed, fun _ => ?_⟩
      simp only [NetworkCapture.terminal, Bool.or_eq_true, decide_eq_true_eq] at hterm
      rcases hterm with (hst | hst) | hst <;> simp [NetworkCapture.setObjectDeleted, hst]

theorem NewRow.sane {m : Mode} {data : CaptureCreate} {c : NetworkCapture} {s : Backend}
    (h : NewRow m data c s) : CaptureSane c := by
  obtain ⟨verified, now, ids, rfl, hver⟩ := h.shape
  refine ⟨fun x hx => ?_, rfl⟩
  cases verified with
  | none => cases hx
  | some v =>
      have hsome := hver rfl
      exact Option.some.inj (hx.symm.trans hsome)

theorem NewRow.ok {m : Mode} {data : CaptureCreate} {c : NetworkCapture} {s : Backend}
    (h : NewRow m data c s) : CaptureOk c := by
  have hsane := h.sane
  obtain ⟨verified, now, ids, rfl, -⟩ := h.shape
  cases verified with
  | none => refine ⟨hsane, ?_, ?_, ?_, ?_, ?_, ?_, ?_⟩ <;> simp [newCapture]
  | some v => refine ⟨hsane, ?_, ?_, ?_, ?_, ?_, ?_, ?_⟩ <;> simp [newCapture]

namespace AttemptUpdate

theorem owns_iff {t : Timestamp} {c : NetworkCapture} :
    owns t c = true ↔ c.status = .analyzing ∧ c.analysisStartedAt = some t := by
  simp [owns]

theorem writeRow_sane {u : AttemptUpdate} {now : Timestamp} {c : NetworkCapture}
    (hc : CaptureSane c) : CaptureSane (u.writeRow now c) := by
  unfold writeRow
  split
  · rename_i happ
    cases u with
    | claimAttempt captureId t staleBefore => exact ⟨hc.verified, hc.objectKey⟩
    | releaseAttempt captureId t => exact ⟨hc.verified, hc.objectKey⟩
    | markVerified captureId sha256 t =>
        simp only [applies, Bool.and_eq_true, decide_eq_true_eq] at happ
        exact ⟨fun x hx => (Option.some.inj hx).symm.trans happ.2.symm, hc.objectKey⟩
    | markAnalyzed captureId sha256 t =>
        simp only [applies, Bool.and_eq_true, decide_eq_true_eq] at happ
        exact ⟨fun x hx => (Option.some.inj hx).symm.trans happ.2.symm, hc.objectKey⟩
    | markFailed captureId code message t => exact ⟨hc.verified, hc.objectKey⟩
  · exact hc

theorem writeRow_ok {u : AttemptUpdate} {now : Timestamp} {c : NetworkCapture}
    (hc : CaptureOk c) : CaptureOk (u.writeRow now c) := by
  have hsane : CaptureSane (u.writeRow now c) := writeRow_sane hc.toCaptureSane
  unfold writeRow at hsane ⊢
  split at hsane
  · rename_i happ
    rw [if_pos happ]
    cases u with
    | claimAttempt captureId t staleBefore =>
        simp only [applies, Bool.and_eq_true, Bool.or_eq_true, decide_eq_true_eq] at happ
        have hlive : c.status = .uploaded ∨ c.status = .analyzing := by
          rcases happ.2 with h | ⟨h, -⟩
          · exact Or.inl h
          · exact Or.inr h
        have hup : c.uploadedAt.isSome := by
          rcases hlive with h | h
          · exact hc.uploadedAt (Or.inl h)
          · exact hc.uploadedAt (Or.inr (Or.inl h))
        have hdel : c.objectDeletedAt = none := by
          by_contra hd
          obtain ⟨h₁, h₂⟩ := hc.deleted (Option.isSome_iff_ne_none.mpr hd)
          rcases hlive with h | h
          · exact h₁ h
          · exact h₂ h
        refine ⟨hsane, ?_, ?_, ?_, ?_, ?_, ?_, ?_⟩ <;> simp [values, hup, hdel]
    | releaseAttempt captureId t =>
        simp only [applies, Bool.and_eq_true, owns_iff] at happ
        have hst := happ.2.1
        have hup := hc.uploadedAt (Or.inr (Or.inl hst))
        have herr := hc.errorCode
        have hfin := hc.finished
        have hdel := hc.deleted
        rw [hst] at herr hfin hdel
        refine ⟨hsane, ?_, ?_, ?_, ?_, ?_, ?_, ?_⟩ <;> simp [values, hup]
        · simpa using herr
        · simpa using hfin
        · simpa using hdel
    | markVerified captureId sha256 t =>
        simp only [applies, Bool.and_eq_true, owns_iff, decide_eq_true_eq] at happ
        have hst := happ.1.2.1
        refine ⟨hsane, hc.uploadedAt, fun h => ?_, hc.errorCode, hc.finished, hc.started,
          fun h => ?_, hc.deleted⟩
        · simp [values, hst] at h
        · simp [values, hst] at h
    | markAnalyzed captureId sha256 t =>
        simp only [applies, Bool.and_eq_true, owns_iff, decide_eq_true_eq] at happ
        have hup := hc.uploadedAt (Or.inr (Or.inl happ.1.2.1))
        refine ⟨hsane, ?_, ?_, ?_, ?_, ?_, ?_, ?_⟩ <;> simp [values, hup, happ.2]
    | markFailed captureId code message t =>
        simp only [applies, Bool.and_eq_true, owns_iff] at happ
        have hup := hc.uploadedAt (Or.inr (Or.inl happ.2.1))
        refine ⟨hsane, ?_, ?_, ?_, ?_, ?_, ?_, ?_⟩ <;> simp [values, hup]
  · rename_i happ
    rw [if_neg happ]
    exact hc

/-- The statements that set the hash set the expected one. -/
theorem writeRow_verified {u : AttemptUpdate} {now : Timestamp} {c : NetworkCapture}
    {x : Sha256} (hc : CaptureSane c) (hx : c.verifiedSha256 = some x) :
    (u.writeRow now c).verifiedSha256 = some x := by
  have hexp := hc.verified x hx
  unfold writeRow
  split
  · rename_i happ
    cases u with
    | claimAttempt captureId t staleBefore => exact hx
    | releaseAttempt captureId t => exact hx
    | markVerified captureId sha256 t =>
        simp only [applies, Bool.and_eq_true, decide_eq_true_eq] at happ
        simp [values, hexp, happ.2]
    | markAnalyzed captureId sha256 t =>
        simp only [applies, Bool.and_eq_true, decide_eq_true_eq] at happ
        simp [values, hexp, happ.2]
    | markFailed captureId code message t => exact hx
  · exact hx

@[simp] theorem run_captures (i : Nat) (now : Timestamp) (u : AttemptUpdate) (s : Backend) :
    (u.run i now s).captures =
      s.captures.update (u.writeRow now) (u.writeRow_identity now) := by
  cases u <;> rfl

/-- Apart from the rows, an attempt's statement only adds to the history, and
never a commit. -/
theorem run_frame (i : Nat) (now : Timestamp) (u : AttemptUpdate) (s : Backend) :
    ∃ events, u.run i now s = { s with
        captures := s.captures.update (u.writeRow now) (u.writeRow_identity now)
        history := s.history ++ events } ∧ ∀ j, .committed j ∉ events := by
  cases u with
  | claimAttempt captureId t staleBefore => exact ⟨[.claimed i captureId t], rfl, by simp⟩
  | releaseAttempt captureId t =>
      exact ⟨[], by simp [run, remember], by simp⟩
  | markVerified captureId sha256 t =>
      exact ⟨[], by simp [run, remember], by simp⟩
  | markAnalyzed captureId sha256 t =>
      exact ⟨[], by simp [run, remember], by simp⟩
  | markFailed captureId code message t =>
      exact ⟨[], by simp [run, remember], by simp⟩

end AttemptUpdate

/-! ## Soundness of the commands -/

/-- Every row of a committed state is an old one, possibly written back, or the
inserted one. -/
theorem CommitOk.row_cases {m : Mode} {settings : Settings} {req : Request} {i : Nat}
    {work : UnitOfWork} {s s' : Backend} {now : Timestamp}
    (h : CommitOk m settings req i work s) (hf : s.flush now work = .ok s')
    {r : NetworkCapture} (hr : r ∈ s'.captures.rows) :
    r ∈ s.captures.rows ∨
    (∃ r₀ ∈ s.captures.rows, ∃ c c', (c, c') ∈ work.updates ∧ Seen m c s ∧ Move m s c c' ∧
      c.id = r₀.id ∧ r = c.writeBack c' r₀) ∨
    (∃ data key c, req = .create data key ∧ work.insertCapture = some c ∧ NewRow m data c s ∧
      r = { c with createdAt := now }) := by
  obtain ⟨captures, keys, rfl, hrows, -⟩ := Backend.flush_ok hf
  rcases (hrows r).mp hr with ⟨r₀, hr₀, rfl⟩ | ⟨c, hc, rfl⟩
  · rcases work.writeRow_cases r₀ with heq | ⟨c, c', hu, hid, heq⟩
    · rw [heq]
      exact Or.inl hr₀
    · obtain ⟨hseen, hmove⟩ := h.updates _ hu
      exact Or.inr (Or.inl ⟨r₀, hr₀, c, c', hu, hseen, hmove, hid, heq⟩)
  · obtain ⟨data, key, hreq, hnew⟩ := h.capture c hc
    exact Or.inr (Or.inr ⟨data, key, c, hreq, hc, hnew, rfl⟩)

/-- Alone, an object is written back over the row it was loaded from. -/
theorem Seen.eq_stored {m : Mode} {c r : NetworkCapture} {s : Backend} (h : Seen m c s)
    (ha : m.alone) (hr : r ∈ s.captures.rows) (hid : c.id = r.id) : r = c :=
  (s.captures.eq_of_id (h.stored ha) hr hid).symm

theorem CaptureSane.of_created {c : NetworkCapture} (h : CaptureSane c) (now : Timestamp) :
    CaptureSane { c with createdAt := now } := ⟨h.verified, h.objectKey⟩

theorem CaptureOk.of_created {c : NetworkCapture} (h : CaptureOk c) (now : Timestamp) :
    CaptureOk { c with createdAt := now } :=
  ⟨h.toCaptureSane.of_created now, h.uploadedAt, h.unverified, h.errorCode, h.finished,
    h.started, h.analyzed, h.deleted⟩

theorem CommitOk.inv {m : Mode} {settings : Settings} {req : Request} {i : Nat}
    {work : UnitOfWork} {s s' : Backend} {now : Timestamp}
    (h : CommitOk m settings req i work s) (hi : Inv m s) (hf : s.flush now work = .ok s') :
    Inv m s' := by
  refine ⟨fun r hr => ?_, fun ha r hr => ?_⟩
  · rcases h.row_cases hf hr with hr | ⟨r₀, hr₀, c, c', -, -, hmove, -, rfl⟩ |
      ⟨data, key, c, -, -, hnew, rfl⟩
    · exact hi.sane r hr
    · exact hmove.writeBack_sane (hi.sane r₀ hr₀)
    · exact hnew.sane.of_created now
  · rcases h.row_cases hf hr with hr | ⟨r₀, hr₀, c, c', -, hseen, hmove, hid, rfl⟩ |
      ⟨data, key, c, -, -, hnew, rfl⟩
    · exact hi.ok ha r hr
    · obtain rfl := hseen.eq_stored ha hr₀ hid
      rw [NetworkCapture.writeBack_self hmove.identity hmove.createdAt]
      exact hmove.ok (hi.ok ha r₀ hr₀)
    · exact hnew.ok.of_created now

/-- Every command keeps the invariant when it is issued in order. -/
theorem exec_inv {m : Mode} {settings : Settings} {req : Request} {i : Nat} {c : Cmd} {e : Env}
    {v : Except CaptureError c.Answer} {s s' : Backend} (hi : Inv m s)
    (hp : Issued m settings req i c s) (h : exec i e c s = some (v, s')) : Inv m s' := by
  cases exec_effect h with
  | idle => exact hi
  | locked key _ => exact ⟨hi.sane, hi.ok⟩
  | committed work s₁ hf =>
      have hinv := CommitOk.inv hp hi hf
      exact ⟨hinv.sane, hinv.ok⟩
  | rolledBack => exact ⟨hi.sane, hi.ok⟩
  | deleted objectKey => exact ⟨hi.sane, hi.ok⟩
  | readyPublished event => exact ⟨hi.sane, hi.ok⟩
  | analysisSent event => exact ⟨hi.sane, hi.ok⟩
  | analysisPublished event => exact ⟨hi.sane, hi.ok⟩
  | attempted u _ =>
      refine ⟨fun r hr => ?_, fun ha r hr => ?_⟩
      · rw [AttemptUpdate.run_captures, CaptureTable.rows_update, List.mem_map] at hr
        obtain ⟨r₀, hr₀, rfl⟩ := hr
        exact AttemptUpdate.writeRow_sane (hi.sane r₀ hr₀)
      · rw [AttemptUpdate.run_captures, CaptureTable.rows_update, List.mem_map] at hr
        obtain ⟨r₀, hr₀, rfl⟩ := hr
        exact AttemptUpdate.writeRow_ok (hi.ok ha r₀ hr₀)

/-! ### Interference

What one session's command looks like to another session `j`. -/

theorem releaseLocks_iff {i j : Nat} (hij : j ≠ i) (s : Backend) (k : LockKey) :
    (s.releaseLocks i).locks k = some j ↔ s.locks k = some j := by
  simp only [Backend.releaseLocks]
  split
  · rename_i h
    simp [h, Ne.symm hij]
  · exact Iff.rfl

theorem releaseLocks_ne (i : Nat) (s : Backend) (k : LockKey) :
    (s.releaseLocks i).locks k ≠ some i := by
  intro hk
  simp only [Backend.releaseLocks] at hk
  split at hk
  · cases hk
  · rename_i hne
    exact hne hk

theorem Rely.releaseLocks {m : Mode} {i j : Nat} (hij : j ≠ i) (hm : ¬m.alone) (s : Backend) :
    Rely m j s (s.releaseLocks i) :=
  { Rely.refl m j s with
    locks := releaseLocks_iff hij s
    alone := fun ha => absurd ha hm }

/-- A history that grows by somebody else's events. -/
theorem Rely.of_history {m : Mode} {j : Nat} {s s' : Backend} {events : List HistoryEvent}
    (h : Rely m j s s') (hm : ¬m.alone) (hj : .committed j ∉ events) :
    Rely m j s { s' with history := s'.history ++ events } :=
  { h with
    history := fun x hx => List.mem_append_left _ (h.history x hx)
    committed := fun hc => by
      rcases List.mem_append.mp hc with hc | hc
      · exact h.committed hc
      · exact absurd hc hj
    alone := fun ha => absurd ha hm }

/-- Where taking back a hash is ruled out, a written-back row keeps its own. -/
theorem Move.writeBack_verified {m : Mode} {s : Backend} {c c' r : NetworkCapture} {x : Sha256}
    (h : Move m s c c') (hkeep : c'.verifiedSha256 = none → c.verifiedSha256 = none)
    (hx : r.verifiedSha256 = some x) : (c.writeBack c' r).verifiedSha256 = some x := by
  have hsame : c'.verifiedSha256 = c.verifiedSha256 := by
    rcases h.verified with hv | hv
    · exact hv
    · rw [hv, hkeep hv]
  have hcol : (c.writeBack c' r).verifiedSha256 =
      pickColumn c.verifiedSha256 c'.verifiedSha256 r.verifiedSha256 := rfl
  rw [hcol, pickColumn, if_pos hsame, hx]

theorem CommitOk.rely {m : Mode} {settings : Settings} {req : Request} {i j : Nat}
    {work : UnitOfWork} {s s' : Backend} {now : Timestamp} (hij : j ≠ i) (hm : ¬m.alone)
    (h : CommitOk m settings req i work s)
    (hkeep : m.keepVerified → ∀ u ∈ work.updates,
      u.2.verifiedSha256 = none → u.1.verifiedSha256 = none)
    (hf : s.flush now work = .ok s') : Rely m j s s' := by
  obtain ⟨captures, keys, rfl, hrows, hkeys⟩ := Backend.flush_ok hf
  refine { Rely.refl m j s with rows := ?_, keys := ?_, unmapped := ?_, alone := ?_ }
  · intro r hr
    refine ⟨work.writeRow r, (hrows _).mpr (Or.inl ⟨r, hr, rfl⟩), work.writeRow_identity r, ?_⟩
    intro hk x hx
    rcases work.writeRow_cases r with heq | ⟨c, c', hu, -, heq⟩
    · rw [heq, hx]
    · rw [heq]
      exact (h.updates _ hu).2.writeBack_verified (hkeep hk _ hu) hx
  · exact fun k hk => (hkeys k).mpr (Or.inl hk)
  · intro key hlock k hk hkey
    rcases (hkeys k).mp hk with hk | hk
    · exact hk
    · have hi := (h.key k hk).lock
      rw [hkey, hlock] at hi
      exact absurd (Option.some.inj hi) hij
  · exact fun ha => absurd ha hm

/-- A command of session `i` stays within the rely of every other session. -/
theorem exec_rely {m : Mode} {settings : Settings} {req : Request} {i j : Nat} {c : Cmd}
    {e : Env} {v : Except CaptureError c.Answer} {s s' : Backend} (hij : j ≠ i) (hm : ¬m.alone)
    (hi : Inv m s) (hp : Issued m settings req i c s) (ha : Allowed m req i c e s)
    (h : exec i e c s = some (v, s')) : Rely m j s s' := by
  cases exec_effect h with
  | idle => exact Rely.refl m j s
  | locked key hfree =>
      refine { Rely.refl m j s with locks := fun k => ?_, alone := fun h => absurd h hm }
      by_cases hk : k = key
      · subst hk
        simp [hfree, Ne.symm hij]
      · simp [hk]
  | committed work s₁ hf =>
      have hflush := CommitOk.rely hij hm hp (fun hk u hu => ha.keepVerified hk work rfl u hu) hf
      exact (hflush.trans (Rely.releaseLocks hij hm s₁)).of_history hm (by simpa using hij)
  | rolledBack => exact Rely.releaseLocks hij hm s
  | deleted objectKey => exact { Rely.refl m j s with alone := fun h => absurd h hm }
  | readyPublished event => exact { Rely.refl m j s with alone := fun h => absurd h hm }
  | analysisSent event => exact { Rely.refl m j s with alone := fun h => absurd h hm }
  | analysisPublished event =>
      have hsent : Rely m j s { s with collectedTopic := s.collectedTopic ++ [event] } :=
        { Rely.refl m j s with alone := fun h => absurd h hm }
      exact hsent.of_history hm (by simp)
  | attempted u _ =>
      obtain ⟨events, heq, hev⟩ := u.run_frame i e.now s
      rw [heq]
      have hrows : Rely m j s { s with
          captures := s.captures.update (u.writeRow e.now) (u.writeRow_identity e.now) } := by
        refine { Rely.refl m j s with rows := fun r hr => ?_, alone := fun h => absurd h hm }
        exact ⟨u.writeRow e.now r, List.mem_map_of_mem hr, u.writeRow_identity e.now r,
          fun _ x hx => AttemptUpdate.writeRow_verified (hi.sane r hr) hx⟩
      exact hrows.of_history hm (hev j)

/-! ### The outside world -/

/-- What the outside world can do to the backend, said once. -/
theorem external_cases {x : External} {s s' : Backend} (h : external x s = some s') :
    s' = s ∨
    (∃ objectKey metadata, x = .putObject objectKey metadata ∧
      s' = { s with objects := Function.update s.objects objectKey (some metadata) }) ∨
    (∃ applications, s' = { s with applications := applications }) ∨
    (∃ event source offset env claimed tables, x = .ingest event source offset env ∧
      ingestTransaction s.refs event source offset env s.ingested = .ok (claimed, tables) ∧
      s' = { s with ingested := tables }) := by
  have happs : ∀ r, s.setApplications r = s ∨
      ∃ applications, s.setApplications r = { s with applications := applications } := by
    intro r
    cases r with
    | ok applications => exact Or.inr ⟨applications, rfl⟩
    | error e => exact Or.inl rfl
  have hregistry : ∀ r, some (s.setApplications r) = some s' →
      s' = s ∨ ∃ applications, s' = { s with applications := applications } := by
    intro r hr
    obtain rfl := Option.some.inj hr
    exact happs r
  cases x with
  | putObject objectKey metadata =>
      exact Or.inr (Or.inl ⟨objectKey, metadata, rfl, (Option.some.inj h).symm⟩)
  | createApplication data id now =>
      rcases hregistry _ h with heq | heq
      · exact Or.inl heq
      · exact Or.inr (Or.inr (Or.inl heq))
  | updateApplication applicationId data now =>
      rcases hregistry _ h with heq | heq
      · exact Or.inl heq
      · exact Or.inr (Or.inr (Or.inl heq))
  | deactivateApplication applicationId now =>
      rcases hregistry _ h with heq | heq
      · exact Or.inl heq
      · exact Or.inr (Or.inr (Or.inl heq))
  | ingest event source offset env =>
      simp only [external] at h
      split at h
      · rename_i claimed tables htx
        exact Or.inr (Or.inr (Or.inr
          ⟨event, source, offset, env, claimed, tables, rfl, htx, (Option.some.inj h).symm⟩))
      · exact Or.inl (Option.some.inj h).symm

/-- Captures, keys, topics and the record of what happened are out of its reach. -/
theorem external_frame {x : External} {s s' : Backend} (h : external x s = some s') :
    s'.captures = s.captures ∧ s'.idempotencyKeys = s.idempotencyKeys ∧
      s'.readyTopic = s.readyTopic ∧ s'.collectedTopic = s.collectedTopic ∧
      s'.locks = s.locks ∧ s'.history = s.history := by
  rcases external_cases h with rfl | ⟨objectKey, metadata, -, rfl⟩ | ⟨applications, rfl⟩ |
    ⟨event, source, offset, env, claimed, tables, -, -, rfl⟩
  · exact ⟨rfl, rfl, rfl, rfl, rfl, rfl⟩
  · exact ⟨rfl, rfl, rfl, rfl, rfl, rfl⟩
  · exact ⟨rfl, rfl, rfl, rfl, rfl, rfl⟩
  · exact ⟨rfl, rfl, rfl, rfl, rfl, rfl⟩

theorem external_inv {m : Mode} {x : External} {s s' : Backend} (hi : Inv m s)
    (h : external x s = some s') : Inv m s' := by
  have hcaptures := (external_frame h).1
  refine ⟨?_, ?_⟩
  · rw [hcaptures]
    exact hi.sane
  · rw [hcaptures]
    exact hi.ok

theorem Rely.setApplications {m : Mode} {j : Nat} {s : Backend} (hm : ¬m.alone)
    {r : Except RegistryError ApplicationTable}
    (hnames : ∀ t a p, r = .ok t → m.frozen a → s.applications.packageName a = some p →
      t.packageName a = some p) : Rely m j s (s.setApplications r) := by
  cases r with
  | ok t =>
      exact { Rely.refl m j s with
        names := fun a p ha hp => hnames t a p rfl ha hp
        alone := fun h => absurd h hm }
  | error e => exact Rely.refl m j s

theorem external_rely {m : Mode} {j : Nat} {x : External} {s s' : Backend} (hm : ¬m.alone)
    (ha : ExternalAllowed m x s) (h : external x s = some s') : Rely m j s s' := by
  cases x with
  | putObject objectKey metadata =>
      obtain rfl := Option.some.inj h
      exact { Rely.refl m j s with alone := fun h => absurd h hm }
  | createApplication data id now =>
      obtain rfl := Option.some.inj h
      exact Rely.setApplications hm fun t a p ht _ hp => createApplication_packageName ht hp
  | updateApplication applicationId data now =>
      obtain rfl := Option.some.inj h
      refine Rely.setApplications hm fun t a p ht hf hp => ?_
      refine updateApplication_packageName ht hp fun hid q hq => ?_
      subst hid
      exact ha.frozen _ data now rfl hf p q hp hq
  | deactivateApplication applicationId now =>
      obtain rfl := Option.some.inj h
      exact Rely.setApplications hm fun t a p ht _ hp => deactivateApplication_packageName ht hp
  | ingest event source offset env =>
      simp only [external] at h
      split at h
      · obtain rfl := Option.some.inj h
        exact { Rely.refl m j s with alone := fun h => absurd h hm }
      · obtain rfl := Option.some.inj h
        exact Rely.refl m j s

end Sahabino
