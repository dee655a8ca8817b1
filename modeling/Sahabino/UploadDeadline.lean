import Sahabino.Reconciliation

/-!
# The upload deadline

A `create` call that answers with an upload URL starts a wait: the capture
is `pending_upload` from then on, and `reconcile_captures` gives it up when
`network_pending_upload_expiry_seconds` have passed and no object is there.
The time that has passed is measured from `created_at`, which is the time
of the wait for a new capture. `_reopen_expired` makes an old capture wait
once more and leaves `created_at` as it is, and an expired capture is by
then older than the window (`TimedInv.expired`). So a reopened capture has
no time at all: the next pass takes it back, unless its object has come in
before (`deadlineKept_iff`, `not_deadlineKept_reopened`).

Runs are those of `AtomicReach` with the times at which their operations
start and end, on a clock that never goes back.
-/

namespace Sahabino

open Conc

/-! ## Runs in time -/

/-- An operation of a run: when it started and ended, what it found and left, and,
for a request, its outcome. -/
structure CaptureEvent where
  start : Timestamp
  stop : Timestamp
  before : Backend
  after : Backend
  call : Option (Request × Except CaptureError Reply)

/-- The readings of the clock within an operation. -/
def Within (start stop now : Timestamp) : Prop := start ≤ now ∧ now ≤ stop

/-- Session `n` performs the operation; an instant handed to `reconcile_captures`
is the present. -/
inductive Occurs (settings : Settings) (n : Nat) (start stop : Timestamp) (s s' : Backend) :
    Option (Request × Except CaptureError Reply) → Prop
  | serve (req : Request) (r : Except CaptureError Reply)
      (hnow : ∀ t, req = .reconcile (some t) → Within start stop t)
      (h : Runs exec (fun c e s => Allowed (Mode.atomic anyCommand) req n c e s ∧
        Within start stop e.now) n (serve settings req) s r s') :
      Occurs settings n start stop s s' (some (req, r))
  | attempt (u : AttemptUpdate) (e : Env) (v : Except CaptureError Bool)
      (hnow : Within start stop e.now) (h : exec n e (.attempt u) s = some (v, s')) :
      Occurs settings n start stop s s' none
  | external (x : External) (h : external x s = some s') : Occurs settings n start stop s s' none

inductive TimedRun (settings : Settings) (seed : Seed) :
    List CaptureEvent → Nat → Timestamp → Backend → Prop
  | start (t : Timestamp) : TimedRun settings seed [] 0 t (Backend.initial seed)
  | op {events : List CaptureEvent} {n : Nat} {t : Timestamp} {s : Backend} (ev : CaptureEvent) :
      TimedRun settings seed events n t s → ev.before = s → t ≤ ev.start → ev.start ≤ ev.stop →
      Occurs settings n ev.start ev.stop s ev.after ev.call →
      TimedRun settings seed (events ++ [ev]) (n + 1) ev.stop ev.after

theorem Occurs.atomicOp {settings : Settings} {n : Nat} {start stop : Timestamp} {s s' : Backend}
    {call : Option (Request × Except CaptureError Reply)}
    (h : Occurs settings n start stop s s' call) : AtomicOp settings anyCommand n s s' := by
  cases h with
  | serve req r _ h => exact .serve req r (h.mono fun _ _ _ ha => ha.1)
  | attempt u e v _ h => exact .attempt u e v h
  | external x h => exact .external x h

theorem TimedRun.reach {settings : Settings} {seed : Seed} {events : List CaptureEvent} {n : Nat}
    {t : Timestamp} {s : Backend} (h : TimedRun settings seed events n t s) :
    AtomicReach settings anyCommand 0 (Backend.initial seed) n s := by
  induction h with
  | start t => exact .start
  | op ev _ hbefore _ _ hocc ih => exact ih.op hocc.atomicOp

/-! ## Waits -/

namespace CaptureEvent

/-- The `create` call answers with an upload URL for the capture, which waits for its
upload from now on. -/
structure Offers (ev : CaptureEvent) (captureId : Uuid) : Prop where
  answered : ∃ data key response url, ev.call = some (.create data key, .ok (.created response)) ∧
    response.captureId = captureId ∧ response.uploadUrl = some url
  pending : ∃ c ∈ ev.after.captures.rows, c.id = captureId ∧ c.status = .pendingUpload

structure Inserts (ev : CaptureEvent) (captureId : Uuid) : Prop extends Offers ev captureId where
  absent : ∀ c ∈ ev.before.captures.rows, c.id ≠ captureId

structure Reopens (ev : CaptureEvent) (captureId : Uuid) : Prop extends Offers ev captureId where
  expired : ∃ c ∈ ev.before.captures.rows, c.id = captureId ∧ c.status = .expired

end CaptureEvent

/-- A pass at `now` expires no capture whose wait started less than the window
before. -/
def DeadlineKept (settings : Settings) (events : List CaptureEvent) (now : Timestamp)
    (s s' : Backend) : Prop :=
  ∀ c ∈ s.captures.rows, c.status ≠ .expired →
    (∃ c' ∈ s'.captures.rows, c'.id = c.id ∧ c'.status = .expired) →
    ∀ ev ∈ events, ev.Inserts c.id ∨ ev.Reopens c.id →
      seconds settings.networkPendingUploadExpirySeconds ≤ now - ev.start

/-- Every capture that was reopened less than the window before `now` and still waits
has its object in storage, with the registered size. -/
def ReopenedUploaded (settings : Settings) (events : List CaptureEvent) (now : Timestamp)
    (s : Backend) : Prop :=
  ∀ c ∈ s.captures.rows, c.status = .pendingUpload →
    (∃ ev ∈ events, ev.Reopens c.id ∧
      now - ev.start < seconds settings.networkPendingUploadExpirySeconds) →
    ∃ metadata, s.objects c.objectKey = some metadata ∧ metadata.sizeBytes = c.captureSizeBytes

/-! ## Where rows come from -/

section Origins

variable {settings : Settings} {n : Nat} {start stop : Timestamp} {s s' t t' : Backend}

/-- Relative to `s`: rows stay, an old row keeps its creation time, and a new one was
created since `start`. -/
structure Aged (start : Timestamp) (s t : Backend) : Prop where
  kept : ∀ r ∈ s.captures.rows, ∃ r' ∈ t.captures.rows, r'.id = r.id
  origin : ∀ r' ∈ t.captures.rows,
    (∃ r ∈ s.captures.rows, r.id = r'.id ∧ r.createdAt = r'.createdAt) ∨
    (start ≤ r'.createdAt ∧ ∀ r ∈ s.captures.rows, r.id ≠ r'.id)

theorem Aged.refl (start : Timestamp) (s : Backend) : Aged start s s :=
  ⟨fun r hr => ⟨r, hr, rfl⟩, fun r hr => Or.inl ⟨r, hr, rfl, rfl⟩⟩

/-- The rows after a command come from rows before it, with their creation times, or
were inserted at its instant. -/
theorem Effect.createdAt {i : Nat} {now : Timestamp} {c : Cmd} (h : Effect i now t c t') :
    ∀ r' ∈ t'.captures.rows,
      (∃ r ∈ t.captures.rows, r.id = r'.id ∧ r.createdAt = r'.createdAt) ∨
      (r'.createdAt = now ∧ ∀ r ∈ t.captures.rows, r.id ≠ r'.id) := by
  intro r' hr'
  cases h with
  | idle => exact Or.inl ⟨r', hr', rfl, rfl⟩
  | locked key _ => exact Or.inl ⟨r', hr', rfl, rfl⟩
  | committed work s₁ hf =>
      have hfresh := fun c hc r hr => Backend.flush_fresh (c := c) (r := r) hf hc hr
      obtain ⟨captures, keys, rfl, hrows, -⟩ := Backend.flush_ok hf
      rcases (hrows r').mp hr' with ⟨r, hr, rfl⟩ | ⟨c, hc, rfl⟩
      · refine Or.inl ⟨r, hr, (congrArg CaptureIdentity.id (work.writeRow_identity r)).symm, ?_⟩
        rcases work.writeRow_cases r with heq | ⟨loaded, new, -, -, heq⟩
        · rw [heq]
        · rw [heq]
          rfl
      · exact Or.inr ⟨rfl, fun r hr => hfresh c hc r hr⟩
  | rolledBack => exact Or.inl ⟨r', hr', rfl, rfl⟩
  | deleted objectKey => exact Or.inl ⟨r', hr', rfl, rfl⟩
  | readyPublished event => exact Or.inl ⟨r', hr', rfl, rfl⟩
  | analysisSent event => exact Or.inl ⟨r', hr', rfl, rfl⟩
  | analysisPublished event => exact Or.inl ⟨r', hr', rfl, rfl⟩
  | attempted u _ =>
      rw [AttemptUpdate.run_captures, CaptureTable.rows_update] at hr'
      obtain ⟨r, hr, rfl⟩ := List.mem_map.mp hr'
      refine Or.inl ⟨r, hr, (congrArg CaptureIdentity.id (u.writeRow_identity now r)).symm, ?_⟩
      unfold AttemptUpdate.writeRow
      split
      · cases u <;> rfl
      · rfl

theorem Aged.step {i : Nat} {now : Timestamp} {c : Cmd} (h : Aged start s t)
    (hnow : start ≤ now) (heff : Effect i now t c t') : Aged start s t' := by
  refine ⟨fun r hr => ?_, fun r'' hr'' => ?_⟩
  · obtain ⟨r', hr', hid⟩ := h.kept r hr
    obtain ⟨r'', hr'', hid'⟩ := heff.identities r' hr'
    exact ⟨r'', hr'', (congrArg CaptureIdentity.id hid').trans hid⟩
  · rcases heff.createdAt r'' hr'' with ⟨r', hr', hid, hat⟩ | ⟨hat, hfresh⟩
    · rw [← hid, ← hat]
      exact h.origin r' hr'
    · refine Or.inr ⟨by rw [hat]; exact hnow, fun r hr hid => ?_⟩
      obtain ⟨r', hr', hid'⟩ := h.kept r hr
      exact hfresh r' hr' (hid'.trans hid)

theorem Occurs.aged {call : Option (Request × Except CaptureError Reply)}
    (h : Occurs settings n start stop s s' call) : Aged start s s' := by
  cases h with
  | serve req r _ h =>
      exact h.keeps (J := Aged start s) (fun ha hx hj => hj.step ha.2.1 (exec_effect hx))
        (.refl start s)
  | attempt u e v hnow h => exact (Aged.refl start s).step hnow.1 (exec_effect h)
  | external x h =>
      have hrows := congrArg Rel.Table.rows (external_frame h).1
      refine ⟨fun r hr => ⟨r, hrows ▸ hr, rfl⟩, fun r hr => Or.inl ⟨r, hrows ▸ hr, rfl, rfl⟩⟩

end Origins

/-! ## Only a pass expires a capture -/

/-- The command expires no capture: a commit that leaves one expired found it so. -/
def NoExpiry : Cmd → Prop
  | .commit work => (∀ u ∈ work.updates, u.2.status = .expired → u.1.status = .expired) ∧
      ∀ c, work.insertCapture = some c → c.status ≠ .expired
  | _ => True

section Programs

variable {settings : Settings}

theorem noExpiry_updates {updates : List (NetworkCapture × NetworkCapture)}
    {mapping : Option NetworkCaptureIdempotencyKey}
    (h : ∀ u ∈ updates, u.2.status = .expired → u.1.status = .expired) :
    NoExpiry (.commit ⟨none, updates, mapping⟩) :=
  ⟨h, fun _ hc => by cases hc⟩

theorem noExpiry_commit {c c' : NetworkCapture} {mapping : Option NetworkCaptureIdempotencyKey}
    (h : c'.status ≠ .expired) : NoExpiry (.commit ⟨none, [(c, c')], mapping⟩) := by
  refine noExpiry_updates fun u hu hst => ?_
  obtain rfl := List.mem_singleton.mp hu
  exact absurd hst h

theorem reopened_status {c c' : NetworkCapture} (h : c.reopenExpired = some c') :
    c'.status ≠ .expired := by
  rw [(NetworkCapture.reopenExpired_eq h).2]
  exact nofun

theorem publishReady_only (c : NetworkCapture) (p : NonBlankString) :
    (publishReady c p).Only NoExpiry := by
  unfold publishReady
  split
  · trivial
  · exact .cmd trivial

theorem packageNameForCapture_only (c : NetworkCapture) :
    (packageNameForCapture c).Only NoExpiry := by
  refine .seq (.cmd trivial) fun p => ?_
  cases p <;> trivial

theorem refresh_only (c : NetworkCapture) : (refresh c).Only NoExpiry := by
  refine .seq (.cmd trivial) fun r => ?_
  cases r <;> trivial

theorem dispatchAndRespond_only (c : NetworkCapture) (p : Option NonBlankString) :
    (dispatchAndRespond settings c p).Only NoExpiry := by
  refine .seq ?_ fun _ => ?_
  · unfold publishReadyIfDispatchable
    split
    · split
      · exact publishReady_only c _
      · exact .seq (packageNameForCapture_only c) fun p => publishReady_only c p
    · trivial
  · unfold createResponse
    split
    · exact .seq (.cmd trivial) fun _ => trivial
    · trivial

theorem resumeMapped_only (data : CaptureCreate) (mapping : NetworkCaptureIdempotencyKey) :
    (resumeMapped settings data mapping).Only NoExpiry := by
  unfold resumeMapped
  split
  · trivial
  · refine .seq (.cmd trivial) fun mapped => ?_
    cases mapped with
    | none => trivial
    | some mapped =>
        refine .seq (.cmd trivial) fun _ => .seq (refresh_only mapped) fun c => ?_
        split
        · rename_i hreopen
          exact .seq (.cmd (noExpiry_commit (reopened_status hreopen))) fun _ =>
            dispatchAndRespond_only _ none
        · exact dispatchAndRespond_only c none

theorem bindLogical_only (data : CaptureCreate) (key : Uuid) (c : NetworkCapture) :
    (bindLogical settings data key c).Only NoExpiry := by
  unfold bindLogical
  split
  · split
    · rename_i hreopen
      exact .seq (.cmd (noExpiry_commit (reopened_status hreopen))) fun _ =>
        dispatchAndRespond_only _ none
    · exact .seq (.cmd (noExpiry_updates fun _ h => absurd h List.not_mem_nil)) fun _ =>
        dispatchAndRespond_only c none
  · trivial

theorem reuseLogical_only (data : CaptureCreate) (key : Uuid) (c : NetworkCapture) :
    (reuseLogical settings data key c).Only NoExpiry := by
  unfold reuseLogical
  split
  · exact .seq (.cmd trivial) fun _ => .seq (refresh_only c) fun c => bindLogical_only data key c
  · exact bindLogical_only data key c

theorem recoverCreate_only (data : CaptureCreate) (key : Uuid) :
    (recoverCreate settings data key).Only NoExpiry := by
  refine .seq (.cmd trivial) fun _ => .seq (.cmd trivial) fun _ => .seq (.cmd trivial) fun m => ?_
  cases m with
  | some mapping => exact resumeMapped_only data mapping
  | none =>
      refine .seq (.cmd trivial) fun _ => .seq (.cmd trivial) fun winner => ?_
      cases winner with
      | some winner => exact reuseLogical_only data key winner
      | none => trivial

theorem reusableObject_only (data : CaptureCreate) : (reusableObject data).Only NoExpiry := by
  refine .seq (.cmd trivial) fun verified => ?_
  cases verified with
  | none => trivial
  | some verified =>
      simp only
      split
      · trivial
      · refine .seq (.cmd trivial) fun metadata => ?_
        cases metadata with
        | none => trivial
        | some metadata =>
            simp only
            split <;> trivial

theorem createFresh_only (data : CaptureCreate) (key : Uuid) :
    (createFresh settings data key).Only NoExpiry := by
  refine .seq (.cmd trivial) fun p => ?_
  cases p with
  | none => trivial
  | some p =>
      refine .seq (reusableObject_only data) fun verified => .seq (.cmd trivial) fun now =>
        .seq ?_ fun ids => .seq ?_ fun inserted => ?_
      · exact .seq (.cmd trivial) fun _ => .seq (.cmd trivial) fun _ =>
          .seq (.cmd trivial) fun _ => .seq (.cmd trivial) fun _ => trivial
      · refine .tryCatch (.seq (.cmd ⟨fun _ h => absurd h List.not_mem_nil, fun c hc => ?_⟩)
          fun _ => trivial) fun e => ?_
        · rw [← Option.some.inj hc]
          simp only [newCapture]
          split <;> exact fun hst => by cases hst
        · split <;> trivial
      · split
        · exact dispatchAndRespond_only _ _
        · exact recoverCreate_only data key

theorem create_only (data : CaptureCreate) (key : Uuid) :
    (create settings data key).Only NoExpiry := by
  refine .seq (.cmd trivial) fun _ => .seq (.cmd trivial) fun m => ?_
  cases m with
  | some mapping => exact resumeMapped_only data mapping
  | none =>
      simp only
      split
      · trivial
      · refine .seq (.cmd trivial) fun _ => .seq (.cmd trivial) fun logical => ?_
        cases logical with
        | some logical => exact reuseLogical_only data key logical
        | none => exact createFresh_only data key

theorem complete_only (captureId : Uuid) : (complete captureId).Only NoExpiry := by
  have hannounce : ∀ c, (announceCompleted c).Only NoExpiry := by
    intro c
    unfold announceCompleted
    split
    · exact .seq (packageNameForCapture_only c) fun p => .seq (publishReady_only c p) fun _ => trivial
    · trivial
  refine .seq (.cmd trivial) fun found => ?_
  cases found with
  | none => trivial
  | some c =>
      simp only
      split
      · trivial
      · refine .seq (.cmd trivial) fun metadata => ?_
        cases metadata with
        | none => trivial
        | some metadata =>
            simp only
            split
            · trivial
            · split
              · exact .seq (.cmd trivial) fun now => .seq (.cmd (noExpiry_commit nofun)) fun _ =>
                  hannounce _
              · exact hannounce c

theorem retryCapture_only (captureId : Uuid) : (retryCapture captureId).Only NoExpiry := by
  refine .seq (.cmd trivial) fun found => ?_
  cases found with
  | none => trivial
  | some found =>
      simp only
      split
      · trivial
      · split
        · trivial
        · refine .seq (.cmd (noExpiry_commit nofun)) fun _ => .seq (.cmd trivial) fun found => ?_
          cases found with
          | none => trivial
          | some c => exact .seq (publishReady_only c _) fun _ => trivial

theorem cleanupCaptureObject_only (captureId : Uuid) :
    (cleanupCaptureObject captureId).Only NoExpiry := by
  refine .seq (.cmd trivial) fun found => ?_
  cases found with
  | none => trivial
  | some loaded =>
      refine .seq (.cmd trivial) fun _ => .seq (refresh_only loaded) fun c =>
        .seq (.cmd trivial) fun selected => ?_
      simp only
      split
      · trivial
      · split
        · exact .seq (.cmd (noExpiry_updates fun _ h => absurd h List.not_mem_nil)) fun _ => trivial
        · have hmark : ∀ deletedAt (refs : List NetworkCapture), NoExpiry (.commit ⟨none,
              refs.map fun c => (c, c.setObjectDeleted deletedAt), none⟩) := by
            refine fun deletedAt refs => noExpiry_updates fun u hu hst => ?_
            obtain ⟨c, -, rfl⟩ := List.mem_map.mp hu
            exact hst
          have hrest : ∀ refs : List NetworkCapture, Prog.Only NoExpiry (do
              let deletedAt ← query .now
              issue (.commit ⟨none, refs.map fun c => (c, c.setObjectDeleted deletedAt), none⟩)
              pure refs.length : Process Nat) := fun refs =>
            .seq (.cmd trivial) fun deletedAt => .seq (.cmd (hmark deletedAt refs)) fun _ => trivial
          refine .seq (.cmd trivial) fun metadata => ?_
          cases metadata with
          | none => exact hrest _
          | some metadata => exact .seq (.cmd trivial) fun _ => hrest _

theorem processNext_only : (processNext settings).Only NoExpiry := by
  have hrequire : ∀ u, (requireOwned u).Only NoExpiry := by
    intro u
    refine .seq (.cmd trivial) fun updated => ?_
    split <;> trivial
  refine .seq (.cmd trivial) fun message => ?_
  cases message with
  | none => trivial
  | some message =>
      cases message with
      | invalid => exact .seq (.cmd trivial) fun _ => trivial
      | event event =>
          refine .seq (.seq (.cmd trivial) fun row => ?_) fun work => ?_
          · split
            · trivial
            · split
              · exact .seq (.cmd trivial) fun _ => trivial
              · refine .seq (.cmd trivial) fun _ => .seq (.cmd trivial) fun claimed => ?_
                split <;> trivial
          · cases work with
            | none => trivial
            | some work =>
                refine .seq (.tryCatch (.seq (.cmd trivial) fun file => ?_) fun e => ?_) fun _ =>
                  .seq (.cmd trivial) fun _ => trivial
                · split
                  · trivial
                  · refine .seq (hrequire _) fun _ => .seq (.cmd trivial) fun found => ?_
                    cases found with
                    | none => trivial
                    | some c => exact .seq (.cmd trivial) fun _ => hrequire _
                · unfold handleFailure
                  split
                  · exact hrequire _
                  · exact .seq (.tryCatch (.seq (.cmd trivial) fun _ => trivial) fun _ => trivial)
                      fun _ => trivial

theorem serve_only {req : Request} (h : ∀ given, req ≠ .reconcile given) :
    (serve settings req).Only NoExpiry := by
  cases req with
  | create data key => exact .seq (.ensure (create_only data key) (.cmd trivial)) fun _ => trivial
  | complete captureId => exact .seq (complete_only captureId) fun _ => trivial
  | reconcile given => exact absurd rfl (h given)
  | retry captureId => exact .seq (retryCapture_only captureId) fun _ => trivial
  | cleanup captureId =>
      exact .seq (.ensure (cleanupCaptureObject_only captureId) (.cmd trivial)) fun _ => trivial
  | processNext => exact .seq processNext_only fun _ => trivial

end Programs

/-! ### Expiry -/

section Expiry

variable {settings : Settings} {n : Nat} {start stop : Timestamp} {s s' t t' : Backend}

/-- Relative to `s`, no capture has expired. -/
def Unexpired (s t : Backend) : Prop :=
  ∀ r' ∈ t.captures.rows, r'.status = .expired →
    ∃ r ∈ s.captures.rows, r.id = r'.id ∧ r.createdAt = r'.createdAt ∧ r.status = .expired

theorem AttemptUpdate.writeRow_expired {u : AttemptUpdate} {now : Timestamp} {c : NetworkCapture}
    (h : (u.writeRow now c).status = .expired) : u.writeRow now c = c := by
  unfold writeRow at h ⊢
  split at h
  · rename_i happ
    cases u with
    | claimAttempt captureId t staleBefore => cases h
    | releaseAttempt captureId t => cases h
    | markVerified captureId sha256 t =>
        simp only [applies, Bool.and_eq_true, owns_iff] at happ
        have hst : c.status = .expired := h
        rw [happ.1.2.1] at hst
        cases hst
    | markAnalyzed captureId sha256 t => cases h
    | markFailed captureId code message t => cases h
  · rename_i happ
    rw [if_neg happ]

/-- A commit without expiries leaves a row expired only if it found it so. -/
theorem writeRow_noExpiry {work : UnitOfWork} (h : NoExpiry (.commit work)) {r : NetworkCapture}
    (hst : (work.writeRow r).status = .expired) : r.status = .expired := by
  rcases work.writeRow_cases r with heq | ⟨loaded, new, hu, -, heq⟩
  · rwa [heq] at hst
  · rw [heq] at hst
    have hpick : pickColumn loaded.status new.status r.status = .expired := hst
    unfold pickColumn at hpick
    split at hpick
    · exact hpick
    · rename_i hne
      exact absurd (hpick.trans (h.1 _ hu hpick).symm) hne

theorem Unexpired.step {i : Nat} {now : Timestamp} {c : Cmd} (h : Unexpired s t)
    (hc : NoExpiry c) (heff : Effect i now t c t') : Unexpired s t' := by
  intro r' hr' hst
  cases heff with
  | idle => exact h r' hr' hst
  | locked key _ => exact h r' hr' hst
  | committed work s₁ hf =>
      obtain ⟨captures, keys, rfl, hrows, -⟩ := Backend.flush_ok hf
      rcases (hrows r').mp hr' with ⟨r, hr, rfl⟩ | ⟨c, hcap, rfl⟩
      · obtain ⟨r₀, hr₀, hid, hat, hst₀⟩ := h r hr (writeRow_noExpiry hc hst)
        refine ⟨r₀, hr₀, ?_, ?_, hst₀⟩
        · rw [work.writeRow_identity]
          exact hid
        · rcases work.writeRow_cases r with heq | ⟨loaded, new, -, -, heq⟩
          · rw [heq]
            exact hat
          · rw [heq]
            exact hat
      · exact absurd hst (hc.2 c hcap)
  | rolledBack => exact h r' hr' hst
  | deleted objectKey => exact h r' hr' hst
  | readyPublished event => exact h r' hr' hst
  | analysisSent event => exact h r' hr' hst
  | analysisPublished event => exact h r' hr' hst
  | attempted u _ =>
      rw [AttemptUpdate.run_captures, CaptureTable.rows_update] at hr'
      obtain ⟨r, hr, rfl⟩ := List.mem_map.mp hr'
      have hsame := AttemptUpdate.writeRow_expired hst
      rw [hsame] at hst ⊢
      exact h r hr hst

theorem Unexpired.refl (s : Backend) : Unexpired s s := fun r hr hst => ⟨r, hr, rfl, rfl, hst⟩

/-! ### The instant of a pass -/

theorem reconcileRows_only {now : Timestamp} :
    ∀ (rows : List (NetworkCapture × NonBlankString)) (acc : Reconciled),
      (reconcileRows settings now rows acc).Only (· ≠ .query .now)
  | [], _ => trivial
  | x :: rows, acc => by
      unfold reconcileRows
      split
      · split
        · exact reconcileRows_only rows acc
        · refine .seq (.cmd fun hnow => by cases hnow) fun metadata => ?_
          cases metadata with
          | none => exact reconcileRows_only rows _
          | some metadata =>
              simp only
              split
              · exact reconcileRows_only rows _
              · exact reconcileRows_only rows _
      · split
        · exact reconcileRows_only rows _
        · exact reconcileRows_only rows acc

theorem publishAll_only : ∀ xs : List (Uuid × NonBlankString),
    (publishAll xs).Only (· ≠ .query .now)
  | [] => trivial
  | x :: xs => by
      refine .seq (.cmd nofun) fun found => ?_
      cases found with
      | none => exact publishAll_only xs
      | some c =>
          refine .seq ?_ fun _ => publishAll_only xs
          unfold publishReady
          split
          · trivial
          · exact .cmd nofun

/-- With an instant given, the clock is not read. -/
theorem reconcile_only (now : Timestamp) :
    (serve settings (.reconcile (some now))).Only (· ≠ .query .now) :=
  .seq (.seq trivial fun _ => .seq (.cmd nofun) fun rows =>
    .seq (reconcileRows_only rows _) fun _ => .seq (.cmd nofun) fun _ =>
      .seq (publishAll_only _) fun _ => trivial) fun _ => trivial

theorem Allowed.atomic_req {extra : Cmd → Backend → Prop} {req req' : Request} {c : Cmd} {e : Env}
    (h : Allowed (Mode.atomic extra) req n c e s) : Allowed (Mode.atomic extra) req' n c e s :=
  ⟨h.extra, h.alone, h.keepVerified, nofun⟩

/-- A pass between two instants is a pass at one of the instants between. -/
theorem reconcilesAt_of_run {given : Option Timestamp} {r : Except CaptureError Reply}
    (hnow : ∀ t, given = some t → Within start stop t)
    (h : Runs exec (fun c e s => Allowed (Mode.atomic anyCommand) (.reconcile given) n c e s ∧
      Within start stop e.now) n (serve settings (.reconcile given)) s r s') :
    ∃ now, Within start stop now ∧ ReconcilesAt settings n now False s r s' := by
  cases given with
  | some t =>
      refine ⟨t, hnow t rfl, some t, fun _ ht => (Option.some.inj ht).symm, ?_⟩
      exact (h.only (reconcile_only t)).mono fun c e s ha =>
        ⟨ha.1.1, fun hc => absurd hc ha.2, False.elim⟩
  | none =>
      -- the clock is read once, by the first command
      obtain ⟨e, v, s₁, ha, hx, hrest⟩ := Runs.of_call h
      obtain ⟨rfl, rfl⟩ : v = .ok e.now ∧ s₁ = s := by
        rcases exec_cases hx with ⟨x, hf, -⟩ | ⟨x, v₁, hf, -⟩ | ⟨s₂, hp, rfl⟩
        · cases hf
        · cases hf
        · obtain ⟨rfl, rfl⟩ := Prod.mk.injEq .. |>.mp (Option.some.inj hp)
          exact ⟨rfl, rfl⟩
      have hrun : Runs exec (fun c e s => Allowed (Mode.atomic anyCommand) (.reconcile none) n c e s ∧
          Within start stop e.now) n (serve settings (.reconcile (some e.now))) s₁ r s' := hrest
      refine ⟨e.now, ha.2, some e.now, fun _ ht => (Option.some.inj ht).symm, ?_⟩
      exact (hrun.only (reconcile_only e.now)).mono fun c e' s ha' =>
        ⟨ha'.1.1.atomic_req, fun hc => absurd hc ha'.2, False.elim⟩

theorem NetworkCapture.reconciled_expired {now : Timestamp} {c : NetworkCapture}
    (h : (c.reconciled settings now s).status = .expired) :
    c.status = .expired ∨ c.overdue settings now := by
  unfold NetworkCapture.reconciled at h
  split at h
  · rename_i hdue
    exact Or.inr hdue
  · exact Or.inl h

theorem NetworkCapture.reconciled_createdAt (now : Timestamp) (c : NetworkCapture) :
    (c.reconciled settings now s).createdAt = c.createdAt := by
  unfold NetworkCapture.reconciled
  split
  · exact decided_createdAt ..
  · rfl

/-- A capture that a pass leaves expired was so before, or is overdue and was given up. -/
theorem ReconcilesAt.expired {now : Timestamp} {quiet : Prop} {r : Except CaptureError Reply}
    (h : ReconcilesAt settings n now quiet s r s') (hok : ∀ c ∈ s.captures.rows, CaptureOk c)
    (hreg : Registered s) {c' : NetworkCapture} (hc' : c' ∈ s'.captures.rows)
    (hst : c'.status = .expired) :
    ∃ c ∈ s.captures.rows, c.id = c'.id ∧ c.createdAt = c'.createdAt ∧
      (c.status = .expired ∨
        c.overdue settings now ∧ (c.reconciled settings now s).status = .expired) := by
  have hpass : s' = s ∨ ∃ t, PassCommitted settings now s t ∧ s'.captures = t.captures := by
    rcases h.pass hok hreg with ⟨-, t, ht, hall⟩ | ⟨-, -, heq | ⟨t, ys, ht, -, hall⟩⟩
    · exact Or.inr ⟨t, ht, hall.captures⟩
    · exact Or.inl heq
    · exact Or.inr ⟨t, ht, hall.captures⟩
  rcases hpass with rfl | ⟨t, ht, hcaptures⟩
  · exact ⟨c', hc', rfl, rfl, Or.inl hst⟩
  · rw [hcaptures, ht.rows] at hc'
    obtain ⟨c, hc, rfl⟩ := List.mem_map.mp hc'
    refine ⟨c, hc, congrArg CaptureIdentity.id (NetworkCapture.reconciled_identity ..).symm,
      (NetworkCapture.reconciled_createdAt now c).symm, ?_⟩
    exact (NetworkCapture.reconciled_expired hst).imp_right fun hdue => ⟨hdue, hst⟩

/-- A capture that is found expired was so before, or is older than the window. -/
theorem Occurs.expired {call : Option (Request × Except CaptureError Reply)}
    (h : Occurs settings n start stop s s' call) (hok : ∀ c ∈ s.captures.rows, CaptureOk c)
    (hreg : Registered s) {r' : NetworkCapture} (hr' : r' ∈ s'.captures.rows)
    (hst : r'.status = .expired) :
    (∃ r ∈ s.captures.rows, r.id = r'.id ∧ r.createdAt = r'.createdAt ∧ r.status = .expired) ∨
      r'.createdAt ≤ stop - seconds settings.networkPendingUploadExpirySeconds := by
  cases h with
  | serve req r hnow h =>
      by_cases hreq : ∃ given, req = .reconcile given
      · obtain ⟨given, rfl⟩ := hreq
        obtain ⟨now, hin, hat⟩ := reconcilesAt_of_run (fun t ht => hnow t (by rw [ht])) h
        obtain ⟨r₀, hr₀, hid, hcreated, hold | ⟨hdue, -⟩⟩ := hat.expired hok hreg hr' hst
        · exact Or.inl ⟨r₀, hr₀, hid, hcreated, hold⟩
        · rw [← hcreated]
          exact Or.inr (hdue.2.trans (Int.sub_le_sub_right hin.2 _))
      · have honly : (Sahabino.serve settings req).Only NoExpiry :=
          serve_only fun given hg => hreq ⟨given, hg⟩
        exact Or.inl ((h.only honly).keeps (J := Unexpired s)
          (fun ha hx hj => hj.step ha.2 (exec_effect hx)) (.refl s) r' hr' hst)
  | attempt u e v _ h =>
      have hattempt : NoExpiry (.attempt u) := trivial
      exact Or.inl ((Unexpired.refl s).step hattempt (exec_effect h) r' hr' hst)
  | external x h =>
      rw [(external_frame h).1] at hr'
      exact Or.inl ⟨r', hr', rfl, rfl, hst⟩

end Expiry

/-! ## The times of a run -/

/-- What the rows remember of the events before. -/
structure TimedInv (settings : Settings) (events : List CaptureEvent) (t : Timestamp)
    (s : Backend) : Prop where
  times : ∀ ev ∈ events, ev.start ≤ t
  kept : ∀ ev ∈ events, ∀ r ∈ ev.after.captures.rows, ∃ c ∈ s.captures.rows, c.id = r.id
  expired : ∀ c ∈ s.captures.rows, c.status = .expired →
    c.createdAt ≤ t - seconds settings.networkPendingUploadExpirySeconds
  inserted : ∀ ev ∈ events, ∀ c ∈ s.captures.rows, ev.Inserts c.id → ev.start ≤ c.createdAt
  reopened : ∀ ev ∈ events, ∀ c ∈ s.captures.rows, ev.Reopens c.id →
    c.createdAt ≤ ev.start - seconds settings.networkPendingUploadExpirySeconds

section Times

variable {settings : Settings} {seed : Seed} {events : List CaptureEvent} {n : Nat}
  {t now : Timestamp} {s s' : Backend}

/-- The row of a capture that an earlier event offered was there before, with its
creation time. -/
theorem TimedInv.offered (h : TimedInv settings events t s) {start : Timestamp}
    (haged : Aged start s s') {ev : CaptureEvent} (hev : ev ∈ events) {c : NetworkCapture}
    (hc : c ∈ s'.captures.rows) (hoffers : ev.Offers c.id) :
    ∃ r ∈ s.captures.rows, r.id = c.id ∧ r.createdAt = c.createdAt := by
  rcases haged.origin c hc with hold | ⟨-, hfresh⟩
  · exact hold
  · obtain ⟨r, hr, hid, -⟩ := hoffers.pending
    obtain ⟨c₀, hc₀, hid₀⟩ := h.kept ev hev r hr
    exact absurd (hid₀.trans hid) (hfresh c₀ hc₀)

theorem TimedInv.step (h : TimedInv settings events t s) {ev : CaptureEvent}
    (hbefore : ev.before = s) (hstart : t ≤ ev.start) (hstop : ev.start ≤ ev.stop)
    (hocc : Occurs settings n ev.start ev.stop s ev.after ev.call)
    (hok : ∀ c ∈ s.captures.rows, CaptureOk c) (hreg : Registered s) :
    TimedInv settings (events ++ [ev]) ev.stop ev.after := by
  have haged := hocc.aged
  have hlater := hstart.trans hstop
  refine ⟨fun ev' hev' => ?_, fun ev' hev' r hr => ?_, fun c hc hst => ?_,
    fun ev' hev' c hc hins => ?_, fun ev' hev' c hc hreo => ?_⟩
  · rcases List.mem_append.mp hev' with hev' | hev'
    · exact (h.times ev' hev').trans hlater
    · rw [List.mem_singleton.mp hev']
      exact hstop
  · rcases List.mem_append.mp hev' with hev' | hev'
    · obtain ⟨c, hc, hid⟩ := h.kept ev' hev' r hr
      obtain ⟨c', hc', hid'⟩ := haged.kept c hc
      exact ⟨c', hc', hid'.trans hid⟩
    · rw [List.mem_singleton.mp hev'] at hr
      exact ⟨r, hr, rfl⟩
  · rcases hocc.expired hok hreg hc hst with ⟨r, hr, -, hat, hold⟩ | hpast
    · rw [← hat]
      exact (h.expired r hr hold).trans (Int.sub_le_sub_right hlater _)
    · exact hpast
  · rcases List.mem_append.mp hev' with hev' | hev'
    · obtain ⟨r, hr, hid, hat⟩ := h.offered haged hev' hc hins.toOffers
      rw [← hat]
      exact h.inserted ev' hev' r hr (hid ▸ hins)
    · obtain rfl := List.mem_singleton.mp hev'
      rcases haged.origin c hc with ⟨r, hr, hid, -⟩ | ⟨hnew, -⟩
      · exact absurd hid (hins.absent r (hbefore ▸ hr))
      · exact hnew
  · rcases List.mem_append.mp hev' with hev' | hev'
    · obtain ⟨r, hr, hid, hat⟩ := h.offered haged hev' hc hreo.toOffers
      rw [← hat]
      exact h.reopened ev' hev' r hr (hid ▸ hreo)
    · obtain rfl := List.mem_singleton.mp hev'
      obtain ⟨r₀, hr₀, hid₀, hst₀⟩ := hreo.expired
      rw [hbefore] at hr₀
      rcases haged.origin c hc with ⟨r, hr, hid, hat⟩ | ⟨-, hfresh⟩
      · obtain rfl := s.captures.eq_of_id hr hr₀ (hid.trans hid₀.symm)
        rw [← hat]
        exact (h.expired r hr₀ hst₀).trans (Int.sub_le_sub_right hstart _)
      · exact absurd hid₀ (hfresh r₀ hr₀)

theorem timedInv_of_run (h : TimedRun settings seed events n t s) :
    TimedInv settings events t s := by
  induction h with
  | start t =>
      exact ⟨fun _ h => absurd h List.not_mem_nil, fun _ h => absurd h List.not_mem_nil,
        fun _ h => absurd h List.not_mem_nil, fun _ h => absurd h List.not_mem_nil,
        fun _ h => absurd h List.not_mem_nil⟩
  | op ev hrun hbefore hstart hstop hocc ih =>
      exact ih.step hbefore hstart hstop hocc
        ((atomicInv_of_reach hrun.reach).inv.ok trivial) (registered_of_reach hrun.reach)

/-- An overdue capture that a pass expires has no object of its size. -/
theorem NetworkCapture.reconciled_gives_up {c : NetworkCapture} (hdue : c.overdue settings now) :
    (c.reconciled settings now s).status = .expired ↔
      ¬∃ metadata, s.objects c.objectKey = some metadata ∧
        metadata.sizeBytes = c.captureSizeBytes := by
  unfold NetworkCapture.reconciled
  rw [if_pos hdue]
  rcases decided_status now (s.objects c.objectKey) c with ⟨hst, hsize⟩ | ⟨heq, hobj⟩
  · exact ⟨fun _ ⟨metadata, hmeta, hsame⟩ => hsize metadata hmeta hsame, fun _ => hst⟩
  · refine ⟨fun h => ?_, fun h => absurd hobj h⟩
    rw [heq] at h
    cases h

/-- At an instant at which a run has arrived, every pass keeps the deadline exactly
when the captures that were reopened within the window have their objects. -/
theorem deadlineKept_iff (h : TimedRun settings seed events n t s) (hnow : t ≤ now) :
    (∀ r s', ReconcilesAt settings n now False s r s' → DeadlineKept settings events now s s') ↔
      ReopenedUploaded settings events now s := by
  have hinv := timedInv_of_run h
  have hok := (atomicInv_of_reach h.reach).inv.ok trivial
  have hreg := registered_of_reach h.reach
  constructor
  · -- a pass in which no call fails gives up every such capture
    rintro hkept c hc hst ⟨ev, hev, hreo, hrecent⟩
    obtain ⟨r, s', hrun⟩ : ∃ r s', ReconcilesAt settings n now True s r s' :=
      reconcile_runs (atomicInv_of_reach h.reach)
    obtain ⟨t', ht', hcaptures⟩ : ∃ t', PassCommitted settings now s t' ∧
        s'.captures = t'.captures := by
      rcases hrun.pass hok hreg with ⟨-, t', ht', hall⟩ | ⟨-, hnot, -⟩
      · exact ⟨t', ht', hall.captures⟩
      · exact absurd trivial hnot
    have hdue : c.overdue settings now := ⟨hst, (hinv.reopened ev hev c hc hreo).trans
      (Int.sub_le_sub_right ((hinv.times ev hev).trans hnow) _)⟩
    by_contra hno
    have hgone := (NetworkCapture.reconciled_gives_up hdue).mpr hno
    obtain ⟨given, hgiven, hruns⟩ := hrun
    have hbound := hkept r s' ⟨given, hgiven, hruns.mono fun _ _ _ ha =>
      ⟨ha.1, ha.2.1, False.elim⟩⟩ c hc (by rw [hst]; exact nofun)
      ⟨c.reconciled settings now s, by
        rw [hcaptures, ht'.rows]
        exact List.mem_map_of_mem hc,
        congrArg CaptureIdentity.id (NetworkCapture.reconciled_identity ..), hgone⟩
      ev hev (Or.inr hreo)
    exact absurd hbound (not_le.mpr hrecent)
  · rintro hcond r s' hrun c hc hne ⟨c', hc', hid, hst'⟩ ev hev hoffer
    obtain ⟨c₀, hc₀, hid₀, -, hcases⟩ := hrun.expired hok hreg hc' hst'
    obtain rfl := s.captures.eq_of_id hc₀ hc (hid₀.trans hid)
    rcases hcases with hold | ⟨hdue, hgone⟩
    · exact absurd hold hne
    · rcases hoffer with hins | hreo
      · exact le_sub_comm.mp ((hinv.inserted ev hev c₀ hc hins).trans hdue.2)
      · by_contra hrecent
        exact (NetworkCapture.reconciled_gives_up hdue).mp hgone
          (hcond c₀ hc hdue.1 ⟨ev, hev, hreo, not_le.mp hrecent⟩)

end Times

/-! ## Executions -/

/-- One operation as a function, with the outcome of a request. -/
def performOne (settings : Settings) (n : Nat) (s : Backend) :
    Operation → Option (Option (Request × Except CaptureError Reply) × Backend)
  | .serve req envs => (solo exec n envs (serve settings req) s).map fun p =>
      (some (req, p.1), p.2)
  | .attempt u e => (exec n e (.attempt u) s).map fun p => (none, p.2)
  | .external x => (external x s).map fun s' => (none, s')

/-- Operations at their instants, one after the other. -/
def performTimed (settings : Settings) :
    Nat → Backend → List (Timestamp × Operation) → Option (List CaptureEvent × Nat × Backend)
  | n, s, [] => some ([], n, s)
  | n, s, (t, op) :: ops =>
      match performOne settings n s op with
      | some (call, s') => (performTimed settings (n + 1) s' ops).map fun p =>
          (⟨t, t, s, s', call⟩ :: p.1, p.2)
      | none => none

/-- The instant that is handed to a request. -/
def Request.instant : Request → Option Timestamp
  | .reconcile now => now
  | _ => none

/-- All readings show `t`, and no call fails. -/
def Operation.happensAt (t : Timestamp) : Operation → Bool
  | .serve req envs => envs.all (fun e => e.fault = .none && e.now = t) &&
      req.instant.all fun now => now = t
  | .attempt _ e => e.now = t
  | .external _ => true

/-- The instants do not go back, from `t` on. -/
def Chronological : Timestamp → List (Timestamp × Operation) → Bool
  | _, [] => true
  | t, (t', op) :: ops => decide (t ≤ t') && op.happensAt t' && Chronological t' ops

def lastInstant : Timestamp → List (Timestamp × Operation) → Timestamp
  | t, [] => t
  | _, (t', _) :: ops => lastInstant t' ops

theorem occurs_of_performOne {settings : Settings} {n : Nat} {t : Timestamp} {s s' : Backend}
    {op : Operation} {call : Option (Request × Except CaptureError Reply)}
    (hop : op.happensAt t = true) (h : performOne settings n s op = some (call, s')) :
    Occurs settings n t t s s' call := by
  cases op with
  | serve req envs =>
      obtain ⟨⟨r, s₁⟩, hsolo, heq⟩ := Option.map_eq_some_iff.mp h
      obtain ⟨rfl, rfl⟩ := Prod.mk.injEq .. |>.mp heq
      simp only [Operation.happensAt, Bool.and_eq_true, List.all_eq_true] at hop
      refine .serve req r (fun now hreq => ?_) (Runs.of_solo (fun e he c u => ?_) hsolo)
      · subst hreq
        have hnow : now = t := of_decide_eq_true (show decide (now = t) = true from hop.2)
        exact ⟨hnow.ge, hnow.le⟩
      · have henv := hop.1 e he
        rw [decide_eq_true_eq, decide_eq_true_eq] at henv
        exact ⟨⟨trivial, fun _ _ => henv.1, fun hk => hk.elim, nofun⟩, henv.2.ge, henv.2.le⟩
  | attempt u e =>
      obtain ⟨⟨v, s₁⟩, hx, heq⟩ := Option.map_eq_some_iff.mp h
      obtain ⟨rfl, rfl⟩ := Prod.mk.injEq .. |>.mp heq
      have hnow : e.now = t := of_decide_eq_true hop
      exact .attempt u e v ⟨hnow.ge, hnow.le⟩ hx
  | external x =>
      obtain ⟨s₁, hx, heq⟩ := Option.map_eq_some_iff.mp h
      obtain ⟨rfl, rfl⟩ := Prod.mk.injEq .. |>.mp heq
      exact .external x hx

theorem timedRun_of_performTimed {settings : Settings} {seed : Seed} :
    ∀ {ops : List (Timestamp × Operation)} {past events : List CaptureEvent} {n n' : Nat}
      {t : Timestamp} {s s' : Backend}, Chronological t ops = true →
      TimedRun settings seed past n t s → performTimed settings n s ops = some (events, n', s') →
        TimedRun settings seed (past ++ events) n' (lastInstant t ops) s'
  | [], past, events, n, n', t, s, s', _, hrun, h => by
      obtain ⟨rfl, rfl, rfl⟩ := by simpa [performTimed] using h
      rw [List.append_nil]
      exact hrun
  | (t', op) :: ops, past, events, n, n', t, s, s', hchron, hrun, h => by
      rw [Chronological, Bool.and_eq_true, Bool.and_eq_true, decide_eq_true_eq] at hchron
      simp only [performTimed] at h
      split at h
      · rename_i call s₁ hone
        obtain ⟨⟨rest, m, s₂⟩, hperform, heq⟩ := Option.map_eq_some_iff.mp h
        obtain ⟨rfl, hend⟩ := Prod.mk.injEq .. |>.mp heq
        obtain ⟨rfl, rfl⟩ := Prod.mk.injEq .. |>.mp hend
        have hop := hrun.op ⟨t', t', s, s₁, call⟩ rfl hchron.1.1 le_rfl
          (occurs_of_performOne hchron.1.2 hone)
        have hall := timedRun_of_performTimed hchron.2 hop hperform
        rwa [List.append_assoc] at hall
      · cases h

/-- `Reopens`, as far as it can be checked. -/
def CaptureEvent.reopens (captureId : Uuid) (ev : CaptureEvent) : Bool :=
  (match ev.call with
    | some (.create _ _, .ok (.created response)) =>
        response.captureId = captureId && response.uploadUrl.isSome
    | _ => false) &&
  ev.after.captures.rows.any (fun c => c.id = captureId && c.status = .pendingUpload) &&
  ev.before.captures.rows.any (fun c => c.id = captureId && c.status = .expired)

theorem CaptureEvent.reopens_spec {captureId : Uuid} {ev : CaptureEvent}
    (h : ev.reopens captureId = true) : ev.Reopens captureId := by
  rw [CaptureEvent.reopens, Bool.and_eq_true, Bool.and_eq_true, List.any_eq_true,
    List.any_eq_true] at h
  obtain ⟨⟨hcall, c, hc, hpending⟩, d, hd, hexpired⟩ := h
  rw [Bool.and_eq_true, decide_eq_true_eq, decide_eq_true_eq] at hpending hexpired
  refine ⟨⟨?_, c, hc, hpending⟩, d, hd, hexpired⟩
  split at hcall
  · rename_i data key response heq
    rw [Bool.and_eq_true, decide_eq_true_eq] at hcall
    obtain ⟨url, hurl⟩ := Option.isSome_iff_exists.mp hcall.2
    exact ⟨data, key, response, url, heq, hcall.1, hurl⟩
  · cases hcall

namespace Sample

/-- A capture is created, expires without an upload, and is created once more. -/
def waitsTwice : List (Timestamp × Operation) :=
  [(seconds 1, .serve (.create (data .upload) (uuid 5)) (createEnvs 1 10)),
    (seconds 100, .serve (.reconcile (some (seconds 100))) (List.replicate 3 (clock 100))),
    (seconds 102, .serve (.create (data .upload) (uuid 5)) (List.replicate 8 (clock 102)))]

end Sample

theorem deadlineKept_iff_waitsTwice : ∃ events n s,
    performTimed Sample.settings 0 (Backend.initial Sample.seed) Sample.waitsTwice =
      some (events, n, s) ∧
    ((∀ r s', ReconcilesAt Sample.settings n (seconds 103) False s r s' →
      DeadlineKept Sample.settings events (seconds 103) s s') ↔
      ReopenedUploaded Sample.settings events (seconds 103) s) := by
  have hsome : (performTimed Sample.settings 0 (Backend.initial Sample.seed)
      Sample.waitsTwice).isSome = true := by
    decide +kernel
  obtain ⟨⟨events, n, s⟩, hs⟩ := Option.isSome_iff_exists.mp hsome
  exact ⟨events, n, s, hs, deadlineKept_iff
    (timedRun_of_performTimed (by decide) (.start 0) hs) (by decide)⟩

open Sample in
/-- One second after the second answer, the capture is given up again. -/
theorem not_deadlineKept_reopened :
    ¬∀ events n t s now, TimedRun settings seed events n t s → t ≤ now →
      ∀ r s', ReconcilesAt settings n now False s r s' →
        DeadlineKept settings events now s s' := by
  intro hkept
  have hrun : (performTimed settings 0 (Backend.initial seed) waitsTwice).bind (fun p =>
      (solo exec p.2.1 (List.replicate 3 (clock 103)) (serve settings (.reconcile
        (some (seconds 103)))) p.2.2).map fun q =>
          (p.1.any fun ev => ev.reopens (uuid 10) && ev.start = seconds 102,
            p.2.2.captures.rows.map fun c => (c.id, c.status),
            q.2.captures.rows.map fun c => (c.id, c.status))) =
      some (true, [(uuid 10, .pendingUpload)], [(uuid 10, .expired)]) := by
    decide +kernel
  obtain ⟨⟨events, n, s⟩, hs, hnext⟩ := Option.bind_eq_some_iff.mp hrun
  obtain ⟨⟨r, s'⟩, hsolo, hout⟩ := Option.map_eq_some_iff.mp hnext
  obtain ⟨hany, hbefore, hafter⟩ := Prod.mk.injEq .. |>.mp hout |>.imp_right
    (Prod.mk.injEq .. |>.mp)
  have htimed := timedRun_of_performTimed (by decide) (.start 0) hs
  have hpass : ReconcilesAt settings n (seconds 103) False s r s' :=
    ⟨some (seconds 103), fun t ht => (Option.some.inj ht).symm,
      Runs.of_solo (fun e he c u => by
        rw [List.eq_of_mem_replicate he]
        exact ⟨⟨trivial, fun _ _ => rfl, fun hk => hk.elim, nofun⟩, fun _ => rfl, False.elim⟩)
        hsolo⟩
  obtain ⟨ev, hev, hreopens⟩ := List.any_eq_true.mp hany
  rw [Bool.and_eq_true, decide_eq_true_eq] at hreopens
  obtain ⟨c, _, hc, hcid, -⟩ := List.map_eq_cons_iff.mp hbefore
  obtain ⟨c', _, hc', hcid', -⟩ := List.map_eq_cons_iff.mp hafter
  obtain ⟨hid, hst⟩ := Prod.mk.injEq .. |>.mp hcid
  obtain ⟨hid', hst'⟩ := Prod.mk.injEq .. |>.mp hcid'
  have hbound := hkept events n _ s (seconds 103) htimed (by decide) r s' hpass c
    (by rw [hc]; exact List.mem_cons_self ..) (by rw [hst]; exact nofun)
    ⟨c', by rw [hc']; exact List.mem_cons_self .., hid'.trans hid.symm, hst'⟩ ev hev
    (Or.inr (hid ▸ CaptureEvent.reopens_spec hreopens.1))
  rw [hreopens.2] at hbound
  exact absurd hbound (by decide)

end Sahabino
