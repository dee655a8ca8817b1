import Sahabino.CaptureDiscipline

/-!
# Verification of the capture processes

Each process meets the discipline: before every command it owes exactly
`Issued`, and it ends in its postcondition. There is one law per command
(`wp_query`, `wp_lock`, ...); the processes are then followed statement by
statement, with what the session knows - its locks, the rows it loaded,
the key it found unmapped - carried along as hypotheses that survive
interference.

The laws take the exceptions of failing calls once and for all: every
exception postcondition used here accepts them (`infrastructure`).
-/

namespace Sahabino

open Conc (Prog Proto)

/-- The exceptions of calls that fail for reasons outside of the process. -/
def CaptureError.infrastructure : CaptureError → Bool
  | .storageUnavailable _ => true
  | .captureDispatch _ => true
  | .databaseError => true
  | .consumerError => true
  | _ => false

theorem failure_infrastructure {c : Cmd} {x : CaptureError} (h : c.failure = some x) :
    x.infrastructure = true := by
  cases c with
  | query q => cases q <;> cases h <;> rfl
  | lock key => cases h; rfl
  | commit work => cases h; rfl
  | rollback => cases h
  | deleteObject objectKey => cases h; rfl
  | publishReady event => cases h; rfl
  | publishAnalysis event => cases h; rfl
  | attempt u => cases h; rfl

/-- An exception postcondition that accepts the failure of a call, in any state
with a longer history. -/
def Tolerates (s : Backend) (X : CaptureError → Backend → Prop) : Prop :=
  ∀ x t, x.infrastructure = true → (∀ h ∈ s.history, h ∈ t.history) → X x t

/-- No command forgets. -/
theorem Effect.history {i : Nat} {now : Timestamp} {s s' : Backend} {c : Cmd}
    (h : Effect i now s c s') : ∀ x ∈ s.history, x ∈ s'.history := by
  intro x hx
  cases h with
  | idle => exact hx
  | locked key _ => exact hx
  | committed work s₁ hf =>
      obtain ⟨captures, keys, rfl, -, -⟩ := Backend.flush_ok hf
      exact List.mem_append_left _ hx
  | rolledBack => exact hx
  | deleted objectKey => exact hx
  | readyPublished event => exact hx
  | analysisSent event => exact hx
  | analysisPublished event => exact List.mem_append_left _ hx
  | attempted u _ =>
      obtain ⟨events, heq, -⟩ := u.run_frame i now s
      rw [heq]
      exact List.mem_append_left _ hx

/-! ## One law per command -/

section Laws

variable {m : Mode} {settings : Settings} {req : Request} {i : Nat} {s : Backend}

/-- Any command: a failing call raises one of the exceptions that `X` accepts
anyway, so only the calls that get through matter. -/
theorem wp_issue {c : Cmd} {Q : c.Answer → Backend → Prop} {X : CaptureError → Backend → Prop}
    (hX : Tolerates s X)
    (h : ∀ t, Rely m i s t → Inv m t → Issued m settings req i c t ∧
      ∀ e v t₁, Allowed m req i c e t → perform i e c t = some (v, t₁) →
        (∀ a, v = .ok a → Q a (acknowledge c t₁)) ∧
          ∀ x, v = .error x → X x (acknowledge c t₁)) :
    (captureProto m settings req).wp exec i (issue c) Q X s := by
  refine Proto.wp_cmd.mpr fun t hr hi => ⟨(h t hr hi).1, fun e v t' ha hx _ => ?_⟩
  have hlater : ∀ h ∈ s.history, h ∈ t'.history :=
    fun h hh => (exec_effect hx).history h (hr.history h hh)
  rcases exec_cases hx with ⟨x, hf, rfl, rfl⟩ | ⟨x, v₁, hf, -, rfl⟩ | ⟨t₁, hp, rfl⟩
  · refine ⟨nofun, fun y hy => ?_⟩
    rw [← Except.error.inj hy]
    exact hX x _ (failure_infrastructure hf) hlater
  · refine ⟨nofun, fun y hy => ?_⟩
    rw [← Except.error.inj hy]
    exact hX x _ (failure_infrastructure hf) hlater
  · exact (h t hr hi).2 e v t₁ ha hp

theorem wp_query {q : Query} {Q : q.Answer → Backend → Prop}
    {X : CaptureError → Backend → Prop} (hX : Tolerates s X)
    (h : ∀ t, Rely m i s t → Inv m t → ∀ e, Allowed m req i (.query q) e t →
      (∀ a, q.answer e t = .ok a → Q a t) ∧ ∀ x, q.answer e t = .error x → X x t) :
    (captureProto m settings req).wp exec i (query q) Q X s := by
  refine wp_issue hX fun t hr hi => ⟨trivial, fun e v t₁ ha hp => ?_⟩
  obtain ⟨rfl, rfl⟩ := Prod.mk.injEq .. |>.mp (Option.some.inj hp)
  exact h _ hr hi e ha

/-- The lock is taken. -/
def Backend.withLock (i : Nat) (key : LockKey) (s : Backend) : Backend :=
  { s with locks := Function.update s.locks key (some i) }

theorem wp_lock {key : LockKey} {Q : Unit → Backend → Prop}
    {X : CaptureError → Backend → Prop} (hX : Tolerates s X)
    (h : ∀ t, Rely m i s t → Inv m t →
      Issued m settings req i (.lock key) t ∧ Q () (t.withLock i key)) :
    (captureProto m settings req).wp exec i (issue (.lock key)) Q X s := by
  refine wp_issue hX fun t hr hi => ⟨(h t hr hi).1, fun e v t₁ _ hp => ?_⟩
  have hq := (h t hr hi).2
  simp only [perform] at hp
  split at hp
  · obtain ⟨rfl, rfl⟩ := Prod.mk.injEq .. |>.mp (Option.some.inj hp)
    exact ⟨fun _ _ => hq, fun _ hc => by cases hc⟩
  · rename_i j hj
    split at hp
    · rename_i hji
      obtain ⟨rfl, rfl⟩ := Prod.mk.injEq .. |>.mp (Option.some.inj hp)
      -- the lock is already held, taking it again changes nothing
      have hsame : t.withLock i key = t := by
        simp only [Backend.withLock, ← hji, ← hj, Function.update_eq_self]
      rw [hsame] at hq
      exact ⟨fun _ _ => hq, fun _ hc => by cases hc⟩
    · cases hp

/-- The state after a successful flush and commit of session `i`. -/
def Backend.committed (i : Nat) (s : Backend) : Backend :=
  (s.releaseLocks i).log (.committed i)

theorem wp_commit {work : UnitOfWork} {Q : Unit → Backend → Prop}
    {X : CaptureError → Backend → Prop} (hX : Tolerates s X)
    (h : ∀ t, Rely m i s t → Inv m t → Issued m settings req i (.commit work) t ∧
      (∀ now t₁, t.flush now work = .ok t₁ → Inv m t₁ → Q () (t₁.committed i)) ∧
      ∀ now x, t.flush now work = .error x → X x t) :
    (captureProto m settings req).wp exec i (issue (.commit work)) Q X s := by
  refine wp_issue hX fun t hr hi => ⟨(h t hr hi).1, fun e v t₁ _ hp => ?_⟩
  obtain ⟨hpre, hok, herr⟩ := h t hr hi
  simp only [perform] at hp
  split at hp
  · rename_i t₂ hflush
    obtain ⟨rfl, rfl⟩ := Prod.mk.injEq .. |>.mp (Option.some.inj hp)
    exact ⟨fun _ _ => hok _ _ hflush (CommitOk.inv hpre hi hflush), fun _ hc => by cases hc⟩
  · rename_i x hflush
    obtain ⟨rfl, rfl⟩ := Prod.mk.injEq .. |>.mp (Option.some.inj hp)
    refine ⟨(fun _ hc => by cases hc), fun y hy => ?_⟩
    rw [← Except.error.inj hy]
    exact herr _ _ hflush

/-- A rollback does not fail. -/
theorem wp_rollback {Q : Unit → Backend → Prop} {X : CaptureError → Backend → Prop}
    (h : ∀ t, Rely m i s t → Inv m t → Q () (t.releaseLocks i)) :
    (captureProto m settings req).wp exec i (issue .rollback) Q X s := by
  refine Proto.wp_cmd.mpr fun t hr hi => ⟨trivial, fun e v t' _ hx _ => ?_⟩
  rcases exec_cases hx with ⟨x, hf, -, -⟩ | ⟨x, v₁, hf, -, -⟩ | ⟨t₁, hp, rfl⟩
  · cases hf
  · cases hf
  · obtain ⟨rfl, rfl⟩ := Prod.mk.injEq .. |>.mp (Option.some.inj hp)
    exact ⟨fun _ _ => h t hr hi, nofun⟩

theorem wp_publishReady {event : EventEnvelope NetworkCaptureReadyV1} {Q : Unit → Backend → Prop}
    {X : CaptureError → Backend → Prop} (hX : Tolerates s X)
    (h : ∀ t, Rely m i s t → Inv m t → ReadyRecord m event t ∧
      Q () { t with readyTopic := t.readyTopic ++ [event] }) :
    (captureProto m settings req).wp exec i (issue (.publishReady event)) Q X s := by
  refine wp_issue hX fun t hr hi => ⟨(h t hr hi).1, fun e v t₁ _ hp => ?_⟩
  obtain ⟨rfl, rfl⟩ := Prod.mk.injEq .. |>.mp (Option.some.inj hp)
  exact ⟨fun _ _ => (h t hr hi).2, nofun⟩

theorem wp_attempt {u : AttemptUpdate} {Q : Bool → Backend → Prop}
    {X : CaptureError → Backend → Prop} (hreq : req = .processNext) (hX : Tolerates s X)
    (h : ∀ t, Rely m i s t → Inv m t → AttemptOk settings i t u ∧
      (∀ now, t.captures.rows.any u.applies = true → Q true (u.run i now t)) ∧ Q false t) :
    (captureProto m settings req).wp exec i (issue (.attempt u)) Q X s := by
  refine wp_issue hX fun t hr hi => ⟨⟨hreq, (h t hr hi).1⟩, fun e v t₁ _ hp => ?_⟩
  obtain ⟨-, hhit, hmiss⟩ := h t hr hi
  simp only [perform] at hp
  split at hp
  · rename_i hany
    obtain ⟨rfl, rfl⟩ := Prod.mk.injEq .. |>.mp (Option.some.inj hp)
    refine ⟨fun a ha => ?_, fun _ hc => by cases hc⟩
    rw [← Except.ok.inj ha]
    exact hhit e.now hany
  · obtain ⟨rfl, rfl⟩ := Prod.mk.injEq .. |>.mp (Option.some.inj hp)
    refine ⟨fun a ha => ?_, fun _ hc => by cases hc⟩
    rw [← Except.ok.inj ha]
    exact hmiss

end Laws

/-! ## Postconditions -/

/-- The rejections after which a `create` call must not have written. -/
def CaptureError.rejected : CaptureError → Bool
  | .idempotencyConflict => true
  | .captureMetadataConflict => true
  | .captureTooLarge _ => true
  | _ => false

def uploadTimeMissing : CaptureError :=
  .valueError "an uploaded timestamp is required before publication"

/-- A rejected call has committed nothing, and alone, the publisher is never
asked for a capture without an upload time. -/
def Raised (m : Mode) (i : Nat) (e : CaptureError) (s : Backend) : Prop :=
  (e.rejected = true → .committed i ∉ s.history) ∧ (m.alone → e ≠ uploadTimeMissing)

/-- The exceptions that say nothing about the backend. -/
def CaptureError.plain (e : CaptureError) : Prop :=
  e.rejected = false ∧ e ≠ uploadTimeMissing

theorem CaptureError.plain.raised {e : CaptureError} (h : e.plain) (m : Mode) (i : Nat)
    (s : Backend) : Raised m i e s :=
  ⟨fun hr => absurd hr (by simp [h.1]), fun _ => h.2⟩

theorem plain_of_infrastructure {e : CaptureError} (h : e.infrastructure = true) : e.plain := by
  cases e with
  | storageUnavailable message => exact ⟨rfl, nofun⟩
  | captureDispatch message => exact ⟨rfl, nofun⟩
  | databaseError => exact ⟨rfl, nofun⟩
  | consumerError => exact ⟨rfl, nofun⟩
  | _ => cases h

theorem raised_of_infrastructure (m : Mode) (i : Nat) (s : Backend) :
    Tolerates s (Raised m i) :=
  fun _ t h _ => (plain_of_infrastructure h).raised m i t

/-- The key is bound to this capture, with the fingerprint of the request. -/
def Mapped (settings : Settings) (data : CaptureCreate) (key captureId : Uuid) (s : Backend) :
    Prop :=
  ∃ k ∈ s.idempotencyKeys.rows, k.idempotencyKey = key ∧
    k.requestFingerprint = requestFingerprint settings data ∧ k.captureId = captureId

/-- A `create` call answers with the identities of the capture its key is bound
to. -/
def Answered (settings : Settings) (data : CaptureCreate) (key : Uuid)
    (response : CaptureCreateResponse) (s : Backend) : Prop :=
  ∃ c ∈ s.captures.rows, Mapped settings data key c.id s ∧ response.captureId = c.id ∧
    response.analysisId = c.analysisId ∧ response.readyEventId = c.readyEventId

theorem Mapped.rely {m : Mode} {i : Nat} {settings : Settings} {data : CaptureCreate}
    {key captureId : Uuid} {s s' : Backend} (hr : Rely m i s s')
    (h : Mapped settings data key captureId s) : Mapped settings data key captureId s' := by
  obtain ⟨k, hk, hrest⟩ := h
  exact ⟨k, hr.keys k hk, hrest⟩

theorem Answered.rely {m : Mode} {i : Nat} {settings : Settings} {data : CaptureCreate}
    {key : Uuid} {response : CaptureCreateResponse} {s s' : Backend} (hr : Rely m i s s')
    (h : Answered settings data key response s) : Answered settings data key response s' := by
  obtain ⟨c, hc, hmap, h₁, h₂, h₃⟩ := h
  obtain ⟨c', hc', hid, -⟩ := hr.rows c hc
  refine ⟨c', hc', ?_, ?_, ?_, ?_⟩
  · have := congrArg CaptureIdentity.id hid
    rw [this]
    exact hmap.rely hr
  · rw [h₁, ← hid]
  · rw [h₂, ← hid]
  · rw [h₃, ← hid]

theorem Raised.rely {m : Mode} {i : Nat} {e : CaptureError} {s s' : Backend}
    (hr : Rely m i s s') (h : Raised m i e s) : Raised m i e s' :=
  ⟨fun he hc => h.1 he (hr.committed hc), h.2⟩

/-! ## Publishing -/

section Processes

variable {m : Mode} {settings : Settings} {req : Request} {i : Nat} {s : Backend}

theorem publishReady_wp {c : NetworkCapture} {p : NonBlankString} {Q : Unit → Backend → Prop}
    {X : CaptureError → Backend → Prop} (hX : Tolerates s X)
    (hnone : c.uploadedAt = none → X uploadTimeMissing s) (hknown : Known c s)
    (hnamed : Named m c.applicationId p s)
    (hQ : ∀ t topic, Rely m i s t → Q () { t with readyTopic := topic }) :
    (captureProto m settings req).wp exec i (publishReady c p) Q X s := by
  unfold publishReady
  cases hup : c.uploadedAt with
  | none => exact hnone hup
  | some uploadedAt =>
      refine wp_publishReady hX fun t hr _ => ⟨?_, hQ t _ hr⟩
      exact ⟨c, p, uploadedAt, hknown.rely hr, hnamed.rely hr, rfl⟩

theorem packageNameForCapture_wp {c : NetworkCapture} {Q : NonBlankString → Backend → Prop}
    {X : CaptureError → Backend → Prop} (hX : Tolerates s X)
    (hassert : ∀ t, X .assertionError t)
    (hQ : ∀ t p, Rely m i s t → Inv m t → Named m c.applicationId p t → Q p t) :
    (captureProto m settings req).wp exec i (packageNameForCapture c) Q X s := by
  refine Proto.wp_seq (wp_query hX fun t hr hi e _ => ⟨fun a ha => ?_, nofun⟩)
  obtain rfl := Except.ok.inj ha
  cases hp : t.applications.packageName c.applicationId with
  | none => exact hassert t
  | some p => exact hQ t p hr hi fun _ => hp

/-- Publishing for a capture that is fit for it, where the package name may
still have to be read. -/
theorem publishReadyIfDispatchable_wp {c : NetworkCapture} {p : Option NonBlankString}
    {I : Backend → Prop} (hstable : ∀ t t', Rely m i t t' → I t → I t')
    (htopic : ∀ t topic, I t → I { t with readyTopic := topic }) (hs : I s)
    (hknown : Known c s) (hfit : Fit m c)
    (hnamed : ∀ p', p = some p' → Named m c.applicationId p' s) :
    (captureProto m settings req).wp exec i (publishReadyIfDispatchable c p) (fun _ => I)
      (Raised m i) s := by
  have hX := raised_of_infrastructure m i
  have hnone : ∀ t, c.dispatchable = true → c.uploadedAt = none →
      Raised m i uploadTimeMissing t := by
    intro t hd hup
    refine ⟨nofun, fun ha => ?_⟩
    have := hfit ha hd
    rw [hup] at this
    cases this
  unfold publishReadyIfDispatchable
  split
  · rename_i hd
    cases p with
    | some p' =>
        refine publishReady_wp (hX _) (hnone s hd) hknown (hnamed p' rfl) fun t topic hr => ?_
        exact htopic t topic (hstable s t hr hs)
    | none =>
        refine Proto.wp_seq (packageNameForCapture_wp (hX _) (fun t => ⟨nofun, nofun⟩) ?_)
        intro t p' hr _ hn
        refine publishReady_wp (hX _) (hnone t hd) (hknown.rely hr) hn fun t' topic hr' => ?_
        exact htopic t' topic (hstable t t' hr' (hstable s t hr hs))
  · exact hs

theorem createResponse_wp {data : CaptureCreate} {key : Uuid} {c : NetworkCapture}
    (hknown : Known c s) (hmap : Mapped settings data key c.id s) :
    (captureProto m settings req).wp exec i (createResponse settings c)
      (Answered settings data key) (Raised m i) s := by
  have hans : ∀ t st b url ttl, Known c t → Mapped settings data key c.id t →
      Answered settings data key ⟨c.id, c.analysisId, c.readyEventId, st, b, url, ttl⟩ t := by
    intro t st b url ttl hk hm
    obtain ⟨r, hr, hid⟩ := hk
    have hrid : r.id = c.id := congrArg CaptureIdentity.id hid
    refine ⟨r, hr, ?_, ?_, ?_, ?_⟩
    · rw [hrid]
      exact hm
    · exact hrid.symm
    · exact (congrArg CaptureIdentity.analysisId hid).symm
    · exact (congrArg CaptureIdentity.readyEventId hid).symm
  unfold createResponse
  split
  · refine Proto.wp_seq (wp_query (raised_of_infrastructure m i s) fun t hr _ e _ =>
      ⟨fun url _ => ?_, nofun⟩)
    exact hans t _ _ _ _ (hknown.rely hr) (hmap.rely hr)
  · exact hans s _ _ _ _ hknown hmap

theorem dispatchAndRespond_wp {data : CaptureCreate} {key : Uuid} {c : NetworkCapture}
    {p : Option NonBlankString} (hknown : Known c s) (hfit : Fit m c)
    (hnamed : ∀ p', p = some p' → Named m c.applicationId p' s)
    (hmap : Mapped settings data key c.id s) :
    (captureProto m settings req).wp exec i (dispatchAndRespond settings c p)
      (Answered settings data key) (Raised m i) s := by
  refine Proto.wp_seq (Proto.wp_mono ?_ (fun _ _ h => h) (publishReadyIfDispatchable_wp
    (I := fun t => Known c t ∧ Mapped settings data key c.id t) ?_ ?_ ⟨hknown, hmap⟩ hknown hfit
    hnamed))
  · rintro - t ⟨hk, hm⟩
    exact createResponse_wp hk hm
  · rintro t t' hr ⟨hk, hm⟩
    exact ⟨hk.rely hr, hm.rely hr⟩
  · exact fun t topic h => h

/-! ## Reading rows -/

theorem get_wp {captureId : Uuid} {Q : Option NetworkCapture → Backend → Prop}
    {X : CaptureError → Backend → Prop} (hX : Tolerates s X)
    (hsome : ∀ t c, Rely m i s t → Inv m t → c ∈ t.captures.rows → c.id = captureId →
      Q (some c) t)
    (hnone : ∀ t, Rely m i s t → (∀ c ∈ t.captures.rows, c.id ≠ captureId) → Q none t) :
    (captureProto m settings req).wp exec i (query (.get captureId)) Q X s := by
  refine wp_query hX fun t hr hi e _ => ⟨fun a ha => ?_, nofun⟩
  obtain rfl := Except.ok.inj ha
  cases hf : t.captures.rows.find? fun c => c.id = captureId with
  | none =>
      refine hnone t hr fun c hc hid => ?_
      have := List.find?_eq_none.mp hf c hc
      simp [hid] at this
  | some c =>
      have hid : c.id = captureId := by simpa using List.find?_some hf
      exact hsome t c hr hi (List.mem_of_find?_eq_some hf) hid

/-- Refreshing finds the row the object was loaded from. -/
theorem refresh_wp {c : NetworkCapture} {Q : NetworkCapture → Backend → Prop}
    {X : CaptureError → Backend → Prop} (hX : Tolerates s X)
    (hknown : Known c s)
    (hQ : ∀ t c', Rely m i s t → Inv m t → c' ∈ t.captures.rows →
      c'.toCaptureIdentity = c.toCaptureIdentity → Q c' t) :
    (captureProto m settings req).wp exec i (refresh c) Q X s := by
  refine Proto.wp_seq (get_wp hX (fun t c' hr hi hc' hid => ?_) fun t hr hall => ?_)
  · exact hQ t c' hr hi hc' ((hknown.rely hr).identity hc' hid)
  · obtain ⟨r, hrow, hrid⟩ := hknown.rely hr
    exact absurd (congrArg CaptureIdentity.id hrid) (hall r hrow)

theorem getIdempotencyKey_wp {key : Uuid}
    {Q : Option NetworkCaptureIdempotencyKey → Backend → Prop}
    {X : CaptureError → Backend → Prop} (hX : Tolerates s X)
    (hsome : ∀ t k, Rely m i s t → k ∈ t.idempotencyKeys.rows → k.idempotencyKey = key →
      Q (some k) t)
    (hnone : ∀ t, Rely m i s t → (∀ k ∈ t.idempotencyKeys.rows, k.idempotencyKey ≠ key) →
      Q none t) :
    (captureProto m settings req).wp exec i (query (.getIdempotencyKey key)) Q X s := by
  refine wp_query hX fun t hr hi e _ => ⟨fun a ha => ?_, nofun⟩
  obtain rfl := Except.ok.inj ha
  cases hf : t.idempotencyKeys.rows.find? fun k => k.idempotencyKey = key with
  | none =>
      refine hnone t hr fun k hk hkey => ?_
      have := List.find?_eq_none.mp hf k hk
      simp [hkey] at this
  | some k =>
      have hkey : k.idempotencyKey = key := by simpa using List.find?_some hf
      exact hsome t k hr (List.mem_of_find?_eq_some hf) hkey

/-! ## Commits -/

theorem flush_error_plain {s : Backend} {now : Timestamp} {work : UnitOfWork} {x : CaptureError}
    (h : s.flush now work = .error x) : x = .integrityError ∨ x = .dataError := by
  have hcap : ∀ {now apps t c y}, insertCapture now apps t c = .error y →
      y = .integrityError ∨ y = .dataError := by
    intro now apps t c y hy
    cases c with
    | none => cases hy
    | some c =>
        simp only [insertCapture] at hy
        split at hy
        · exact Or.inr (Except.error.inj hy).symm
        · split at hy
          · exact Or.inl (Except.error.inj hy).symm
          · split at hy
            · cases hy
            · exact Or.inl (Except.error.inj hy).symm
  have hkey : ∀ {captures t k y}, insertKey captures t k = .error y → y = .integrityError := by
    intro captures t k y hy
    cases k with
    | none => cases hy
    | some k =>
        simp only [insertKey] at hy
        split at hy
        · split at hy
          · cases hy
          · exact (Except.error.inj hy).symm
        · exact (Except.error.inj hy).symm
  simp only [Backend.flush] at h
  split at h
  · rename_i e he
    rw [← Except.error.inj h]
    exact hcap he
  · split at h
    · rename_i e he
      rw [← Except.error.inj h]
      exact Or.inl (hkey he)
    · cases h

theorem Known.flush {c : NetworkCapture} {s s' : Backend} {now : Timestamp} {work : UnitOfWork}
    (h : Known c s) (hf : s.flush now work = .ok s') : Known c (s'.committed i) := by
  obtain ⟨captures, keys, rfl, hrows, -⟩ := Backend.flush_ok hf
  obtain ⟨r, hr, hid⟩ := h
  exact ⟨work.writeRow r, (hrows _).mpr (Or.inl ⟨r, hr, rfl⟩),
    (work.writeRow_identity r).trans hid⟩

theorem Known.of_insert {c : NetworkCapture} {s s' : Backend} {now : Timestamp}
    {work : UnitOfWork} (h : work.insertCapture = some c) (hf : s.flush now work = .ok s') :
    Known c (s'.committed i) := by
  obtain ⟨captures, keys, rfl, hrows, -⟩ := Backend.flush_ok hf
  exact ⟨_, (hrows _).mpr (Or.inr ⟨c, h, rfl⟩), rfl⟩

theorem Mapped.flush {data : CaptureCreate} {key captureId : Uuid} {s s' : Backend}
    {now : Timestamp} {work : UnitOfWork} (h : Mapped settings data key captureId s)
    (hf : s.flush now work = .ok s') : Mapped settings data key captureId (s'.committed i) := by
  obtain ⟨captures, keys, rfl, -, hkeys⟩ := Backend.flush_ok hf
  obtain ⟨k, hk, hrest⟩ := h
  exact ⟨k, (hkeys k).mpr (Or.inl hk), hrest⟩

theorem Mapped.of_insert {data : CaptureCreate} {key captureId : Uuid} {s s' : Backend}
    {now : Timestamp} {work : UnitOfWork}
    (h : work.insertKey = some ⟨key, captureId, requestFingerprint settings data⟩)
    (hf : s.flush now work = .ok s') : Mapped settings data key captureId (s'.committed i) := by
  obtain ⟨captures, keys, rfl, -, hkeys⟩ := Backend.flush_ok hf
  exact ⟨_, (hkeys _).mpr (Or.inr h), rfl, rfl, rfl⟩

/-- A commit that only writes moved objects back. -/
theorem CommitOk.of_updates {us : List (NetworkCapture × NetworkCapture)}
    (h : ∀ u ∈ us, Seen m u.1 s ∧ Move m s u.1 u.2) :
    CommitOk m settings req i ⟨none, us, none⟩ s where
  updates := h
  capture := fun _ hc => by cases hc
  key := fun _ hk => by cases hk

/-! ## `create` -/

/-- The locks of a `create` call: its key, and these object keys. -/
structure Holds (i : Nat) (key : Uuid) (objectKeys : List String) (s : Backend) : Prop where
  lock : s.locks (.idempotency key) = some i
  only : ∀ k, s.locks k = some i → k = .idempotency key ∨ ∃ o ∈ objectKeys, k = .object o
  uncommitted : .committed i ∉ s.history

def Unmapped (key : Uuid) (s : Backend) : Prop :=
  ∀ k ∈ s.idempotencyKeys.rows, k.idempotencyKey ≠ key

theorem Holds.rely {key : Uuid} {os : List String} {s s' : Backend} (hr : Rely m i s s')
    (h : Holds i key os s) : Holds i key os s' where
  lock := (hr.locks _).mpr h.lock
  only := fun k hk => h.only k ((hr.locks k).mp hk)
  uncommitted := fun hc => h.uncommitted (hr.committed hc)

/-- Nobody else binds a key while its lock is held. -/
theorem Unmapped.rely {key : Uuid} {os : List String} {s s' : Backend} (hr : Rely m i s s')
    (hl : Holds i key os s) (h : Unmapped key s) : Unmapped key s' :=
  fun k hk hkey => h k (hr.unmapped key hl.lock k hk hkey) hkey

theorem Known.withLock {c : NetworkCapture} {s : Backend} (h : Known c s) (k : LockKey) :
    Known c (s.withLock i k) := h

theorem Unmapped.withLock {key : Uuid} {s : Backend} (h : Unmapped key s) (k : LockKey) :
    Unmapped key (s.withLock i k) := h

theorem Holds.withLock {key : Uuid} {os : List String} {s : Backend} (h : Holds i key os s)
    (o : String) : Holds i key (o :: os) (s.withLock i (.object o)) where
  lock := by
    have hne : LockKey.idempotency key ≠ .object o := nofun
    simp only [Backend.withLock, Function.update_of_ne hne]
    exact h.lock
  only := by
    intro k hk
    by_cases hko : k = .object o
    · exact Or.inr ⟨o, List.mem_cons_self .., hko⟩
    · simp only [Backend.withLock, Function.update_of_ne hko] at hk
      rcases h.only k hk with h' | ⟨o', ho', rfl⟩
      · exact Or.inl h'
      · exact Or.inr ⟨o', List.mem_cons_of_mem _ ho', rfl⟩
  uncommitted := h.uncommitted

/-- With no lock held, the key's lock is the only one afterwards. -/
theorem Holds.first {key : Uuid} {s : Backend} (hfree : ∀ k, s.locks k ≠ some i)
    (hun : .committed i ∉ s.history) : Holds i key [] (s.withLock i (.idempotency key)) where
  lock := by simp [Backend.withLock]
  only := by
    intro k hk
    by_cases hkk : k = .idempotency key
    · exact Or.inl hkk
    · simp only [Backend.withLock, Function.update_of_ne hkk] at hk
      exact absurd hk (hfree k)
  uncommitted := hun

theorem Holds.no_object {key : Uuid} {s : Backend} (h : Holds i key [] s) (o : String) :
    s.locks (.object o) ≠ some i := by
  intro ho
  rcases h.only _ ho with hk | ⟨o', ho', -⟩
  · cases hk
  · cases ho'

/-- The first object lock of a call. -/
theorem wp_lockObject {key : Uuid} {o : String} {Q : Unit → Backend → Prop}
    {X : CaptureError → Backend → Prop} (hreq : req.locking) (hX : Tolerates s X)
    (hs : Holds i key [] s)
    (hQ : ∀ t, Rely m i s t → Holds i key [o] (t.withLock i (.object o)) →
      Q () (t.withLock i (.object o))) :
    (captureProto m settings req).wp exec i (issue (.lock (.object o))) Q X s := by
  refine wp_lock hX fun t hr _ => ?_
  have hl := hs.rely hr
  exact ⟨⟨hreq, Or.inl hl.no_object⟩, hQ t hr (hl.withLock o)⟩

theorem fit_of_not_dispatchable {c : NetworkCapture} (h : c.dispatchable = false) : Fit m c :=
  fun _ hd => absurd hd (by simp [h])

theorem reopened_not_dispatchable {c c' : NetworkCapture} (h : c.reopenExpired = some c') :
    c'.dispatchable = false := by
  rw [(NetworkCapture.reopenExpired_eq h).2]
  rfl

theorem resumeMapped_wp {data : CaptureCreate} {key : Uuid}
    {mapping : NetworkCaptureIdempotencyKey} (hreq : req = .create data key)
    (hs : Holds i key [] s) (hmem : mapping ∈ s.idempotencyKeys.rows)
    (hkey : mapping.idempotencyKey = key) :
    (captureProto m settings req).wp exec i (resumeMapped settings data mapping)
      (Answered settings data key) (Raised m i) s := by
  have hX := raised_of_infrastructure m i
  unfold resumeMapped
  split
  · exact ⟨fun _ => hs.uncommitted, fun _ => nofun⟩
  · rename_i hfp
    have hmap : Mapped settings data key mapping.captureId s :=
      ⟨mapping, hmem, hkey, not_not.mp hfp, rfl⟩
    refine Proto.wp_seq (get_wp (hX _) (fun t c hr hi hc hid => ?_)
      fun t _ _ => ⟨nofun, fun _ => nofun⟩)
    refine Proto.wp_seq (wp_lockObject (by rw [hreq]; trivial) (hX _) (hs.rely hr)
      fun t₁ hr₁ hl₁ => ?_)
    have hknown₁ := (Known.rely hr₁ ⟨c, hc, rfl⟩).withLock (i := i) (.object c.objectKey)
    have hmap₁ : Mapped settings data key c.id t₁ := by
      rw [hid]
      exact (hmap.rely hr).rely hr₁
    refine Proto.wp_seq (refresh_wp (hX _) hknown₁ fun t₂ c₂ hr₂ hi₂ hc₂ hid₂ => ?_)
    have hseen := Seen.of_mem hi₂ hc₂
    have hmap₂ : Mapped settings data key c₂.id t₂ := by
      have hmap₁' : Mapped settings data key c.id (t₁.withLock i (.object c.objectKey)) := hmap₁
      rw [← congrArg CaptureIdentity.id hid₂] at hmap₁'
      exact hmap₁'.rely hr₂
    split
    · rename_i reopened hreopen
      have hmove : Move m t₂ c₂ reopened := .reopen hreopen
      refine Proto.wp_seq (wp_commit (hX _) fun t₃ hr₃ hi₃ => ⟨CommitOk.of_updates ?_, ?_, ?_⟩)
      · intro u hu
        rw [List.mem_singleton.mp hu]
        exact ⟨hseen.rely hr₃, .reopen hreopen⟩
      · intro now t₄ hf _
        have hid₃ : reopened.id = c₂.id := congrArg CaptureIdentity.id hmove.identity
        refine dispatchAndRespond_wp ?_ ?_ nofun ?_
        · obtain ⟨r, hrow, hrid⟩ := (hseen.known.rely hr₃).flush (i := i) hf
          exact ⟨r, hrow, hrid.trans hmove.identity.symm⟩
        · exact fit_of_not_dispatchable (reopened_not_dispatchable hreopen)
        · rw [hid₃]
          exact (hmap₂.rely hr₃).flush hf
      · intro now x hf
        rcases flush_error_plain hf with rfl | rfl
        · exact ⟨nofun, fun _ => nofun⟩
        · exact ⟨nofun, fun _ => nofun⟩
    · exact dispatchAndRespond_wp hseen.known (hseen.fit hi₂) nofun hmap₂

theorem raised_of_flush_error {s : Backend} {now : Timestamp} {work : UnitOfWork}
    {x : CaptureError} (h : s.flush now work = .error x) (t : Backend) : Raised m i x t := by
  rcases flush_error_plain h with rfl | rfl
  · exact ⟨nofun, fun _ => nofun⟩
  · exact ⟨nofun, fun _ => nofun⟩

theorem bindLogical_wp {data : CaptureCreate} {key : Uuid} {os : List String}
    {logical : NetworkCapture} (hreq : req = .create data key) (hs : Holds i key os s)
    (hun : Unmapped key s) (hseen : Seen m logical s) (hfit : Fit m logical) :
    (captureProto m settings req).wp exec i (bindLogical settings data key logical)
      (Answered settings data key) (Raised m i) s := by
  have hX := raised_of_infrastructure m i
  have hkey : ∀ t, Rely m i s t → NewKey settings req i
      ⟨key, logical.id, requestFingerprint settings data⟩ t := fun t hr =>
    ⟨⟨data, hreq, rfl⟩, (hs.rely hr).lock, hun.rely hr hs⟩
  unfold bindLogical
  split
  · simp only
    split
    · rename_i reopened hreopen
      have hmove : Move m s logical reopened := .reopen hreopen
      refine Proto.wp_seq (wp_commit (hX _) fun t hr _ => ⟨⟨?_, ?_, ?_⟩, ?_, ?_⟩)
      · intro u hu
        rw [List.mem_singleton.mp hu]
        exact ⟨hseen.rely hr, .reopen hreopen⟩
      · intro c hc
        cases hc
      · intro k hk
        rw [← Option.some.inj hk]
        exact hkey t hr
      · intro now t₁ hf _
        refine dispatchAndRespond_wp ?_ ?_ (fun _ hp => by cases hp) ?_
        · obtain ⟨r, hrow, hrid⟩ := (hseen.known.rely hr).flush (i := i) hf
          exact ⟨r, hrow, hrid.trans hmove.identity.symm⟩
        · exact fit_of_not_dispatchable (reopened_not_dispatchable hreopen)
        · have hid : reopened.id = logical.id := congrArg CaptureIdentity.id hmove.identity
          rw [hid]
          exact Mapped.of_insert rfl hf
      · exact fun now x hf => raised_of_flush_error hf t
    · refine Proto.wp_seq (wp_commit (hX _) fun t hr _ => ⟨⟨?_, ?_, ?_⟩, ?_, ?_⟩)
      · intro u hu
        cases hu
      · intro c hc
        cases hc
      · intro k hk
        rw [← Option.some.inj hk]
        exact hkey t hr
      · intro now t₁ hf _
        exact dispatchAndRespond_wp ((hseen.known.rely hr).flush hf) hfit
          (fun _ hp => by cases hp) (Mapped.of_insert rfl hf)
      · exact fun now x hf => raised_of_flush_error hf t
  · exact ⟨fun _ => hs.uncommitted, fun _ => nofun⟩

/-- What a lookup by logical identity gives to a `create` call. -/
structure LogicalRow (m : Mode) (data : CaptureCreate) (c : NetworkCapture) (s : Backend) :
    Prop where
  seen : Seen m c s
  fit : Fit m c
  logical : c.logical = (data.applicationId, data.scenario, data.sha256)
  direction : ∀ dir, m.direction = some dir → c.captureFormat ≠ data.captureFormat →
    data.captureFormat = dir data.sha256

theorem LogicalRow.objectKey {data : CaptureCreate} {c : NetworkCapture} {s : Backend}
    (h : LogicalRow m data c s) : c.objectKey = objectKeyFor data.sha256 c.captureFormat := by
  have hsha : c.expectedSha256 = data.sha256 := congrArg (fun x => x.2.2) h.logical
  rw [h.seen.sane.objectKey, hsha]

theorem getLogical_wp {data : CaptureCreate} {key : Uuid}
    {Q : Option NetworkCapture → Backend → Prop} {X : CaptureError → Backend → Prop}
    (hX : Tolerates s X) (hreq : req = .create data key)
    (hsome : ∀ t c, Rely m i s t → LogicalRow m data c t → Q (some c) t)
    (hnone : ∀ t, Rely m i s t → Q none t) :
    (captureProto m settings req).wp exec i
      (query (.getLogical data.applicationId data.scenario data.sha256)) Q X s := by
  refine wp_query hX fun t hr hi e ha => ⟨fun a hans => ?_, nofun⟩
  obtain rfl := Except.ok.inj hans
  cases hf : t.captures.rows.find? fun c =>
      c.logical = (data.applicationId, data.scenario, data.sha256) with
  | none => exact hnone t hr
  | some c =>
      have hc := List.mem_of_find?_eq_some hf
      have hlog : c.logical = (data.applicationId, data.scenario, data.sha256) := by
        simpa using List.find?_some hf
      have hseen := Seen.of_mem hi hc
      refine hsome t c hr ⟨hseen, hseen.fit hi, hlog, fun dir hdir hne => ?_⟩
      exact ha.direction dir hdir data key hreq ⟨_, _, _, rfl⟩ c hc hlog hne

theorem reuseLogical_wp {data : CaptureCreate} {key : Uuid} {logical : NetworkCapture}
    (hreq : req = .create data key)
    (hs : Holds i key [objectKeyFor data.sha256 data.captureFormat] s)
    (hun : Unmapped key s) (hrow : LogicalRow m data logical s) :
    (captureProto m settings req).wp exec i (reuseLogical settings data key logical)
      (Answered settings data key) (Raised m i) s := by
  have hX := raised_of_infrastructure m i
  unfold reuseLogical
  split
  · rename_i hne
    have hfmt : logical.captureFormat ≠ data.captureFormat := by
      intro heq
      rw [hrow.objectKey, heq] at hne
      exact hne rfl
    refine Proto.wp_seq (wp_lock (hX _) fun t hr _ =>
      ⟨⟨by rw [hreq]; trivial, Or.inr ⟨data, key, hreq, ?_⟩⟩, ?_⟩)
    · refine ⟨fun k hk => ?_, ⟨_, hrow.objectKey, hfmt⟩, fun dir hdir => ?_⟩
      · rcases (hs.rely hr).only _ hk with h | ⟨o, ho, h⟩
        · cases h
        · rw [LockKey.object.inj h, List.mem_singleton.mp ho]
      · exact hrow.direction dir hdir hfmt
    · have hl := (hs.rely hr).withLock logical.objectKey
      have hun₁ := (hun.rely hr hs).withLock (i := i) (.object logical.objectKey)
      have hknown := (hrow.seen.known.rely hr).withLock (i := i) (.object logical.objectKey)
      refine Proto.wp_seq (refresh_wp (hX _) hknown fun t₂ c₂ hr₂ hi₂ hc₂ _ => ?_)
      have hseen := Seen.of_mem hi₂ hc₂
      exact bindLogical_wp hreq (hl.rely hr₂) (hun₁.rely hr₂ hl) hseen (hseen.fit hi₂)
  · exact bindLogical_wp hreq hs hun hrow.seen hrow.fit

/-- The way into `create`, and again into its recovery: lock the key and look it
up, with no lock held before. -/
theorem lookupKey_wp {data : CaptureCreate} {key : Uuid}
    {f : Option NetworkCaptureIdempotencyKey → Process CaptureCreateResponse}
    (hreq : req = .create data key) (hfree : ∀ k, s.locks k ≠ some i)
    (huncom : .committed i ∉ s.history)
    (hsome : ∀ t k, Holds i key [] t → k ∈ t.idempotencyKeys.rows → k.idempotencyKey = key →
      (captureProto m settings req).wp exec i (f (some k)) (Answered settings data key)
        (Raised m i) t)
    (hnone : ∀ t, Holds i key [] t → Unmapped key t →
      (captureProto m settings req).wp exec i (f none) (Answered settings data key)
        (Raised m i) t) :
    (captureProto m settings req).wp exec i (do
        issue (.lock (.idempotency key))
        let mapping ← query (.getIdempotencyKey key)
        f mapping) (Answered settings data key) (Raised m i) s := by
  have hX := raised_of_infrastructure m i
  refine Proto.wp_seq (wp_lock (hX _) fun t hr _ => ?_)
  have hfree' : ∀ k, t.locks k ≠ some i := fun k hk => hfree k ((hr.locks k).mp hk)
  have hl : Holds i key [] (t.withLock i (.idempotency key)) :=
    Holds.first hfree' fun hc => huncom (hr.committed hc)
  refine ⟨⟨⟨data, hreq⟩, hfree'⟩, Proto.wp_seq (getIdempotencyKey_wp (hX _) ?_ ?_)⟩
  · exact fun t₁ k hr₁ hk hkey => hsome t₁ k (hl.rely hr₁) hk hkey
  · exact fun t₁ hr₁ hun => hnone t₁ (hl.rely hr₁) hun

theorem recoverCreate_wp {data : CaptureCreate} {key : Uuid} (hreq : req = .create data key)
    (huncom : .committed i ∉ s.history) :
    (captureProto m settings req).wp exec i (recoverCreate settings data key)
      (Answered settings data key) (Raised m i) s := by
  have hX := raised_of_infrastructure m i
  refine Proto.wp_seq (wp_rollback fun t hr _ => ?_)
  refine lookupKey_wp hreq (releaseLocks_ne i t) (fun hc => huncom (hr.committed hc)) ?_ ?_
  · exact fun t₁ k hl hk hkey => resumeMapped_wp hreq hl hk hkey
  · intro t₁ hl hun
    refine Proto.wp_seq (wp_lockObject (by rw [hreq]; trivial) (hX _) hl fun t₂ hr₂ hl₂ => ?_)
    have hun₂ := (hun.rely hr₂ hl).withLock (i := i)
      (.object (objectKeyFor data.sha256 data.captureFormat))
    refine Proto.wp_seq (getLogical_wp (hX _) hreq (fun t₃ c hr₃ hrow => ?_) fun t₃ _ => ?_)
    · exact reuseLogical_wp hreq (hl₂.rely hr₃) (hun₂.rely hr₃ hl₂) hrow
    · exact ⟨nofun, fun _ => nofun⟩

/-! ### A fresh row -/

theorem mem_verifiedObject {captures : CaptureTable} {objectKey : String} {choice : Nat}
    {c : NetworkCapture} (h : verifiedObject captures objectKey choice = some c) :
    c ∈ captures.rows ∧ c.objectKey = objectKey ∧ c.verifiedSha256.isSome ∧
      c.objectDeletedAt = none := by
  have hmem := List.mem_of_getElem? h
  have hc := List.mem_filter.mp (List.mem_filter.mp hmem).1
  obtain ⟨hrow, hp⟩ := hc
  simp only [Bool.and_eq_true, decide_eq_true_eq, Option.isNone_iff_eq_none] at hp
  exact ⟨hrow, hp.1.1, hp.1.2, hp.2⟩

/-- The row that lends its hash to a new one: the hash is the requested one,
because the object key determines it. -/
structure Lender (m : Mode) (data : CaptureCreate) (v : NetworkCapture) (s : Backend) :
    Prop where
  sha256 : v.verifiedSha256 = some data.sha256
  stored : m.alone → ∃ metadata,
    s.objects (objectKeyFor data.sha256 data.captureFormat) = some metadata ∧
      metadata.sizeBytes = data.captureSizeBytes

theorem Lender.rely {data : CaptureCreate} {v : NetworkCapture} {s s' : Backend}
    (hr : Rely m i s s') (h : Lender m data v s) : Lender m data v s' :=
  ⟨h.sha256, fun ha => by rw [hr.alone ha]; exact h.stored ha⟩

theorem lender_sha256 {data : CaptureCreate} {v : NetworkCapture} (hv : CaptureSane v)
    (hkey : v.objectKey = objectKeyFor data.sha256 data.captureFormat)
    (hsome : v.verifiedSha256.isSome) : v.verifiedSha256 = some data.sha256 := by
  obtain ⟨x, hx⟩ := Option.isSome_iff_exists.mp hsome
  have hsha := (objectKeyFor_inj (hv.objectKey.symm.trans hkey)).1
  rw [hx, hv.verified x hx, hsha]

theorem reusableObject_wp {data : CaptureCreate} {Q : Option NetworkCapture → Backend → Prop}
    {X : CaptureError → Backend → Prop} (hX : ∀ t, Tolerates t X)
    (hmis : ∀ t msg, X (.captureObjectSizeMismatch msg) t)
    (hQ : ∀ t verified, Rely m i s t → (∀ v, verified = some v → Lender m data v t) →
      Q verified t) :
    (captureProto m settings req).wp exec i (reusableObject data) Q X s := by
  unfold reusableObject
  refine Proto.wp_seq (wp_query (hX _) fun t hr hi e _ => ⟨fun a ha => ?_, nofun⟩)
  obtain rfl := Except.ok.inj ha
  cases hv : verifiedObject t.captures (objectKeyFor data.sha256 data.captureFormat) e.choice with
  | none => exact hQ t none hr fun v hv => by cases hv
  | some v =>
      obtain ⟨hmem, hkey, hsome, -⟩ := mem_verifiedObject hv
      have hsha := lender_sha256 (hi.sane v hmem) hkey hsome
      simp only
      split
      · exact hmis t _
      · refine Proto.wp_seq (wp_query (hX _) fun t₁ hr₁ _ e₁ _ => ⟨fun a₁ ha₁ => ?_, nofun⟩)
        obtain rfl := Except.ok.inj ha₁
        cases hobj : t₁.objects (objectKeyFor data.sha256 data.captureFormat) with
        | none => exact hQ t₁ none (hr.trans hr₁) fun v hv => by cases hv
        | some metadata =>
            simp only
            split
            · exact hmis t₁ _
            · rename_i hsize
              refine hQ t₁ (some v) (hr.trans hr₁) fun w hw => ?_
              rw [← Option.some.inj hw]
              exact ⟨hsha, fun _ => ⟨metadata, hobj, not_not.mp hsize⟩⟩

theorem wp_local {q : Query} (hq : ∀ e t, ∃ a, q.answer e t = .ok a)
    {Q : q.Answer → Backend → Prop}
    {X : CaptureError → Backend → Prop} (hX : Tolerates s X)
    (hQ : ∀ t a, Rely m i s t → Inv m t → Q a t) :
    (captureProto m settings req).wp exec i (query q) Q X s := by
  refine wp_query hX fun t hr hi e _ => ⟨fun a _ => hQ t a hr hi, fun x hx => ?_⟩
  obtain ⟨a, ha⟩ := hq e t
  rw [ha] at hx
  cases hx

theorem drawIds_wp {Q : DrawnIds → Backend → Prop} {X : CaptureError → Backend → Prop}
    (hX : ∀ t, Tolerates t X)
    (hQ : ∀ t ids, Rely m i s t → Q ids t) :
    (captureProto m settings req).wp exec i drawIds Q X s := by
  have huuid : ∀ e t, ∃ a, Query.uuid4.answer e t = .ok a := fun e _ => ⟨e.uuid, rfl⟩
  refine Proto.wp_seq (wp_local huuid (hX _) fun t₁ id₁ hr₁ _ => ?_)
  refine Proto.wp_seq (wp_local huuid (hX _) fun t₂ id₂ hr₂ _ => ?_)
  refine Proto.wp_seq (wp_local huuid (hX _) fun t₃ id₃ hr₃ _ => ?_)
  refine Proto.wp_seq (wp_local huuid (hX _) fun t₄ id₄ hr₄ _ => ?_)
  exact hQ t₄ _ (((hr₁.trans hr₂).trans hr₃).trans hr₄)

/-- The insert either stores the row and its key, or nothing. -/
theorem insertNew_wp {data : CaptureCreate} {key : Uuid} {os : List String}
    {c : NetworkCapture} {Q : Bool → Backend → Prop} (hreq : req = .create data key)
    (hs : Holds i key os s) (hun : Unmapped key s) (hnew : ∀ t, Rely m i s t → NewRow m data c t)
    (htrue : ∀ (t t₁ : Backend), Rely m i s t → Known c (t₁.committed i) →
      Mapped settings data key c.id (t₁.committed i) → t₁.applications = t.applications →
      Q true (t₁.committed i))
    (hfalse : ∀ t, Rely m i s t → Q false t) :
    (captureProto m settings req).wp exec i (insertNew settings data key c) Q (Raised m i) s := by
  refine Proto.wp_tryCatch.mpr (Proto.wp_seq (wp_commit (fun x t hx _ => ?_) fun t hr _ =>
    ⟨⟨?_, ?_, ?_⟩, ?_, ?_⟩))
  · cases x with
    | integrityError => cases hx
    | _ => exact (plain_of_infrastructure hx).raised m i t
  · intro u hu
    cases hu
  · intro c' hc'
    rw [← Option.some.inj hc']
    exact ⟨data, key, hreq, hnew t hr⟩
  · intro k hk
    rw [← Option.some.inj hk]
    exact ⟨⟨data, hreq, rfl⟩, (hs.rely hr).lock, hun.rely hr hs⟩
  · intro now t₁ hf _
    obtain ⟨captures, keys, heq, -, -⟩ := Backend.flush_ok hf
    refine htrue t t₁ hr (Known.of_insert rfl hf) (Mapped.of_insert rfl hf) ?_
    rw [heq]
  · intro now x hf
    rcases flush_error_plain hf with rfl | rfl
    · exact hfalse t hr
    · exact ⟨nofun, fun _ => nofun⟩

theorem newCapture_fit {data : CaptureCreate} {verified : Option NetworkCapture}
    {now : Timestamp} {ids : DrawnIds} : Fit m (newCapture data verified now ids) := by
  intro _ hd
  cases verified with
  | none => simp [newCapture, NetworkCapture.dispatchable] at hd
  | some v => rfl

theorem createFresh_wp {data : CaptureCreate} {key : Uuid} {os : List String}
    (hreq : req = .create data key) (hs : Holds i key os s) (hun : Unmapped key s) :
    (captureProto m settings req).wp exec i (createFresh settings data key)
      (Answered settings data key) (Raised m i) s := by
  have hX := raised_of_infrastructure m i
  have hnow : ∀ e t, ∃ a, Query.now.answer e t = .ok a := fun e _ => ⟨e.now, rfl⟩
  refine Proto.wp_seq (wp_query (hX _) fun t hr _ e _ => ⟨fun a ha => ?_, nofun⟩)
  obtain rfl := Except.ok.inj ha
  cases hp : t.applications.packageName data.applicationId with
  | none => exact ⟨nofun, fun _ => nofun⟩
  | some p =>
      have hnamed : Named m data.applicationId p t := fun _ => hp
      refine Proto.wp_seq (reusableObject_wp hX (fun _ _ => ⟨nofun, fun _ => nofun⟩) ?_)
      intro t₁ verified hr₁ hlend
      refine Proto.wp_seq (wp_local hnow (hX _) fun t₂ now hr₂ _ => ?_)
      refine Proto.wp_seq (drawIds_wp hX fun t₃ ids hr₃ => ?_)
      have hr' : Rely m i t₁ t₃ := hr₂.trans hr₃
      have hrs : Rely m i s t₃ := (hr.trans hr₁).trans hr'
      refine Proto.wp_seq (insertNew_wp hreq (hs.rely hrs) (hun.rely hrs hs) ?_ ?_ ?_)
      · intro t₄ hr₄
        refine ⟨⟨verified, now, ids, rfl, fun hsome => ?_⟩, fun ha hup => ?_⟩
        · obtain ⟨v, rfl⟩ := Option.isSome_iff_exists.mp hsome
          exact (hlend v rfl).sha256
        · cases verified with
          | none => cases hup
          | some v => exact ((hlend v rfl).rely (hr'.trans hr₄)).stored ha
      · intro t₄ t₅ hr₄ hknown hmap happs
        simp only [if_true]
        refine dispatchAndRespond_wp hknown newCapture_fit (fun p' hp' => ?_) hmap
        rw [← Option.some.inj hp']
        intro hfrozen
        have hn := ((hnamed.rely hr₁).rely hr').rely hr₄ hfrozen
        rw [← happs] at hn
        exact hn
      · intro t₄ hr₄
        exact recoverCreate_wp hreq ((hs.rely hrs).rely hr₄).uncommitted

theorem create_wp {data : CaptureCreate} {key : Uuid} (hreq : req = .create data key)
    (hfree : ∀ k, s.locks k ≠ some i) (huncom : .committed i ∉ s.history) :
    (captureProto m settings req).wp exec i (create settings data key)
      (Answered settings data key) (Raised m i) s := by
  have hX := raised_of_infrastructure m i
  refine lookupKey_wp hreq hfree huncom ?_ ?_
  · exact fun t k hl hk hkey => resumeMapped_wp hreq hl hk hkey
  · intro t hl hun
    simp only
    split
    · exact ⟨fun _ => hl.uncommitted, fun _ => nofun⟩
    · refine Proto.wp_seq (wp_lockObject (by rw [hreq]; trivial) (hX _) hl fun t₁ hr₁ hl₁ => ?_)
      have hun₁ := (hun.rely hr₁ hl).withLock (i := i)
        (.object (objectKeyFor data.sha256 data.captureFormat))
      refine Proto.wp_seq (getLogical_wp (hX _) hreq (fun t₂ c hr₂ hrow => ?_) fun t₂ hr₂ => ?_)
      · exact reuseLogical_wp hreq (hl₁.rely hr₂) (hun₁.rely hr₂ hl₁) hrow
      · exact createFresh_wp hreq (hl₁.rely hr₂) (hun₁.rely hr₂ hl₁)

end Processes

end Sahabino
