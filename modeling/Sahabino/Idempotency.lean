import Sahabino.Lifecycle

/-!
# Idempotent creation

What the concurrent `create` calls agree on. A key is looked up and bound
under its own lock, and a row of the key table is never changed, so every
call that answers for a key answers from the one capture it is bound to;
a call for a bound key with another request cannot get past the comparison
of the fingerprints; and a call that is turned away has not committed
anything (`create_idempotent`).

The fingerprint is a hash. What is assumed of it is that it tells the
requests that are made apart (`requests`), not all requests there are.
-/

namespace Sahabino

open Conc

/-! ## What persists -/

/-- Rows keep their identities, bindings and events stay. -/
structure Persists (s s' : Backend) : Prop where
  rows : ∀ c ∈ s.captures.rows, ∃ c' ∈ s'.captures.rows,
    c'.toCaptureIdentity = c.toCaptureIdentity
  keys : ∀ k ∈ s.idempotencyKeys.rows, k ∈ s'.idempotencyKeys.rows
  history : ∀ h ∈ s.history, h ∈ s'.history

theorem Persists.refl (s : Backend) : Persists s s :=
  ⟨fun c hc => ⟨c, hc, rfl⟩, fun _ hk => hk, fun _ hh => hh⟩

theorem Persists.trans {s s' s'' : Backend} (h : Persists s s') (h' : Persists s' s'') :
    Persists s s'' := by
  refine ⟨fun c hc => ?_, fun k hk => h'.keys k (h.keys k hk),
    fun x hx => h'.history x (h.history x hx)⟩
  obtain ⟨c₁, hc₁, hid₁⟩ := h.rows c hc
  obtain ⟨c₂, hc₂, hid₂⟩ := h'.rows c₁ hc₁
  exact ⟨c₂, hc₂, hid₂.trans hid₁⟩

theorem Rely.persists {m : Mode} {j : Nat} {s s' : Backend} (h : Rely m j s s') :
    Persists s s' := by
  refine ⟨fun c hc => ?_, h.keys, h.history⟩
  obtain ⟨c', hc', hid, -⟩ := h.rows c hc
  exact ⟨c', hc', hid⟩

theorem persists_of_reach {settings : Settings} {seed : Seed}
    {allow : CaptureLabel → CaptureWorld → Prop} {w w' : CaptureWorld}
    (hw : (captureSystem settings).Reach allow (initialWorld seed) w)
    (hw' : (captureSystem settings).Reach allow w w') : Persists w.shared w'.shared := by
  induction hw' with
  | refl => exact Persists.refl _
  | @step l w₁ w₂ hw₁ _ hstep ih =>
      have hsound := captureDiscipline_sound (m := Mode.pool) not_false settings
      have hok := ok_of_anyStep ((hw.trans hw₁).mono fun _ _ _ => trivial)
      have hall := pool_allows settings l w₁
      refine ih.trans ?_
      rcases System.step_cases hstep with ⟨r, rfl, rfl⟩ |
        ⟨i, e, r, c, k, v, s, rfl, hi, hx, rfl⟩ | ⟨i, r, p, rfl, hi, rfl⟩ | ⟨x, s, rfl, hx, rfl⟩
      · exact Persists.refl _
      · exact ((hsound.exec hok.inv (hok.issued hsound hi) (hall r c k hi) hx).2 (i + 1)
          (Nat.succ_ne_self i)).persists
      · exact ((hsound.crash hok.inv).2 (i + 1) (Nat.succ_ne_self i)).persists
      · exact ((hsound.ext hok.inv hall hx).2 0).persists

theorem Answered.persists {settings : Settings} {data : CaptureCreate} {key : Uuid}
    {response : CaptureCreateResponse} {s s' : Backend} (hp : Persists s s')
    (h : Answered settings data key response s) : Answered settings data key response s' := by
  obtain ⟨c, hc, ⟨k, hk, hkey, hfp, hkc⟩, h₁, h₂, h₃⟩ := h
  obtain ⟨c', hc', hid⟩ := hp.rows c hc
  refine ⟨c', hc', ⟨k, hp.keys k hk, hkey, hfp, ?_⟩, ?_, ?_, ?_⟩
  · rw [hkc, ← hid]
  · rw [h₁, ← hid]
  · rw [h₂, ← hid]
  · rw [h₃, ← hid]

/-- Two calls that answer for one key answer from the same row. -/
theorem Answered.same {settings : Settings} {data data' : CaptureCreate} {key : Uuid}
    {response response' : CaptureCreateResponse} {s : Backend}
    (h : Answered settings data key response s) (h' : Answered settings data' key response' s) :
    requestFingerprint settings data = requestFingerprint settings data' ∧
    response.captureId = response'.captureId ∧ response.analysisId = response'.analysisId ∧
      response.readyEventId = response'.readyEventId := by
  obtain ⟨c, hc, ⟨k, hk, hkey, hfp, hkc⟩, h₁, h₂, h₃⟩ := h
  obtain ⟨c', hc', ⟨k', hk', hkey', hfp', hkc'⟩, h₁', h₂', h₃'⟩ := h'
  obtain rfl := s.idempotencyKeys.eq_of_key hk hk' (hkey.trans hkey'.symm)
  obtain rfl := s.captures.eq_of_id hc hc' (hkc.symm.trans hkc')
  exact ⟨hfp.symm.trans hfp', h₁.trans h₁'.symm, h₂.trans h₂'.symm, h₃.trans h₃'.symm⟩

/-! ## The requests that are made -/

def Request.within (requests : CaptureCreate → Prop) : Request → Prop
  | .create data _ => requests data
  | _ => True

/-- The `create` calls that are made are among these. -/
def createsWithin (requests : CaptureCreate → Prop) : CaptureLabel → CaptureWorld → Prop
  | .spawn r, _ => r.within requests
  | _, _ => True

def Mode.within (requests : CaptureCreate → Prop) : Mode :=
  { Mode.pool with extra := fun req _ _ _ _ => req.within requests }

/-- Along such a run every session serves such a request. -/
theorem within_of_reach {settings : Settings} {requests : CaptureCreate → Prop}
    {w w' : CaptureWorld} (hw : ∀ x ∈ w.sessions, x.req.within requests)
    (h : (captureSystem settings).Reach (createsWithin requests) w w') :
    (∀ x ∈ w'.sessions, x.req.within requests) ∧ (captureSystem settings).Reach
      (captureDiscipline (Mode.within requests) settings).Allows w w' := by
  induction h with
  | refl => exact ⟨hw, .refl⟩
  | @step l w₁ w₂ _ hl hstep ih =>
      obtain ⟨hreqs, hreach⟩ := ih
      have hallow : (captureDiscipline (Mode.within requests) settings).Allows l w₁ := by
        cases l with
        | spawn r => trivial
        | run i e =>
            intro r c k hi
            exact ⟨hreqs _ (List.mem_of_getElem? hi), fun h => h.elim, fun h => h.elim, nofun⟩
        | crash i => trivial
        | ext x => exact ⟨trivial, fun _ _ _ _ h => h.elim⟩
      refine ⟨?_, hreach.step hallow hstep⟩
      rcases System.step_cases hstep with ⟨r, rfl, rfl⟩ |
        ⟨i, e, r, c, k, v, s, rfl, hi, -, rfl⟩ | ⟨i, r, p, rfl, hi, rfl⟩ | ⟨x, s, rfl, -, rfl⟩
      · intro x hx
        rcases List.mem_append.mp hx with hx | hx
        · exact hreqs x hx
        · rw [List.mem_singleton.mp hx]
          exact hl
      · intro x hx
        rcases List.mem_or_eq_of_mem_set hx with hx | rfl
        · exact hreqs x hx
        · have hr := hreqs _ (List.mem_of_getElem? hi)
          exact hr
      · intro x hx
        rcases List.mem_or_eq_of_mem_set hx with hx | rfl
        · exact hreqs x hx
        · have hr := hreqs _ (List.mem_of_getElem? hi)
          exact hr
      · exact hreqs

/-- The key is bound by this request. -/
def BoundBy (settings : Settings) (data : CaptureCreate) (key : Uuid) (s : Backend) : Prop :=
  ∃ k ∈ s.idempotencyKeys.rows, k.idempotencyKey = key ∧
    k.requestFingerprint = requestFingerprint settings data

/-- Every binding is one of the requests'. -/
def BindingsMade (settings : Settings) (requests : CaptureCreate → Prop) (s : Backend) : Prop :=
  ∀ k ∈ s.idempotencyKeys.rows, ∃ data, requests data ∧
    k.requestFingerprint = requestFingerprint settings data

/-- Only commits write the key table. -/
theorem Effect.keys {i : Nat} {now : Timestamp} {s s' : Backend} {c : Cmd}
    (h : Effect i now s c s') : s'.idempotencyKeys = s.idempotencyKeys ∨
      ∃ work, c = .commit work ∧ ∀ k, k ∈ s'.idempotencyKeys.rows ↔
        k ∈ s.idempotencyKeys.rows ∨ work.insertKey = some k := by
  cases h with
  | idle => exact Or.inl rfl
  | locked key _ => exact Or.inl rfl
  | committed work s₁ hf =>
      obtain ⟨captures, keys, rfl, -, hkeys⟩ := Backend.flush_ok hf
      exact Or.inr ⟨work, rfl, hkeys⟩
  | rolledBack => exact Or.inl rfl
  | deleted objectKey => exact Or.inl rfl
  | readyPublished event => exact Or.inl rfl
  | analysisSent event => exact Or.inl rfl
  | analysisPublished event => exact Or.inl rfl
  | attempted u _ =>
      obtain ⟨events, heq, -⟩ := u.run_frame i now s
      rw [heq]
      exact Or.inl rfl

theorem bindingsMade_of_reach {settings : Settings} {seed : Seed}
    {requests : CaptureCreate → Prop} {w : CaptureWorld}
    (h : (captureSystem settings).Reach (createsWithin requests) (initialWorld seed) w) :
    BindingsMade settings requests w.shared := by
  have hno : ∀ x ∈ (initialWorld seed).sessions, x.req.within requests :=
    fun x hx => absurd hx List.not_mem_nil
  refine (captureDiscipline_sound (m := Mode.within requests) not_false settings).always
    (J := BindingsMade settings requests) ?_ (fun _ hs => hs) ?_
    (ok_initialWorld _ settings seed) (fun _ hk => absurd hk List.not_mem_nil)
    (within_of_reach hno h).2
  · intro r i c e v s s' _ hp ha hx hs k hk
    rcases (exec_effect hx).keys with hsame | ⟨work, rfl, hkeys⟩
    · exact hs k (hsame ▸ hk)
    · rcases (hkeys k).mp hk with hk | hnew
      · exact hs k hk
      · obtain ⟨data, hreq, hfp⟩ := (CommitOk.key hp k hnew).request
        have hin : r.within requests := ha.extra
        rw [hreq] at hin
        exact ⟨data, hin, hfp⟩
  · intro x s s' _ _ hx hs
    rw [BindingsMade, (external_frame hx).2.1]
    exact hs

/-! ## A bound key and another request -/

theorem BoundBy.rely {m : Mode} {i : Nat} {settings : Settings} {data : CaptureCreate}
    {key : Uuid} {s s' : Backend} (hr : Rely m i s s') (h : BoundBy settings data key s) :
    BoundBy settings data key s' := by
  obtain ⟨k, hk, hkey, hfp⟩ := h
  exact ⟨k, hr.keys k hk, hkey, hfp⟩

/-- The ends of a call that must not get through. -/
def Refused (e : CaptureError) : Prop := e = .idempotencyConflict ∨ e.infrastructure = true

/-- The mapping that is found carries the other fingerprint. -/
theorem BoundBy.fingerprint_ne {settings : Settings} {data data₀ : CaptureCreate} {key : Uuid}
    {s : Backend} (h : BoundBy settings data₀ key s)
    (hne : requestFingerprint settings data ≠ requestFingerprint settings data₀)
    {k : NetworkCaptureIdempotencyKey} (hk : k ∈ s.idempotencyKeys.rows)
    (hkey : k.idempotencyKey = key) :
    k.requestFingerprint ≠ requestFingerprint settings data := by
  obtain ⟨k₀, hk₀, hkey₀, hfp₀⟩ := h
  obtain rfl := s.idempotencyKeys.eq_of_key hk hk₀ (hkey.trans hkey₀.symm)
  rw [hfp₀]
  exact Ne.symm hne

theorem create_refused_wp {m : Mode} {settings : Settings} {i : Nat} {s : Backend}
    {data data₀ : CaptureCreate} {key : Uuid} (hbound : BoundBy settings data₀ key s)
    (hne : requestFingerprint settings data ≠ requestFingerprint settings data₀)
    (hfree : ∀ k, s.locks k ≠ some i) :
    (captureProto m settings (.create data key)).wp exec i (create settings data key)
      (fun _ _ => False) (fun e _ => Refused e) s := by
  have hX : ∀ t, Tolerates t (fun e _ => Refused e) := fun _ _ _ hinfra _ => Or.inr hinfra
  refine Proto.wp_seq (wp_lock (hX _) fun t hr _ => ⟨⟨⟨data, rfl⟩, fun k hk => ?_⟩, ?_⟩)
  · exact hfree k ((hr.locks k).mp hk)
  · have hbound₀ := hbound.rely hr
    have hbound₁ : BoundBy settings data₀ key (t.withLock i (.idempotency key)) := hbound₀
    refine Proto.wp_seq (getIdempotencyKey_wp (hX _) (fun t₁ k hr₁ hk hkey => ?_)
      fun t₁ hr₁ hun => ?_)
    · have hfp := (hbound₁.rely hr₁).fingerprint_ne hne hk hkey
      simp only [resumeMapped, if_pos hfp]
      exact Or.inl rfl
    · obtain ⟨k, hk, hkey, -⟩ := hbound₁.rely hr₁
      exact absurd hkey (hun k hk)

theorem serve_refused_wp {m : Mode} {settings : Settings} {i : Nat} {s : Backend}
    {data data₀ : CaptureCreate} {key : Uuid} (hbound : BoundBy settings data₀ key s)
    (hne : requestFingerprint settings data ≠ requestFingerprint settings data₀)
    (hfree : ∀ k, s.locks k ≠ some i) :
    (captureProto m settings (.create data key)).wp exec i (serve settings (.create data key))
      (fun _ _ => False) (fun e _ => Refused e) s := by
  have hX : ∀ t, Tolerates t (fun e _ => Refused e) := fun _ _ _ hinfra _ => Or.inr hinfra
  refine Proto.wp_seq (Proto.wp_ensure.mpr (Proto.wp_mono (fun _ _ h => h.elim)
    (fun e t he => ?_) (create_refused_wp hbound hne hfree)))
  exact wp_rollback fun _ _ _ => he

/-- Such a call ends: with the key's lock to be had and no call failing, it takes
the lock, looks the key up and raises, and no table changes. -/
theorem create_refused_run {settings : Settings} {i : Nat} {s : Backend}
    {data data₀ : CaptureCreate} {key : Uuid} (hbound : BoundBy settings data₀ key s)
    (hne : requestFingerprint settings data ≠ requestFingerprint settings data₀)
    (hlock : s.locks (.idempotency key) = none) {e₁ e₂ e₃ : Env} (h₁ : e₁.fault = .none)
    (h₂ : e₂.fault = .none) (h₃ : e₃.fault = .none) :
    ∃ s', solo exec i [e₁, e₂, e₃] (serve settings (.create data key)) s =
        some (.error .idempotencyConflict, s') ∧
      s'.captures = s.captures ∧ s'.idempotencyKeys = s.idempotencyKeys := by
  obtain ⟨k, hk, hkey, -⟩ := id hbound
  have hfind := s.idempotencyKeys.find_key hk
  rw [hkey] at hfind
  have hfp := hbound.fingerprint_ne hne hk hkey
  have hlocked : exec i e₁ (.lock (.idempotency key)) s =
      some (.ok (), s.withLock i (.idempotency key)) := by
    simp [exec, h₁, perform, hlock, acknowledge, Backend.withLock]
  have hlookup : exec i e₂ (.query (.getIdempotencyKey key))
      (s.withLock i (.idempotency key)) = some (.ok (some k), s.withLock i (.idempotency key)) := by
    simp [exec, h₂, perform, Query.answer, acknowledge, Backend.withLock, hfind]
  have hend : exec i e₃ .rollback (s.withLock i (.idempotency key)) =
      some (.ok (), (s.withLock i (.idempotency key)).releaseLocks i) := by
    simp [exec, h₃, perform, acknowledge]
  refine ⟨(s.withLock i (.idempotency key)).releaseLocks i, ?_, rfl, rfl⟩
  have hresume : resumeMapped settings data k = Prog.raise .idempotencyConflict := by
    simp only [resumeMapped, if_pos hfp]
  have hraise : ∀ f : CaptureCreateResponse → Process Reply,
      solo exec i [e₃] (((resumeMapped settings data k).ensure (issue .rollback)).bind f)
        (s.withLock i (.idempotency key)) =
      some (.error .idempotencyConflict, (s.withLock i (.idempotency key)).releaseLocks i) := by
    intro f
    rw [hresume]
    exact solo_call hend
  exact (solo_call hlocked).trans ((solo_call hlookup).trans (hraise _))

/-! ## Rejected calls -/

/-- A `create` call that writes commits. -/
theorem create_tables {m : Mode} {settings : Settings} {data : CaptureCreate} {key : Uuid}
    {i : Nat} {c : Cmd} {e : Env} {v : Except CaptureError c.Answer} {s s' : Backend}
    (hp : Issued m settings (.create data key) i c s) (h : exec i e c s = some (v, s')) :
    (s'.captures = s.captures ∧ s'.idempotencyKeys = s.idempotencyKeys) ∨
      .committed i ∈ s'.history := by
  cases exec_effect h with
  | idle => exact Or.inl ⟨rfl, rfl⟩
  | locked key _ => exact Or.inl ⟨rfl, rfl⟩
  | committed work s₁ hf => exact Or.inr (List.mem_append_right _ (List.mem_singleton.mpr rfl))
  | rolledBack => exact Or.inl ⟨rfl, rfl⟩
  | deleted objectKey => exact Or.inl ⟨rfl, rfl⟩
  | readyPublished event => exact Or.inl ⟨rfl, rfl⟩
  | analysisSent event => exact Or.inl ⟨rfl, rfl⟩
  | analysisPublished event => exact Or.inl ⟨rfl, rfl⟩
  | attempted u _ => cases hp.1

/-! ## Idempotent creation -/

/-- What holds of all runs in which the `create` calls are among `requests`. -/
structure CreateIdempotent (settings : Settings) (seed : Seed)
    (requests : CaptureCreate → Prop) : Prop where
  /-- A binding stays, and is the only one of its key from then on. -/
  binding : ∀ w, (captureSystem settings).Reach (createsWithin requests) (initialWorld seed) w →
    ∀ w', (captureSystem settings).Reach (createsWithin requests) w w' →
    ∀ k ∈ w.shared.idempotencyKeys.rows, k ∈ w'.shared.idempotencyKeys.rows ∧
      ∀ k' ∈ w'.shared.idempotencyKeys.rows, k'.idempotencyKey = k.idempotencyKey → k' = k
  /-- It was made by one of the requests. -/
  bound : ∀ w, (captureSystem settings).Reach (createsWithin requests) (initialWorld seed) w →
    ∀ k ∈ w.shared.idempotencyKeys.rows, ∃ data, requests data ∧
      BoundBy settings data k.idempotencyKey w.shared
  /-- Calls that return for one key return the same identities. -/
  answers : ∀ w, (captureSystem settings).Reach (createsWithin requests) (initialWorld seed) w →
    ∀ w', (captureSystem settings).Reach (createsWithin requests) w w' →
    ∀ (i j : Nat) (data data' : CaptureCreate) (key : Uuid)
      (response response' : CaptureCreateResponse),
      w.sessions[i]? = some ⟨.create data key, some (.ret (.created response))⟩ →
      w'.sessions[j]? = some ⟨.create data' key, some (.ret (.created response'))⟩ →
      canonicalRequest data = canonicalRequest data' ∧
      response.captureId = response'.captureId ∧ response.analysisId = response'.analysisId ∧
        response.readyEventId = response'.readyEventId
  /-- A call for a key that another request has bound never returns: it ends with
  the conflict, unless a call of its own fails. -/
  refused : ∀ w, (captureSystem settings).Reach (createsWithin requests) (initialWorld seed) w →
    ∀ data₀ data key, requests data₀ → requests data → BoundBy settings data₀ key w.shared →
    canonicalRequest data ≠ canonicalRequest data₀ →
    ∀ w₁ w', (captureSystem settings).step (.spawn (.create data key)) w = some w₁ →
    (captureSystem settings).Reach (createsWithin requests) w₁ w' →
    ∃ p, w'.sessions[w.sessions.length]? = some ⟨.create data key, p⟩ ∧
      (∀ reply, p ≠ some (.ret reply)) ∧ ∀ e, p = some (.raise e) → Refused e
  /-- And it does end, once the key's lock is free. -/
  raises : ∀ w, (captureSystem settings).Reach (createsWithin requests) (initialWorld seed) w →
    ∀ data₀ data key, requests data₀ → requests data → BoundBy settings data₀ key w.shared →
    canonicalRequest data ≠ canonicalRequest data₀ →
    w.shared.locks (.idempotency key) = none →
    ∀ (i : Nat) (e₁ e₂ e₃ : Env), e₁.fault = .none → e₂.fault = .none → e₃.fault = .none →
    ∃ s', solo exec i [e₁, e₂, e₃] (serve settings (.create data key)) w.shared =
      some (.error .idempotencyConflict, s') ∧
      s'.captures = w.shared.captures ∧ s'.idempotencyKeys = w.shared.idempotencyKeys
  logical : ∀ w, (captureSystem settings).Reach (createsWithin requests) (initialWorld seed) w →
    ∀ c ∈ w.shared.captures.rows, ∀ c' ∈ w.shared.captures.rows, c.logical = c'.logical → c = c'
  /-- A rejected call has changed no row and bound no key. -/
  rejected : ∀ w₁, (captureSystem settings).Reach (createsWithin requests) (initialWorld seed) w₁ →
    ∀ (i : Nat) (e : Env) (w₂ w : CaptureWorld),
    (captureSystem settings).step (.run i e) w₁ = some w₂ →
    (captureSystem settings).Reach (createsWithin requests) w₂ w →
    ∀ (data : CaptureCreate) (key : Uuid) (error : CaptureError),
    w.sessions[i]? = some ⟨.create data key, some (.raise error)⟩ →
    error.rejected = true → w₂.shared.captures = w₁.shared.captures ∧
      w₂.shared.idempotencyKeys = w₁.shared.idempotencyKeys

/-- A returned `create` call has answered. -/
theorem answered_of_reach {settings : Settings} {seed : Seed} {w : CaptureWorld}
    (hw : (captureSystem settings).Reach anyStep (initialWorld seed) w) {i : Nat}
    {data : CaptureCreate} {key : Uuid} {response : CaptureCreateResponse}
    (hi : w.sessions[i]? = some ⟨.create data key, some (.ret (.created response))⟩) :
    Answered settings data key response w.shared := by
  obtain ⟨response', heq, hans⟩ := (ok_of_anyStep hw).returned hi data key rfl
  obtain rfl := Reply.created.inj heq
  exact hans

theorem create_rejected {settings : Settings} {seed : Seed}
    {allow : CaptureLabel → CaptureWorld → Prop} {w₁ w₂ w : CaptureWorld} {i : Nat} {e : Env}
    (hw₁ : (captureSystem settings).Reach allow (initialWorld seed) w₁)
    (hl : allow (.run i e) w₁) (hstep : (captureSystem settings).step (.run i e) w₁ = some w₂)
    (hw : (captureSystem settings).Reach allow w₂ w) {data : CaptureCreate} {key : Uuid}
    {error : CaptureError}
    (hi : w.sessions[i]? = some ⟨.create data key, some (.raise error)⟩)
    (hrej : error.rejected = true) : w₂.shared.captures = w₁.shared.captures ∧
      w₂.shared.idempotencyKeys = w₁.shared.idempotencyKeys := by
  have hany : ∀ l w, allow l w → anyStep l w := fun _ _ _ => trivial
  have hw₂ := hw₁.step hl hstep
  have hun := ((ok_of_anyStep ((hw₂.trans hw).mono hany)).raised hi).1 hrej
  have hok := ok_of_anyStep (hw₁.mono hany)
  rcases System.step_cases hstep with ⟨r, heq, -⟩ | ⟨j, e', r, c, k, v, s, heq, hj, hx, rfl⟩ |
    ⟨j, r, p, heq, -⟩ | ⟨x, s, heq, -⟩
  · cases heq
  · obtain ⟨rfl, rfl⟩ := Label.run.injEq .. |>.mp heq
    -- the session has served this request all along
    obtain ⟨p, hp⟩ := ((System.Reach.refl (M := captureSystem settings)).step hl hstep
      |>.trans hw).req hj
    obtain ⟨rfl, -⟩ := Session.mk.injEq .. |>.mp (Option.some.inj (hp.symm.trans hi))
    have hissued := hok.issued (captureDiscipline_sound not_false settings) hj
    rcases create_tables hissued hx with hsame | hcom
    · exact hsame
    · exact absurd ((persists_of_reach hw₂ hw).history _ hcom) hun
  · cases heq
  · cases heq

theorem create_idempotent (settings : Settings) (seed : Seed) (requests : CaptureCreate → Prop)
    (hinj : ∀ data data', requests data → requests data' →
      requestFingerprint settings data = requestFingerprint settings data' →
        canonicalRequest data = canonicalRequest data') :
    CreateIdempotent settings seed requests := by
  have hany : ∀ l w, createsWithin requests l w → anyStep l w := fun _ _ _ => trivial
  have hno : ∀ x ∈ (initialWorld seed).sessions, x.req.within requests :=
    fun x hx => absurd hx List.not_mem_nil
  refine ⟨fun w hw w' hw' k hk => ?_, fun w hw k hk => ?_,
    fun w hw w' hw' i j data data' key response response' hi hj => ?_,
    fun w hw data₀ data key hd₀ hd hbound hne w₁ w' hstep hw' => ?_,
    fun w hw data₀ data key hd₀ hd hbound hne hlock i e₁ e₂ e₃ h₁ h₂ h₃ => ?_,
    fun w hw c hc c' hc' heq => ?_,
    fun w₁ hw₁ i e w₂ w hstep hw data key error hi hrej => ?_⟩
  · have hk' := (persists_of_reach hw hw').keys k hk
    exact ⟨hk', fun k' hmem hkey => w'.shared.idempotencyKeys.eq_of_key hmem hk' hkey⟩
  · obtain ⟨data, hd, hfp⟩ := bindingsMade_of_reach hw k hk
    exact ⟨data, hd, k, hk, rfl, hfp⟩
  · have hans := (answered_of_reach (hw.mono hany) hi).persists (persists_of_reach hw hw')
    obtain ⟨hfp, hids⟩ := hans.same (answered_of_reach ((hw.trans hw').mono hany) hj)
    have hreqs := (within_of_reach hno hw).1 _ (List.mem_of_getElem? hi)
    have hreqs' := (within_of_reach hno (hw.trans hw')).1 _ (List.mem_of_getElem? hj)
    exact ⟨hinj _ _ hreqs hreqs' hfp, hids⟩
  · have hfp : requestFingerprint settings data ≠ requestFingerprint settings data₀ :=
      fun h => hne (hinj _ _ hd hd₀ h)
    have hsound := captureDiscipline_sound (m := Mode.within requests) not_false settings
    obtain ⟨hreqs, hallows⟩ := within_of_reach hno hw
    have hok := hsound.ok_of_reach (ok_initialWorld _ settings seed) hallows
    have hok₁ := hsound.ok_step hok (l := .spawn (.create data key)) trivial hstep
    obtain rfl := Option.some.inj hstep
    have hreqs₁ : ∀ x ∈ w.sessions ++
        [⟨.create data key, some (serve settings (.create data key))⟩],
        x.req.within requests := by
      intro x hx
      rcases List.mem_append.mp hx with hx | hx
      · exact hreqs x hx
      · rw [List.mem_singleton.mp hx]
        exact hd
    have hwp := serve_refused_wp (m := Mode.within requests) (i := w.sessions.length) hbound hfp
      (hok.fresh _ (Nat.le_refl _)).1
    obtain ⟨p, hp, hlive⟩ := hsound.wp_of_reach (fun _ h => h) (fun _ h => h) hok₁
      (List.getElem?_concat_length ..) hwp (within_of_reach hreqs₁ hw').2
    refine ⟨p, hp, fun reply hret => ?_, fun e hraise => ?_⟩
    · exact hlive _ hret
    · exact hlive _ hraise
  · exact create_refused_run hbound (fun h => hne (hinj _ _ hd hd₀ h)) hlock h₁ h₂ h₃
  · exact w.shared.captures.eq_of_clash CaptureClash.symm hc hc'
      (Or.inr (Or.inr (Or.inr (Or.inr heq))))
  · exact create_rejected hw₁ trivial hstep hw hi hrej

namespace Sample

/-- The request of the other runs, for a larger file. -/
def largerData : CaptureCreate :=
  { data .upload with captureSizeBytes := 200, captureSize_pos := by decide }

end Sample

theorem create_idempotent_two_sizes : CreateIdempotent Sample.settings Sample.seed
    fun data => data = Sample.data .upload ∨ data = Sample.largerData := by
  refine create_idempotent _ _ _ fun data data' hd hd' hfp => ?_
  rcases hd with rfl | rfl
  · rcases hd' with rfl | rfl
    · rfl
    · exact absurd hfp (by decide +kernel)
  · rcases hd' with rfl | rfl
    · exact absurd hfp (by decide +kernel)
    · rfl

end Sahabino
