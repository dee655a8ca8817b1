import Sahabino.Lifecycle

/-!
# Fencing of the analyzer attempts

An attempt owns a capture as long as the row says `analyzing` with the
attempt's own start time. Nothing else ties a worker to the row, so the
history of claims is what ownership has to be measured against: in every
reachable world the start time of an `analyzing` row is the one of its last
successful claim (`ClaimsKept.started`), whatever the other operations wrote
in between. With distinct start times this makes the conditional updates of
a superseded worker no-ops (`analyzer_fenced`).
-/

namespace Sahabino

open Conc

/-! ## Claims on record -/

/-- The session and the start time of a claim on this capture. -/
def HistoryEvent.claimOn (captureId : Uuid) : HistoryEvent → Option (Nat × Timestamp)
  | .claimed i id t => if id = captureId then some (i, t) else none
  | _ => none

/-- The successful claims on a capture, in order. -/
def claimsOf (captureId : Uuid) (history : List HistoryEvent) : List (Nat × Timestamp) :=
  history.filterMap (HistoryEvent.claimOn captureId)

theorem claimsOf_append (captureId : Uuid) (h h' : List HistoryEvent) :
    claimsOf captureId (h ++ h') = claimsOf captureId h ++ claimsOf captureId h' :=
  List.filterMap_append

theorem claimsOf_claimed (captureId id : Uuid) (h : List HistoryEvent) (i : Nat)
    (t : Timestamp) : claimsOf captureId (h ++ [.claimed i id t]) =
      claimsOf captureId h ++ if id = captureId then [(i, t)] else [] := by
  rw [claimsOf_append]
  congr 1
  by_cases hid : id = captureId
  · simp [claimsOf, HistoryEvent.claimOn, hid]
  · simp [claimsOf, HistoryEvent.claimOn, hid]

theorem mem_claimsOf {captureId : Uuid} {h : List HistoryEvent} {i : Nat} {t : Timestamp} :
    (i, t) ∈ claimsOf captureId h ↔ .claimed i captureId t ∈ h := by
  simp only [claimsOf, List.mem_filterMap]
  constructor
  · rintro ⟨event, hmem, heq⟩
    cases event with
    | claimed j id t' =>
        simp only [HistoryEvent.claimOn] at heq
        split at heq
        · rename_i hid
          obtain ⟨rfl, rfl⟩ := Prod.mk.injEq .. |>.mp (Option.some.inj heq)
          rwa [← hid]
        · cases heq
    | committed j => cases heq
    | analysisPublished eventId => cases heq
  · intro hmem
    exact ⟨_, hmem, by simp [HistoryEvent.claimOn]⟩

/-! ## The invariant -/

/-- What a row says about the claims on it. -/
structure ClaimsOfRow (history : List HistoryEvent) (c : NetworkCapture) : Prop where
  count : c.analysisAttemptCount = (claimsOf c.id history).length
  started : c.status = .analyzing →
    ∃ i t, (claimsOf c.id history).getLast? = some (i, t) ∧ c.analysisStartedAt = some t
  published : c.status = .analyzed → .analysisPublished c.analysisEventId ∈ history

structure ClaimsKept (s : Backend) : Prop where
  rows : ∀ c ∈ s.captures.rows, ClaimsOfRow s.history c
  known : ∀ i id t, .claimed i id t ∈ s.history → ∃ c ∈ s.captures.rows, c.id = id

/-- Rows survive what the history gains besides claims on them. -/
theorem ClaimsOfRow.of_history {h h' : List HistoryEvent} {c : NetworkCapture}
    (hc : ClaimsOfRow h c) (hsub : ∀ x ∈ h, x ∈ h') (hsame : claimsOf c.id h' = claimsOf c.id h) :
    ClaimsOfRow h' c :=
  ⟨hsame ▸ hc.count, hsame ▸ hc.started, fun hst => hsub _ (hc.published hst)⟩

/-- No move counts or analyzes, and the one that takes a start time back also
leaves `pending_upload` behind. -/
theorem Move.attempt_columns {m : Mode} {s : Backend} {c c' : NetworkCapture}
    (h : Move m s c c') :
    c'.analysisAttemptCount = c.analysisAttemptCount ∧
    (c'.status = c.status ∨ (c'.status ≠ .analyzing ∧ c'.status ≠ .analyzed)) ∧
    (c'.analysisStartedAt = c.analysisStartedAt ∨
      (c'.status ≠ c.status ∧ c'.status = .pendingUpload)) := by
  cases h with
  | reopen h =>
      obtain ⟨hst, rfl⟩ := NetworkCapture.reopenExpired_eq h
      exact ⟨rfl, Or.inr ⟨nofun, nofun⟩, Or.inr ⟨by rw [hst]; exact nofun, rfl⟩⟩
  | upload now _ _ => exact ⟨rfl, Or.inr ⟨nofun, nofun⟩, Or.inl rfl⟩
  | expire code message _ => exact ⟨rfl, Or.inr ⟨nofun, nofun⟩, Or.inl rfl⟩
  | retry _ _ => exact ⟨rfl, Or.inr ⟨nofun, nofun⟩, Or.inl rfl⟩
  | delete _ _ => exact ⟨rfl, Or.inl rfl, Or.inl rfl⟩

/-- A written-back row counts what it counted, and is only left in an
attempt's hands if it was there, with the same start time. -/
theorem Move.writeBack_claims {m : Mode} {s : Backend} {c c' r : NetworkCapture}
    {history : List HistoryEvent} (h : Move m s c c') (hr : ClaimsOfRow history r) :
    ClaimsOfRow history (c.writeBack c' r) := by
  obtain ⟨hcount, hstatus, hstarted⟩ := h.attempt_columns
  have hst : (c.writeBack c' r).status = pickColumn c.status c'.status r.status := rfl
  have hstart : (c.writeBack c' r).analysisStartedAt =
      pickColumn c.analysisStartedAt c'.analysisStartedAt r.analysisStartedAt := rfl
  have hkept : (c.writeBack c' r).status = .analyzing ∨ (c.writeBack c' r).status = .analyzed →
      c'.status = c.status ∧ (c.writeBack c' r).status = r.status := by
    intro hlive
    rw [hst] at hlive ⊢
    unfold pickColumn at hlive ⊢
    split
    · rename_i heq
      exact ⟨heq, rfl⟩
    · rename_i hne
      rw [if_neg hne] at hlive
      rcases hstatus with heq | ⟨h₁, h₂⟩
      · exact absurd heq hne
      · rcases hlive with hl | hl
        · exact absurd hl h₁
        · exact absurd hl h₂
  refine ⟨?_, fun hlive => ?_, fun hlive => ?_⟩
  · have hcol : (c.writeBack c' r).analysisAttemptCount = pickColumn c.analysisAttemptCount
        c'.analysisAttemptCount r.analysisAttemptCount := rfl
    rw [hcol, pickColumn, if_pos hcount]
    exact hr.count
  · obtain ⟨hsame, hrow⟩ := hkept (Or.inl hlive)
    rw [hrow] at hlive
    obtain ⟨i, t, hlast, ht⟩ := hr.started hlive
    refine ⟨i, t, hlast, ?_⟩
    rcases hstarted with heq | ⟨hne, -⟩
    · rw [hstart, pickColumn, if_pos heq]
      exact ht
    · exact absurd hsame hne
  · obtain ⟨-, hrow⟩ := hkept (Or.inr hlive)
    exact hr.published (hrow ▸ hlive)

theorem NewRow.claims {m : Mode} {data : CaptureCreate} {c : NetworkCapture} {s : Backend}
    {history : List HistoryEvent} (h : NewRow m data c s) (now : Timestamp)
    (hnone : claimsOf c.id history = []) :
    ClaimsOfRow history { c with createdAt := now } := by
  have hcount : c.analysisAttemptCount = (claimsOf c.id history).length := by
    obtain ⟨verified, now', ids, rfl, -⟩ := h.shape
    rw [hnone]
    rfl
  have hst : c.status = .uploaded ∨ c.status = .pendingUpload := by
    obtain ⟨verified, now', ids, rfl, -⟩ := h.shape
    cases verified with
    | none => exact Or.inr rfl
    | some v => exact Or.inl rfl
  refine ⟨hcount, fun hlive => ?_, fun hlive => ?_⟩
  · have hlive' : c.status = .analyzing := hlive
    rcases hst with hst | hst <;> rw [hst] at hlive' <;> cases hlive'
  · have hlive' : c.status = .analyzed := hlive
    rcases hst with hst | hst <;> rw [hst] at hlive' <;> cases hlive'

/-! ## The invariant along runs -/

theorem ClaimsKept.flush {m : Mode} {settings : Settings} {req : Request} {i : Nat}
    {work : UnitOfWork} {s s' : Backend} {now : Timestamp} (hs : ClaimsKept s)
    (h : CommitOk m settings req i work s) (hf : s.flush now work = .ok s') :
    ClaimsKept s' := by
  have hfresh := fun {c : NetworkCapture} (hc : work.insertCapture = some c)
    {r : NetworkCapture} (hr : r ∈ s.captures.rows) => Backend.flush_fresh hf hc hr
  have hcases := fun {r : NetworkCapture} (hr : r ∈ s'.captures.rows) => h.row_cases hf hr
  obtain ⟨captures, keys, rfl, hrows, -⟩ := Backend.flush_ok hf
  refine ⟨fun r hr => ?_, fun j id t hmem => ?_⟩
  · rcases hcases hr with hr | ⟨r₀, hr₀, c, c', -, -, hmove, -, rfl⟩ |
      ⟨data, key, c, -, hc, hnew, rfl⟩
    · exact hs.rows r hr
    · exact hmove.writeBack_claims (hs.rows r₀ hr₀)
    · refine hnew.claims now (List.eq_nil_iff_forall_not_mem.mpr fun x hx => ?_)
      -- a claim on the new id would belong to a stored row
      obtain ⟨r, hr, hid⟩ := hs.known _ _ _ (mem_claimsOf.mp hx)
      exact hfresh hc hr hid
  · obtain ⟨r, hr, hid⟩ := hs.known j id t hmem
    exact ⟨work.writeRow r, (hrows _).mpr (Or.inl ⟨r, hr, rfl⟩),
      (congrArg CaptureIdentity.id (work.writeRow_identity r)).trans hid⟩

/-- A claim is the last one of its row, and of no other. -/
theorem AttemptUpdate.writeRow_claimed {i : Nat} {captureId : Uuid} {t staleBefore now : Timestamp}
    {s : Backend} (hs : ClaimsKept s)
    (hany : s.captures.rows.any (AttemptUpdate.claimAttempt captureId t staleBefore).applies = true)
    {c : NetworkCapture} (hc : c ∈ s.captures.rows) :
    ClaimsOfRow (AttemptUpdate.run i now (.claimAttempt captureId t staleBefore) s).history
      ((AttemptUpdate.claimAttempt captureId t staleBefore).writeRow now c) := by
  have hrow := hs.rows c hc
  have hhist : (AttemptUpdate.run i now (.claimAttempt captureId t staleBefore) s).history =
      s.history ++ [.claimed i captureId t] := rfl
  rw [hhist, writeRow]
  split
  · rename_i happ
    have hid : c.id = captureId := id_of_applies happ
    have hclaims : claimsOf c.id (s.history ++ [.claimed i captureId t]) =
        claimsOf c.id s.history ++ [(i, t)] := by
      rw [claimsOf_claimed, if_pos hid.symm]
    refine ⟨?_, fun _ => ⟨i, t, ?_, rfl⟩, fun hc => by cases hc⟩
    · have hcount : c.analysisAttemptCount + 1 =
          (claimsOf c.id (s.history ++ [.claimed i captureId t])).length := by
        rw [hclaims, List.length_append, hrow.count]
        rfl
      exact hcount
    · have hlast : (claimsOf c.id (s.history ++ [.claimed i captureId t])).getLast? =
          some (i, t) := by
        rw [hclaims, List.getLast?_concat]
      exact hlast
  · rename_i happ
    -- the claim hit another row
    obtain ⟨r, hr, hhit⟩ := List.any_eq_true.mp hany
    have hne : captureId ≠ c.id := by
      intro hid
      have hsame : r.id = c.id := (id_of_applies hhit).trans hid
      obtain rfl := s.captures.eq_of_id hr hc hsame
      exact happ hhit
    refine hrow.of_history (fun x hx => List.mem_append_left _ hx) ?_
    rw [claimsOf_claimed, if_neg hne, List.append_nil]

/-- What an attempt's statement leaves of a row, claims included. -/
theorem AttemptUpdate.writeRow_claims {settings : Settings} {i : Nat} {u : AttemptUpdate}
    {now : Timestamp} {s : Backend} (hs : ClaimsKept s) (hok : AttemptOk settings i s u)
    (hany : s.captures.rows.any u.applies = true) {c : NetworkCapture}
    (hc : c ∈ s.captures.rows) : ClaimsOfRow (u.run i now s).history (u.writeRow now c) := by
  have hrow := hs.rows c hc
  cases u with
  | claimAttempt captureId t staleBefore =>
      exact writeRow_claimed hs hany hc
  | releaseAttempt captureId t =>
      rw [writeRow]
      split
      · exact ⟨hrow.count, (fun hc => by cases hc), fun hc => by cases hc⟩
      · exact hrow
  | markVerified captureId sha256 t =>
      rw [writeRow]
      split
      · exact ⟨hrow.count, hrow.started, hrow.published⟩
      · exact hrow
  | markAnalyzed captureId sha256 t =>
      rw [writeRow]
      split
      · rename_i happ
        obtain ⟨-, r, hr, hid, hpub⟩ := hok
        obtain rfl := s.captures.eq_of_id hr hc (hid.trans (id_of_applies happ).symm)
        exact ⟨hrow.count, (fun hc => by cases hc), fun _ => hpub⟩
      · exact hrow
  | markFailed captureId code message t =>
      rw [writeRow]
      split
      · exact ⟨hrow.count, (fun hc => by cases hc), fun hc => by cases hc⟩
      · exact hrow

theorem AttemptUpdate.run_history (i : Nat) (now : Timestamp) (u : AttemptUpdate) (s : Backend)
    {x : HistoryEvent} (hx : x ∈ (u.run i now s).history) :
    x ∈ s.history ∨ ∃ t, x = .claimed i u.captureId t := by
  cases u with
  | claimAttempt captureId t staleBefore =>
      rcases List.mem_append.mp hx with hx | hx
      · exact Or.inl hx
      · exact Or.inr ⟨t, List.mem_singleton.mp hx⟩
  | releaseAttempt captureId t => exact Or.inl hx
  | markVerified captureId sha256 t => exact Or.inl hx
  | markAnalyzed captureId sha256 t => exact Or.inl hx
  | markFailed captureId code message t => exact Or.inl hx

theorem ClaimsKept.attempted {settings : Settings} {i : Nat} {u : AttemptUpdate}
    {now : Timestamp} {s : Backend} (hs : ClaimsKept s) (hok : AttemptOk settings i s u)
    (hany : s.captures.rows.any u.applies = true) : ClaimsKept (u.run i now s) := by
  refine ⟨fun c hc => ?_, fun j id t hmem => ?_⟩
  · rw [AttemptUpdate.run_captures, CaptureTable.rows_update, List.mem_map] at hc
    obtain ⟨c₀, hc₀, rfl⟩ := hc
    exact AttemptUpdate.writeRow_claims hs hok hany hc₀
  · have hold : ∃ c ∈ s.captures.rows, c.id = id := by
      rcases u.run_history i now s hmem with hmem | ⟨t', heq⟩
      · exact hs.known j id t hmem
      · obtain ⟨-, rfl, -⟩ := HistoryEvent.claimed.injEq .. |>.mp heq
        obtain ⟨r, hr, happ⟩ := List.any_eq_true.mp hany
        exact ⟨r, hr, AttemptUpdate.id_of_applies happ⟩
    obtain ⟨c, hc, hid⟩ := hold
    refine ⟨u.writeRow now c, ?_,
      (congrArg CaptureIdentity.id (u.writeRow_identity now c)).trans hid⟩
    rw [AttemptUpdate.run_captures]
    exact List.mem_map_of_mem hc

/-- Events that are not claims. -/
theorem ClaimsKept.log {s : Backend} (hs : ClaimsKept s) (event : HistoryEvent)
    (hno : ∀ id, event.claimOn id = none) : ClaimsKept (s.log event) := by
  have hsame : ∀ id, claimsOf id (s.history ++ [event]) = claimsOf id s.history := by
    intro id
    rw [claimsOf_append]
    simp [claimsOf, hno id]
  refine ⟨fun c hc => (hs.rows c hc).of_history (fun x hx => List.mem_append_left _ hx)
    (hsame c.id), fun j id t hmem => ?_⟩
  rcases List.mem_append.mp hmem with hmem | hmem
  · exact hs.known j id t hmem
  · have hev := hno id
    rw [← List.mem_singleton.mp hmem] at hev
    simp [HistoryEvent.claimOn] at hev

theorem exec_claimsKept {m : Mode} {settings : Settings} {req : Request} {i : Nat} {c : Cmd}
    {e : Env} {v : Except CaptureError c.Answer} {s s' : Backend}
    (hp : Issued m settings req i c s) (h : exec i e c s = some (v, s')) (hs : ClaimsKept s) :
    ClaimsKept s' := by
  cases exec_effect h with
  | idle => exact hs
  | locked key _ => exact ⟨hs.rows, hs.known⟩
  | committed work s₁ hf =>
      have hflush := hs.flush hp hf
      have hreleased : ClaimsKept (s₁.releaseLocks i) := ⟨hflush.rows, hflush.known⟩
      exact hreleased.log (.committed i) fun _ => rfl
  | rolledBack => exact ⟨hs.rows, hs.known⟩
  | deleted objectKey => exact ⟨hs.rows, hs.known⟩
  | readyPublished event => exact ⟨hs.rows, hs.known⟩
  | analysisSent event => exact ⟨hs.rows, hs.known⟩
  | analysisPublished event =>
      have hsent : ClaimsKept { s with collectedTopic := s.collectedTopic ++ [event] } :=
        ⟨hs.rows, hs.known⟩
      exact hsent.log (.analysisPublished event.eventId) fun _ => rfl
  | attempted u hany => exact hs.attempted hp.2 hany

theorem claimsKept_of_anyStep {settings : Settings} {seed : Seed} {w : CaptureWorld}
    (h : (captureSystem settings).Reach anyStep (initialWorld seed) w) : ClaimsKept w.shared := by
  have hstart : ClaimsKept (Backend.initial seed) :=
    ⟨fun _ hc => absurd hc List.not_mem_nil, fun _ _ _ hm => absurd hm List.not_mem_nil⟩
  refine (captureDiscipline_sound (m := Mode.pool) not_false settings).always
    (fun _ hp _ hx hs => exec_claimsKept hp hx hs) (fun _ hs => ⟨hs.rows, hs.known⟩)
    (fun _ _ hx hs => ?_) (ok_initialWorld _ settings seed) hstart
    (h.mono fun l w _ => pool_allows settings l w)
  obtain ⟨hcaptures, -, -, -, -, hhistory⟩ := external_frame hx
  refine ⟨?_, ?_⟩
  · rw [hcaptures, hhistory]
    exact hs.rows
  · rw [hcaptures, hhistory]
    exact hs.known

/-! ## Fencing -/

/-- The attempt a statement writes for; a claim starts one. -/
def AttemptUpdate.attempt : AttemptUpdate → Option Timestamp
  | claimAttempt _ _ _ => none
  | releaseAttempt _ t => some t
  | markVerified _ _ t => some t
  | markAnalyzed _ _ t => some t
  | markFailed _ _ _ t => some t

/-- Every statement but the claim asks for a row in the attempt's hands. -/
theorem AttemptUpdate.owns_of_applies {u : AttemptUpdate} {t : Timestamp} {c : NetworkCapture}
    (hu : u.attempt = some t) (h : u.applies c = true) :
    c.status = .analyzing ∧ c.analysisStartedAt = some t := by
  cases u with
  | claimAttempt captureId t' staleBefore => cases hu
  | releaseAttempt captureId t' =>
      obtain rfl := Option.some.inj hu
      simp only [applies, Bool.and_eq_true, owns_iff] at h
      exact h.2
  | markVerified captureId sha256 t' =>
      obtain rfl := Option.some.inj hu
      simp only [applies, Bool.and_eq_true, owns_iff] at h
      exact h.1.2
  | markAnalyzed captureId sha256 t' =>
      obtain rfl := Option.some.inj hu
      simp only [applies, Bool.and_eq_true, owns_iff] at h
      exact h.1.2
  | markFailed captureId code message t' =>
      obtain rfl := Option.some.inj hu
      simp only [applies, Bool.and_eq_true, owns_iff] at h
      exact h.2

/-- A session only writes for an attempt it has claimed. -/
theorem AttemptOk.claimed {settings : Settings} {i : Nat} {s : Backend} {u : AttemptUpdate}
    {t : Timestamp} (h : AttemptOk settings i s u) (hu : u.attempt = some t) :
    .claimed i u.captureId t ∈ s.history := by
  cases u with
  | claimAttempt captureId t' staleBefore => cases hu
  | releaseAttempt captureId t' =>
      obtain rfl := Option.some.inj hu
      exact h
  | markVerified captureId sha256 t' =>
      obtain rfl := Option.some.inj hu
      exact h
  | markAnalyzed captureId sha256 t' =>
      obtain rfl := Option.some.inj hu
      exact h.1
  | markFailed captureId code message t' =>
      obtain rfl := Option.some.inj hu
      exact h

/-- With distinct start times, the start time tells the claim. -/
theorem eq_of_start_time {claims : List (Nat × Timestamp)} (hd : (claims.map (·.2)).Nodup)
    {i j : Nat} {t : Timestamp} (hi : (i, t) ∈ claims) (hj : (j, t) ∈ claims) : i = j := by
  have hinj := List.inj_on_of_nodup_map hd hi hj rfl
  exact congrArg Prod.fst hinj

/-- A statement that finds nothing to update changes nothing. -/
theorem exec_attempt_idle {i : Nat} {e : Env} {u : AttemptUpdate} {s s' : Backend}
    {v : Except CaptureError Bool} (h : exec i e (.attempt u) s = some (v, s'))
    (hnone : s.captures.rows.any u.applies = false) : s' = s ∧ v ≠ .ok true := by
  have hp : perform i e (.attempt u) s = some (.ok false, s) := by simp [perform, hnone]
  rcases exec_cases h with ⟨x, -, rfl, rfl⟩ | ⟨x, v₁, -, hx, rfl⟩ | ⟨s₁, hx, rfl⟩
  · exact ⟨rfl, fun hc => by cases hc⟩
  · rw [hp] at hx
    obtain ⟨-, rfl⟩ := Prod.mk.injEq .. |>.mp (Option.some.inj hx)
    exact ⟨rfl, fun hc => by cases hc⟩
  · rw [hp] at hx
    obtain ⟨rfl, rfl⟩ := Prod.mk.injEq .. |>.mp (Option.some.inj hx)
    exact ⟨rfl, fun hc => by cases hc⟩

/-- The next command of session `i` is this statement. -/
def Attempting (w : CaptureWorld) (i : Nat) (u : AttemptUpdate) : Prop :=
  ∃ r k, w.sessions[i]? = some ⟨r, some (.call (.attempt u) k)⟩

/-- What the conditional updates guarantee in one world. -/
structure Fenced (settings : Settings) (w : CaptureWorld) : Prop where
  /-- Only the last successful claim's attempt changes the row. -/
  owner : ∀ i e u t w', Attempting w i u → u.attempt = some t →
    ((claimsOf u.captureId w.shared.history).map (·.2)).Nodup →
    (captureSystem settings).step (.run i e) w = some w' →
    w'.shared.captures.rows ≠ w.shared.captures.rows →
    (claimsOf u.captureId w.shared.history).getLast? = some (i, t)
  /-- A fresh attempt is not taken over. -/
  fresh : ∀ i e captureId t staleBefore w',
    Attempting w i (.claimAttempt captureId t staleBefore) →
    (captureSystem settings).step (.run i e) w = some w' →
    ∀ c ∈ w.shared.captures.rows, c.id = captureId → c.status = .analyzing →
    ∀ t₀, c.analysisStartedAt = some t₀ →
    t - seconds settings.networkStaleAnalysisSeconds < t₀ → w'.shared = w.shared
  count : ∀ c ∈ w.shared.captures.rows,
    c.analysisAttemptCount = (claimsOf c.id w.shared.history).length
  published : ∀ c ∈ w.shared.captures.rows, c.status = .analyzed →
    .analysisPublished c.analysisEventId ∈ w.shared.history

theorem Attempting.step {settings : Settings} {w w' : CaptureWorld} {i : Nat} {u : AttemptUpdate}
    {e : Env} (h : Attempting w i u)
    (hstep : (captureSystem settings).step (.run i e) w = some w') :
    ∃ v, exec i e (.attempt u) w.shared = some (v, w'.shared) := by
  obtain ⟨r, k, hi⟩ := h
  rcases System.step_cases hstep with ⟨r', hl, -⟩ | ⟨i', e', r', c, k', v, s, hl, hi', hx, rfl⟩ |
    ⟨i', r', p, hl, -⟩ | ⟨x, s, hl, -⟩
  · cases hl
  · obtain ⟨rfl, rfl⟩ := Label.run.injEq .. |>.mp hl
    have hsame := Option.some.inj (hi'.symm.trans hi)
    cases hsame
    exact ⟨v, hx⟩
  · cases hl
  · cases hl

theorem analyzer_fenced {settings : Settings} {seed : Seed} {w : CaptureWorld}
    (hw : (captureSystem settings).Reach anyStep (initialWorld seed) w) : Fenced settings w := by
  have hkept := claimsKept_of_anyStep hw
  have hok := ok_of_anyStep hw
  have hissued : ∀ i u, Attempting w i u → AttemptOk settings i w.shared u := by
    rintro i u ⟨r, k, hi⟩
    exact (hok.issued (captureDiscipline_sound not_false settings) hi).2
  refine ⟨fun i e u t w' hatt hu hdist hstep hchg => ?_,
    fun i e captureId t staleBefore w' hatt hstep c hc hid hst t₀ ht₀ hfresh => ?_,
    fun c hc => (hkept.rows c hc).count, fun c hc => (hkept.rows c hc).published⟩
  · obtain ⟨v, hx⟩ := hatt.step hstep
    have hany : w.shared.captures.rows.any u.applies = true := by
      by_contra hnone
      exact hchg (by rw [(exec_attempt_idle hx (Bool.not_eq_true _ |>.mp hnone)).1])
    obtain ⟨c, hc, happ⟩ := List.any_eq_true.mp hany
    obtain ⟨hst, hstarted⟩ := AttemptUpdate.owns_of_applies hu happ
    obtain ⟨j, t', hlast, ht'⟩ := (hkept.rows c hc).started hst
    rw [AttemptUpdate.id_of_applies happ] at hlast
    obtain rfl : t' = t := Option.some.inj (ht'.symm.trans hstarted)
    have hmine := mem_claimsOf.mpr ((hissued i u hatt).claimed hu)
    rw [hlast, eq_of_start_time hdist (List.mem_of_getLast? hlast) hmine]
  · obtain ⟨v, hx⟩ := hatt.step hstep
    refine (exec_attempt_idle hx (List.any_eq_false.mpr fun r hr happ => ?_)).1
    obtain rfl := w.shared.captures.eq_of_id hr hc
      ((AttemptUpdate.id_of_applies happ).trans hid.symm)
    have hstale : staleBefore = t - seconds settings.networkStaleAnalysisSeconds :=
      hissued i _ hatt
    simp only [AttemptUpdate.applies, hst, ht₀, Bool.and_eq_true, Bool.or_eq_true,
      decide_eq_true_eq] at happ
    rcases happ.2 with h | ⟨-, h⟩
    · cases h
    · rw [hstale] at h
      exact absurd hfresh (not_lt.mpr h)

namespace Sample

/-- Session 2 claims the capture, is still downloading a minute later, and is
superseded by session 3. -/
def takeover : List CaptureLabel :=
  announced ++
  [.spawn .processNext,
    .run 2 { clock 4 with message := some (.event (readyEvent (seconds 3))) }] ++
  steps 2 4 3 ++
  [.spawn .processNext,
    .run 3 { clock 90 with message := some (.event (readyEvent (seconds 3))) }] ++
  steps 3 90 3 ++ steps 2 91 1

end Sample

theorem analyzer_fenced_takeover : ∃ w,
    (captureSystem Sample.settings).run (initialWorld Sample.seed) Sample.takeover = some w ∧
    claimsOf (Sample.uuid 10) w.shared.history = [(2, seconds 4), (3, seconds 90)] ∧
    Fenced Sample.settings w := by
  have hrun : ((captureSystem Sample.settings).run (initialWorld Sample.seed)
      Sample.takeover).map (fun w => claimsOf (Sample.uuid 10) w.shared.history) =
      some [(2, seconds 4), (3, seconds 90)] := by
    decide +kernel
  obtain ⟨w, hw, hclaims⟩ := Option.map_eq_some_iff.mp hrun
  have hreach := System.reach_of_run (fun _ _ _ => trivial) .refl hw
  exact ⟨w, hw, hclaims, analyzer_fenced hreach⟩

end Sahabino
