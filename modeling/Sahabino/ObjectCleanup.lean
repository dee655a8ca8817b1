import Sahabino.AtomicCaptures

/-!
# Shared objects and their cleanup

Several captures can share one object, and `cleanup_capture_object` is the
only operation that removes one. It looks at the references whose
`object_deleted_at` is `NULL`: the object goes when all of *these* are
terminal, and they are all marked.

The marking is what keeps objects available (`objects_available`): a row
that still needs its object is unmarked, and an unmarked row keeps the
object alive. That a marked row does not need it is another matter.
`_reopen_expired` brings an expired row back to `pending_upload` without
taking the mark off, and such a row no longer protects the object it is
waiting for (`not_cleanupSafe_reopened`). Where no marked row is reopened,
the guard of the cleanup sees every row that matters
(`cleanupSafe_of_unmarked_reopen`).
-/

namespace Sahabino

open Conc

/-! ## Sequential laws

The laws of the commands when nothing moves in between: the state after a
command is known exactly, also when the command fails. -/

section Laws

variable {extra : Cmd → Backend → Prop} {settings : Settings} {req : Request} {n : Nat}
  {s : Backend}

theorem wp_sequential {c : Cmd} {Q : c.Answer → Backend → Prop}
    {X : CaptureError → Backend → Prop}
    (h : Inv (Mode.atomic extra) s → Issued (Mode.atomic extra) settings req n c s ∧
      ∀ e v t, Allowed (Mode.atomic extra) req n c e s → exec n e c s = some (v, t) →
        (∀ a, v = .ok a → Q a t) ∧ ∀ x, v = .error x → X x t) :
    (captureProto (Mode.atomic extra) settings req).wp exec n (issue c) Q X s := by
  refine Proto.wp_cmd.mpr fun t hr hi => ?_
  obtain rfl := hr.alone trivial
  obtain ⟨hpre, hrest⟩ := h hi
  exact ⟨hpre, fun e v t' ha hx _ => hrest e v t' ha hx⟩

theorem wp_sequentialQuery {q : Query} {Q : q.Answer → Backend → Prop}
    {X : CaptureError → Backend → Prop} (hX : ∀ x, x.infrastructure = true → X x s)
    (h : ∀ e, (∀ a, q.answer e s = .ok a → Q a s) ∧ ∀ x, q.answer e s = .error x → X x s) :
    (captureProto (Mode.atomic extra) settings req).wp exec n (query q) Q X s := by
  refine wp_sequential fun _ => ⟨trivial, fun e v t _ hx => ?_⟩
  rcases exec_cases hx with ⟨x, hf, rfl, rfl⟩ | ⟨x, v₁, hf, hp, rfl⟩ | ⟨t₁, hp, rfl⟩
  · refine ⟨nofun, fun y hy => ?_⟩
    rw [← Except.error.inj hy]
    exact hX x (failure_infrastructure hf)
  · obtain ⟨-, rfl⟩ := Prod.mk.injEq .. |>.mp (Option.some.inj hp)
    refine ⟨nofun, fun y hy => ?_⟩
    rw [← Except.error.inj hy]
    exact hX x (failure_infrastructure hf)
  · obtain ⟨rfl, rfl⟩ := Prod.mk.injEq .. |>.mp (Option.some.inj hp)
    exact h e

theorem wp_sequentialLock {key : LockKey} {Q : Unit → Backend → Prop}
    {X : CaptureError → Backend → Prop}
    (hpre : Issued (Mode.atomic extra) settings req n (.lock key) s)
    (hfree : s.locks key = none) (hX : ∀ x, x.infrastructure = true → X x s)
    (hX' : ∀ x, x.infrastructure = true → X x (s.withLock n key))
    (h : Q () (s.withLock n key)) :
    (captureProto (Mode.atomic extra) settings req).wp exec n (issue (.lock key)) Q X s := by
  have hp : ∀ e, perform n e (.lock key) s = some (.ok (), s.withLock n key) := by
    intro e
    simp only [perform, hfree]
    rfl
  refine wp_sequential fun _ => ⟨hpre, fun e v t _ hx => ?_⟩
  rcases exec_cases hx with ⟨x, hf, rfl, rfl⟩ | ⟨x, v₁, hf, hp', rfl⟩ | ⟨t₁, hp', rfl⟩
  · refine ⟨(fun _ hc => by cases hc), fun y hy => ?_⟩
    rw [← Except.error.inj hy]
    exact hX x (failure_infrastructure hf)
  · rw [hp e] at hp'
    obtain ⟨-, rfl⟩ := Prod.mk.injEq .. |>.mp (Option.some.inj hp')
    refine ⟨(fun _ hc => by cases hc), fun y hy => ?_⟩
    rw [← Except.error.inj hy]
    exact hX' x (failure_infrastructure hf)
  · rw [hp e] at hp'
    obtain ⟨rfl, rfl⟩ := Prod.mk.injEq .. |>.mp (Option.some.inj hp')
    exact ⟨fun _ _ => h, fun _ hc => by cases hc⟩

/-- A command whose failure is no atomic execution. -/
theorem wp_sequentialWrite {c : Cmd} {Q : c.Answer → Backend → Prop}
    {X : CaptureError → Backend → Prop}
    (hc : (∃ work, c = .commit work) ∨ ∃ k, c = .deleteObject k)
    (hpre : Inv (Mode.atomic extra) s → Issued (Mode.atomic extra) settings req n c s)
    (h : ∀ e v t, perform n e c s = some (v, t) →
      (∀ a, v = .ok a → Q a (acknowledge c t)) ∧ ∀ x, v = .error x → X x (acknowledge c t)) :
    (captureProto (Mode.atomic extra) settings req).wp exec n (issue c) Q X s := by
  refine wp_sequential fun hi => ⟨hpre hi, fun e v t ha hx => ?_⟩
  have hfault := ha.alone trivial hc
  simp only [exec, hfault] at hx
  obtain ⟨⟨v₁, t₁⟩, hp, heq⟩ := Option.map_eq_some_iff.mp hx
  obtain ⟨rfl, rfl⟩ := Prod.mk.injEq .. |>.mp heq
  exact h e v₁ t₁ hp

end Laws

/-! ## What a cleanup does -/

/-- The rows a cleanup of this object works on. -/
def NetworkCapture.references (objectKey : String) (c : NetworkCapture) : Bool :=
  c.objectKey = objectKey && c.objectDeletedAt.isNone

/-- The mark on the references, and on no other row. -/
def NetworkCapture.markDeleted (objectKey : String) (deletedAt : Timestamp)
    (c : NetworkCapture) : NetworkCapture :=
  if c.references objectKey then c.setObjectDeleted deletedAt else c

/-- Rows and storage are as they were. -/
def Kept (s t : Backend) : Prop :=
  t.captures.rows = s.captures.rows ∧ t.objects = s.objects

def cleanupConflict : CaptureError :=
  .cleanupConflict "Raw object is still required by a non-terminal logical capture"

/-- How a cleanup can end. -/
inductive CleanupEnd (captureId : Uuid) (s : Backend) :
    Except CaptureError Nat → Backend → Prop
  | failed {x : CaptureError} {t : Backend} (hx : x.infrastructure = true) (hk : Kept s t) :
      CleanupEnd captureId s (.error x) t
  | missing {t : Backend} (hno : ∀ c ∈ s.captures.rows, c.id ≠ captureId) (hk : Kept s t) :
      CleanupEnd captureId s (.error (.captureNotFound captureId)) t
  | conflict {c d : NetworkCapture} {t : Backend} (hc : c ∈ s.captures.rows)
      (hid : c.id = captureId) (hd : d ∈ s.captures.rows) (href : d.references c.objectKey = true)
      (hlive : d.terminal = false) (hk : Kept s t) :
      CleanupEnd captureId s (.error cleanupConflict) t
  | nothing {c : NetworkCapture} {t : Backend} (hc : c ∈ s.captures.rows) (hid : c.id = captureId)
      (hno : ∀ d ∈ s.captures.rows, d.references c.objectKey = false) (hk : Kept s t) :
      CleanupEnd captureId s (.ok 0) t
  | deleted {c : NetworkCapture} {t : Backend} (count : Nat) (deletedAt : Timestamp)
      (hc : c ∈ s.captures.rows) (hid : c.id = captureId)
      (hterm : ∀ d ∈ s.captures.rows, d.references c.objectKey = true → d.terminal = true)
      (hobjects : t.objects = Function.update s.objects c.objectKey none)
      (hrows : t.captures.rows = s.captures.rows.map (·.markDeleted c.objectKey deletedAt)) :
      CleanupEnd captureId s (.ok count) t

theorem CleanupEnd.releaseLocks {captureId : Uuid} {s t : Backend} {r : Except CaptureError Nat}
    (h : CleanupEnd captureId s r t) (i : Nat) : CleanupEnd captureId s r (t.releaseLocks i) := by
  cases h with
  | failed hx hk => exact .failed hx hk
  | missing hno hk => exact .missing hno hk
  | conflict hc hid hd href hlive hk => exact .conflict hc hid hd href hlive hk
  | nothing hc hid hno hk => exact .nothing hc hid hno hk
  | deleted count deletedAt hc hid hterm hobjects hrows =>
      exact .deleted count deletedAt hc hid hterm hobjects hrows

/-- The flush of a session that inserted nothing. -/
theorem Backend.flush_updates (now : Timestamp)
    (updates : List (NetworkCapture × NetworkCapture)) (s : Backend) :
    s.flush now ⟨none, updates, none⟩ = .ok { s with
      captures := s.captures.update (UnitOfWork.writeRow ⟨none, updates, none⟩)
        (UnitOfWork.writeRow_identity ⟨none, updates, none⟩) } := rfl

/-- Marking the references through their loaded objects. -/
theorem writeRow_references (captures : CaptureTable) (objectKey : String)
    (deletedAt : Timestamp) {r : NetworkCapture} (hr : r ∈ captures.rows) :
    UnitOfWork.writeRow ⟨none, (captures.rows.filter (·.references objectKey)).map
      fun c => (c, c.setObjectDeleted deletedAt), none⟩ r =
      r.markDeleted objectKey deletedAt := by
  unfold UnitOfWork.writeRow NetworkCapture.markDeleted
  split
  · rename_i loaded new hfind
    have hid : loaded.id = r.id := by simpa using List.find?_some hfind
    obtain ⟨c, hc, heq⟩ := List.mem_map.mp (List.mem_of_find?_eq_some hfind)
    obtain ⟨rfl, rfl⟩ := Prod.mk.injEq .. |>.mp heq
    obtain ⟨hmem, href⟩ := List.mem_filter.mp hc
    obtain rfl := captures.eq_of_id hmem hr hid
    rw [if_pos href]
    exact NetworkCapture.writeBack_self rfl rfl
  · rename_i hnone
    have href : r.references objectKey = false := by
      by_contra htrue
      have hmem : (r, r.setObjectDeleted deletedAt) ∈
          (captures.rows.filter (·.references objectKey)).map
            fun c => (c, c.setObjectDeleted deletedAt) :=
        List.mem_map_of_mem (f := fun c => (c, c.setObjectDeleted deletedAt))
          (List.mem_filter.mpr ⟨hr, Bool.not_eq_false _ |>.mp htrue⟩)
      have hno := List.find?_eq_none.mp hnone _ hmem
      simp at hno
    simp only [href, Bool.false_eq_true, if_false]

/-- Reading one of the rows again changes nothing about the selected ones. -/
theorem references_refreshed {captures : CaptureTable} {c : NetworkCapture}
    (hc : c ∈ captures.rows) (objectKey : String) :
    (captures.rows.filter (·.references objectKey)).map (fun d => if d.id = c.id then c else d) =
      captures.rows.filter (·.references objectKey) := by
  refine (List.map_congr_left fun d hd => ?_).trans (List.map_id _)
  split
  · rename_i hid
    exact (captures.eq_of_id (List.mem_filter.mp hd).1 hc hid).symm
  · rfl

section Cleanup

variable {extra : Cmd → Backend → Prop} {settings : Settings} {n : Nat} {s : Backend}
  {captureId : Uuid}

/-- From the emptied storage on, only the marking is left. -/
theorem markReferences_end_wp {c : NetworkCapture} {u : Backend} (hc : c ∈ s.captures.rows)
    (hid : c.id = captureId) (hcaptures : u.captures = s.captures)
    (hobjects : u.objects = Function.update s.objects c.objectKey none)
    (hterm : ∀ d ∈ s.captures.rows, d.references c.objectKey = true → d.terminal = true) :
    (captureProto (Mode.atomic extra) settings (.cleanup captureId)).wp exec n (do
      let deletedAt ← query .now
      issue (.commit ⟨none, (s.captures.rows.filter (·.references c.objectKey)).map
        fun c => (c, c.setObjectDeleted deletedAt), none⟩)
      pure (s.captures.rows.filter (·.references c.objectKey)).length)
      (fun k u => CleanupEnd captureId s (.ok k) u)
      (fun x u => CleanupEnd captureId s (.error x) u) u := by
  refine Proto.wp_seq (wp_sequential fun _ => ⟨trivial, fun e v u' _ hx => ?_⟩)
  rcases exec_cases hx with ⟨x, hf, -, -⟩ | ⟨x, v₁, hf, -, -⟩ | ⟨u₁, hp, rfl⟩
  · cases hf
  · cases hf
  · obtain ⟨rfl, rfl⟩ := Prod.mk.injEq .. |>.mp (Option.some.inj hp)
    refine ⟨fun deletedAt _ => ?_, fun _ hc => by cases hc⟩
    refine Proto.wp_seq (wp_sequentialWrite (Or.inl ⟨_, rfl⟩) (fun hi =>
      CommitOk.of_updates fun w hw => ?_) fun e₁ v u₂ hp₁ => ?_)
    · obtain ⟨d, hd, rfl⟩ := List.mem_map.mp hw
      obtain ⟨hmem, href⟩ := List.mem_filter.mp hd
      refine ⟨Seen.of_mem hi ?_, .delete deletedAt (hterm d hmem href)⟩
      change d ∈ u.captures.rows
      rw [hcaptures]
      exact hmem
    · simp only [perform, Backend.flush_updates] at hp₁
      obtain ⟨rfl, rfl⟩ := Prod.mk.injEq .. |>.mp (Option.some.inj hp₁)
      refine ⟨fun _ _ => .deleted _ deletedAt hc hid hterm hobjects ?_, fun _ hc => by cases hc⟩
      have hrows : u.captures.rows.map (UnitOfWork.writeRow ⟨none,
          (s.captures.rows.filter (·.references c.objectKey)).map
            fun c => (c, c.setObjectDeleted deletedAt), none⟩) =
          s.captures.rows.map (·.markDeleted c.objectKey deletedAt) := by
        rw [hcaptures]
        exact List.map_congr_left fun r hr => writeRow_references _ _ _ hr
      exact hrows

theorem deleteReferences_end_wp {c : NetworkCapture} {t : Backend} (hc : c ∈ s.captures.rows)
    (hid : c.id = captureId) (hcaptures : t.captures = s.captures)
    (hobjects : t.objects = s.objects)
    (hterm : ∀ d ∈ s.captures.rows, d.references c.objectKey = true → d.terminal = true) :
    (captureProto (Mode.atomic extra) settings (.cleanup captureId)).wp exec n
      (deleteReferences c.objectKey (s.captures.rows.filter (·.references c.objectKey)))
      (fun k u => CleanupEnd captureId s (.ok k) u)
      (fun x u => CleanupEnd captureId s (.error x) u) t := by
  refine Proto.wp_seq (wp_sequentialQuery
    (fun x hx => .failed hx ⟨by rw [hcaptures], hobjects⟩) fun e => ⟨fun a ha => ?_, nofun⟩)
  obtain rfl := Except.ok.inj ha
  cases hobj : t.objects c.objectKey with
  | none =>
      refine markReferences_end_wp hc hid hcaptures ?_ hterm
      rw [← hobjects, ← hobj, Function.update_eq_self]
  | some metadata =>
      refine Proto.wp_seq (wp_sequentialWrite (Or.inr ⟨_, rfl⟩) (fun _ => ⟨captureId, rfl⟩)
        fun e₁ v u hp => ?_)
      obtain ⟨rfl, rfl⟩ := Prod.mk.injEq .. |>.mp (Option.some.inj hp)
      refine ⟨fun _ _ => markReferences_end_wp hc hid hcaptures ?_ hterm, nofun⟩
      rw [← hobjects]
      rfl

theorem cleanup_end_wp (hunlocked : ∀ k, s.locks k = none) :
    (captureProto (Mode.atomic extra) settings (.cleanup captureId)).wp exec n
      (cleanupCaptureObject captureId)
      (fun k u => CleanupEnd captureId s (.ok k) u)
      (fun x u => CleanupEnd captureId s (.error x) u) s := by
  have hfail : ∀ x, x.infrastructure = true → CleanupEnd captureId s (.error x) s :=
    fun x hx => .failed hx ⟨rfl, rfl⟩
  refine Proto.wp_seq (wp_sequentialQuery hfail fun e => ⟨fun a ha => ?_, fun _ hc => by cases hc⟩)
  obtain rfl := Except.ok.inj ha
  cases hf : s.captures.rows.find? fun c => c.id = captureId with
  | none =>
      refine .missing (fun c hc hid => ?_) ⟨rfl, rfl⟩
      have hno := List.find?_eq_none.mp hf c hc
      simp [hid] at hno
  | some c =>
      have hc := List.mem_of_find?_eq_some hf
      have hid : c.id = captureId := by simpa using List.find?_some hf
      have hnone : ∀ k, s.locks (.object k) ≠ some n := by
        intro k
        rw [hunlocked]
        exact fun hc => by cases hc
      have hfail₁ : ∀ x, x.infrastructure = true →
          CleanupEnd captureId s (.error x) (s.withLock n (.object c.objectKey)) :=
        fun x hx => .failed hx ⟨rfl, rfl⟩
      refine Proto.wp_seq (wp_sequentialLock ⟨trivial, Or.inl hnone⟩ (hunlocked _) hfail hfail₁ ?_)
      -- refreshing gives the row itself
      refine Proto.wp_seq (Proto.wp_seq (wp_sequentialQuery hfail₁ fun e₁ =>
        ⟨fun a ha => ?_, fun _ hc => by cases hc⟩))
      obtain rfl := Except.ok.inj ha
      have hfind : (s.withLock n (.object c.objectKey)).captures.rows.find?
          (fun r => r.id = c.id) = some c := s.captures.find_id hc
      rw [hfind]
      refine Proto.wp_seq (wp_sequentialQuery hfail₁ fun e₂ =>
        ⟨fun a ha => ?_, fun _ hx => by cases hx⟩)
      obtain rfl := Except.ok.inj ha
      have hrefs : ((s.withLock n (.object c.objectKey)).captures.rows.filter fun d =>
          d.objectKey = c.objectKey && d.objectDeletedAt.isNone).map
            (fun d => if d.id = c.id then c else d) =
          s.captures.rows.filter (·.references c.objectKey) := references_refreshed hc _
      simp only [hrefs]
      split
      · rename_i hlive
        obtain ⟨d, hd, hnt⟩ := List.any_eq_true.mp hlive
        obtain ⟨hmem, href⟩ := List.mem_filter.mp hd
        exact .conflict hc hid hmem href (by simpa using hnt) ⟨rfl, rfl⟩
      · rename_i hterm
        have hterm' : ∀ d ∈ s.captures.rows, d.references c.objectKey = true →
            d.terminal = true := by
          intro d hd href
          have hall := List.any_eq_false.mp (Bool.not_eq_true _ |>.mp hterm) d
            (List.mem_filter.mpr ⟨hd, href⟩)
          simpa using hall
        split
        · rename_i hempty
          refine Proto.wp_seq (wp_sequentialWrite (Or.inl ⟨_, rfl⟩)
            (fun _ => CommitOk.of_updates fun w hw => absurd hw List.not_mem_nil)
            fun e₃ v u hp => ?_)
          simp only [perform, UnitOfWork.nothing, Backend.flush_updates] at hp
          obtain ⟨rfl, rfl⟩ := Prod.mk.injEq .. |>.mp (Option.some.inj hp)
          refine ⟨fun _ _ => .nothing hc hid (fun d hd => ?_) ⟨List.map_id _, rfl⟩,
            fun _ hx => by cases hx⟩
          by_contra href
          have hmem := List.mem_filter.mpr ⟨hd, Bool.not_eq_false _ |>.mp href⟩
          rw [hempty] at hmem
          exact List.not_mem_nil hmem
        · exact deleteReferences_end_wp hc hid rfl rfl hterm'

/-- A whole cleanup, with its session. -/
theorem cleanup_run {r : Except CaptureError Reply} {s' : Backend} (h : AtomicInv extra n s)
    (hrun : Runs exec (Allowed (Mode.atomic extra) (.cleanup captureId) n) n
      (serve settings (.cleanup captureId)) s r s') :
    (∃ k, r = .ok (.cleaned k) ∧ CleanupEnd captureId s (.ok k) s') ∨
      ∃ x, r = .error x ∧ CleanupEnd captureId s (.error x) s' := by
  have hwp : (captureProto (Mode.atomic extra) settings (.cleanup captureId)).wp exec n
      (serve settings (.cleanup captureId))
      (fun reply t => ∃ k, reply = .cleaned k ∧ CleanupEnd captureId s (.ok k) t)
      (fun x t => CleanupEnd captureId s (.error x) t) s := by
    refine Proto.wp_seq (Proto.wp_ensure.mpr (Proto.wp_mono (fun k t hend => ?_)
      (fun x t hend => ?_) (cleanup_end_wp h.unlocked)))
    · refine wp_rollback fun t' hr _ => ?_
      obtain rfl := hr.alone trivial
      exact ⟨k, rfl, hend.releaseLocks n⟩
    · refine wp_rollback fun t' hr _ => ?_
      obtain rfl := hr.alone trivial
      exact hend.releaseLocks n
  obtain ⟨-, -, hret, hraise⟩ := run_keeps (J := fun _ => True) (fun _ _ _ _ h => h) hrun h
    trivial hwp
  cases r with
  | ok reply =>
      obtain ⟨k, rfl, hend⟩ := hret reply rfl
      exact Or.inl ⟨k, rfl, hend⟩
  | error x => exact Or.inr ⟨x, rfl, hraise x rfl⟩

end Cleanup

/-! ## Availability -/

/-- The row still needs its object: for the analysis, or for a retry. -/
def NetworkCapture.needsObject (c : NetworkCapture) : Prop :=
  c.status = .uploaded ∨ c.status = .analyzing ∨
    ((c.status = .analyzed ∨ c.status = .failed) ∧ c.objectDeletedAt = none)

/-- The object of every row that needs it is there. -/
def Available (s : Backend) : Prop :=
  ∀ c ∈ s.captures.rows, c.needsObject → (s.objects c.objectKey).isSome

section Availability

variable {extra : Cmd → Backend → Prop} {settings : Settings} {n : Nat} {s s' : Backend}

/-- A move makes a row need an object that is there, or that the row needed
before. -/
theorem Move.needsObject {c c' : NetworkCapture} (h : Move (Mode.atomic extra) s c c')
    (hneed : c'.needsObject) : (s.objects c.objectKey).isSome ∨ c.needsObject := by
  cases h with
  | reopen h =>
      rw [(NetworkCapture.reopenExpired_eq h).2] at hneed
      rcases hneed with h | h | ⟨h | h, -⟩ <;> cases h
  | upload now _ hobj =>
      obtain ⟨metadata, hmeta, -⟩ := hobj trivial
      exact Or.inl (by rw [hmeta]; rfl)
  | expire code message _ => rcases hneed with h | h | ⟨h | h, -⟩ <;> cases h
  | retry hst hdel => exact Or.inr (Or.inr (Or.inr ⟨Or.inr hst, hdel⟩))
  | delete deletedAt hterm =>
      simp only [NetworkCapture.terminal, Bool.or_eq_true, decide_eq_true_eq] at hterm
      rcases hneed with h | h | ⟨-, h⟩
      · have hst : c.status = .uploaded := h
        rw [hst] at hterm
        simp at hterm
      · have hst : c.status = .analyzing := h
        rw [hst] at hterm
        simp at hterm
      · cases h

theorem AttemptUpdate.writeRow_needsObject {u : AttemptUpdate} {now : Timestamp}
    {c : NetworkCapture} (hneed : (u.writeRow now c).needsObject) : c.needsObject := by
  unfold writeRow at hneed
  split at hneed
  · rename_i happ
    cases u with
    | claimAttempt captureId t staleBefore =>
        simp only [applies, Bool.and_eq_true, Bool.or_eq_true, decide_eq_true_eq] at happ
        rcases happ.2 with h | ⟨h, -⟩
        · exact Or.inl h
        · exact Or.inr (Or.inl h)
    | releaseAttempt captureId t =>
        simp only [applies, Bool.and_eq_true, owns_iff] at happ
        exact Or.inr (Or.inl happ.2.1)
    | markVerified captureId sha256 t =>
        simp only [applies, Bool.and_eq_true, owns_iff] at happ
        exact Or.inr (Or.inl happ.1.2.1)
    | markAnalyzed captureId sha256 t =>
        simp only [applies, Bool.and_eq_true, owns_iff] at happ
        exact Or.inr (Or.inl happ.1.2.1)
    | markFailed captureId code message t =>
        simp only [applies, Bool.and_eq_true, owns_iff] at happ
        exact Or.inr (Or.inl happ.2.1)
  · exact hneed

theorem Available.attempted (h : Available s) (u : AttemptUpdate) (now : Timestamp) :
    Available (u.run n now s) := by
  intro c hc hneed
  obtain ⟨events, heq, -⟩ := u.run_frame n now s
  rw [heq] at hc ⊢
  obtain ⟨c₀, hc₀, rfl⟩ := List.mem_map.mp hc
  have hkey := congrArg CaptureIdentity.objectKey (u.writeRow_identity now c₀)
  rw [hkey]
  exact h c₀ hc₀ (AttemptUpdate.writeRow_needsObject hneed)

theorem Available.flush {req : Request} {work : UnitOfWork} {now : Timestamp}
    (h : Available s) (hp : CommitOk (Mode.atomic extra) settings req n work s)
    (hf : s.flush now work = .ok s') : Available s' := by
  intro r hr hneed
  have hcases := hp.row_cases hf hr
  obtain ⟨captures, keys, rfl, -, -⟩ := Backend.flush_ok hf
  rcases hcases with hr | ⟨r₀, hr₀, c, c', -, hseen, hmove, hid, rfl⟩ |
    ⟨data, key, c, -, -, hnew, rfl⟩
  · exact h r hr hneed
  · obtain rfl := hseen.eq_stored trivial hr₀ hid
    rw [NetworkCapture.writeBack_self hmove.identity hmove.createdAt] at hneed ⊢
    rw [hmove.identity]
    rcases hmove.needsObject hneed with hobj | hold
    · exact hobj
    · exact h r₀ hr₀ hold
  · have hup : c.status = .uploaded := by
      obtain ⟨verified, now', ids, rfl, -⟩ := hnew.shape
      cases verified with
      | none => rcases hneed with h | h | ⟨h | h, -⟩ <;> cases h
      | some v => rfl
    obtain ⟨metadata, hmeta, -⟩ := hnew.stored trivial hup
    have hobj : (s.objects c.objectKey).isSome := by
      rw [hmeta]
      rfl
    exact hobj

/-- Every command but a deletion keeps what is needed. -/
theorem exec_available {req : Request} {c : Cmd} {e : Env} {v : Except CaptureError c.Answer}
    (hreq : ∀ captureId, req ≠ .cleanup captureId)
    (hp : Issued (Mode.atomic extra) settings req n c s) (hx : exec n e c s = some (v, s'))
    (h : Available s) : Available s' := by
  cases exec_effect hx with
  | idle => exact h
  | locked key _ => exact h
  | committed work s₁ hf =>
      have hflush := h.flush hp hf
      exact hflush
  | rolledBack => exact h
  | deleted objectKey =>
      obtain ⟨captureId, heq⟩ := hp
      exact absurd heq (hreq captureId)
  | readyPublished event => exact h
  | analysisSent event => exact h
  | analysisPublished event => exact h
  | attempted u _ => exact h.attempted u e.now

theorem CaptureOk.not_needsObject {c : NetworkCapture} (h : CaptureOk c)
    (hdel : c.objectDeletedAt.isSome) : ¬c.needsObject := by
  rintro (hst | hst | ⟨-, hst⟩)
  · exact (h.deleted hdel).1 hst
  · exact (h.deleted hdel).2 hst
  · rw [hst] at hdel
    cases hdel

/-- A cleanup takes an object only from rows it marks. -/
theorem CleanupEnd.available {captureId : Uuid} {r : Except CaptureError Nat}
    (hend : CleanupEnd captureId s r s') (hok : ∀ c ∈ s.captures.rows, CaptureOk c)
    (h : Available s) : Available s' := by
  have hkept : Kept s s' → Available s' := by
    intro hk c hc hneed
    rw [hk.1] at hc
    rw [hk.2]
    exact h c hc hneed
  cases hend with
  | failed _ hk => exact hkept hk
  | missing _ hk => exact hkept hk
  | conflict _ _ _ _ _ hk => exact hkept hk
  | nothing _ _ _ hk => exact hkept hk
  | @deleted c _ count deletedAt hc hid hterm hobjects hrows =>
      intro d hd hneed
      rw [hrows] at hd
      obtain ⟨d₀, hd₀, rfl⟩ := List.mem_map.mp hd
      have hkey : (d₀.markDeleted c.objectKey deletedAt).objectKey = d₀.objectKey := by
        unfold NetworkCapture.markDeleted
        split <;> rfl
      rw [hkey, hobjects]
      unfold NetworkCapture.markDeleted at hneed
      split at hneed
      · rename_i href
        have hmove : Move (Mode.atomic anyCommand) s d₀ (d₀.setObjectDeleted deletedAt) :=
          .delete deletedAt (hterm d₀ hd₀ href)
        exact absurd hneed ((hmove.ok (hok d₀ hd₀)).not_needsObject rfl)
      · rename_i href
        -- an untouched row has another object, or was marked before
        have hother : d₀.objectKey ≠ c.objectKey := by
          intro hshared
          have hdel : d₀.objectDeletedAt.isSome := by
            simp only [NetworkCapture.references, hshared, decide_true, Bool.true_and] at href
            exact Option.isSome_iff_ne_none.mpr fun hnone => href (by rw [hnone]; rfl)
          exact (hok d₀ hd₀).not_needsObject hdel hneed
        rw [Function.update_of_ne hother]
        exact h d₀ hd₀ hneed

theorem AtomicOp.available (hop : AtomicOp settings extra n s s') (hinv : AtomicInv extra n s)
    (h : Available s) : Available s' := by
  cases hop with
  | serve req r hrun =>
      by_cases hreq : ∃ captureId, req = .cleanup captureId
      · obtain ⟨captureId, rfl⟩ := hreq
        rcases cleanup_run hinv hrun with ⟨k, -, hend⟩ | ⟨x, -, hend⟩
        · exact hend.available (hinv.inv.ok trivial) h
        · exact hend.available (hinv.inv.ok trivial) h
      · have hno : ∀ captureId, req ≠ .cleanup captureId := fun captureId heq =>
          hreq ⟨captureId, heq⟩
        exact (run_keeps (fun _ hp _ hx hj => exec_available hno hp hx hj) hrun hinv h
          (serve_wp req hinv.fresh)).2.1
  | attempt u e v hx =>
      rcases attempt_cases hx with rfl | ⟨-, rfl⟩
      · exact h
      · exact h.attempted u e.now
  | external x hx =>
      rcases external_cases hx with rfl | ⟨objectKey, metadata, -, rfl⟩ | ⟨applications, rfl⟩ |
        ⟨event, source, offset, env, claimed, tables, -, -, rfl⟩
      · exact h
      · intro c hc hneed
        by_cases hkey : c.objectKey = objectKey
        · simp only [hkey, Function.update_self, Option.isSome_some]
        · simp only [Function.update_of_ne hkey]
          exact h c hc hneed
      · exact h
      · exact h

theorem available_of_reach {seed : Seed}
    (h : AtomicReach settings extra 0 (Backend.initial seed) n s) : Available s := by
  induction h with
  | start => exact fun _ hc => absurd hc List.not_mem_nil
  | op hreach hop ih => exact hop.available (atomicInv_of_reach hreach) ih

/-- Nothing but a cleanup takes objects away. -/
theorem exec_objects {m : Mode} {req : Request} {c : Cmd} {e : Env}
    {v : Except CaptureError c.Answer} (hreq : ∀ captureId, req ≠ .cleanup captureId)
    (hp : Issued m settings req n c s) (hx : exec n e c s = some (v, s')) :
    s'.objects = s.objects := by
  cases exec_effect hx with
  | idle => rfl
  | locked key _ => rfl
  | committed work s₁ hf =>
      obtain ⟨captures, keys, rfl, -, -⟩ := Backend.flush_ok hf
      rfl
  | rolledBack => rfl
  | deleted objectKey =>
      obtain ⟨captureId, heq⟩ := hp
      exact absurd heq (hreq captureId)
  | readyPublished event => rfl
  | analysisSent event => rfl
  | analysisPublished event => rfl
  | attempted u _ =>
      obtain ⟨events, heq, -⟩ := u.run_frame n e.now s
      rw [heq]

theorem run_objects {req : Request} {r : Except CaptureError Reply}
    (hreq : ∀ captureId, req ≠ .cleanup captureId) (hinv : AtomicInv extra n s)
    (hrun : Runs exec (Allowed (Mode.atomic extra) req n) n (serve settings req) s r s') :
    s'.objects = s.objects :=
  (run_keeps (J := fun t => t.objects = s.objects)
    (fun _ hp _ hx hj => (exec_objects hreq hp hx).trans hj) hrun hinv rfl
    (serve_wp req hinv.fresh)).2.1

/-- The objects of a reachable state, and what the two operations that put work on
the queue can rely on. -/
structure ObjectsAvailable (settings : Settings) (n : Nat) (s : Backend) : Prop where
  available : Available s
  /-- What `retry_capture` requeues has its object. -/
  retried : ∀ captureId r s', Runs exec (Allowed (Mode.atomic anyCommand) (.retry captureId) n) n
      (serve settings (.retry captureId)) s r s' →
    ∀ c ∈ s.captures.rows, c.status = .failed → ∀ c' ∈ s'.captures.rows, c'.id = c.id →
      c'.status = .uploaded → (s.objects c.objectKey).isSome
  /-- What `create` starts as `uploaded` has its object. -/
  created : ∀ data key r s', Runs exec (Allowed (Mode.atomic anyCommand) (.create data key) n) n
      (serve settings (.create data key)) s r s' →
    ∀ c' ∈ s'.captures.rows, (∀ c ∈ s.captures.rows, c.id ≠ c'.id) →
      c'.status = .uploaded → (s.objects c'.objectKey).isSome

theorem objects_available {seed : Seed}
    (h : AtomicReach settings anyCommand 0 (Backend.initial seed) n s) :
    ObjectsAvailable settings n s := by
  have hinv := atomicInv_of_reach h
  refine ⟨available_of_reach h, fun captureId r s' hrun c hc _ c' hc' hid hst => ?_,
    fun data key r s' hrun c' hc' _ hst => ?_⟩
  · have hop : AtomicOp settings anyCommand n s s' := .serve _ r hrun
    have hobj := hop.available hinv (available_of_reach h) c' hc' (Or.inl hst)
    have hno : ∀ id, Request.retry captureId ≠ .cleanup id := fun _ => nofun
    obtain ⟨c₁, hc₁, hid₁⟩ := hop.identities c hc
    have hsame : c'.id = c₁.id := hid.trans (congrArg CaptureIdentity.id hid₁).symm
    rw [s'.captures.eq_of_id hc' hc₁ hsame, hid₁, run_objects hno hinv hrun] at hobj
    exact hobj
  · have hop : AtomicOp settings anyCommand n s s' := .serve _ r hrun
    have hobj := hop.available hinv (available_of_reach h) c' hc' (Or.inl hst)
    have hno : ∀ id, Request.create data key ≠ .cleanup id := fun _ => nofun
    rw [run_objects hno hinv hrun] at hobj
    exact hobj

end Availability

theorem objects_available_analyzed : ∃ n s,
    performAll Sample.settings 0 (Backend.initial Sample.seed) (Sample.analysis .upload 5 10 1) =
      some (n, s) ∧
    s.captures.rows.map (·.status) = [.analyzed] ∧ ObjectsAvailable Sample.settings n s := by
  have hrun : (performAll Sample.settings 0 (Backend.initial Sample.seed)
      (Sample.analysis .upload 5 10 1)).map (fun p => p.2.captures.rows.map (·.status)) =
      some [.analyzed] := by
    decide +kernel
  obtain ⟨⟨n, s⟩, hs, hst⟩ := Option.map_eq_some_iff.mp hrun
  exact ⟨n, s, hs, hst, objects_available (atomicReach_of_performAll (by decide) .start hs)⟩

/-! ## The guard of the cleanup -/

/-- A commit that reopens a row finds it without the mark of a deleted object. -/
def unmarkedReopen : Cmd → Backend → Prop := fun c _ =>
  ∀ work, c = .commit work → ∀ u ∈ work.updates, u.2.status = .pendingUpload →
    u.1.objectDeletedAt = none

/-- Marked rows are not waiting for an upload. -/
def Settled (s : Backend) : Prop :=
  ∀ c ∈ s.captures.rows, c.objectDeletedAt.isSome → c.status ≠ .pendingUpload

section Guard

variable {settings : Settings} {n : Nat} {s s' : Backend}

/-- No statement of the analyzer leaves `pending_upload` behind, and none touches
the mark. -/
theorem AttemptUpdate.writeRow_pending {u : AttemptUpdate} {now : Timestamp} {c : NetworkCapture}
    (h : (u.writeRow now c).status = .pendingUpload) : u.writeRow now c = c := by
  unfold writeRow at h ⊢
  split at h
  · rename_i happ
    cases u with
    | claimAttempt captureId t staleBefore => cases h
    | releaseAttempt captureId t => cases h
    | markVerified captureId sha256 t =>
        simp only [applies, Bool.and_eq_true, owns_iff] at happ
        have hst : c.status = .pendingUpload := h
        rw [happ.1.2.1] at hst
        cases hst
    | markAnalyzed captureId sha256 t => cases h
    | markFailed captureId code message t => cases h
  · rename_i happ
    rw [if_neg happ]

theorem Settled.attempted (h : Settled s) (u : AttemptUpdate) (now : Timestamp) :
    Settled (u.run n now s) := by
  intro c hc hdel hst
  rw [AttemptUpdate.run_captures, CaptureTable.rows_update, List.mem_map] at hc
  obtain ⟨c₀, hc₀, rfl⟩ := hc
  rw [AttemptUpdate.writeRow_pending hst] at hdel hst
  exact h c₀ hc₀ hdel hst

theorem Settled.flush {req : Request} {work : UnitOfWork} {now : Timestamp} (h : Settled s)
    (hp : CommitOk (Mode.atomic unmarkedReopen) settings req n work s)
    (hun : unmarkedReopen (.commit work) s) (hf : s.flush now work = .ok s') : Settled s' := by
  intro r hr hdel hst
  rcases hp.row_cases hf hr with hr | ⟨r₀, hr₀, c, c', hu, hseen, hmove, hid, rfl⟩ |
    ⟨data, key, c, -, -, hnew, rfl⟩
  · exact h r hr hdel hst
  · obtain rfl := hseen.eq_stored trivial hr₀ hid
    rw [NetworkCapture.writeBack_self hmove.identity hmove.createdAt] at hdel hst
    have hnone := hun work rfl _ hu hst
    cases hmove with
    | reopen h =>
        rw [(NetworkCapture.reopenExpired_eq h).2] at hdel
        have hdel' : r₀.objectDeletedAt.isSome := hdel
        rw [hnone] at hdel'
        cases hdel'
    | upload now _ _ => cases hst
    | expire code message _ => cases hst
    | retry _ _ => cases hst
    | delete deletedAt hterm =>
        have hst' : r₀.status = .pendingUpload := hst
        simp [NetworkCapture.terminal, hst'] at hterm
  · obtain ⟨verified, now', ids, rfl, -⟩ := hnew.shape
    cases hdel

theorem exec_settled {req : Request} {c : Cmd} {e : Env} {v : Except CaptureError c.Answer}
    (hp : Issued (Mode.atomic unmarkedReopen) settings req n c s)
    (ha : Allowed (Mode.atomic unmarkedReopen) req n c e s)
    (hx : exec n e c s = some (v, s')) (h : Settled s) : Settled s' := by
  cases exec_effect hx with
  | idle => exact h
  | locked key _ => exact h
  | committed work s₁ hf =>
      have hflush := h.flush hp ha.extra hf
      exact hflush
  | rolledBack => exact h
  | deleted objectKey => exact h
  | readyPublished event => exact h
  | analysisSent event => exact h
  | analysisPublished event => exact h
  | attempted u _ => exact h.attempted u e.now

theorem settled_of_reach {seed : Seed}
    (h : AtomicReach settings unmarkedReopen 0 (Backend.initial seed) n s) : Settled s := by
  induction h with
  | start => exact fun _ hc => absurd hc List.not_mem_nil
  | @op n s s' hreach hop ih =>
      have hinv := atomicInv_of_reach hreach
      cases hop with
      | serve req r hrun =>
          exact (run_keeps (fun _ hp ha hx hj => exec_settled hp ha hx hj) hrun hinv ih
            (serve_wp req hinv.fresh)).2.1
      | attempt u e v hx =>
          rcases attempt_cases hx with rfl | ⟨-, rfl⟩
          · exact ih
          · exact ih.attempted u e.now
      | external x hx =>
          intro c hc
          rw [(external_frame hx).1] at hc
          exact ih c hc

/-- In every reachable state, a cleanup of an object that a non-terminal row refers
to fails, and changes neither rows nor storage; with no call failing, it fails
with the conflict. -/
def CleanupSafe (settings : Settings) (seed : Seed) (extra : Cmd → Backend → Prop) : Prop :=
  ∀ n s, AtomicReach settings extra 0 (Backend.initial seed) n s →
  ∀ c ∈ s.captures.rows, ∀ d ∈ s.captures.rows, d.objectKey = c.objectKey →
    d.terminal = false →
    (∀ r s', Runs exec (Allowed (Mode.atomic anyCommand) (.cleanup c.id) n) n
        (serve settings (.cleanup c.id)) s r s' →
      Kept s s' ∧ ∃ x, r = .error x ∧ (x = cleanupConflict ∨ x.infrastructure = true)) ∧
    (∀ e₁ e₂ e₃ e₄ e₅ : Env, (∀ e ∈ [e₁, e₂, e₃, e₄, e₅], e.fault = .none) →
      ∃ s', solo exec n [e₁, e₂, e₃, e₄, e₅] (serve settings (.cleanup c.id)) s =
        some (.error cleanupConflict, s') ∧ Kept s s')

/-- A marked row is terminal. -/
theorem terminal_of_marked {d : NetworkCapture} (hok : CaptureOk d)
    (hset : d.objectDeletedAt.isSome → d.status ≠ .pendingUpload)
    (hdel : d.objectDeletedAt.isSome) : d.terminal = true := by
  obtain ⟨hup, han⟩ := hok.deleted hdel
  have hpend := hset hdel
  unfold NetworkCapture.terminal
  cases hst : d.status with
  | pendingUpload => exact absurd hst hpend
  | uploaded => exact absurd hst hup
  | analyzing => exact absurd hst han
  | analyzed => rfl
  | failed => rfl
  | expired => rfl

/-- A cleanup without failures, up to the guard. -/
theorem cleanup_conflict_run {c d : NetworkCapture} (hc : c ∈ s.captures.rows)
    (hd : d ∈ s.captures.rows) (href : d.references c.objectKey = true)
    (hlive : d.terminal = false) (hunlocked : ∀ k, s.locks k = none) {e₁ e₂ e₃ e₄ e₅ : Env}
    (hquiet : ∀ e ∈ [e₁, e₂, e₃, e₄, e₅], e.fault = .none) :
    ∃ s', solo exec n [e₁, e₂, e₃, e₄, e₅] (serve settings (.cleanup c.id)) s =
      some (.error cleanupConflict, s') ∧ Kept s s' := by
  simp only [List.mem_cons, List.not_mem_nil, or_false, forall_eq_or_imp, forall_eq] at hquiet
  obtain ⟨h₁, h₂, h₃, h₄, h₅⟩ := hquiet
  have hget : ∀ e t, e.fault = .none → t.captures = s.captures →
      exec n e (.query (.get c.id)) t = some (.ok (some c), t) := by
    intro e t he ht
    simp [exec, he, perform, Query.answer, acknowledge, ht, s.captures.find_id hc]
  have hlocked : exec n e₂ (.lock (.object c.objectKey)) s =
      some (.ok (), s.withLock n (.object c.objectKey)) := by
    simp [exec, h₂, perform, hunlocked, acknowledge, Backend.withLock]
  have hselect : exec n e₄ (.query (.references c.objectKey))
      (s.withLock n (.object c.objectKey)) =
      some (.ok (s.captures.rows.filter (·.references c.objectKey)),
        s.withLock n (.object c.objectKey)) := by
    simp only [exec, h₄, perform, Query.answer, acknowledge, Backend.withLock]
    rfl
  have hend : exec n e₅ .rollback (s.withLock n (.object c.objectKey)) =
      some (.ok (), (s.withLock n (.object c.objectKey)).releaseLocks n) := by
    simp [exec, h₅, perform, acknowledge]
  have hguard : (((s.captures.rows.filter (·.references c.objectKey)).map
      fun d => if d.id = c.id then c else d).any fun d => !d.terminal) = true := by
    rw [references_refreshed hc]
    exact List.any_eq_true.mpr ⟨d, List.mem_filter.mpr ⟨hd, href⟩, by simp [hlive]⟩
  have hraise : ∀ (rest : Process Nat) (f : Nat → Process Reply),
      solo exec n [e₅] (((if ((s.captures.rows.filter (·.references c.objectKey)).map
          fun d => if d.id = c.id then c else d).any (fun d => !d.terminal) = true then
            Prog.raise cleanupConflict else rest).ensure (issue .rollback)).bind f)
        (s.withLock n (.object c.objectKey)) =
      some (.error cleanupConflict, (s.withLock n (.object c.objectKey)).releaseLocks n) := by
    intro rest f
    rw [if_pos hguard]
    exact solo_call hend
  have hreload := hget e₃ (s.withLock n (.object c.objectKey)) h₃ rfl
  refine ⟨(s.withLock n (.object c.objectKey)).releaseLocks n, ?_, rfl, rfl⟩
  exact (solo_call (hget e₁ s h₁ rfl)).trans ((solo_call hlocked).trans
    ((solo_call hreload).trans ((solo_call hselect).trans (hraise _ _))))

theorem cleanupSafe_of_unmarked_reopen (settings : Settings) (seed : Seed) :
    CleanupSafe settings seed unmarkedReopen := by
  intro n s h c hc d hd hkey hlive
  have hinv := atomicInv_of_reach h
  have href : d.references c.objectKey = true := by
    simp only [NetworkCapture.references, hkey, decide_true, Bool.true_and]
    by_contra hmark
    have hdel : d.objectDeletedAt.isSome :=
      Option.isSome_iff_ne_none.mpr fun hnone => hmark (by rw [hnone]; rfl)
    have hterm := terminal_of_marked (hinv.inv.ok trivial d hd) (settled_of_reach h d hd) hdel
    rw [hlive] at hterm
    cases hterm
  have hinv' : AtomicInv anyCommand n s :=
    ⟨⟨hinv.inv.sane, hinv.inv.ok⟩, hinv.unlocked, hinv.unused⟩
  refine ⟨fun r s' hrun => ?_, fun e₁ e₂ e₃ e₄ e₅ hquiet =>
    cleanup_conflict_run hc hd href hlive hinv.unlocked hquiet⟩
  rcases cleanup_run hinv' hrun with ⟨k, rfl, hend⟩ | ⟨x, rfl, hend⟩
  · cases hend with
    | @nothing c' _ hc' hid hno hk =>
        obtain rfl := s.captures.eq_of_id hc' hc hid
        rw [hno d hd] at href
        cases href
    | @deleted c' _ count deletedAt hc' hid hterm hobjects hrows =>
        obtain rfl := s.captures.eq_of_id hc' hc hid
        rw [hterm d hd href] at hlive
        cases hlive
  · cases hend with
    | failed hx hk => exact ⟨hk, x, rfl, Or.inr hx⟩
    | missing hno hk => exact absurd rfl (hno c hc)
    | conflict _ _ _ _ _ hk => exact ⟨hk, _, rfl, Or.inl rfl⟩

end Guard

namespace Sample

/-- A capture expires without an upload, is cleaned up, and is requested again; the
same file is then uploaded and analyzed for the other scenario. -/
def reopened : List Operation :=
  [.serve (.create (data .upload) (uuid 5)) (createEnvs 1 10),
    .serve (.reconcile (some (seconds 100))) (List.replicate 3 (clock 100)),
    .serve (.cleanup (uuid 10)) (List.replicate 8 (clock 101)),
    .serve (.create (data .upload) (uuid 5)) (List.replicate 8 (clock 102))] ++
  analysis .download 6 20 103

end Sample

open Sample in
theorem not_cleanupSafe_reopened : ¬CleanupSafe Sample.settings Sample.seed anyCommand := by
  intro hsafe
  have hrun : (performAll settings 0 (Backend.initial seed) reopened).bind (fun p =>
      (solo exec p.1 (List.replicate 9 (clock 104)) (serve settings (.cleanup (uuid 20)))
        p.2).map fun q => (p.2.captures.rows.map fun c => (c.id, c.objectKey, c.status),
          q.1.isOk, q.2.objects objectKey)) =
      some ([(uuid 10, objectKey, .pendingUpload), (uuid 20, objectKey, .analyzed)],
        true, none) := by
    decide +kernel
  obtain ⟨⟨n, s⟩, hs, hnext⟩ := Option.bind_eq_some_iff.mp hrun
  obtain ⟨⟨r, s'⟩, hsolo, hout⟩ := Option.map_eq_some_iff.mp hnext
  have hreach := atomicReach_of_performAll (by decide) .start hs
  obtain ⟨hrows, hok, -⟩ := Prod.mk.injEq .. |>.mp hout |>.imp_right (Prod.mk.injEq .. |>.mp)
  -- both rows, by what is known of them
  obtain ⟨d, c, hdc, hd, hc⟩ : ∃ d c, s.captures.rows = [d, c] ∧
      (d.id, d.objectKey, d.status) = (uuid 10, objectKey, .pendingUpload) ∧
      (c.id, c.objectKey, c.status) = (uuid 20, objectKey, .analyzed) := by
    obtain ⟨d, l, hl, hd, hrest⟩ := List.map_eq_cons_iff.mp hrows
    obtain ⟨c, l', hl', hc, hnil⟩ := List.map_eq_cons_iff.mp hrest
    rw [List.map_eq_nil_iff.mp hnil] at hl'
    exact ⟨d, c, by rw [hl, hl'], hd, hc⟩
  simp only [Prod.mk.injEq] at hd hc
  obtain ⟨hruns, -⟩ := hsafe n s hreach c (by simp [hdc]) d (by simp [hdc])
    (hd.2.1.trans hc.2.1.symm) (by simp [NetworkCapture.terminal, hd.2.2])
  rw [hc.1] at hruns
  have hrun' : Runs exec (Allowed (Mode.atomic anyCommand) (.cleanup (uuid 20)) n) n
      (serve settings (.cleanup (uuid 20))) s r s' :=
    Runs.of_solo (fun e he c t => ⟨trivial, fun _ _ => by rw [List.eq_of_mem_replicate he]; rfl,
      fun hk => hk.elim, fun _ hc => by cases hc⟩) hsolo
  obtain ⟨-, x, rfl, -⟩ := hruns r s' hrun'
  cases hok

end Sahabino
