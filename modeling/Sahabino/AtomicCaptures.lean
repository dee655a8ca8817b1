import Sahabino.Lifecycle

/-!
# Operations one after the other

The capture operations again, now each of them running from start to end
before the next one starts: the requests of the pool, the single statements
of the analyzer, and the outside world in between. Reads, locks and
broker calls may still fail; the writes of an operation do not, since half
an operation is not an atomic one.

Nothing moves under a running operation here, so what it read is what is
stored, and the rows keep a much stronger invariant than under
interleaving (`capture_rows_ok`).
-/

namespace Sahabino

open Conc

/-! ## Atomic operations -/

/-- One operation at a time, with a further condition on its commands. -/
def Mode.atomic (extra : Cmd → Backend → Prop) : Mode where
  alone := True
  frozen := fun _ => False
  keepVerified := False
  direction := none
  extra := fun _ _ c _ s => extra c s
  extraExternal := fun _ _ => True

/-- No further condition. -/
def anyCommand : Cmd → Backend → Prop := fun _ _ => True

/-- What session `n` does from start to end. -/
inductive AtomicOp (settings : Settings) (extra : Cmd → Backend → Prop) (n : Nat)
    (s s' : Backend) : Prop
  | serve (req : Request) (r : Except CaptureError Reply)
      (h : Runs exec (Allowed (Mode.atomic extra) req n) n (serve settings req) s r s')
  | attempt (u : AttemptUpdate) (e : Env) (v : Except CaptureError Bool)
      (h : exec n e (.attempt u) s = some (v, s'))
  | external (x : External) (h : external x s = some s')

/-- The states after any number of operations, each with a session of its own. -/
inductive AtomicReach (settings : Settings) (extra : Cmd → Backend → Prop) (n₀ : Nat)
    (s₀ : Backend) : Nat → Backend → Prop
  | start : AtomicReach settings extra n₀ s₀ n₀ s₀
  | op {n : Nat} {s s' : Backend} : AtomicReach settings extra n₀ s₀ n s →
      AtomicOp settings extra n s s' → AtomicReach settings extra n₀ s₀ (n + 1) s'

/-- An operation with the choices of the environment. -/
inductive Operation where
  | serve (req : Request) (envs : List Env)
  | attempt (u : AttemptUpdate) (e : Env)
  | external (x : External)

/-- The same as a function. -/
def performAll (settings : Settings) : Nat → Backend → List Operation → Option (Nat × Backend)
  | n, s, [] => some (n, s)
  | n, s, .serve req envs :: ops =>
      match solo exec n envs (serve settings req) s with
      | some (_, s') => performAll settings (n + 1) s' ops
      | none => none
  | n, s, .attempt u e :: ops =>
      match exec n e (.attempt u) s with
      | some (_, s') => performAll settings (n + 1) s' ops
      | none => none
  | n, s, .external x :: ops =>
      match external x s with
      | some s' => performAll settings (n + 1) s' ops
      | none => none

def Operation.quiet : Operation → Bool
  | .serve _ envs => envs.all fun e => e.fault = .none
  | _ => true

theorem atomicReach_of_performAll {settings : Settings} {n₀ n' : Nat} {s₀ s' : Backend} :
    ∀ {ops : List Operation} {n : Nat} {s : Backend}, ops.all Operation.quiet = true →
      AtomicReach settings anyCommand n₀ s₀ n s → performAll settings n s ops = some (n', s') →
        AtomicReach settings anyCommand n₀ s₀ n' s'
  | [], n, s, _, hreach, h => by
      obtain ⟨rfl, rfl⟩ := Prod.mk.injEq .. |>.mp (Option.some.inj h)
      exact hreach
  | .serve req envs :: ops, n, s, hall, hreach, h => by
      rw [List.all_cons, Bool.and_eq_true] at hall
      have hquiet : ∀ e ∈ envs, e.fault = .none := by
        simpa [Operation.quiet, List.all_eq_true] using hall.1
      simp only [performAll] at h
      split at h
      · rename_i r s₁ hsolo
        have hrun : Runs exec (Allowed (Mode.atomic anyCommand) req n) n (serve settings req) s
            r s₁ :=
          Runs.of_solo (fun e he c t =>
            ⟨trivial, fun _ _ => hquiet e he, fun hk => hk.elim, nofun⟩) hsolo
        exact atomicReach_of_performAll hall.2 (hreach.op (.serve req r hrun)) h
      · cases h
  | .attempt u e :: ops, n, s, hall, hreach, h => by
      rw [List.all_cons, Bool.and_eq_true] at hall
      simp only [performAll] at h
      split at h
      · rename_i v s₁ hx
        exact atomicReach_of_performAll hall.2 (hreach.op (.attempt u e v hx)) h
      · cases h
  | .external x :: ops, n, s, hall, hreach, h => by
      rw [List.all_cons, Bool.and_eq_true] at hall
      simp only [performAll] at h
      split at h
      · rename_i s₁ hx
        exact atomicReach_of_performAll hall.2 (hreach.op (.external x hx)) h
      · cases h

/-! ## Locks and sessions -/

/-- Only session `n` is there. -/
structure Solo (n : Nat) (s : Backend) : Prop where
  owner : ∀ k j, s.locks k = some j → j = n
  committed : ∀ i, n < i → .committed i ∉ s.history

theorem Solo.releaseLocks {n : Nat} {s : Backend} (h : Solo n s) : Solo n (s.releaseLocks n) := by
  refine ⟨fun k j hk => ?_, h.committed⟩
  simp only [Backend.releaseLocks] at hk
  split at hk
  · cases hk
  · exact h.owner k j hk

theorem Effect.solo {n : Nat} {now : Timestamp} {s s' : Backend} {c : Cmd}
    (h : Effect n now s c s') (hs : Solo n s) : Solo n s' := by
  cases h with
  | idle => exact hs
  | locked key _ =>
      refine ⟨fun k j hk => ?_, hs.committed⟩
      by_cases hkey : k = key
      · subst hkey
        simp only [Function.update_self] at hk
        exact (Option.some.inj hk).symm
      · simp only [Function.update_of_ne hkey] at hk
        exact hs.owner k j hk
  | committed work s₁ hf =>
      obtain ⟨captures, keys, rfl, -, -⟩ := Backend.flush_ok hf
      have hrel := hs.releaseLocks
      refine ⟨hrel.owner, fun i hi hmem => ?_⟩
      rcases List.mem_append.mp hmem with hmem | hmem
      · exact hs.committed i hi hmem
      · have heq := HistoryEvent.committed.inj (List.mem_singleton.mp hmem)
        omega
  | rolledBack => exact hs.releaseLocks
  | deleted objectKey => exact ⟨hs.owner, hs.committed⟩
  | readyPublished event => exact ⟨hs.owner, hs.committed⟩
  | analysisSent event => exact ⟨hs.owner, hs.committed⟩
  | analysisPublished event =>
      refine ⟨hs.owner, fun i hi hmem => ?_⟩
      rcases List.mem_append.mp hmem with hmem | hmem
      · exact hs.committed i hi hmem
      · cases List.mem_singleton.mp hmem
  | attempted u _ =>
      obtain ⟨events, heq, hev⟩ := u.run_frame n now s
      rw [heq]
      refine ⟨hs.owner, fun i hi hmem => ?_⟩
      rcases List.mem_append.mp hmem with hmem | hmem
      · exact hs.committed i hi hmem
      · exact hev i hmem

/-- Session `n` holds no lock. -/
def Unlocked (n : Nat) (s : Backend) : Prop := ∀ k, s.locks k ≠ some n

/-- Leaving the session block gives the locks back, whichever way. -/
theorem withSession_released_wp {m : Mode} {settings : Settings} {req : Request} {i : Nat}
    {s : Backend} {α : Type} {body : Process α} {Q : α → Backend → Prop}
    {X : CaptureError → Backend → Prop}
    (h : (captureProto m settings req).wp exec i body Q X s) :
    (captureProto m settings req).wp exec i (withSession body) (fun _ => Unlocked i)
      (fun _ => Unlocked i) s :=
  Proto.wp_ensure.mpr (Proto.wp_mono
    (fun _ _ _ => wp_rollback fun t _ _ => releaseLocks_ne i t)
    (fun _ _ _ => wp_rollback fun t _ _ => releaseLocks_ne i t) h)

theorem serve_released_wp {m : Mode} {settings : Settings} {req : Request} {i : Nat}
    {s : Backend} (hreq : req.locking) (h : Fresh i s) :
    (captureProto m settings req).wp exec i (serve settings req) (fun _ => Unlocked i)
      (fun _ => Unlocked i) s := by
  cases req with
  | create data key =>
      exact Proto.wp_seq (withSession_released_wp (create_wp rfl h.1 h.2))
  | cleanup captureId =>
      exact Proto.wp_seq (withSession_released_wp (cleanupCaptureObject_wp rfl h.1))
  | complete captureId => cases hreq
  | reconcile now => cases hreq
  | retry captureId => cases hreq
  | processNext => cases hreq

/-- The other operations never take a lock. -/
theorem exec_unlocked {m : Mode} {settings : Settings} {req : Request} {n : Nat} {c : Cmd}
    {e : Env} {v : Except CaptureError c.Answer} {s s' : Backend} (hreq : ¬req.locking)
    (hp : Issued m settings req n c s) (h : exec n e c s = some (v, s')) (hs : Unlocked n s) :
    Unlocked n s' := by
  cases exec_effect h with
  | idle => exact hs
  | locked key _ =>
      cases key with
      | idempotency k =>
          obtain ⟨⟨data, rfl⟩, -⟩ := hp
          exact absurd trivial hreq
      | object objectKey => exact absurd hp.1 hreq
  | committed work s₁ hf => exact releaseLocks_ne n s₁
  | rolledBack => exact releaseLocks_ne n s
  | deleted objectKey => exact hs
  | readyPublished event => exact hs
  | analysisSent event => exact hs
  | analysisPublished event => exact hs
  | attempted u _ =>
      obtain ⟨events, heq, -⟩ := u.run_frame n e.now s
      rw [heq]
      exact hs

/-! ## The state between two operations -/

/-- Rows in order, nobody holding anything, and the next sessions unused. -/
structure AtomicInv (extra : Cmd → Backend → Prop) (n : Nat) (s : Backend) : Prop where
  inv : Inv (Mode.atomic extra) s
  unlocked : ∀ k, s.locks k = none
  unused : ∀ i, n ≤ i → .committed i ∉ s.history

section

variable {settings : Settings} {extra : Cmd → Backend → Prop} {n : Nat} {s s' : Backend}

theorem AtomicInv.not_held (h : AtomicInv extra n s) (k : LockKey) (j : Nat) :
    s.locks k ≠ some j := by
  rw [h.unlocked k]
  exact nofun

theorem AtomicInv.fresh (h : AtomicInv extra n s) : Fresh n s :=
  ⟨fun k => h.not_held k n, h.unused n (Nat.le_refl n)⟩

theorem AtomicInv.solo (h : AtomicInv extra n s) : Solo n s :=
  ⟨fun k j hk => absurd hk (h.not_held k j), fun i hi => h.unused i (Nat.le_of_lt hi)⟩

theorem AtomicInv.next (hinv : Inv (Mode.atomic extra) s) (hsolo : Solo n s)
    (hfree : Unlocked n s) : AtomicInv extra (n + 1) s := by
  refine ⟨hinv, fun k => ?_, fun i hi => hsolo.committed i hi⟩
  cases hk : s.locks k with
  | none => rfl
  | some j =>
      rw [hsolo.owner k j hk] at hk
      exact absurd hk (hfree k)

/-- A property that the commands of `req` keep when they are issued in order is
kept by the whole operation, whatever postconditions the operation meets. -/
theorem run_keeps {req : Request} {J : Backend → Prop} {Q : Reply → Backend → Prop}
    {X : CaptureError → Backend → Prop} {r : Except CaptureError Reply}
    (hJ : ∀ {c e v t t'}, Inv (Mode.atomic extra) t →
      Issued (Mode.atomic extra) settings req n c t →
      Allowed (Mode.atomic extra) req n c e t → exec n e c t = some (v, t') → J t → J t')
    (hrun : Runs exec (Allowed (Mode.atomic extra) req n) n (serve settings req) s r s')
    (h : AtomicInv extra n s) (hs : J s)
    (hwp : (captureProto (Mode.atomic extra) settings req).wp exec n (serve settings req) Q X s) :
    Inv (Mode.atomic extra) s' ∧ J s' ∧ (∀ a, r = .ok a → Q a s') ∧
      ∀ x, r = .error x → X x s' :=
  Runs.wp (P := captureProto (Mode.atomic extra) settings req) (fun t => Rely.refl _ n t)
    (fun hi hp _ hx => exec_inv hi hp hx) hJ hrun h.inv hs hwp

theorem serve_atomicInv {req : Request} {r : Except CaptureError Reply}
    (hrun : Runs exec (Allowed (Mode.atomic extra) req n) n (serve settings req) s r s')
    (h : AtomicInv extra n s) : AtomicInv extra (n + 1) s' := by
  by_cases hreq : req.locking
  · obtain ⟨hinv, hsolo, hret, hraise⟩ := run_keeps (J := Solo n)
      (fun _ _ _ hx hj => (exec_effect hx).solo hj) hrun h h.solo (serve_released_wp hreq h.fresh)
    refine AtomicInv.next hinv hsolo ?_
    cases r with
    | ok a => exact hret a rfl
    | error x => exact hraise x rfl
  · obtain ⟨hinv, ⟨hsolo, hfree⟩, -, -⟩ := run_keeps (J := fun t => Solo n t ∧ Unlocked n t)
      (fun _ hp _ hx hj => ⟨(exec_effect hx).solo hj.1, exec_unlocked hreq hp hx hj.2⟩)
      hrun h ⟨h.solo, h.fresh.1⟩ (serve_wp req h.fresh)
    exact AtomicInv.next hinv hsolo hfree

/-- A single statement of the analyzer, with any arguments. -/
theorem attempt_cases {u : AttemptUpdate} {e : Env} {v : Except CaptureError Bool}
    (h : exec n e (.attempt u) s = some (v, s')) :
    s' = s ∨ (s.captures.rows.any u.applies = true ∧ s' = u.run n e.now s) := by
  cases exec_effect h with
  | idle => exact Or.inl rfl
  | attempted _ hany => exact Or.inr ⟨hany, rfl⟩

theorem attempt_atomicInv {u : AttemptUpdate} {e : Env} {v : Except CaptureError Bool}
    (hx : exec n e (.attempt u) s = some (v, s')) (h : AtomicInv extra n s) :
    AtomicInv extra (n + 1) s' := by
  have hsolo := (exec_effect hx).solo h.solo
  rcases attempt_cases hx with rfl | ⟨-, rfl⟩
  · exact AtomicInv.next h.inv hsolo h.fresh.1
  · have hinv : Inv (Mode.atomic extra) (u.run n e.now s) := by
      refine ⟨fun c hc => ?_, fun _ c hc => ?_⟩
      · rw [AttemptUpdate.run_captures, CaptureTable.rows_update, List.mem_map] at hc
        obtain ⟨c₀, hc₀, rfl⟩ := hc
        exact AttemptUpdate.writeRow_sane (h.inv.sane c₀ hc₀)
      · rw [AttemptUpdate.run_captures, CaptureTable.rows_update, List.mem_map] at hc
        obtain ⟨c₀, hc₀, rfl⟩ := hc
        exact AttemptUpdate.writeRow_ok (h.inv.ok trivial c₀ hc₀)
    have hfree : Unlocked n (u.run n e.now s) := by
      obtain ⟨events, heq, -⟩ := u.run_frame n e.now s
      rw [heq]
      exact h.fresh.1
    exact AtomicInv.next hinv hsolo hfree

theorem AtomicOp.atomicInv (hop : AtomicOp settings extra n s s') (h : AtomicInv extra n s) :
    AtomicInv extra (n + 1) s' := by
  cases hop with
  | serve req r hrun => exact serve_atomicInv hrun h
  | attempt u e v hx => exact attempt_atomicInv hx h
  | external x hx =>
      obtain ⟨-, -, -, -, hlocks, hhistory⟩ := external_frame hx
      refine ⟨external_inv h.inv hx, ?_, fun i hi => ?_⟩
      · rw [hlocks]
        exact h.unlocked
      · rw [hhistory]
        exact h.unused i (Nat.le_of_succ_le hi)

theorem atomicInv_of_reach {seed : Seed}
    (h : AtomicReach settings extra 0 (Backend.initial seed) n s) : AtomicInv extra n s := by
  induction h with
  | start =>
      exact ⟨⟨fun _ hc => absurd hc List.not_mem_nil, fun _ _ hc => absurd hc List.not_mem_nil⟩,
        fun _ => rfl, fun _ _ => List.not_mem_nil⟩
  | op _ hop ih => exact hop.atomicInv ih

/-! ## Rows -/

/-- Rows stay, and keep their identities. -/
theorem Effect.identities {i : Nat} {now : Timestamp} {c : Cmd} (h : Effect i now s c s') :
    ∀ r ∈ s.captures.rows, ∃ r' ∈ s'.captures.rows,
      r'.toCaptureIdentity = r.toCaptureIdentity := by
  intro r hr
  cases h with
  | committed work s₁ hf =>
      obtain ⟨captures, keys, rfl, hrows, -⟩ := Backend.flush_ok hf
      exact ⟨work.writeRow r, (hrows _).mpr (Or.inl ⟨r, hr, rfl⟩), work.writeRow_identity r⟩
  | attempted u _ =>
      refine ⟨u.writeRow now r, ?_, u.writeRow_identity now r⟩
      rw [AttemptUpdate.run_captures]
      exact List.mem_map_of_mem hr
  | idle => exact ⟨r, hr, rfl⟩
  | locked key _ => exact ⟨r, hr, rfl⟩
  | rolledBack => exact ⟨r, hr, rfl⟩
  | deleted objectKey => exact ⟨r, hr, rfl⟩
  | readyPublished event => exact ⟨r, hr, rfl⟩
  | analysisSent event => exact ⟨r, hr, rfl⟩
  | analysisPublished event => exact ⟨r, hr, rfl⟩

theorem runs_identities {allow : Cmd → Env → Backend → Prop}
    {p : Process Reply} {r : Except CaptureError Reply} (h : Runs exec allow n p s r s') :
    ∀ c ∈ s.captures.rows, ∃ c' ∈ s'.captures.rows,
      c'.toCaptureIdentity = c.toCaptureIdentity := by
  induction h with
  | ret a s => exact fun c hc => ⟨c, hc, rfl⟩
  | raise e s => exact fun c hc => ⟨c, hc, rfl⟩
  | call _ hx _ ih =>
      intro c hc
      obtain ⟨c₁, hc₁, hid₁⟩ := (exec_effect hx).identities c hc
      obtain ⟨c₂, hc₂, hid₂⟩ := ih c₁ hc₁
      exact ⟨c₂, hc₂, hid₂.trans hid₁⟩

theorem AtomicOp.identities (h : AtomicOp settings extra n s s') :
    ∀ c ∈ s.captures.rows, ∃ c' ∈ s'.captures.rows,
      c'.toCaptureIdentity = c.toCaptureIdentity := by
  cases h with
  | serve req r hrun => exact runs_identities hrun
  | attempt u e v hx => exact (exec_effect hx).identities
  | external x hx =>
      rw [(external_frame hx).1]
      exact fun c hc => ⟨c, hc, rfl⟩

theorem AtomicReach.identities {n₀ : Nat} {s₀ : Backend}
    (h : AtomicReach settings extra n₀ s₀ n s) :
    ∀ c ∈ s₀.captures.rows, ∃ c' ∈ s.captures.rows,
      c'.toCaptureIdentity = c.toCaptureIdentity := by
  induction h with
  | start => exact fun c hc => ⟨c, hc, rfl⟩
  | op _ hop ih =>
      intro c hc
      obtain ⟨c₁, hc₁, hid₁⟩ := ih c hc
      obtain ⟨c₂, hc₂, hid₂⟩ := hop.identities c₁ hc₁
      exact ⟨c₂, hc₂, hid₂.trans hid₁⟩

/-- The rows of a reachable state, the publisher's demand, and what the rows keep
from here on. -/
structure CaptureRowsOk (settings : Settings) (n : Nat) (s : Backend) : Prop where
  rows : ∀ c ∈ s.captures.rows, CaptureOk c
  published : ∀ req r s',
    Runs exec (Allowed (Mode.atomic anyCommand) req n) n (serve settings req) s r s' →
    r ≠ .error uploadTimeMissing
  identities : ∀ n' s', AtomicReach settings anyCommand n s n' s' →
    ∀ c ∈ s.captures.rows, ∀ c' ∈ s'.captures.rows, c'.id = c.id →
      c'.toCaptureIdentity = c.toCaptureIdentity

theorem capture_rows_ok {seed : Seed}
    (h : AtomicReach settings anyCommand 0 (Backend.initial seed) n s) :
    CaptureRowsOk settings n s := by
  have hinv := atomicInv_of_reach h
  refine ⟨hinv.inv.ok trivial, fun req r s' hrun hr => ?_, fun n' s' hreach c hc c' hc' hid => ?_⟩
  · obtain ⟨-, -, -, hraise⟩ := run_keeps (J := fun _ => True) (fun _ _ _ _ h => h) hrun hinv
      trivial (serve_wp req hinv.fresh)
    exact (hraise _ hr).2 trivial rfl
  · obtain ⟨c₁, hc₁, hid₁⟩ := hreach.identities c hc
    have hsame : c'.id = c₁.id := hid.trans (congrArg CaptureIdentity.id hid₁).symm
    rw [s'.captures.eq_of_id hc' hc₁ hsame]
    exact hid₁

end

namespace Sample

/-- Create, upload and complete a capture, and analyze it. -/
def analysis (scenario : Scenario) (key n t : Nat) : List Operation :=
  [.serve (.create (data scenario) (uuid key)) (createEnvs t n),
    .external (.putObject objectKey ⟨100, none⟩),
    .serve (.complete (uuid n)) (List.replicate 6 (clock t)),
    .attempt (.claimAttempt (uuid n) (seconds t) (seconds t - seconds 60)) (clock t),
    .attempt (.markVerified (uuid n) sha (seconds t)) (clock t),
    .attempt (.markAnalyzed (uuid n) sha (seconds t)) (clock t)]

end Sample

theorem capture_rows_ok_analyzed : ∃ n s,
    performAll Sample.settings 0 (Backend.initial Sample.seed) (Sample.analysis .upload 5 10 1) =
      some (n, s) ∧
    s.captures.rows.map (·.status) = [.analyzed] ∧ CaptureRowsOk Sample.settings n s := by
  have hrun : (performAll Sample.settings 0 (Backend.initial Sample.seed)
      (Sample.analysis .upload 5 10 1)).map (fun p => p.2.captures.rows.map (·.status)) =
      some [.analyzed] := by
    decide +kernel
  obtain ⟨⟨n, s⟩, hs, hst⟩ := Option.map_eq_some_iff.mp hrun
  exact ⟨n, s, hs, hst, capture_rows_ok (atomicReach_of_performAll (by decide) .start hs)⟩

end Sahabino
