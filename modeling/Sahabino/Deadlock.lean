import Sahabino.Lib.LockOrder
import Sahabino.Lifecycle

/-!
# The order of the advisory locks

`create` takes the lock of its idempotency key before any object key, and
`cleanup_capture_object` takes one object key only. A `create` call whose
logical row has the other format takes a second object key, after the one
of its own request. The order of the two is the order of the request, so
nothing keeps two calls from taking the same two keys the other way round
(`not_deadlockFree_crossed_formats`).

If, for every hash, only requests of one format meet rows of the other
one, all calls climb the same ranks, and no cycle of waiting sessions can
arise (`deadlockFree_of_direction`).
-/

namespace Sahabino

open Conc

/-- The lock a session is about to ask for. -/
def wants (w : CaptureWorld) (i : Nat) : Option LockKey :=
  match w.sessions[i]? with
  | some ⟨_, some (.call (.lock key) _)⟩ => some key
  | _ => none

theorem wants_eq_some {w : CaptureWorld} {i : Nat} {key : LockKey} (h : wants w i = some key) :
    ∃ r k, w.sessions[i]? = some ⟨r, some (.call (.lock key) k)⟩ := by
  unfold wants at h
  split at h
  · rename_i r key' k hi
    obtain rfl := Option.some.inj h
    exact ⟨r, k, hi⟩
  · cases h

/-- No session waits, through any number of others, for itself. -/
def DeadlockFree (settings : Settings) (seed : Seed)
    (allow : CaptureLabel → CaptureWorld → Prop) : Prop :=
  ∀ w, (captureSystem settings).Reach allow (initialWorld seed) w →
    ∀ i, ¬Relation.TransGen (WaitsFor (wants w) w.shared.locks) i i

/-- A `create` call that is about to find its logical row in the other format asks
for the format its hash is assigned. -/
def crossesOneWay (dir : Sha256 → CaptureFormat) : CaptureLabel → CaptureWorld → Prop
  | .run i _, w => ∀ data key a sc sha k,
      w.sessions[i]? = some ⟨.create data key, some (.call (.query (.getLogical a sc sha)) k)⟩ →
      ∀ r ∈ w.shared.captures.rows,
        r.logical = (data.applicationId, data.scenario, data.sha256) →
        r.captureFormat ≠ data.captureFormat → data.captureFormat = dir data.sha256
  | _, _ => True

def Mode.oneWay (dir : Sha256 → CaptureFormat) : Mode :=
  { Mode.pool with direction := some dir }

theorem oneWay_allows {settings : Settings} {dir : Sha256 → CaptureFormat} {l : CaptureLabel}
    {w : CaptureWorld} (h : crossesOneWay dir l w) :
    (captureDiscipline (Mode.oneWay dir) settings).Allows l w := by
  cases l with
  | spawn r => trivial
  | run i e =>
      intro r c k hi
      refine ⟨trivial, fun h => h.elim, fun h => h.elim, fun dir' hdir data key hreq hc => ?_⟩
      obtain rfl := Option.some.inj hdir
      obtain ⟨a, sc, sha, rfl⟩ := hc
      subst hreq
      exact h data key a sc sha k hi
  | crash i => trivial
  | ext x => exact ⟨trivial, fun _ _ _ _ h => h.elim⟩

open Classical in
/-- Idempotency keys first, then the assigned format's object of a hash, then
the other one's. -/
noncomputable def lockRank (dir : Sha256 → CaptureFormat) : LockKey → Nat
  | .idempotency _ => 0
  | .object objectKey => if ∃ sha, objectKey = objectKeyFor sha (dir sha) then 1 else 2

theorem lockRank_object_pos (dir : Sha256 → CaptureFormat) (objectKey : String) :
    0 < lockRank dir (.object objectKey) := by
  simp only [lockRank]
  by_cases h : ∃ sha, objectKey = objectKeyFor sha (dir sha)
  · rw [if_pos h]
    omega
  · rw [if_neg h]
    omega

theorem lockRank_assigned {dir : Sha256 → CaptureFormat} {sha : Sha256} {f : CaptureFormat}
    (h : f = dir sha) : lockRank dir (.object (objectKeyFor sha f)) = 1 := by
  simp only [lockRank]
  rw [if_pos ⟨sha, by rw [h]⟩]

theorem lockRank_other {dir : Sha256 → CaptureFormat} {sha : Sha256} {f : CaptureFormat}
    (h : f ≠ dir sha) : lockRank dir (.object (objectKeyFor sha f)) = 2 := by
  simp only [lockRank]
  rw [if_neg]
  rintro ⟨sha', heq⟩
  obtain ⟨rfl, hf⟩ := objectKeyFor_inj heq
  exact h hf

/-- Whoever asks for a lock climbs. -/
theorem Issued.climbs {settings : Settings} {dir : Sha256 → CaptureFormat} {req : Request}
    {i : Nat} {key held : LockKey} {s : Backend}
    (h : Issued (Mode.oneWay dir) settings req i (.lock key) s) (hheld : s.locks held = some i) :
    lockRank dir held < lockRank dir key := by
  cases key with
  | idempotency k => exact absurd hheld (h.2 held)
  | object objectKey =>
      cases held with
      | idempotency k => exact lockRank_object_pos dir objectKey
      | object o =>
          rcases h.2 with hnone | ⟨data, k, -, hsecond⟩
          · exact absurd hheld (hnone o)
          · -- the second object: the first one is the request's own
            have hdir := hsecond.direction dir rfl
            obtain ⟨f, hkey, hf⟩ := hsecond.other
            rw [hsecond.held o hheld, hkey, lockRank_assigned hdir,
              lockRank_other fun heq => hf (heq.trans hdir.symm)]
            omega

theorem deadlockFree_of_direction (settings : Settings) (seed : Seed)
    (dir : Sha256 → CaptureFormat) : DeadlockFree settings seed (crossesOneWay dir) := by
  intro w hw
  have hsound := captureDiscipline_sound (m := Mode.oneWay dir) not_false settings
  have hok := hsound.ok_of_reach (ok_initialWorld _ settings seed)
    (hw.mono fun _ _ h => oneWay_allows h)
  have hord : Ordered (wants w) w.shared.locks (lockRank dir) := by
    intro i key held hwant hheld
    obtain ⟨r, k, hi⟩ := wants_eq_some hwant
    exact Issued.climbs (hok.issued hsound hi) hheld
  exact hord.no_cycle

namespace Sample

/-- The same file under the other suffix. -/
def pcapngData (scenario : Scenario) : CaptureCreate :=
  { data scenario with filename := "a.pcapng", filename_ok := by decide }

/-- The file is registered as `pcap` for one scenario and as `pcapng` for the
other; then each scenario is requested again in its other format, and both
calls get as far as the logical row. -/
def crossedFormats : List CaptureLabel :=
  .spawn (.create (data .upload) (uuid 5)) :: createSteps 0 1 10 ++
  .spawn (.create (pcapngData .download) (uuid 6)) :: createSteps 1 2 20 ++
  [.spawn (.create (pcapngData .upload) (uuid 7)), .spawn (.create (data .download) (uuid 8))] ++
  steps 2 3 4 ++ steps 3 3 4

def pcapngKey : String := objectKeyFor sha .pcapng

end Sample

open Sample in
theorem not_deadlockFree_crossed_formats :
    ¬DeadlockFree Sample.settings Sample.seed anyStep := by
  intro hfree
  have hrun : ((captureSystem settings).run (initialWorld seed) crossedFormats).map (fun w =>
      [wants w 2, wants w 3]) =
      some [some (.object objectKey), some (.object pcapngKey)] := by
    decide +kernel
  have hlocks : ((captureSystem settings).run (initialWorld seed) crossedFormats).map (fun w =>
      [w.shared.locks (.object objectKey), w.shared.locks (.object pcapngKey)]) =
      some [some 3, some 2] := by
    decide +kernel
  obtain ⟨w, hw, hwants⟩ := Option.map_eq_some_iff.mp hrun
  rw [hw, Option.map_some] at hlocks
  have hheld := Option.some.inj hlocks
  simp only [List.cons.injEq, and_true] at hwants hheld
  have h₂ : WaitsFor (wants w) w.shared.locks 2 3 :=
    ⟨_, hwants.1, hheld.1, by decide⟩
  have h₃ : WaitsFor (wants w) w.shared.locks 3 2 :=
    ⟨_, hwants.2, hheld.2, by decide⟩
  have hreach := System.reach_of_run (fun _ _ _ => trivial) .refl hw
  exact hfree w hreach 2 (Relation.TransGen.tail (.single h₂) h₃)

end Sahabino
