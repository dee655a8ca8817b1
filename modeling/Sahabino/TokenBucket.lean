import Sahabino.Lib.Budget
import Sahabino.ProxyPool

/-!
# The token bucket

One `TokenBucketRateLimiter` and any number of threads that acquire
tokens or ask how many there are. A thread reads the clock for its
deadline before it takes the lock, and again each time it holds the lock;
between two attempts it sleeps, and the threads wake up in any order. The
clock may give any readings.

Only a reading made under the lock refills the bucket, and the bucket
never goes back before the latest of them. So time is their running
maximum, and over it the bucket is a budget (`bucket_budget`).
-/

namespace Sahabino

structure RateLimiterConfig where
  refillPerSecond : ℚ
  capacity : Int
  maximumWaitSeconds : ℚ

structure TokenBucket where
  tokens : ℚ
  lastRefill : Seconds
deriving DecidableEq

inductive TokenAttempt where
  | granted
  | waitExceeded
  | wait (seconds : ℚ)

namespace TokenBucket

variable (cfg : RateLimiterConfig)

/-- `TokenBucketRateLimiter(...)`; the clock is read at the end. -/
def new (now : Seconds) : Except PyError TokenBucket :=
  if cfg.refillPerSecond ≤ 0 then .error (.other "ValueError" "refill rate must be positive")
  else if cfg.capacity < 1 then .error (.other "ValueError" "capacity must be at least one")
  else if cfg.maximumWaitSeconds ≤ 0 then
    .error (.other "ValueError" "maximum wait must be positive")
  else .ok ⟨cfg.capacity, now⟩

/-- `_refill`. -/
def refill (now : Seconds) (b : TokenBucket) : TokenBucket :=
  let elapsed := max 0 (now - b.lastRefill)
  { tokens := min cfg.capacity (b.tokens + elapsed * cfg.refillPerSecond)
    lastRefill := max b.lastRefill now }

/-- One turn of the loop of `acquire`, under the lock. -/
def attempt (deadline now : Seconds) (b : TokenBucket) : TokenAttempt × TokenBucket :=
  let b := b.refill cfg now
  if 1 ≤ b.tokens then (.granted, { b with tokens := b.tokens - 1 })
  else
    let waitSeconds := (1 - b.tokens) / cfg.refillPerSecond
    if deadline < now + waitSeconds then (.waitExceeded, b) else (.wait waitSeconds, b)

end TokenBucket

/-- `LocalRateLimitWaitExceeded`. -/
def rateLimitWaitExceeded : PyError :=
  .crawler ⟨.localRateLimitWaitExceeded,
    "global rate limiter could not grant a token within its local wait bound", false, none⟩

/-! ## The threads -/

inductive LimiterCall where
  | acquire
  | availableTokens

/-- Where a thread is: before its first reading, at the top of the loop, asleep, or
at its end. -/
inductive LimiterThread where
  | acquiring
  | trying (deadline : Seconds)
  | sleeping (deadline : Seconds) (seconds : ℚ)
  | acquired
  | raised (error : PyError)
  | asking
  | answered (tokens : ℚ)

def LimiterCall.thread : LimiterCall → LimiterThread
  | acquire => .acquiring
  | availableTokens => .asking

/-- A reading of the clock, and whether it was made under the lock. -/
structure ClockReading where
  value : Seconds
  locked : Bool

/-- The limiter and its threads; `readings` are those since the bucket was built, and
`grants` says for each token how many readings there had been when it was granted.
These two and `start`, the reading of the constructor, are stored nowhere. -/
structure LimiterWorld where
  bucket : TokenBucket
  threads : List LimiterThread
  start : Seconds
  readings : List ClockReading
  grants : List Nat

inductive LimiterStep where
  | call (c : LimiterCall)
  | run (i : Nat) (now : Seconds)
  | wake (i : Nat)

namespace LimiterWorld

variable (cfg : RateLimiterConfig)

def read (reading : ClockReading) (w : LimiterWorld) : LimiterWorld :=
  { w with readings := w.readings ++ [reading] }

def setThread (i : Nat) (thread : LimiterThread) (w : LimiterWorld) : LimiterWorld :=
  { w with threads := w.threads.set i thread }

/-- The turn of the loop that ends with this attempt. -/
def attempted (i : Nat) (deadline : Seconds) (w : LimiterWorld) : TokenAttempt → LimiterWorld
  | .granted => { w.setThread i .acquired with grants := w.grants ++ [w.readings.length] }
  | .waitExceeded => w.setThread i (.raised rateLimitWaitExceeded)
  | .wait seconds => w.setThread i (.sleeping deadline seconds)

/-- A new call, a thread up to its next reading of the clock, or one that wakes up. -/
def step : LimiterStep → LimiterWorld → Option LimiterWorld
  | .call c, w => some { w with threads := w.threads ++ [c.thread] }
  | .run i now, w =>
      match w.threads[i]? with
      | some .acquiring =>
          some ((w.read ⟨now, false⟩).setThread i (.trying (now + cfg.maximumWaitSeconds)))
      | some (.trying deadline) =>
          let (attempt, bucket) := w.bucket.attempt cfg deadline now
          some (attempted i deadline { w.read ⟨now, true⟩ with bucket := bucket } attempt)
      | some .asking =>
          let bucket := w.bucket.refill cfg now
          some ({ w.read ⟨now, true⟩ with bucket := bucket }.setThread i
            (.answered bucket.tokens))
      | _ => none
  | .wake i, w =>
      match w.threads[i]? with
      | some (.sleeping deadline _) => some (w.setThread i (.trying deadline))
      | _ => none

def run (w : LimiterWorld) : List LimiterStep → Option LimiterWorld
  | [] => some w
  | l :: ls => (w.step cfg l).bind fun w => w.run ls

end LimiterWorld

inductive LimiterReach (cfg : RateLimiterConfig) : LimiterWorld → Prop
  | start {bucket : TokenBucket} (now : Seconds) : TokenBucket.new cfg now = .ok bucket →
      LimiterReach cfg ⟨bucket, [], now, [], []⟩
  | step {w w' : LimiterWorld} {l : LimiterStep} : LimiterReach cfg w → w.step cfg l = some w' →
      LimiterReach cfg w'

/-! ## Time -/

/-- The greatest of the readings that are counted, and of the first one. -/
def runningMax (start : Seconds) (counted : ClockReading → Bool) (readings : List ClockReading) :
    Seconds :=
  ((readings.filter counted).map ClockReading.value).foldl max start

/-- The running maximum of the readings that refill the bucket, when a token was granted. -/
def LimiterWorld.grantedAt (w : LimiterWorld) (k : Nat) : Option Seconds :=
  w.grants[k]?.map fun n => runningMax w.start ClockReading.locked (w.readings.take n)

/-- The same of all readings. -/
def LimiterWorld.grantedBy (w : LimiterWorld) (k : Nat) : Option Seconds :=
  w.grants[k]?.map fun n => runningMax w.start (fun _ => true) (w.readings.take n)

theorem runningMax_append {start : Seconds} {counted : ClockReading → Bool}
    {readings : List ClockReading} {reading : ClockReading} :
    runningMax start counted (readings ++ [reading]) =
      if counted reading then max (runningMax start counted readings) reading.value
      else runningMax start counted readings := by
  unfold runningMax
  cases hcounted : counted reading with
  | true => simp [List.filter_append, hcounted]
  | false => simp [List.filter_append, hcounted]

/-! ## The bucket as a budget -/

namespace TokenBucket

variable {cfg : RateLimiterConfig} {now deadline : Seconds} {b : TokenBucket} {spent : List ℚ}

theorem budget_refill (hrate : 0 < cfg.refillPerSecond)
    (h : Budget (cfg.capacity : ℚ) cfg.refillPerSecond b.tokens b.lastRefill spent) :
    Budget (cfg.capacity : ℚ) cfg.refillPerSecond (b.refill cfg now).tokens
      (b.refill cfg now).lastRefill spent := by
  have helapsed : max b.lastRefill now - b.lastRefill = max 0 (now - b.lastRefill) := by
    rcases le_total b.lastRefill now with hle | hle
    · rw [max_eq_right hle, max_eq_right (sub_nonneg.mpr hle)]
    · rw [max_eq_left hle, max_eq_left (sub_nonpos.mpr hle), sub_self]
  have hnonneg : 0 ≤ max 0 (now - b.lastRefill) * cfg.refillPerSecond :=
    mul_nonneg (le_max_left _ _) hrate.le
  refine h.grow (le_min h.le_cap (le_add_of_nonneg_right hnonneg)) (min_le_left _ _) ?_
  show min _ _ ≤ b.tokens + cfg.refillPerSecond * (max b.lastRefill now - b.lastRefill)
  rw [helapsed, mul_comm cfg.refillPerSecond]
  exact min_le_right _ _

variable (deadline now) in
/-- An attempt spends a token exactly when it is granted. -/
theorem budget_attempt (hrate : 0 < cfg.refillPerSecond)
    (h : Budget (cfg.capacity : ℚ) cfg.refillPerSecond b.tokens b.lastRefill spent) :
    Budget (cfg.capacity : ℚ) cfg.refillPerSecond (b.attempt cfg deadline now).2.tokens
      (max b.lastRefill now) (match (b.attempt cfg deadline now).1 with
        | .granted => spent ++ [max b.lastRefill now]
        | _ => spent) := by
  have hrefilled : Budget (cfg.capacity : ℚ) cfg.refillPerSecond (b.refill cfg now).tokens
      (max b.lastRefill now) spent := budget_refill hrate h
  unfold attempt
  simp only
  split
  · rename_i hone
    exact hrefilled.spend hone
  · split
    · exact hrefilled
    · exact hrefilled

@[simp] theorem attempt_lastRefill :
    (b.attempt cfg deadline now).2.lastRefill = max b.lastRefill now := by
  unfold attempt
  simp only
  split
  · rfl
  · split <;> rfl

theorem new_ok {bucket : TokenBucket} (h : new cfg now = .ok bucket) :
    0 < cfg.refillPerSecond ∧ 0 < cfg.capacity ∧ bucket = ⟨cfg.capacity, now⟩ := by
  unfold new at h
  split at h
  · cases h
  rename_i hrate
  split at h
  · cases h
  rename_i hcapacity
  split at h
  · cases h
  exact ⟨not_le.mp hrate, by omega, (Except.ok.inj h).symm⟩

end TokenBucket

namespace LimiterWorld

variable {cfg : RateLimiterConfig} {w w' : LimiterWorld} {l : LimiterStep}

/-- What a step does to the bucket and to what is remembered of it: nothing, a reading
for a deadline, a refill, or an attempt. -/
theorem step_cases (h : w.step cfg l = some w') : w'.start = w.start ∧
    ((w'.bucket = w.bucket ∧ w'.readings = w.readings ∧ w'.grants = w.grants) ∨
    (∃ now, w'.bucket = w.bucket ∧ w'.readings = w.readings ++ [⟨now, false⟩] ∧
      w'.grants = w.grants) ∨
    (∃ now, w'.bucket = w.bucket.refill cfg now ∧ w'.readings = w.readings ++ [⟨now, true⟩] ∧
      w'.grants = w.grants) ∨
    (∃ deadline now, w'.bucket = (w.bucket.attempt cfg deadline now).2 ∧
      w'.readings = w.readings ++ [⟨now, true⟩] ∧
      w'.grants = match (w.bucket.attempt cfg deadline now).1 with
        | .granted => w.grants ++ [w.readings.length + 1]
        | _ => w.grants)) := by
  cases l with
  | call c =>
      obtain rfl := Option.some.inj h
      exact ⟨rfl, Or.inl ⟨rfl, rfl, rfl⟩⟩
  | run i now =>
      simp only [step] at h
      split at h
      · obtain rfl := Option.some.inj h
        exact ⟨rfl, Or.inr (Or.inl ⟨now, rfl, rfl, rfl⟩)⟩
      · rename_i deadline _
        obtain rfl := Option.some.inj h
        cases hattempt : (w.bucket.attempt cfg deadline now).1 with
        | granted =>
            refine ⟨rfl, Or.inr (Or.inr (Or.inr ⟨deadline, now, rfl, rfl, ?_⟩))⟩
            simp [hattempt, attempted, read]
        | waitExceeded =>
            refine ⟨rfl, Or.inr (Or.inr (Or.inr ⟨deadline, now, rfl, rfl, ?_⟩))⟩
            simp [hattempt, attempted, read, setThread]
        | wait seconds =>
            refine ⟨rfl, Or.inr (Or.inr (Or.inr ⟨deadline, now, rfl, rfl, ?_⟩))⟩
            simp [hattempt, attempted, read, setThread]
      · obtain rfl := Option.some.inj h
        exact ⟨rfl, Or.inr (Or.inr (Or.inl ⟨now, rfl, rfl, rfl⟩))⟩
      · cases h
  | wake i =>
      simp only [step] at h
      split at h
      · obtain rfl := Option.some.inj h
        exact ⟨rfl, Or.inl ⟨rfl, rfl, rfl⟩⟩
      · cases h

/-- The time of each grant. -/
def grantTimes (w : LimiterWorld) : List Seconds :=
  w.grants.map fun n => runningMax w.start ClockReading.locked (w.readings.take n)

/-- Over the running maximum of the readings that refill it, the bucket is a budget. -/
structure Ok (cfg : RateLimiterConfig) (w : LimiterWorld) : Prop where
  rate : 0 < cfg.refillPerSecond
  time : w.bucket.lastRefill = runningMax w.start ClockReading.locked w.readings
  grants : ∀ n ∈ w.grants, n ≤ w.readings.length
  budget : Budget (cfg.capacity : ℚ) cfg.refillPerSecond w.bucket.tokens w.bucket.lastRefill
    w.grantTimes

/-- A further reading does not change the time of a grant. -/
theorem grantTimes_read (hgrants : ∀ n ∈ w.grants, n ≤ w.readings.length)
    (more : List ClockReading) :
    w.grants.map (fun n => runningMax w.start ClockReading.locked ((w.readings ++ more).take n)) =
      w.grantTimes := by
  refine List.map_congr_left fun n hn => ?_
  rw [List.take_append_of_le_length (hgrants n hn)]

/-- Readings that bring no grant. -/
theorem Ok.read (hok : w.Ok cfg) (more : List ClockReading) (hstart : w'.start = w.start)
    (hreadings : w'.readings = w.readings ++ more) (hgrants : w'.grants = w.grants)
    (htime : w'.bucket.lastRefill = runningMax w.start ClockReading.locked (w.readings ++ more))
    (hbudget : Budget (cfg.capacity : ℚ) cfg.refillPerSecond w'.bucket.tokens w'.bucket.lastRefill
      w.grantTimes) : w'.Ok cfg := by
  refine ⟨hok.rate, ?_, ?_, ?_⟩
  · rw [htime, hstart, hreadings]
  · rw [hgrants, hreadings, List.length_append]
    exact fun n hn => (hok.grants n hn).trans (Nat.le_add_right _ _)
  · rw [grantTimes, hgrants, hreadings, hstart, grantTimes_read hok.grants]
    exact hbudget

/-- A reading that brings a grant, which is the last one. -/
theorem Ok.grant {now : Seconds} (hok : w.Ok cfg) (hstart : w'.start = w.start)
    (hreadings : w'.readings = w.readings ++ [⟨now, true⟩])
    (hgrants : w'.grants = w.grants ++ [w.readings.length + 1])
    (htime : w'.bucket.lastRefill = runningMax w.start ClockReading.locked
      (w.readings ++ [⟨now, true⟩]))
    (hbudget : Budget (cfg.capacity : ℚ) cfg.refillPerSecond w'.bucket.tokens w'.bucket.lastRefill
      (w.grantTimes ++ [w'.bucket.lastRefill])) : w'.Ok cfg := by
  have hlength : (w.readings ++ [(⟨now, true⟩ : ClockReading)]).length = w.readings.length + 1 := by
    rw [List.length_append, List.length_singleton]
  refine ⟨hok.rate, ?_, ?_, ?_⟩
  · rw [htime, hstart, hreadings]
  · rw [hgrants, hreadings, hlength]
    intro n hn
    rcases List.mem_append.mp hn with hn | hn
    · exact Nat.le_succ_of_le (hok.grants n hn)
    · exact (List.mem_singleton.mp hn).le
  · rw [grantTimes, hgrants, hreadings, hstart, List.map_append, grantTimes_read hok.grants,
      List.map_singleton, ← hlength, List.take_length, ← htime]
    exact hbudget

theorem Ok.step (hok : w.Ok cfg) (h : w.step cfg l = some w') : w'.Ok cfg := by
  have hbudget := hok.budget
  have htime : ∀ now, runningMax w.start ClockReading.locked (w.readings ++ [⟨now, true⟩]) =
      max w.bucket.lastRefill now := by
    intro now
    rw [runningMax_append, if_pos rfl, ← hok.time]
  obtain ⟨hstart, ⟨hb, hr, hg⟩ | ⟨now, hb, hr, hg⟩ | ⟨now, hb, hr, hg⟩ |
    ⟨deadline, now, hb, hr, hg⟩⟩ := step_cases h
  · refine hok.read [] hstart ?_ hg ?_ ?_
    · rw [hr, List.append_nil]
    · rw [hb, List.append_nil, hok.time]
    · rw [hb]
      exact hbudget
  · refine hok.read _ hstart hr hg ?_ ?_
    · rw [hb, runningMax_append, if_neg Bool.false_ne_true, hok.time]
    · rw [hb]
      exact hbudget
  · refine hok.read _ hstart hr hg ?_ ?_
    · rw [hb, htime]
      rfl
    · rw [hb]
      exact TokenBucket.budget_refill hok.rate hbudget
  · have hattempt := TokenBucket.budget_attempt now deadline hok.rate hbudget
    have hlast : w'.bucket.lastRefill = max w.bucket.lastRefill now := by
      rw [hb, TokenBucket.attempt_lastRefill]
    rw [← hb, ← hlast] at hattempt
    split at hg
    · rename_i hgranted
      rw [hgranted] at hattempt
      exact hok.grant hstart hr hg (hlast.trans (htime now).symm) hattempt
    · rename_i hnot
      refine hok.read _ hstart hr hg (hlast.trans (htime now).symm) ?_
      split at hattempt
      · rename_i hgranted
        exact absurd hgranted hnot
      · exact hattempt

end LimiterWorld

section

variable {cfg : RateLimiterConfig} {w : LimiterWorld}

theorem LimiterReach.ok (h : LimiterReach cfg w) : w.Ok cfg := by
  induction h with
  | start now hnew =>
      obtain ⟨hrate, hcapacity, rfl⟩ := TokenBucket.new_ok hnew
      exact ⟨hrate, rfl, nofun, Budget.full (by exact_mod_cast hcapacity.le) now⟩
  | step _ hstep ih => exact ih.step hstep

/-- The tokens stay within the capacity, and the tokens granted from one grant through
another fit into the time between them. -/
theorem rate_limit_bound (h : LimiterReach cfg w) :
    (0 ≤ w.bucket.tokens ∧ w.bucket.tokens ≤ cfg.capacity) ∧
      ∀ i j t u, i ≤ j → w.grantedAt i = some t → w.grantedAt j = some u →
        ((j - i + 1 : Nat) : ℚ) ≤ cfg.capacity + cfg.refillPerSecond * (u - t) := by
  obtain ⟨-, -, -, hbudget⟩ := h.ok
  refine ⟨⟨hbudget.nonneg, hbudget.le_cap⟩, fun i j t u hij hi hj => ?_⟩
  refine hbudget.spent_le i j t u hij ?_ ?_
  · rw [LimiterWorld.grantTimes, List.getElem?_map]
    exact hi
  · rw [LimiterWorld.grantTimes, List.getElem?_map]
    exact hj

theorem LimiterReach.run {ls : List LimiterStep} : ∀ {w w' : LimiterWorld}, LimiterReach cfg w →
    w.run cfg ls = some w' → LimiterReach cfg w' := by
  induction ls with
  | nil =>
      intro w w' h hrun
      obtain rfl := Option.some.inj hrun
      exact h
  | cons l ls ih =>
      intro w w' h hrun
      obtain ⟨w₁, hstep, hrest⟩ := Option.bind_eq_some_iff.mp hrun
      exact ih (h.step hstep) hrest

end

namespace Sample

def oneToken : RateLimiterConfig := ⟨1, 1, 60⟩

def freshBucket : LimiterWorld := ⟨⟨1, 0⟩, [], 0, [], []⟩

theorem freshBucket_reach : LimiterReach oneToken freshBucket := by
  refine .start 0 ?_
  norm_num [TokenBucket.new, oneToken]

/-- The second thread sleeps until there is a token again. -/
def sleepOnce : List LimiterStep :=
  [.call .acquire, .run 0 0, .run 0 0, .call .acquire, .run 1 0, .run 1 0, .wake 1, .run 1 1]

/-- The first thread reads 100 for its deadline and 0 under the lock, the second one
100 both times. -/
def backwardClock : List LimiterStep :=
  [.call .acquire, .run 0 100, .run 0 0, .call .acquire, .run 1 100, .run 1 100]

end Sample

open Sample in
theorem rate_limit_bound_sleep :
    ∃ w, LimiterReach oneToken w ∧ w.grantedAt 0 = some 0 ∧ w.grantedAt 1 = some 1 ∧
      (0 ≤ w.bucket.tokens ∧ w.bucket.tokens ≤ oneToken.capacity) ∧
      ((1 - 0 + 1 : Nat) : ℚ) ≤ oneToken.capacity + oneToken.refillPerSecond * (1 - 0) := by
  have hrun : (freshBucket.run oneToken sleepOnce).map
      (fun w => (w.grantedAt 0, w.grantedAt 1)) = some (some 0, some 1) := by
    decide +kernel
  obtain ⟨w, hw, hgrants⟩ := Option.map_eq_some_iff.mp hrun
  obtain ⟨hfirst, hsecond⟩ := Prod.mk.inj hgrants
  have hreach := freshBucket_reach.run hw
  obtain ⟨htokens, hwindow⟩ := rate_limit_bound hreach
  exact ⟨w, hreach, hfirst, hsecond, htokens, hwindow 0 1 0 1 (by decide) hfirst hsecond⟩

open Sample in
theorem rate_limit_exceeds_all_readings :
    ¬∀ (cfg : RateLimiterConfig) (w : LimiterWorld), LimiterReach cfg w →
      ∀ i j t u, i ≤ j → w.grantedBy i = some t → w.grantedBy j = some u →
        ((j - i + 1 : Nat) : ℚ) ≤ cfg.capacity + cfg.refillPerSecond * (u - t) := by
  intro hclaim
  have hrun : (freshBucket.run oneToken backwardClock).map
      (fun w => (w.grantedBy 0, w.grantedBy 1)) = some (some 100, some 100) := by
    decide +kernel
  obtain ⟨w, hw, hgrants⟩ := Option.map_eq_some_iff.mp hrun
  obtain ⟨hfirst, hsecond⟩ := Prod.mk.inj hgrants
  have hwindow := hclaim oneToken w (freshBucket_reach.run hw) 0 1 100 100 (by decide) hfirst
    hsecond
  norm_num [oneToken] at hwindow

end Sahabino
