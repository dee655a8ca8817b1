import Sahabino.CrawlerState

/-!
# The Play Store client

`ApplicationPlayStoreClient`: one application's adapter, lease and refresh
flag, and `_execute`, which runs an operation on the primary adapter under
the retry policy and, when the page could not be read, once more on the
secondary adapter. The breaker's token is taken at the beginning; the
primary failure and the outcome of the secondary adapter are both handed
back with it.

The attempts of `RetryPolicy.execute` are those of the retry library: the
next delay is computed before the last attempt gives up, and the hook runs
before the sleep.

Operations answer nothing here: what a page contains plays no role before
it is published.
-/

namespace Sahabino

open Conc

/-- `OperationHooks`. -/
structure OperationHooks where
  beforeAttempt : Nat → CrawlerProg Unit
  beforeRetry : PyError → CrawlerProg Unit

/-- Hooks that may raise anything. -/
def OperationHooks.arbitrary : OperationHooks where
  beforeAttempt _ := outside .hook
  beforeRetry _ := outside .hook

/-! ## Policies -/

namespace RetryPolicy

def isRetryable : PyError → Bool
  | .crawler error =>
      if PyError.isInstance (.crawler error) [.accessForbidden, .proxyAuthenticationFailure] then
        error.retryWithNewEgress
      else PyError.isInstance (.crawler error) [.rateLimited, .networkTimeout,
        .temporaryConnectionFailure, .proxyConnectionFailure, .upstreamFailure]
  | .other _ _ => false

/-- The library's own request for another attempt. -/
def isTryAgain : PyError → Bool
  | .crawler _ => false
  | .other name _ => name = "TryAgain"

/-- The hook before a retry, and the sleep. -/
def pause (beforeRetry : PyError → CrawlerProg Unit) (error : PyError) (seconds : Seconds) :
    CrawlerProg Unit := do
  beforeRetry error
  outside (.sleep seconds)

/-- Another attempt may follow. -/
def retries (error : PyError) : Bool := isTryAgain error || isRetryable error

/-- The attempts from number `attemptNumber` on, of which `remaining` may follow the
first one: `stop_after_attempt` is `remaining = 0`. -/
def attemptsFrom (operation : Nat → CrawlerProg Unit)
    (beforeRetry : PyError → CrawlerProg Unit) : Nat → Nat → CrawlerProg Unit
  | remaining, attemptNumber => do
      match ← (operation attemptNumber).outcome with
      | .ok () => return ()
      | .error error =>
          if !retries error then Prog.raise error
          else
            let seconds ← outside (.delayFor attemptNumber error)
            match remaining with
            | 0 => Prog.raise error
            | remaining + 1 => do
                pause beforeRetry error seconds
                attemptsFrom operation beforeRetry remaining (attemptNumber + 1)

def execute (cfg : CrawlerConfig) (operation : Nat → CrawlerProg Unit)
    (beforeRetry : PyError → CrawlerProg Unit) : CrawlerProg Unit :=
  attemptsFrom operation beforeRetry (cfg.maxAttempts - 1) 1

end RetryPolicy

/-- `AdapterFallbackPolicy.should_use_secondary`. -/
def shouldUseSecondary (cfg : CrawlerConfig) (error : PyError) : Bool :=
  cfg.secondaryEnabled && error.isInstance [.parseFailure, .schemaFailure, .adapterFailure]

/-! ## The client -/

namespace ApplicationPlayStoreClient

variable (cfg : CrawlerConfig) (client : Nat)

def attributes : CrawlerProg ClientState := onClient (.attributes client)

def setPrimary (adapter : Option Nat) : CrawlerProg Unit :=
  onClient (.setPrimary client adapter)

def setLease (lease : LeaseRef) : CrawlerProg Unit := onClient (.setLease client lease)

def setRefresh (refresh : Bool) : CrawlerProg Unit :=
  onClient (.setRefresh client refresh)

def closeAdapter (adapter : Nat) : CrawlerProg Unit := outside (.close client adapter)

/-- `_refresh_egress_if_needed`. -/
def refreshEgressIfNeeded : CrawlerProg Unit := do
  let c ← attributes client
  if c.refreshEgressBeforeOperation then
    match c.primary with
    | none => rotate c
    | some adapter => do
        closeAdapter client adapter
        setPrimary client none
        rotate c
  else return ()
where
  rotate (c : ClientState) : CrawlerProg Unit := do
    let lease ← onEgress (.rotate c.lease c.contextId)
    setLease client lease
    setRefresh client false

/-- `_get_primary`. -/
def getPrimary : CrawlerProg Nat := do
  let c ← attributes client
  match c.primary with
  | some adapter => return adapter
  | none => do
      let adapter ← outside (.create c.contextId c.lease)
      setPrimary client (some adapter)
      return adapter

/-- `attempt_number < self._retry.max_attempts and self._retry.is_retryable(error)`. -/
def allowRotation (attemptNumber : Nat) (error : PyError) : Bool :=
  attemptNumber < cfg.maxAttempts && RetryPolicy.isRetryable error

def handleFailure (error : PyError) (c : ClientState) (allowRotation : Bool) :
    CrawlerProg LeaseRef :=
  onEgress (.handleFailure error c.lease c.contextId allowRotation)

/-- `attempt`, once the classified error of the adapter is known. -/
def failed (attemptNumber adapter : Nat) (error : CrawlerError) : CrawlerProg Unit := do
  let c ← attributes client
  match ← (handleFailure (.crawler error) c
      (allowRotation cfg attemptNumber (.crawler error))).outcome with
  | .error unavailable =>
      if !unavailable.isInstance [.proxyUnavailable] then Prog.raise unavailable
      else if !PyError.isInstance (.crawler error) [.accessForbidden] then Prog.raise unavailable
      else do
        closeAdapter client adapter
        setPrimary client none
        setRefresh client true
        Prog.raise (.crawler { error with retryWithNewEgress := false })
  | .ok newLease =>
      if newLease ≠ c.lease then do
        closeAdapter client adapter
        setPrimary client none
        setLease client newLease
        Prog.raise (.crawler error)
      else do
        let usable ← onEgress (.isUsable c.lease)
        if !usable then do
          setRefresh client true
          Prog.raise (.crawler error)
        else Prog.raise (.crawler error)

/-- The beginning of `attempt`. -/
def startAttempt (hooks : OperationHooks) (attemptNumber : Nat) : CrawlerProg Unit := do
  onClient (.setLastPrimaryAttempt attemptNumber)
  hooks.beforeAttempt attemptNumber

def attempt (hooks : OperationHooks) (attemptNumber : Nat) : CrawlerProg Unit := do
  startAttempt hooks attemptNumber
  let adapter ← getPrimary client
  match ← (outside (.primaryOperation client adapter) : CrawlerProg Unit).outcome with
  | .ok () => return ()
  | .error rawError => do
      let error ← outside (.classify rawError)
      failed cfg client attemptNumber adapter error

def recordFailure (error : PyError) (proxied : Bool) (token : Option Nat) : CrawlerProg Unit :=
  onBreaker (.recordFailure error proxied token)

def recordSuccess (token : Option Nat) : CrawlerProg Unit :=
  onBreaker (.recordSuccess token)

def lastPrimaryAttempt : CrawlerProg Nat := onClient .lastPrimaryAttempt

/-- `_execute` on the secondary adapter. -/
def fallback (hooks : OperationHooks) (error : PyError) (token : Option Nat) :
    CrawlerProg Unit := do
  hooks.beforeRetry error
  let last ← lastPrimaryAttempt
  hooks.beforeAttempt (last + 1)
  match ← (outside .secondaryOperation : CrawlerProg Unit).outcome with
  | .error rawSecondaryError => do
      let secondaryError ← outside (.classify rawSecondaryError)
      recordFailure (.crawler secondaryError) false token
      Prog.raise (.crawler secondaryError)
  | .ok () => recordSuccess token

/-- `_execute`, once the token is there. -/
def admitted (hooks : OperationHooks) (token : Option Nat) : CrawlerProg Unit := do
  onClient (.setLastPrimaryAttempt 0)
  match ← (RetryPolicy.execute cfg (attempt cfg client hooks) hooks.beforeRetry).outcome with
  | .error (.crawler error) => do
      let c ← attributes client
      recordFailure (.crawler error) (!c.lease.isDirect) token
      if !shouldUseSecondary cfg (.crawler error) then Prog.raise (.crawler error)
      else fallback hooks (.crawler error) token
  | .error (.other name message) => Prog.raise (.other name message)
  | .ok () => do
      let c ← attributes client
      onEgress (.recordSuccess c.lease)
      recordSuccess token

/-- `_execute`. -/
def execute (hooks : OperationHooks) : CrawlerProg Unit := do
  refreshEgressIfNeeded client
  let token ← onBreaker .beforeCall
  admitted cfg client hooks token

def close : CrawlerProg Unit := do
  let c ← attributes client
  setPrimary client none
  (match c.primary with
    | some adapter => closeAdapter client adapter
    | none => return ()).ensure (release client)
where
  release (client : Nat) : CrawlerProg Unit := do
    let c ← attributes client
    onEgress (.release c.lease)

/-- `ResilientPlayStoreClient.open_application`, up to the `yield`. -/
def openApplication (contextId : ContextId) : CrawlerProg Nat := do
  let lease ← onEgress (.acquire contextId)
  onClient (.init contextId lease)

end ApplicationPlayStoreClient

/-! ## The rule for the attempts -/

namespace RetryPolicy

variable {P : Proto CrawlerState CrawlerCmd CrawlerEnv} {cfg : CrawlerConfig} {i : Nat}
  {operation : Nat → CrawlerProg Unit} {beforeRetry : PyError → CrawlerProg Unit} {last : Nat}
  {Ready Done : Nat → CrawlerState → Prop} {Failed Left : Nat → PyError → CrawlerState → Prop}

-- `Ready n`: `n` attempts were made and another one may start. `Failed` is what an attempt
-- raises, `Left` what the attempts end with.
variable
  (hoperation : ∀ {n s}, n < last → Ready n s → P.wp (crawlerExec cfg) i (operation (n + 1))
    (fun _ => Done (n + 1)) (Failed (n + 1)) s)
  (hdelay : ∀ {n e s}, retries e = true → Failed n e s →
    P.wp (crawlerExec cfg) i (outside (.delayFor n e)) (fun _ => Failed n e) (Left n) s)
  (hpause : ∀ {n e s seconds}, n < last → retries e = true → Failed n e s →
    P.wp (crawlerExec cfg) i (pause beforeRetry e seconds) (fun _ => Ready n) (Left n) s)
  (hleft : ∀ {n e s}, Failed n e s → Left n e s)

include hoperation hdelay hpause hleft

/-- One attempt, given the rule for those that may follow. -/
theorem attemptsFrom_step {remaining n : Nat} {s : CrawlerState}
    (hn : n + 1 + remaining = last) (hs : Ready n s)
    (hnext : ∀ {rest s}, remaining = rest + 1 → Ready (n + 1) s →
      P.wp (crawlerExec cfg) i (attemptsFrom operation beforeRetry rest (n + 2))
        (fun _ s => ∃ k ≤ last, Done k s) (fun e s => ∃ k ≤ last, Left k e s) s) :
    P.wp (crawlerExec cfg) i (attemptsFrom operation beforeRetry remaining (n + 1))
      (fun _ s => ∃ k ≤ last, Done k s) (fun e s => ∃ k ≤ last, Left k e s) s := by
  unfold attemptsFrom
  refine Proto.wp_seq (Proto.wp_outcome.mpr (Proto.wp_mono
    (fun _ s h => ⟨n + 1, by omega, h⟩) (fun e s hfailed => ?_) (hoperation (by omega) hs)))
  simp only
  split
  · exact ⟨n + 1, by omega, hleft hfailed⟩
  rename_i hretries
  rw [Bool.not_eq_true, Bool.not_eq_false'] at hretries
  refine Proto.wp_seq (Proto.wp_mono (fun seconds s h => ?_)
    (fun x s h => ⟨n + 1, by omega, h⟩) (hdelay hretries hfailed))
  cases remaining with
  | zero => exact ⟨n + 1, by omega, hleft h⟩
  | succ rest =>
      exact Proto.wp_seq (Proto.wp_mono (fun _ s h => hnext rfl h)
        (fun x s h => ⟨n + 1, by omega, h⟩) (hpause (by omega) hretries h))

theorem attemptsFrom_wp (remaining n : Nat) {s : CrawlerState} (hn : n + 1 + remaining = last)
    (hs : Ready n s) :
    P.wp (crawlerExec cfg) i (attemptsFrom operation beforeRetry remaining (n + 1))
      (fun _ s => ∃ k ≤ last, Done k s) (fun e s => ∃ k ≤ last, Left k e s) s := by
  induction remaining generalizing n s with
  | zero => exact attemptsFrom_step hoperation hdelay hpause hleft hn hs nofun
  | succ remaining ih =>
      refine attemptsFrom_step hoperation hdelay hpause hleft hn hs fun hrest h => ?_
      obtain rfl := Nat.succ.inj hrest
      exact ih (n + 1) (by omega) h

end RetryPolicy

/-! ## Rules for an attempt -/

/-- The commands of an attempt, but for its beginning and the operation itself. -/
def CrawlerCmd.Idle : CrawlerCmd → Prop
  | client (.setLastPrimaryAttempt _) => False
  | client _ => True
  | egress _ => True
  | outside (.create _ _) => True
  | outside (.close _ _) => True
  | outside (.classify _) => True
  | outside (.delayFor _ _) => True
  | _ => False

/-- What the idle commands and the operation keep; what an idle command raises
is in `E`. -/
structure Steady (P : Proto CrawlerState CrawlerCmd CrawlerEnv) (cfg : CrawlerConfig) (i : Nat)
    (I : CrawlerState → Prop) (E : PyError → CrawlerState → Prop) : Prop where
  idle : ∀ {c s}, c.Idle → I s → P.wp (crawlerExec cfg) i (Prog.cmd c) (fun _ => I)
    (fun e s => I s ∧ E e s) s
  operation : ∀ {client adapter s}, I s → P.wp (crawlerExec cfg) i
    (outside (.primaryOperation client adapter)) (fun _ => I) (fun _ => I) s
  crawler : ∀ {x s}, I s → E (.crawler x) s

namespace Steady

open ApplicationPlayStoreClient

variable {P : Proto CrawlerState CrawlerCmd CrawlerEnv} {cfg : CrawlerConfig} {i : Nat}
  {I : CrawlerState → Prop} {E : PyError → CrawlerState → Prop} {s : CrawlerState} {client : Nat}

/-- An idle command in front. -/
theorem first (h : Steady P cfg i I E) {α : Type} {c : CrawlerCmd} (hc : c.Idle)
    {f : c.Answer → CrawlerProg α} (hs : I s) (hf : ∀ {a s}, I s →
      P.wp (crawlerExec cfg) i (f a) (fun _ => I) (fun e s => I s ∧ E e s) s) :
    P.wp (crawlerExec cfg) i (Prog.cmd c >>= f) (fun _ => I) (fun e s => I s ∧ E e s) s :=
  Proto.wp_seq (Proto.wp_mono (fun _ _ hs' => hf hs') (fun _ _ hs' => hs') (h.idle hc hs))

theorem refreshEgressIfNeeded_wp (h : Steady P cfg i I E) (hs : I s) :
    P.wp (crawlerExec cfg) i (refreshEgressIfNeeded client) (fun _ => I)
      (fun e s => I s ∧ E e s) s := by
  have hrotate : ∀ {c s}, I s → P.wp (crawlerExec cfg) i (refreshEgressIfNeeded.rotate client c)
      (fun _ => I) (fun e s => I s ∧ E e s) s := by
    intro c s hs
    refine h.first (by trivial) hs fun {lease s} hs => ?_
    exact h.first (by trivial) hs fun {_ s} hs => h.idle (by trivial) hs
  refine h.first (by trivial) hs fun {c s} hs => ?_
  split
  · split
    · exact hrotate hs
    · refine h.first (by trivial) hs fun {_ s} hs => ?_
      exact h.first (by trivial) hs fun {_ s} hs => hrotate hs
  · exact hs

theorem getPrimary_wp (h : Steady P cfg i I E) (hs : I s) :
    P.wp (crawlerExec cfg) i (getPrimary client) (fun _ => I) (fun e s => I s ∧ E e s) s := by
  refine h.first (by trivial) hs fun {c s} hs => ?_
  split
  · exact hs
  · refine h.first (by trivial) hs fun {adapter s} hs => ?_
    exact h.first (by trivial) hs fun {_ s} hs => hs

theorem failed_wp (h : Steady P cfg i I E) {attemptNumber adapter : Nat} {error : CrawlerError}
    (hs : I s) : P.wp (crawlerExec cfg) i (failed cfg client attemptNumber adapter error)
      (fun _ => I) (fun e s => I s ∧ E e s) s := by
  refine h.first (by trivial) hs fun {c s} hs => ?_
  refine Proto.wp_seq (Proto.wp_outcome.mpr (Proto.wp_mono (fun newLease s hs => ?_)
    (fun e s he => ?_) (h.idle (by trivial) hs)))
  · simp only
    split
    · refine h.first (by trivial) hs fun {_ s} hs => ?_
      refine h.first (by trivial) hs fun {_ s} hs => ?_
      exact h.first (by trivial) hs fun {_ s} hs => ⟨hs, h.crawler hs⟩
    · refine h.first (by trivial) hs fun {usable s} hs => ?_
      split
      · exact h.first (by trivial) hs fun {_ s} hs => ⟨hs, h.crawler hs⟩
      · exact ⟨hs, h.crawler hs⟩
  · simp only
    split
    · exact he
    split
    · exact he
    refine h.first (by trivial) he.1 fun {_ s} hs => ?_
    refine h.first (by trivial) hs fun {_ s} hs => ?_
    exact h.first (by trivial) hs fun {_ s} hs => ⟨hs, h.crawler hs⟩

theorem attempt_wp (h : Steady P cfg i I E) {hooks : OperationHooks} {attemptNumber : Nat}
    (hstart : P.wp (crawlerExec cfg) i (startAttempt hooks attemptNumber) (fun _ => I)
      (fun e s => I s ∧ E e s) s) :
    P.wp (crawlerExec cfg) i (attempt cfg client hooks attemptNumber) (fun _ => I)
      (fun e s => I s ∧ E e s) s := by
  refine Proto.wp_seq (Proto.wp_mono (fun _ s hs => ?_) (fun _ _ he => he) hstart)
  refine Proto.wp_seq (Proto.wp_mono (fun adapter s hs => ?_) (fun _ _ he => he)
    (h.getPrimary_wp hs))
  refine Proto.wp_seq (Proto.wp_outcome.mpr (Proto.wp_mono (fun _ s hs => hs)
    (fun rawError s hs => ?_) (h.operation hs)))
  exact h.first (by trivial) hs fun {error s} hs => h.failed_wp hs

/-- All attempts, where nothing depends on their number. -/
theorem attempts_wp (h : Steady P cfg i I E) {hooks : OperationHooks}
    (hstart : ∀ {n s}, I s → P.wp (crawlerExec cfg) i (startAttempt hooks n) (fun _ => I)
      (fun e s => I s ∧ E e s) s)
    (hdelay : ∀ {n e s}, I s → E e s → P.wp (crawlerExec cfg) i (outside (.delayFor n e))
      (fun _ s => I s ∧ E e s) (fun x s => I s ∧ E x s) s)
    (hpause : ∀ {e seconds s}, I s → P.wp (crawlerExec cfg) i
      (RetryPolicy.pause hooks.beforeRetry e seconds) (fun _ => I) (fun x s => I s ∧ E x s) s)
    (hs : I s) : P.wp (crawlerExec cfg) i
      (RetryPolicy.execute cfg (attempt cfg client hooks) hooks.beforeRetry) (fun _ => I)
      (fun e s => I s ∧ E e s) s := by
  have hpos := cfg.maxAttempts_pos
  have hall : P.wp (crawlerExec cfg) i (RetryPolicy.attemptsFrom (attempt cfg client hooks)
      hooks.beforeRetry (cfg.maxAttempts - 1) (0 + 1)) (fun _ s => ∃ k ≤ cfg.maxAttempts, I s)
      (fun e s => ∃ k ≤ cfg.maxAttempts, I s ∧ E e s) s :=
    RetryPolicy.attemptsFrom_wp (fun _ hs => h.attempt_wp (hstart hs))
      (fun _ hs => hdelay hs.1 hs.2) (fun _ _ hs => hpause hs.1) id _ 0 (by omega) hs
  exact Proto.wp_mono (fun _ _ ⟨_, _, hs⟩ => hs) (fun _ _ ⟨_, _, hs⟩ => hs) hall

end Steady

namespace Sample

/-- One attempt, no proxies, and a breaker that opens at the first failure. -/
def crawlerConfig : CrawlerConfig where
  circuit := ⟨1, 5, true, Nat.one_pos, by decide⟩
  provider := .noProxy
  rateLimitRotateAfter := 1
  maxAttempts := 1
  maxDelaySeconds := 60
  secondaryEnabled := true
  maxAttempts_pos := Nat.one_pos

/-- The outside world lets everything pass. -/
def calm : CrawlerEnv := ⟨0, 0, none, .ok ⟨.crawlerError, "", false, none⟩, none, []⟩

def raising (error : PyError) : CrawlerEnv := { calm with raises := some error }

def throttled : PyError := .crawler ⟨.rateLimited, "Google Play returned HTTP 429", false, none⟩

def unreadable : PyError :=
  .crawler ⟨.parseFailure, "Google Play response could not be parsed", false, none⟩

def databaseError : PyError := .other "OperationalError" "server closed the connection"

def contextId : ContextId := "7c9e6679-7425-40de-944b-e07fc1f90ae7"

def directLease : LeaseRef := ⟨0, contextId, none⟩

/-- One client with a direct lease and no adapter. -/
def crawlerState : CrawlerState where
  heap := ⟨[⟨contextId, directLease, none, false⟩], [], fun _ => 0, []⟩
  breaker := ⟨.initial, fun _ => none, none, []⟩
  provider :=
    ⟨⟨[(directLease, false)], fun k => if k = contextId then some directLease else none⟩,
      ⟨[], 0, fun _ => 0⟩⟩
  lifecycle := ⟨[], [], fun _ => [], [], []⟩
  executor := ⟨[], [], fun _ => none⟩

end Sample

end Sahabino
