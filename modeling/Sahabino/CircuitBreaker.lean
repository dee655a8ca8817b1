import Mathlib.Algebra.Order.Ring.Rat
import Mathlib.Data.List.Count

/-!
# The circuit breaker

`CircuitBreaker` of the crawler, with the exceptions of
`crawler/domain/errors.py` it tells apart. The methods hold the breaker's
lock from end to end, so each of them is one function on the state.

Clock readings are of any type that can be subtracted and compared: the
breaker only ever compares `monotonic() - opened_at` with the cooldown,
and nothing here depends on how that difference is rounded.

A run of the breaker is any interleaving of calls, each of which takes a
token from `before_call` and hands it back once. Calls with one token are
alike, so the calls that are still out are a list of tokens.
-/

namespace Sahabino

/-! ## Exceptions -/

inductive ErrorClass where
  | crawlerError
  | rateLimited
  | accessForbidden
  | networkTimeout
  | localRateLimitWaitExceeded
  | temporaryConnectionFailure
  | proxyConnectionFailure
  | proxyAuthenticationFailure
  | proxyUnavailable
  | upstreamFailure
  | gatewayFailure
  | appNotFound
  | appGone
  | legalRestriction
  | clientRequestFailure
  | invalidPackage
  | parseFailure
  | schemaFailure
  | adapterFailure
  | circuitOpen
  | registryUnavailable
  | messagingPublishFailure
deriving DecidableEq, Repr

def ErrorClass.code : ErrorClass → String
  | crawlerError => "CRAWLER_ERROR"
  | rateLimited => "RATE_LIMITED"
  | accessForbidden => "ACCESS_FORBIDDEN"
  | networkTimeout => "NETWORK_TIMEOUT"
  | localRateLimitWaitExceeded => "LOCAL_RATE_LIMIT_WAIT_EXCEEDED"
  | temporaryConnectionFailure => "CONNECTION_FAILED"
  | proxyConnectionFailure => "PROXY_CONNECTION_FAILED"
  | proxyAuthenticationFailure => "PROXY_AUTHENTICATION_FAILED"
  | proxyUnavailable => "PROXY_UNAVAILABLE"
  | upstreamFailure => "UPSTREAM_FAILURE"
  | gatewayFailure => "UPSTREAM_GATEWAY_FAILURE"
  | appNotFound => "APP_NOT_FOUND"
  | appGone => "APP_GONE"
  | legalRestriction => "LEGAL_RESTRICTION"
  | clientRequestFailure => "CLIENT_REQUEST_FAILED"
  | invalidPackage => "INVALID_PACKAGE"
  | parseFailure => "PARSE_FAILURE"
  | schemaFailure => "SCHEMA_FAILURE"
  | adapterFailure => "ADAPTER_FAILURE"
  | circuitOpen => "CIRCUIT_OPEN"
  | registryUnavailable => "REGISTRY_UNAVAILABLE"
  | messagingPublishFailure => "KAFKA_PUBLISH_FAILED"

/-- `retry_with_new_egress` is an attribute of two of the classes; the others
never read it. -/
structure CrawlerError where
  cls : ErrorClass
  message : String
  retryWithNewEgress : Bool
  retryAfterSeconds : Option ℚ
deriving DecidableEq, Repr

/-- An exception: one of the crawler's own, or any other by its class name. -/
inductive PyError where
  | crawler (error : CrawlerError)
  | other (name message : String)
deriving DecidableEq, Repr

/-- `isinstance(error, classes)`; `GatewayFailure` is the only subclass of
another class than `CrawlerError` itself. -/
def PyError.isInstance : PyError → List ErrorClass → Bool
  | .crawler e, classes => classes.contains e.cls ||
      (e.cls = .gatewayFailure && classes.contains .upstreamFailure)
  | .other _ _, _ => false

/-! ## The breaker -/

inductive CircuitState where
  | closed
  | opened
  | halfOpen
deriving DecidableEq, Repr

structure CircuitConfig (τ : Type) [Zero τ] [LT τ] where
  threshold : Nat
  cooldown : τ
  enabled : Bool
  threshold_pos : 1 ≤ threshold
  cooldown_nonneg : ¬cooldown < 0

structure Circuit (τ : Type) where
  state : CircuitState
  failureCount : Nat
  openedAt : Option τ
  probeInFlight : Bool
  generation : Nat
deriving DecidableEq

/-- The errors that count against the store itself: through a proxy, a refusal
or a failed connection says more about the proxy. -/
def PyError.relevant (error : PyError) (proxied : Bool) : Bool :=
  if proxied && error.isInstance [.accessForbidden, .networkTimeout, .temporaryConnectionFailure]
  then false
  else error.isInstance [.accessForbidden, .upstreamFailure, .rateLimited, .networkTimeout,
    .temporaryConnectionFailure]

section Breaker

variable {τ : Type} [Zero τ] [LT τ] [DecidableLT τ] [Sub τ]

namespace Circuit

def initial : Circuit τ where
  state := .closed
  failureCount := 0
  openedAt := none
  probeInFlight := false
  generation := 0

def circuitOpen (message : String) : PyError := .crawler ⟨.circuitOpen, message, false, none⟩

/-- The half-open part of `before_call`, and its `return`. -/
def letThrough (c : Circuit τ) : Except PyError (Option Nat) × Circuit τ :=
  if c.state = .halfOpen then
    if c.probeInFlight then
      (.error (circuitOpen "Google Play circuit half-open probe is in progress"), c)
    else (.ok (some c.generation), { c with probeInFlight := true })
  else (.ok (some c.generation), c)

def beforeCall (cfg : CircuitConfig τ) (now : τ) (c : Circuit τ) :
    Except PyError (Option Nat) × Circuit τ :=
  if !cfg.enabled then (.ok none, c)
  else if c.state = .opened then
    match c.openedAt with
    | none => (.error (.other "AssertionError" ""), c)
    | some openedAt =>
        if now - openedAt < cfg.cooldown then
          (.error (circuitOpen "Google Play circuit is open"), c)
        else letThrough { c with state := .halfOpen, probeInFlight := false }
  else letThrough c

/-- `call_token is not None and call_token != self._generation`. -/
def stale (c : Circuit τ) (token : Option Nat) : Bool :=
  token.isSome && token ≠ some c.generation

def recordSuccess (cfg : CircuitConfig τ) (token : Option Nat) (c : Circuit τ) : Circuit τ :=
  if !cfg.enabled || c.stale token then c
  else { c with state := .closed, failureCount := 0, openedAt := none, probeInFlight := false }

/-- `_open`. -/
def open_ (now : τ) (c : Circuit τ) : Circuit τ :=
  { c with
    generation := c.generation + 1
    state := .opened
    openedAt := some now
    probeInFlight := false }

def recordFailure (cfg : CircuitConfig τ) (now : τ) (error : PyError) (proxied : Bool)
    (token : Option Nat) (c : Circuit τ) : Circuit τ :=
  if !cfg.enabled || c.stale token then c
  else if c.state = .opened then c
  else if !error.relevant proxied then { c with probeInFlight := false }
  else if c.state = .halfOpen then c.open_ now
  else if cfg.threshold ≤ c.failureCount + 1 then
    open_ now { c with failureCount := c.failureCount + 1 }
  else { c with failureCount := c.failureCount + 1 }

/-! ## What a method can do -/

omit [Zero τ] [LT τ] [DecidableLT τ] [Sub τ] in
theorem letThrough_cases {c c' : Circuit τ} {r : Except PyError (Option Nat)}
    (h : c.letThrough = (r, c')) :
    (c.state = .halfOpen ∧ c.probeInFlight = true ∧ (∃ x, r = .error x) ∧ c' = c) ∨
    (c.state = .halfOpen ∧ c.probeInFlight = false ∧ r = .ok (some c.generation) ∧
      c' = { c with probeInFlight := true }) ∨
    (c.state ≠ .halfOpen ∧ r = .ok (some c.generation) ∧ c' = c) := by
  unfold letThrough at h
  split at h
  · rename_i hhalf
    split at h
    · rename_i hprobe
      obtain ⟨rfl, rfl⟩ := Prod.mk.injEq .. |>.mp h
      exact Or.inl ⟨hhalf, hprobe, ⟨_, rfl⟩, rfl⟩
    · rename_i hprobe
      obtain ⟨rfl, rfl⟩ := Prod.mk.injEq .. |>.mp h
      exact Or.inr (Or.inl ⟨hhalf, by simpa using hprobe, rfl, rfl⟩)
  · rename_i hhalf
    obtain ⟨rfl, rfl⟩ := Prod.mk.injEq .. |>.mp h
    exact Or.inr (Or.inr ⟨hhalf, rfl, rfl⟩)

/-- A call is refused, passes a closed breaker, or becomes the probe. -/
theorem beforeCall_cases {cfg : CircuitConfig τ} {now : τ} {c c' : Circuit τ}
    {r : Except PyError (Option Nat)} (h : c.beforeCall cfg now = (r, c')) :
    (cfg.enabled = false ∧ r = .ok none ∧ c' = c) ∨
    (cfg.enabled = true ∧ (∃ x, r = .error x) ∧ c' = c) ∨
    (cfg.enabled = true ∧ c.state = .closed ∧ r = .ok (some c.generation) ∧ c' = c) ∨
    (cfg.enabled = true ∧ ((c.state = .halfOpen ∧ c.probeInFlight = false) ∨
        (c.state = .opened ∧ ∃ t, c.openedAt = some t ∧ ¬now - t < cfg.cooldown)) ∧
      r = .ok (some c.generation) ∧
      c' = { c with state := .halfOpen, probeInFlight := true }) := by
  unfold beforeCall at h
  split at h
  · rename_i hdisabled
    obtain ⟨rfl, rfl⟩ := Prod.mk.injEq .. |>.mp h
    exact Or.inl ⟨by simpa using hdisabled, rfl, rfl⟩
  rename_i hen
  have henabled : cfg.enabled = true := by simpa using hen
  split at h
  · rename_i hopened
    split at h
    · obtain ⟨rfl, rfl⟩ := Prod.mk.injEq .. |>.mp h
      exact Or.inr (Or.inl ⟨henabled, ⟨_, rfl⟩, rfl⟩)
    · rename_i t ht
      split at h
      · obtain ⟨rfl, rfl⟩ := Prod.mk.injEq .. |>.mp h
        exact Or.inr (Or.inl ⟨henabled, ⟨_, rfl⟩, rfl⟩)
      · rename_i helapsed
        rcases letThrough_cases h with ⟨-, hprobe, -⟩ | ⟨-, -, rfl, rfl⟩ | ⟨hhalf, -⟩
        · cases hprobe
        · exact Or.inr (Or.inr (Or.inr
            ⟨henabled, Or.inr ⟨hopened, t, ht, helapsed⟩, rfl, rfl⟩))
        · exact absurd rfl hhalf
  · rename_i hopened
    rcases letThrough_cases h with ⟨-, -, hx, rfl⟩ | ⟨hhalf, hprobe, rfl, rfl⟩ | ⟨hhalf, rfl, rfl⟩
    · exact Or.inr (Or.inl ⟨henabled, hx, rfl⟩)
    · exact Or.inr (Or.inr (Or.inr ⟨henabled, Or.inl ⟨hhalf, hprobe⟩, rfl, by rw [hhalf]⟩))
    · have hclosed : c'.state = .closed := by
        cases hs : c'.state with
        | closed => rfl
        | opened => exact absurd hs hopened
        | halfOpen => exact absurd hs hhalf
      exact Or.inr (Or.inr (Or.inl ⟨henabled, hclosed, rfl, rfl⟩))

omit [DecidableLT τ] [Sub τ] in
theorem recordSuccess_cases (cfg : CircuitConfig τ) (token : Option Nat) (c : Circuit τ) :
    ((cfg.enabled = false ∨ c.stale token = true) ∧ c.recordSuccess cfg token = c) ∨
    (cfg.enabled = true ∧ c.stale token = false ∧ c.recordSuccess cfg token =
      { c with
        state := .closed, failureCount := 0, openedAt := none, probeInFlight := false }) := by
  unfold recordSuccess
  split
  · rename_i h
    exact Or.inl ⟨by simpa using h, rfl⟩
  · rename_i h
    simp only [Bool.or_eq_true, not_or, Bool.not_eq_true, Bool.not_eq_false'] at h
    exact Or.inr ⟨h.1, h.2, rfl⟩

omit [DecidableLT τ] [Sub τ] in
/-- A failure is ignored, gives the probe back, reopens, opens, or is counted. -/
theorem recordFailure_cases (cfg : CircuitConfig τ) (now : τ) (error : PyError) (proxied : Bool)
    (token : Option Nat) (c : Circuit τ) :
    ((cfg.enabled = false ∨ c.stale token = true ∨ c.state = .opened) ∧
      c.recordFailure cfg now error proxied token = c) ∨
    (cfg.enabled = true ∧ c.stale token = false ∧ c.state ≠ .opened ∧
      ((error.relevant proxied = false ∧
          c.recordFailure cfg now error proxied token = { c with probeInFlight := false }) ∨
        (error.relevant proxied = true ∧ c.state = .halfOpen ∧
          c.recordFailure cfg now error proxied token = c.open_ now) ∨
        (error.relevant proxied = true ∧ c.state = .closed ∧
          cfg.threshold ≤ c.failureCount + 1 ∧ c.recordFailure cfg now error proxied token =
            open_ now { c with failureCount := c.failureCount + 1 }) ∨
        (error.relevant proxied = true ∧ c.state = .closed ∧
          c.failureCount + 1 < cfg.threshold ∧ c.recordFailure cfg now error proxied token =
            { c with failureCount := c.failureCount + 1 }))) := by
  unfold recordFailure
  split
  · rename_i h
    rw [Bool.or_eq_true, Bool.not_eq_true'] at h
    exact Or.inl ⟨h.imp_right Or.inl, rfl⟩
  rename_i h
  simp only [Bool.or_eq_true, not_or, Bool.not_eq_true, Bool.not_eq_false'] at h
  split
  · rename_i hopened
    exact Or.inl ⟨Or.inr (Or.inr hopened), rfl⟩
  rename_i hopened
  refine Or.inr ⟨h.1, h.2, hopened, ?_⟩
  split
  · rename_i hrelevant
    exact Or.inl ⟨by simpa using hrelevant, rfl⟩
  rename_i hrel
  have hrelevant : error.relevant proxied = true := by simpa using hrel
  split
  · rename_i hhalf
    exact Or.inr (Or.inl ⟨hrelevant, hhalf, rfl⟩)
  rename_i hhalf
  have hclosed : c.state = .closed := by
    cases hs : c.state with
    | closed => rfl
    | opened => exact absurd hs hopened
    | halfOpen => exact absurd hs hhalf
  split
  · rename_i hreached
    exact Or.inr (Or.inr (Or.inl ⟨hrelevant, hclosed, hreached, rfl⟩))
  · rename_i hreached
    exact Or.inr (Or.inr (Or.inr ⟨hrelevant, hclosed, by omega, rfl⟩))

end Circuit

/-! ## Runs -/

/-- What a call handed back, and the breaker's generation when it did. -/
structure CircuitRecord where
  token : Option Nat
  generation : Nat
  success : Bool
  relevant : Bool
deriving DecidableEq

/-- The breaker and the tokens that are out. The last two fields are a history:
everything that was recorded, and the clock at each opening. -/
structure CircuitRun (τ : Type) where
  circuit : Circuit τ
  outstanding : List (Option Nat)
  records : List CircuitRecord
  openings : List τ

namespace CircuitRun

def initial : CircuitRun τ := ⟨Circuit.initial, [], [], []⟩

/-- The call with `token` hands it back, and leaves the breaker as `c`. -/
def recorded (r : CircuitRun τ) (token : Option Nat) (success relevant : Bool) (now : τ)
    (c : Circuit τ) : CircuitRun τ where
  circuit := c
  outstanding := r.outstanding.erase token
  records := r.records ++ [⟨token, r.circuit.generation, success, relevant⟩]
  openings := if r.circuit.generation < c.generation then r.openings ++ [now] else r.openings

end CircuitRun

inductive CircuitOp where
  | beforeCall
  | recordSuccess (token : Option Nat)
  | recordFailure (error : PyError) (proxied : Bool) (token : Option Nat)
deriving DecidableEq

/-- One method call at clock reading `now`; only a token that is out can be
handed back. -/
def CircuitRun.step (cfg : CircuitConfig τ) (r : CircuitRun τ) (now : τ) :
    CircuitOp → Option (CircuitRun τ)
  | .beforeCall =>
      match r.circuit.beforeCall cfg now with
      | (.ok token, c) => some { r with circuit := c, outstanding := token :: r.outstanding }
      | (.error _, c) => some { r with circuit := c }
  | .recordSuccess token =>
      if token ∈ r.outstanding then
        some (r.recorded token true false now (r.circuit.recordSuccess cfg token))
      else none
  | .recordFailure error proxied token =>
      if token ∈ r.outstanding then
        some (r.recorded token false (error.relevant proxied) now
          (r.circuit.recordFailure cfg now error proxied token))
      else none

/-- Every interleaving, over any clock. -/
inductive CircuitReach (cfg : CircuitConfig τ) : CircuitRun τ → Prop
  | init : CircuitReach cfg CircuitRun.initial
  | step {r r' : CircuitRun τ} (now : τ) (op : CircuitOp) :
      CircuitReach cfg r → r.step cfg now op = some r' → CircuitReach cfg r'

/-- The relevant failures recorded with generation `g` since the last success
recorded with it. -/
def streak (g : Nat) (records : List CircuitRecord) : Nat :=
  records.foldl (fun n record =>
    if record.token = some g then
      if record.success then 0 else if record.relevant then n + 1 else n
    else n) 0

theorem streak_append (g : Nat) (records : List CircuitRecord) (record : CircuitRecord) :
    streak g (records ++ [record]) =
      if record.token = some g then
        if record.success then 0 else if record.relevant then streak g records + 1
          else streak g records
      else streak g records := by
  rw [streak, List.foldl_append]
  rfl

/-! ## The invariant of a run -/

/-- A token that is out is a generation the breaker has reached. While the
breaker is open none of the current one is out; while it is half open, the
probe's is the only one. -/
structure CircuitInv (cfg : CircuitConfig τ) (r : CircuitRun τ) : Prop where
  token : cfg.enabled = true → ∀ t ∈ r.outstanding, ∃ g, t = some g ∧ g ≤ r.circuit.generation
  disabled : cfg.enabled = false → r.circuit = Circuit.initial ∧ ∀ t ∈ r.outstanding, t = none
  opened : r.circuit.state = .opened → ∃ t, r.circuit.openedAt = some t ∧
    r.openings.getLast? = some t ∧ r.outstanding.count (some r.circuit.generation) = 0
  halfOpen : r.circuit.state = .halfOpen → r.outstanding.count (some r.circuit.generation) =
    if r.circuit.probeInFlight then 1 else 0
  closed : r.circuit.state = .closed → r.circuit.failureCount < cfg.threshold ∧
    r.circuit.failureCount = streak r.circuit.generation r.records

namespace CircuitInv

variable {cfg : CircuitConfig τ} {r : CircuitRun τ} {token : Option Nat}

omit [DecidableLT τ] [Sub τ] in
theorem init : CircuitInv cfg (CircuitRun.initial : CircuitRun τ) where
  token := fun _ _ ht => absurd ht List.not_mem_nil
  disabled := fun _ => ⟨rfl, fun _ ht => absurd ht List.not_mem_nil⟩
  opened := nofun
  halfOpen := nofun
  closed := fun _ => ⟨cfg.threshold_pos, rfl⟩

omit [DecidableLT τ] [Sub τ] in
/-- A token that is out and not stale is the current generation. -/
theorem token_of_not_stale (h : CircuitInv cfg r) (henabled : cfg.enabled = true)
    (hout : token ∈ r.outstanding) (hstale : r.circuit.stale token = false) :
    token = some r.circuit.generation := by
  obtain ⟨g, rfl, -⟩ := h.token henabled token hout
  simpa [Circuit.stale] using hstale

omit [DecidableLT τ] [Sub τ] in
/-- What a record without effect can be handed back with. -/
theorem token_of_ignored (h : CircuitInv cfg r) (hout : token ∈ r.outstanding)
    (hcase : cfg.enabled = false ∨ r.circuit.stale token = true ∨ r.circuit.state = .opened) :
    token ≠ some r.circuit.generation := by
  rintro rfl
  rcases hcase with hdisabled | hstale | hopened
  · cases (h.disabled hdisabled).2 _ hout
  · simp [Circuit.stale] at hstale
  · obtain ⟨-, -, -, hcount⟩ := h.opened hopened
    exact absurd hout (List.count_eq_zero.mp hcount)

omit [DecidableLT τ] [Sub τ] in
/-- A record that changes nothing takes its token out, and nothing else. -/
theorem ignored (h : CircuitInv cfg r) (hne : token ≠ some r.circuit.generation)
    (success relevant : Bool) (now : τ) :
    CircuitInv cfg (r.recorded token success relevant now r.circuit) := by
  have hcount : (r.outstanding.erase token).count (some r.circuit.generation) =
      r.outstanding.count (some r.circuit.generation) :=
    List.count_erase_of_ne (Ne.symm hne)
  have hopenings : (r.recorded token success relevant now r.circuit).openings = r.openings :=
    if_neg (Nat.lt_irrefl _)
  refine ⟨fun he t ht => h.token he t (List.mem_of_mem_erase ht),
    fun hd => ⟨(h.disabled hd).1, fun t ht => (h.disabled hd).2 t (List.mem_of_mem_erase ht)⟩,
    fun ho => ?_, fun hh => ?_, fun hc => ?_⟩
  · obtain ⟨t, hat, hlast, hzero⟩ := h.opened ho
    exact ⟨t, hat, by rw [hopenings]; exact hlast, hcount.trans hzero⟩
  · exact hcount.trans (h.halfOpen hh)
  · refine ⟨(h.closed hc).1, ?_⟩
    show _ = streak r.circuit.generation (r.records ++ [_])
    rw [streak_append, if_neg hne]
    exact (h.closed hc).2

theorem beforeCall {r' : CircuitRun τ} {now : τ} (h : CircuitInv cfg r)
    (hstep : r.step cfg now .beforeCall = some r') : CircuitInv cfg r' := by
  simp only [CircuitRun.step] at hstep
  have hcases : ∀ v c', r.circuit.beforeCall cfg now = (v, c') → _ :=
    fun _ _ heq => Circuit.beforeCall_cases heq
  split at hstep
  · rename_i token c hcall
    obtain rfl := Option.some.inj hstep
    rcases hcases _ _ hcall with ⟨hoff, hok, rfl⟩ | ⟨-, ⟨x, hx⟩, -⟩ | ⟨hon, hclosed, hok, rfl⟩ |
      ⟨hon, hfrom, hok, rfl⟩
    · obtain rfl := Except.ok.inj hok
      have hdisabled := h.disabled hoff
      refine ⟨fun he => absurd (hoff.symm.trans he) Bool.false_ne_true, fun _ => ⟨hdisabled.1, ?_⟩,
        fun ho => ?_, fun hh => ?_, h.closed⟩
      · intro t ht
        rcases List.mem_cons.mp ht with rfl | hold
        · rfl
        · exact hdisabled.2 t hold
      · rw [show r.circuit.state = .closed by rw [hdisabled.1]; rfl] at ho
        cases ho
      · rw [show r.circuit.state = .closed by rw [hdisabled.1]; rfl] at hh
        cases hh
    · cases hx
    · obtain rfl := Except.ok.inj hok
      refine ⟨fun _ t ht => ?_, fun hoff => absurd (hoff.symm.trans hon) Bool.false_ne_true,
        fun ho => ?_, fun hh => ?_, h.closed⟩
      · rcases List.mem_cons.mp ht with rfl | hold
        · exact ⟨_, rfl, Nat.le_refl _⟩
        · exact h.token hon t hold
      · rw [hclosed] at ho
        cases ho
      · rw [hclosed] at hh
        cases hh
    · -- the new probe is the only call with this generation
      obtain rfl := Except.ok.inj hok
      have hnone : r.outstanding.count (some r.circuit.generation) = 0 := by
        rcases hfrom with ⟨hhalf, hprobe⟩ | ⟨hopened, -⟩
        · rw [h.halfOpen hhalf, hprobe]
          rfl
        · obtain ⟨-, -, -, hzero⟩ := h.opened hopened
          exact hzero
      refine ⟨fun _ t ht => ?_, fun hoff => absurd (hoff.symm.trans hon) Bool.false_ne_true,
        nofun, fun _ => ?_, nofun⟩
      · rcases List.mem_cons.mp ht with rfl | hold
        · exact ⟨_, rfl, Nat.le_refl _⟩
        · exact h.token hon t hold
      · show (some r.circuit.generation :: r.outstanding).count (some r.circuit.generation) = 1
        rw [List.count_cons_self, hnone]
  · rename_i x c hcall
    obtain rfl := Option.some.inj hstep
    rcases hcases _ _ hcall with ⟨-, hok, -⟩ | ⟨-, -, rfl⟩ | ⟨-, -, hok, -⟩ | ⟨-, -, hok, -⟩
    · cases hok
    · exact ⟨h.token, h.disabled, h.opened, h.halfOpen, h.closed⟩
    · cases hok
    · cases hok

omit [DecidableLT τ] [Sub τ] in
theorem recordSuccess (h : CircuitInv cfg r) (hout : token ∈ r.outstanding) (now : τ) :
    CircuitInv cfg (r.recorded token true false now (r.circuit.recordSuccess cfg token)) := by
  rcases Circuit.recordSuccess_cases cfg token r.circuit with ⟨hcase, heq⟩ | ⟨hon, hstale, heq⟩
  · rw [heq]
    exact h.ignored (h.token_of_ignored hout (hcase.imp_right Or.inl)) true false now
  · obtain rfl := h.token_of_not_stale hon hout hstale
    rw [heq]
    refine ⟨fun _ t ht => h.token hon t (List.mem_of_mem_erase ht),
      fun hoff => absurd (hoff.symm.trans hon) Bool.false_ne_true, nofun, nofun,
      fun _ => ⟨cfg.threshold_pos, ?_⟩⟩
    show 0 = streak r.circuit.generation (r.records ++ [_])
    rw [streak_append, if_pos rfl, if_pos rfl]

omit [DecidableLT τ] [Sub τ] in
/-- An opening: every token that is out belongs to an earlier generation. -/
theorem openedNow (h : CircuitInv cfg r) (hon : cfg.enabled = true) (c : Circuit τ)
    (hgeneration : c.generation = r.circuit.generation) (now : τ) :
    CircuitInv cfg (r.recorded token false true now (c.open_ now)) := by
  have hopenings : (r.recorded token false true now (c.open_ now)).openings =
      r.openings ++ [now] := if_pos (by show _ < c.generation + 1; omega)
  refine ⟨fun _ t ht => ?_, fun hoff => absurd (hoff.symm.trans hon) Bool.false_ne_true,
    fun _ => ⟨now, rfl, ?_, ?_⟩, nofun, nofun⟩
  · obtain ⟨g, rfl, hle⟩ := h.token hon t (List.mem_of_mem_erase ht)
    exact ⟨g, rfl, by show g ≤ c.generation + 1; omega⟩
  · rw [hopenings, List.getLast?_concat]
  · refine List.count_eq_zero.mpr fun hmem => ?_
    obtain ⟨g, hg, hle⟩ := h.token hon _ (List.mem_of_mem_erase hmem)
    have : c.generation + 1 = g := Option.some.inj hg
    omega

omit [DecidableLT τ] [Sub τ] in
theorem recordFailure (h : CircuitInv cfg r) (hout : token ∈ r.outstanding) (now : τ)
    (error : PyError) (proxied : Bool) :
    CircuitInv cfg (r.recorded token false (error.relevant proxied) now
      (r.circuit.recordFailure cfg now error proxied token)) := by
  rcases Circuit.recordFailure_cases cfg now error proxied token r.circuit with ⟨hcase, heq⟩ |
    ⟨hon, hstale, hopen, hrest⟩
  · rw [heq]
    exact h.ignored (h.token_of_ignored hout hcase) false _ now
  obtain rfl := h.token_of_not_stale hon hout hstale
  have hoff : ∀ {p : Prop}, cfg.enabled = false → p := fun hf => by
    rw [hon] at hf
    cases hf
  rcases hrest with ⟨hirrelevant, heq⟩ | ⟨hrelevant, hhalf, heq⟩ | ⟨hrelevant, hclosed, hge, heq⟩ |
    ⟨hrelevant, hclosed, hlt, heq⟩
  · rw [heq, hirrelevant]
    refine ⟨fun _ t ht => h.token hon t (List.mem_of_mem_erase ht), hoff,
      fun ho => absurd ho hopen, fun hh => ?_, fun hc => ⟨(h.closed hc).1, ?_⟩⟩
    · show (r.outstanding.erase (some r.circuit.generation)).count
        (some r.circuit.generation) = 0
      have hone := h.halfOpen hh
      rw [List.count_erase_self]
      split at hone <;> omega
    · show _ = streak r.circuit.generation (r.records ++ [_])
      rw [streak_append, if_pos rfl, if_neg Bool.false_ne_true, if_neg Bool.false_ne_true]
      exact (h.closed hc).2
  · rw [heq, hrelevant]
    exact h.openedNow hon r.circuit rfl now
  · rw [heq, hrelevant]
    exact h.openedNow hon { r.circuit with failureCount := r.circuit.failureCount + 1 } rfl now
  · rw [heq, hrelevant]
    refine ⟨fun _ t ht => h.token hon t (List.mem_of_mem_erase ht), hoff,
      fun ho => absurd ho hopen, fun hh => ?_, fun _ => ⟨hlt, ?_⟩⟩
    · rw [show r.circuit.state = .closed from hclosed] at hh
      cases hh
    · show r.circuit.failureCount + 1 = streak r.circuit.generation (r.records ++ [_])
      rw [streak_append, if_pos rfl, if_neg Bool.false_ne_true, if_pos rfl,
        (h.closed hclosed).2]

/-- One step of any kind. -/
theorem step {r' : CircuitRun τ} {now : τ} {op : CircuitOp} (h : CircuitInv cfg r)
    (hstep : r.step cfg now op = some r') : CircuitInv cfg r' := by
  cases op with
  | beforeCall => exact h.beforeCall hstep
  | recordSuccess token =>
      simp only [CircuitRun.step] at hstep
      split at hstep
      · rename_i hout
        obtain rfl := Option.some.inj hstep
        exact h.recordSuccess hout now
      · cases hstep
  | recordFailure error proxied token =>
      simp only [CircuitRun.step] at hstep
      split at hstep
      · rename_i hout
        obtain rfl := Option.some.inj hstep
        exact h.recordFailure hout now error proxied
      · cases hstep

end CircuitInv

theorem CircuitReach.inv {cfg : CircuitConfig τ} {r : CircuitRun τ} (h : CircuitReach cfg r) :
    CircuitInv cfg r := by
  induction h with
  | init => exact .init
  | step _ _ _ hstep ih => exact ih.step hstep

/-! ## What every run keeps -/

/-- A step from a closed breaker leaves it closed, or records the failure that
reaches the threshold. -/
theorem CircuitInv.step_of_closed {cfg : CircuitConfig τ} {r r' : CircuitRun τ} {now : τ}
    {op : CircuitOp} (h : CircuitInv cfg r) (hclosed : r.circuit.state = .closed)
    (hstep : r.step cfg now op = some r') :
    (r'.circuit.state = .closed ∧ r'.circuit.generation = r.circuit.generation) ∨
    (r'.circuit.state = .opened ∧ cfg.threshold ≤ r.circuit.failureCount + 1 ∧
      r'.records = r.records ++
        [⟨some r.circuit.generation, r.circuit.generation, false, true⟩]) := by
  cases op with
  | beforeCall =>
      have hcall : ∀ v c, r.circuit.beforeCall cfg now = (v, c) → c = r.circuit := by
        intro v c heq
        rcases Circuit.beforeCall_cases heq with ⟨-, -, rfl⟩ | ⟨-, -, rfl⟩ | ⟨-, -, -, rfl⟩ |
          ⟨-, ⟨hhalf, -⟩ | ⟨hopened, -⟩, -⟩
        · rfl
        · rfl
        · rfl
        · rw [hclosed] at hhalf
          cases hhalf
        · rw [hclosed] at hopened
          cases hopened
      simp only [CircuitRun.step] at hstep
      split at hstep
      · rename_i token c heq
        obtain rfl := Option.some.inj hstep
        rw [hcall _ _ heq]
        exact Or.inl ⟨hclosed, rfl⟩
      · rename_i x c heq
        obtain rfl := Option.some.inj hstep
        rw [hcall _ _ heq]
        exact Or.inl ⟨hclosed, rfl⟩
  | recordSuccess token =>
      simp only [CircuitRun.step] at hstep
      split at hstep
      case isFalse => cases hstep
      obtain rfl := Option.some.inj hstep
      rcases Circuit.recordSuccess_cases cfg token r.circuit with ⟨-, heq⟩ | ⟨-, -, heq⟩
      · rw [heq]
        exact Or.inl ⟨hclosed, rfl⟩
      · rw [heq]
        exact Or.inl ⟨rfl, rfl⟩
  | recordFailure error proxied token =>
      simp only [CircuitRun.step] at hstep
      split at hstep
      case isFalse => cases hstep
      rename_i hout
      obtain rfl := Option.some.inj hstep
      rcases Circuit.recordFailure_cases cfg now error proxied token r.circuit with ⟨-, heq⟩ |
        ⟨hon, hstale, -, ⟨-, heq⟩ | ⟨-, hhalf, -⟩ | ⟨hrelevant, -, hge, heq⟩ | ⟨-, -, -, heq⟩⟩
      · rw [heq]
        exact Or.inl ⟨hclosed, rfl⟩
      · rw [heq]
        exact Or.inl ⟨hclosed, rfl⟩
      · rw [hclosed] at hhalf
        cases hhalf
      · obtain rfl := h.token_of_not_stale hon hout hstale
        rw [heq, hrelevant]
        exact Or.inr ⟨rfl, hge, rfl⟩
      · rw [heq]
        exact Or.inl ⟨hclosed, rfl⟩

/-- A closed breaker opens when the current generation's failures reach the
threshold, and at no other time. -/
theorem CircuitInv.opens_iff {cfg : CircuitConfig τ} {r r' : CircuitRun τ} {now : τ}
    {op : CircuitOp} (h : CircuitInv cfg r) (hclosed : r.circuit.state = .closed)
    (hstep : r.step cfg now op = some r') :
    r'.circuit.state = .opened ↔ cfg.threshold ≤ streak r.circuit.generation r'.records := by
  rcases h.step_of_closed hclosed hstep with ⟨hstate, hgeneration⟩ | ⟨hstate, hge, hrecords⟩
  · obtain ⟨hlt, hcount⟩ := (h.step hstep).closed hstate
    rw [hgeneration] at hcount
    rw [hstate, ← hcount]
    exact ⟨nofun, fun hge => by omega⟩
  · refine iff_of_true hstate ?_
    rw [hrecords, streak_append, if_pos rfl, if_neg Bool.false_ne_true, if_pos rfl,
      ← (h.closed hclosed).2]
    exact hge

/-- What holds after every run: `opened` and `closed` are the shape of the
state, `probe` and `stale` say whose records count, `refused` when nobody is
admitted, and the rest how the state moves. -/
structure CircuitSound (cfg : CircuitConfig τ) (r : CircuitRun τ) : Prop where
  opened : r.circuit.state = .opened → ∃ t, r.circuit.openedAt = some t ∧
    r.openings.getLast? = some t
  closed : r.circuit.state = .closed → r.circuit.failureCount < cfg.threshold
  probe : r.circuit.state = .halfOpen → r.outstanding.count (some r.circuit.generation) ≤ 1
  stale : ∀ g, some g ∈ r.outstanding → g ≠ r.circuit.generation →
    g < r.circuit.generation ∧ r.circuit.recordSuccess cfg (some g) = r.circuit ∧
      ∀ now error proxied, r.circuit.recordFailure cfg now error proxied (some g) = r.circuit
  refused : ∀ t now, r.circuit.state = .opened → r.openings.getLast? = some t →
    now - t < cfg.cooldown → r.circuit.beforeCall cfg now =
      (.error (Circuit.circuitOpen "Google Play circuit is open"), r.circuit)
  opens : ∀ now op r', r.circuit.state = .closed → r.step cfg now op = some r' →
    (r'.circuit.state = .opened ↔ cfg.threshold ≤ streak r.circuit.generation r'.records)
  reopens : ∀ now error proxied, r.circuit.state = .halfOpen →
    some r.circuit.generation ∈ r.outstanding → error.relevant proxied = true →
      r.circuit.recordFailure cfg now error proxied (some r.circuit.generation) =
        r.circuit.open_ now
  closes : r.circuit.state = .halfOpen → some r.circuit.generation ∈ r.outstanding →
    (r.circuit.recordSuccess cfg (some r.circuit.generation)).state = .closed

theorem circuit_sound (cfg : CircuitConfig τ) {r : CircuitRun τ} (h : CircuitReach cfg r) :
    CircuitSound cfg r := by
  have hinv := h.inv
  have henabled : r.circuit.state ≠ .closed → cfg.enabled = true := by
    intro hstate
    by_contra hoff
    rw [(hinv.disabled (by simpa using hoff)).1] at hstate
    exact hstate rfl
  have hcurrent : r.circuit.stale (some r.circuit.generation) = false := by
    simp [Circuit.stale]
  refine ⟨fun ho => ?_, fun hc => (hinv.closed hc).1, fun hh => ?_, fun g hg hne => ?_,
    fun t now ho hlast hlt => ?_, fun now op r' hc hstep => hinv.opens_iff hc hstep,
    fun now error proxied hh _ hrelevant => ?_, fun hh _ => ?_⟩
  · obtain ⟨t, hat, hlast, -⟩ := hinv.opened ho
    exact ⟨t, hat, hlast⟩
  · rw [hinv.halfOpen hh]
    split <;> omega
  · have hstale : r.circuit.stale (some g) = true := by simpa [Circuit.stale] using hne
    have hon : cfg.enabled = true := by
      by_contra hoff
      cases (hinv.disabled (by simpa using hoff)).2 _ hg
    obtain ⟨g', hg', hle⟩ := hinv.token hon _ hg
    obtain rfl := Option.some.inj hg'
    refine ⟨by omega, ?_, fun now error proxied => ?_⟩
    · simp [Circuit.recordSuccess, hstale]
    · simp [Circuit.recordFailure, hstale]
  · obtain ⟨t', hat, hlast', -⟩ := hinv.opened ho
    obtain rfl := Option.some.inj (hlast'.symm.trans hlast)
    simp only [Circuit.beforeCall, henabled (by rw [ho]; nofun), ho, hat, if_pos hlt,
      Bool.not_true, Bool.false_eq_true, if_false, if_true]
  · rcases Circuit.recordFailure_cases cfg now error proxied (some r.circuit.generation)
      r.circuit with ⟨hoff | hstale | ho, -⟩ | ⟨-, -, -, ⟨hirrelevant, -⟩ | ⟨-, -, heq⟩ |
        ⟨-, hc, -⟩ | ⟨-, hc, -⟩⟩
    · rw [henabled (by rw [hh]; nofun)] at hoff
      cases hoff
    · rw [hcurrent] at hstale
      cases hstale
    · rw [hh] at ho
      cases ho
    · rw [hrelevant] at hirrelevant
      cases hirrelevant
    · exact heq
    · rw [hh] at hc
      cases hc
    · rw [hh] at hc
      cases hc
  · simp [Circuit.recordSuccess, henabled (by rw [hh]; nofun), hcurrent]

end Breaker

namespace Sample

def circuitConfig : CircuitConfig Int := ⟨1, 5, true, by decide, by decide⟩

def rateLimited : PyError :=
  .crawler ⟨.rateLimited, "Google Play rate limited the request", false, none⟩

end Sample

open Sample in
/-- Two calls of generation 0: the first one opens the breaker, the second one
comes back late while the probe of generation 1 is out. -/
theorem circuit_sound_late_call : ∃ r : CircuitRun Int, CircuitReach circuitConfig r ∧
    r.circuit.state = .halfOpen ∧ r.outstanding = [some 1] ∧ r.openings = [10] ∧
    CircuitSound circuitConfig r := by
  have hreach : CircuitReach circuitConfig (⟨⟨.halfOpen, 1, some 10, true, 1⟩, [some 1],
      [⟨some 0, 0, false, true⟩, ⟨some 0, 1, true, false⟩], [10]⟩ : CircuitRun Int) := by
    have hcalls := (CircuitReach.init : CircuitReach circuitConfig _)
      |>.step 2 .beforeCall rfl |>.step 3 .beforeCall rfl
    have hopened := hcalls |>.step 10 (.recordFailure rateLimited false (some 0)) rfl
    exact hopened |>.step 12 .beforeCall rfl |>.step 15 .beforeCall rfl
      |>.step 17 (.recordSuccess (some 0)) rfl
  exact ⟨_, hreach, rfl, rfl, rfl, circuit_sound circuitConfig hreach⟩

end Sahabino
