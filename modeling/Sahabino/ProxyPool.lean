import Sahabino.Capture
import Sahabino.CircuitBreaker

/-!
# Proxy leases

`NoProxyProvider` and `PoolProxyProvider` over `ProxyPool`, and the
`NetworkPolicy` that decides when a lease is rotated.

A lease is an object with an identity: it is referred to by its number,
together with the attributes that never change (`LeaseRef`), and whether
it was released is kept beside it. The pool's table maps a context to its
current lease. Rotation is not atomic: it releases the old lease first,
and may then find no proxy for a new one.

The health of the endpoints and the rate-limit counters are shared by all
clients.
-/

namespace Sahabino

/-- `clock.monotonic()` and durations. -/
abbrev Seconds := ℚ

/-- `context_id`; the crawler passes the text of the application's id. -/
abbrev ContextId := String

/-! ## Endpoints -/

inductive ProxyState where
  | healthy
  | cooldown
  | unhealthy
  | disabled
deriving DecidableEq, Repr

structure ProxyEndpoint where
  proxyId : String
  state : ProxyState
  failureCount : Nat
  cooldownUntil : Option Seconds
deriving DecidableEq

namespace ProxyEndpoint

def recordSuccess (p : ProxyEndpoint) : ProxyEndpoint :=
  if p.state = .disabled ∨ p.state = .unhealthy then p
  else { p with state := .healthy, failureCount := 0, cooldownUntil := none }

/-- `usable`: a cooldown that is over ends when somebody asks. -/
def refreshed (now : Seconds) (p : ProxyEndpoint) : ProxyEndpoint :=
  match p.state, p.cooldownUntil with
  | .cooldown, some cooldownUntil => if cooldownUntil ≤ now then p.recordSuccess else p
  | _, _ => p

def usable (now : Seconds) (p : ProxyEndpoint) : Bool := (p.refreshed now).state = .healthy

def startCooldown (cooldownSeconds now : Seconds) (p : ProxyEndpoint) : ProxyEndpoint :=
  if p.state = .disabled ∨ p.state = .unhealthy then p
  else { p with state := .cooldown, cooldownUntil := some (now + cooldownSeconds) }

def markUnhealthy (p : ProxyEndpoint) : ProxyEndpoint :=
  if p.state = .disabled then p else { p with state := .unhealthy, cooldownUntil := none }

/-- The answer says whether the threshold was reached. -/
def recordFailure (threshold : Nat) (cooldownSeconds now : Seconds) (p : ProxyEndpoint) :
    Bool × ProxyEndpoint :=
  if p.state = .disabled ∨ p.state = .unhealthy then (false, p)
  else
    let p' := { p with failureCount := p.failureCount + 1 }
    if p'.failureCount < threshold then (false, p')
    else (true, p'.startCooldown cooldownSeconds now)

end ProxyEndpoint

/-- What all clients share: the endpoints, where the next selection starts, and
the consecutive rate limits of each egress. -/
structure EgressHealth where
  endpoints : List ProxyEndpoint
  nextIndex : Nat
  rateLimits : String → Nat

namespace EgressHealth

def update (proxyId : String) (f : ProxyEndpoint → ProxyEndpoint) (h : EgressHealth) :
    EgressHealth :=
  { h with endpoints := h.endpoints.map fun p => if p.proxyId = proxyId then f p else p }

def find (proxyId : String) (h : EgressHealth) : Option ProxyEndpoint :=
  h.endpoints.find? fun p => p.proxyId = proxyId

/-- `_select`, from the offset on: the excluded endpoint is not even asked. -/
def selectFrom (now : Seconds) (excludedProxyId : Option String) (h : EgressHealth) :
    List Nat → Option String × EgressHealth
  | [] => (none, h)
  | offset :: offsets =>
      let index := (h.nextIndex + offset) % h.endpoints.length
      match h.endpoints[index]? with
      | none => selectFrom now excludedProxyId h offsets
      | some p =>
          if some p.proxyId = excludedProxyId then selectFrom now excludedProxyId h offsets
          else
            let h' := h.update p.proxyId (·.refreshed now)
            if p.usable now then
              (some p.proxyId, { h' with nextIndex := (index + 1) % h.endpoints.length })
            else selectFrom now excludedProxyId h' offsets

def select (now : Seconds) (excludedProxyId : Option String) (h : EgressHealth) :
    Option String × EgressHealth :=
  h.selectFrom now excludedProxyId (List.range h.endpoints.length)

end EgressHealth

/-! ## Leases -/

/-- A lease object; `endpoint` is the id of its proxy, and `none` if it is direct. -/
structure LeaseRef where
  id : Nat
  contextId : ContextId
  endpoint : Option String
deriving DecidableEq

/-- `is_direct`. -/
def LeaseRef.isDirect (l : LeaseRef) : Bool := l.endpoint.isNone

/-- `lease.proxy_id or "direct"`. -/
def LeaseRef.identity (l : LeaseRef) : String := l.endpoint.getD "direct"

inductive ProviderKind where
  | noProxy
  | pool (failureThreshold : Nat) (cooldownSeconds : Seconds) (directFallback : Bool)

/-- The lease objects by number, with their released flag, and the provider's
table. -/
structure LeaseTable where
  objects : List (LeaseRef × Bool)
  leases : ContextId → Option LeaseRef

namespace LeaseTable

def empty : LeaseTable := ⟨[], fun _ => none⟩

def isReleased (t : LeaseTable) (l : LeaseRef) : Bool :=
  match t.objects[l.id]? with
  | some (_, released) => released
  | none => false

/-- `ProxyLease(...)`. -/
def create (contextId : ContextId) (endpoint : Option String) (t : LeaseTable) :
    LeaseRef × LeaseTable :=
  let lease : LeaseRef := ⟨t.objects.length, contextId, endpoint⟩
  (lease, { objects := t.objects ++ [(lease, false)],
            leases := fun k => if k = contextId then some lease else t.leases k })

def setReleased (l : LeaseRef) (t : LeaseTable) : LeaseTable :=
  { t with objects := t.objects.set l.id (l, true) }

def forget (contextId : ContextId) (t : LeaseTable) : LeaseTable :=
  { t with leases := fun k => if k = contextId then none else t.leases k }

end LeaseTable

/-- The provider: its leases and the shared health. -/
structure Provider where
  table : LeaseTable
  health : EgressHealth

def proxyUnavailable : PyError :=
  .crawler ⟨.proxyUnavailable, "no usable proxy is available", false, none⟩

namespace Provider

variable (kind : ProviderKind) (now : Seconds)

/-- A pool lets go of a context only if the lease is the context's current one;
without proxies any lease of the context will do. -/
def release (l : LeaseRef) (p : Provider) : Provider :=
  let released := p.table.setReleased l
  match kind with
  | .noProxy => { p with table := released.forget l.contextId }
  | .pool _ _ _ =>
      if p.table.leases l.contextId = some l then
        { p with table := released.forget l.contextId }
      else { p with table := released }

def acquireNew (contextId : ContextId) (excludedProxyId : Option String) (p : Provider) :
    Except PyError LeaseRef × Provider :=
  match kind with
  | .noProxy =>
      let (lease, table) := p.table.create contextId none
      (.ok lease, { p with table := table })
  | .pool _ _ directFallback =>
      match p.health.select now excludedProxyId with
      | (none, health) =>
          if !directFallback then (.error proxyUnavailable, { p with health := health })
          else
            let (lease, table) := p.table.create contextId none
            (.ok lease, ⟨table, health⟩)
      | (some endpoint, health) =>
          let (lease, table) := p.table.create contextId (some endpoint)
          (.ok lease, ⟨table, health⟩)

def acquire (contextId : ContextId) (excludedProxyId : Option String) (p : Provider) :
    Except PyError LeaseRef × Provider :=
  match p.table.leases contextId with
  | some existing =>
      if p.table.isReleased existing then p.acquireNew kind now contextId excludedProxyId
      else (.ok existing, p)
  | none => p.acquireNew kind now contextId excludedProxyId

def rotate (l : LeaseRef) (contextId : ContextId) (p : Provider) :
    Except PyError LeaseRef × Provider :=
  (p.release kind l).acquire kind now contextId l.endpoint

def isUsable (l : LeaseRef) (p : Provider) : Bool × Provider :=
  if p.table.isReleased l then (false, p)
  else
    match kind, l.endpoint.bind fun id => p.health.find id with
    | .pool _ _ _, some endpoint =>
        (endpoint.usable now,
          { p with health := p.health.update endpoint.proxyId (·.refreshed now) })
    | _, _ => (true, p)

/-- The methods that only change the endpoint of the lease. -/
def updateEndpoint (l : LeaseRef) (f : ProxyEndpoint → ProxyEndpoint) (p : Provider) : Provider :=
  match kind, l.endpoint with
  | .pool _ _ _, some id => { p with health := p.health.update id f }
  | _, _ => p

def recordSuccess (l : LeaseRef) (p : Provider) : Provider :=
  p.updateEndpoint kind l ProxyEndpoint.recordSuccess

def startCooldown (l : LeaseRef) (p : Provider) : Provider :=
  match kind with
  | .noProxy => p
  | .pool _ cooldownSeconds _ => p.updateEndpoint kind l (·.startCooldown cooldownSeconds now)

def markUnhealthy (l : LeaseRef) (p : Provider) : Provider :=
  p.updateEndpoint kind l ProxyEndpoint.markUnhealthy

def recordFailure (l : LeaseRef) (p : Provider) : Bool × Provider :=
  match kind, l.endpoint.bind fun id => p.health.find id with
  | .pool threshold cooldownSeconds _, some endpoint =>
      let fail := ProxyEndpoint.recordFailure threshold cooldownSeconds now
      ((fail endpoint).1,
        { p with health := p.health.update endpoint.proxyId fun q => (fail q).2 })
  | _, _ => (false, p)

end Provider

/-! ## The network policy -/

namespace NetworkPolicy

variable (kind : ProviderKind) (now : Seconds)

/-- `self._provider.rotate(lease, context_id) if allow_rotation else lease`. -/
def rotateIf (allowRotation : Bool) (l : LeaseRef) (contextId : ContextId) (p : Provider) :
    Except PyError LeaseRef × Provider :=
  if allowRotation then p.rotate kind now l contextId else (.ok l, p)

def countRateLimit (l : LeaseRef) (p : Provider) : Nat × Provider :=
  let count := p.health.rateLimits l.identity + 1
  (count, { p with health := { p.health with
    rateLimits := fun k => if k = l.identity then count else p.health.rateLimits k } })

def handleFailure (rateLimitThreshold : Nat) (error : PyError) (l : LeaseRef)
    (contextId : ContextId) (allowRotation : Bool) (p : Provider) :
    Except PyError LeaseRef × Provider :=
  if error.isInstance [.accessForbidden] then
    if l.isDirect then (.ok l, p)
    else rotateIf kind now allowRotation l contextId (p.startCooldown kind now l)
  else if error.isInstance [.proxyAuthenticationFailure] then
    if l.isDirect then (.ok l, p)
    else rotateIf kind now allowRotation l contextId (p.markUnhealthy kind l)
  else if error.isInstance [.rateLimited] then
    let (count, p) := countRateLimit l p
    if rateLimitThreshold ≤ count ∧ l.isDirect = false then
      rotateIf kind now allowRotation l contextId (p.startCooldown kind now l)
    else (.ok l, p)
  else if error.isInstance [.proxyConnectionFailure, .networkTimeout,
      .temporaryConnectionFailure, .gatewayFailure] then
    let (reached, p) := p.recordFailure kind now l
    if reached then rotateIf kind now allowRotation l contextId p else (.ok l, p)
  else (.ok l, p)

def recordSuccess (l : LeaseRef) (p : Provider) : Provider :=
  let p := p.recordSuccess kind l
  { p with health := { p.health with
    rateLimits := fun k => if k = l.identity then 0 else p.health.rateLimits k } }

end NetworkPolicy

/-! ## What happens to the leases -/

namespace Provider

variable {kind : ProviderKind} {now : Seconds} {l : LeaseRef} {contextId : ContextId}
  {p p' : Provider} {r : Except PyError LeaseRef}

theorem updateEndpoint_table (f : ProxyEndpoint → ProxyEndpoint) :
    (p.updateEndpoint kind l f).table = p.table := by
  unfold updateEndpoint
  split <;> rfl

theorem startCooldown_table : (p.startCooldown kind now l).table = p.table := by
  unfold startCooldown
  split
  · rfl
  · exact updateEndpoint_table _

theorem recordFailure_table : (p.recordFailure kind now l).2.table = p.table := by
  unfold recordFailure
  split <;> rfl

theorem isUsable_table : (p.isUsable kind now l).2.table = p.table := by
  unfold isUsable
  split
  · rfl
  · split <;> rfl

/-- A new lease, or no usable proxy. -/
theorem acquireNew_cases {excluded : Option String}
    (h : p.acquireNew kind now contextId excluded = (r, p')) :
    (∃ endpoint, r = .ok (p.table.create contextId endpoint).1 ∧
      p'.table = (p.table.create contextId endpoint).2) ∨
    (r = .error proxyUnavailable ∧ p'.table = p.table) := by
  unfold acquireNew at h
  split at h
  · obtain ⟨rfl, rfl⟩ := Prod.mk.injEq .. |>.mp h
    exact Or.inl ⟨none, rfl, rfl⟩
  · split at h
    · split at h
      · obtain ⟨rfl, rfl⟩ := Prod.mk.injEq .. |>.mp h
        exact Or.inr ⟨rfl, rfl⟩
      · obtain ⟨rfl, rfl⟩ := Prod.mk.injEq .. |>.mp h
        exact Or.inl ⟨none, rfl, rfl⟩
    · rename_i endpoint health _
      obtain ⟨rfl, rfl⟩ := Prod.mk.injEq .. |>.mp h
      exact Or.inl ⟨some endpoint, rfl, rfl⟩

theorem acquire_cases {excluded : Option String}
    (h : p.acquire kind now contextId excluded = (r, p')) :
    (∃ existing, p.table.leases contextId = some existing ∧
      p.table.isReleased existing = false ∧ r = .ok existing ∧ p' = p) ∨
    (∃ endpoint, r = .ok (p.table.create contextId endpoint).1 ∧
      p'.table = (p.table.create contextId endpoint).2) ∨
    (r = .error proxyUnavailable ∧ p'.table = p.table) := by
  unfold acquire at h
  split at h
  · rename_i existing hexisting
    split at h
    · exact Or.inr (acquireNew_cases h)
    · rename_i hreleased
      obtain ⟨rfl, rfl⟩ := Prod.mk.injEq .. |>.mp h
      exact Or.inl ⟨existing, hexisting, by simpa using hreleased, rfl, rfl⟩
  · exact Or.inr (acquireNew_cases h)

theorem acquire_raises {excluded : Option String} {x : PyError}
    (h : p.acquire kind now contextId excluded = (.error x, p')) : x = proxyUnavailable := by
  rcases acquire_cases h with ⟨_, -, -, hok, -⟩ | ⟨_, hok, -⟩ | ⟨hraised, -⟩
  · cases hok
  · cases hok
  · exact Except.error.inj hraised

end Provider

/-- A failure leaves the leases alone, or rotates. -/
theorem NetworkPolicy.handleFailure_cases {kind : ProviderKind} {now : Seconds} {threshold : Nat}
    {error : PyError} {l : LeaseRef} {contextId : ContextId} {allowRotation : Bool}
    {p p' : Provider} {r : Except PyError LeaseRef}
    (h : handleFailure kind now threshold error l contextId allowRotation p = (r, p')) :
    (r = .ok l ∧ p'.table = p.table) ∨
    ∃ p₁ : Provider, p₁.table = p.table ∧ p₁.rotate kind now l contextId = (r, p') := by
  have hrotateIf : ∀ {p₁ : Provider}, p₁.table = p.table →
      rotateIf kind now allowRotation l contextId p₁ = (r, p') →
      (r = .ok l ∧ p'.table = p.table) ∨
        ∃ p₁ : Provider, p₁.table = p.table ∧ p₁.rotate kind now l contextId = (r, p') := by
    intro p₁ htable hr
    unfold rotateIf at hr
    split at hr
    · exact Or.inr ⟨p₁, htable, hr⟩
    · obtain ⟨rfl, rfl⟩ := Prod.mk.injEq .. |>.mp hr
      exact Or.inl ⟨rfl, htable⟩
  have hsame : ∀ {p₁ : Provider}, p₁.table = p.table → (.ok l, p₁) = (r, p') →
      (r = .ok l ∧ p'.table = p.table) ∨
        ∃ p₁ : Provider, p₁.table = p.table ∧ p₁.rotate kind now l contextId = (r, p') := by
    intro p₁ htable hr
    obtain ⟨rfl, rfl⟩ := Prod.mk.injEq .. |>.mp hr
    exact Or.inl ⟨rfl, htable⟩
  unfold handleFailure at h
  split at h
  · split at h
    · exact hsame rfl h
    · exact hrotateIf Provider.startCooldown_table h
  split at h
  · split at h
    · exact hsame rfl h
    · exact hrotateIf (Provider.updateEndpoint_table _) h
  split at h
  · have hcount : (countRateLimit l p).2.table = p.table := rfl
    simp only at h
    split at h
    · exact hrotateIf (Provider.startCooldown_table.trans hcount) h
    · exact hsame hcount h
  split at h
  · simp only at h
    split at h
    · exact hrotateIf Provider.recordFailure_table h
    · exact hsame Provider.recordFailure_table h
  · exact hsame rfl h

end Sahabino
