import Mathlib.Data.List.Rotate
import Sahabino.EgressLeases
import Sahabino.Lib.PyText

/-!
# The proxy pool over its whole life

One `ProxyPool`, and any sequence of calls by any number of contexts, on
leases the pool has handed out, current or stale. Every method holds the
pool's lock, so a run is a sequence of calls with the clock readings they
make.

What a run has done is kept beside the pool as a list of notes
(`PoolNote`). The health of an endpoint is stored as a state and a
deadline, and a cooldown that is over ends only when somebody asks; what
the notes say about an endpoint (`pendingCooldown`) bounds both
(`ProxyEndpoint.Agrees`). With that, what `_select` finds can be said in
terms of the notes (`pool_keeps_promises`).
-/

namespace Sahabino

/-! ## The pool -/

structure PoolConfig where
  failureThreshold : Nat
  cooldownSeconds : Seconds
  directFallback : Bool

def PoolConfig.kind (cfg : PoolConfig) : ProviderKind :=
  .pool cfg.failureThreshold cfg.cooldownSeconds cfg.directFallback

/-- `proxy-{index}`, from one on. -/
def proxyIdAt (k : Nat) : String := "proxy-" ++ toString (k + 1)

/-- `ProxyPool(...)`. -/
def newProxyPool (cfg : PoolConfig) (proxyUrls : List String) : Except PyError Provider :=
  if cfg.failureThreshold < 1 then
    .error (.other "ValueError" "proxy failure threshold must be at least one")
  else if cfg.cooldownSeconds < 0 then
    .error (.other "ValueError" "proxy cooldown must not be negative")
  else if proxyUrls.any fun url => Py.strip url.toList = [] then
    .error (.other "ValueError" "proxy URLs must not be blank")
  else
    .ok ⟨.empty, ⟨(List.range proxyUrls.length).map fun k => ⟨proxyIdAt k, .healthy, 0, none⟩,
      0, fun _ => 0⟩⟩

inductive PoolCall where
  | acquire (contextId : ContextId) (excludedProxyId : Option String)
  | rotate (lease : LeaseRef) (contextId : ContextId)
  | release (lease : LeaseRef)
  | recordSuccess (lease : LeaseRef)
  | recordFailure (lease : LeaseRef)
  | startCooldown (lease : LeaseRef)
  | markUnhealthy (lease : LeaseRef)
  | isUsable (lease : LeaseRef)

/-- The lease a call is about; `acquire` takes none. -/
def PoolCall.lease : PoolCall → Option LeaseRef
  | acquire _ _ => none
  | rotate l _ => some l
  | release l => some l
  | recordSuccess l => some l
  | recordFailure l => some l
  | startCooldown l => some l
  | markUnhealthy l => some l
  | isUsable l => some l

inductive PoolAnswer where
  | done
  | flag (b : Bool)
  | lease (r : Except PyError LeaseRef)

def PoolCall.exec (cfg : PoolConfig) (now : Seconds) : PoolCall → Provider → PoolAnswer × Provider
  | acquire contextId excludedProxyId, p =>
      let (r, p) := p.acquire cfg.kind now contextId excludedProxyId
      (.lease r, p)
  | rotate l contextId, p =>
      let (r, p) := p.rotate cfg.kind now l contextId
      (.lease r, p)
  | release l, p => (.done, p.release cfg.kind l)
  | recordSuccess l, p => (.done, p.recordSuccess cfg.kind l)
  | recordFailure l, p =>
      let (reached, p) := p.recordFailure cfg.kind now l
      (.flag reached, p)
  | startCooldown l, p => (.done, p.startCooldown cfg.kind now l)
  | markUnhealthy l, p => (.done, p.markUnhealthy cfg.kind l)
  | isUsable l, p =>
      let (usable, p) := p.isUsable cfg.kind now l
      (.flag usable, p)

/-! ## What has happened -/

inductive PoolNote where
  | created (lease : LeaseRef)
  | succeeded (proxyId : String)
  | cooledDown (proxyId : String) (now : Seconds)
  | markedUnhealthy (proxyId : String)

/-- The lease is a new object, with the next number. -/
def newLease (before : Provider) : Except PyError LeaseRef → List PoolNote
  | .ok l => if l.id = before.table.objects.length then [.created l] else []
  | .error _ => []

/-- What there is to note about a call: a new lease, or what was recorded of the
endpoint of its lease. A failure is noted if it reached the threshold. -/
def PoolCall.notes (now : Seconds) (before : Provider) : PoolCall → PoolAnswer → List PoolNote
  | acquire _ _, .lease r => newLease before r
  | rotate _ _, .lease r => newLease before r
  | recordSuccess l, _ => l.endpoint.toList.map .succeeded
  | recordFailure l, .flag true => l.endpoint.toList.map (.cooledDown · now)
  | startCooldown l, _ => l.endpoint.toList.map (.cooledDown · now)
  | markUnhealthy l, _ => l.endpoint.toList.map .markedUnhealthy
  | _, _ => []

/-- When the latest cooldown of the endpoint ends, unless a success was recorded for
it since. -/
def pendingCooldown (cfg : PoolConfig) (proxyId : String) (history : List PoolNote) :
    Option Seconds :=
  history.foldl (fun deadline note => match note with
    | .succeeded id => if id = proxyId then none else deadline
    | .cooledDown id now => if id = proxyId then some (now + cfg.cooldownSeconds) else deadline
    | _ => deadline) none

/-- The endpoint of the latest new lease that had one. -/
def lastChosen (history : List PoolNote) : Option String :=
  history.foldl (fun chosen note => match note with
    | .created l => l.endpoint.or chosen
    | _ => chosen) none

/-- The place after the endpoint's, in a circle; the first if there is none. -/
def placeAfter (proxyIds : List String) : Option String → Nat
  | none => 0
  | some id => (proxyIds.idxOf id + 1) % proxyIds.length

/-- A pool, the latest reading of its clock, and what has happened to it. -/
structure PoolRun where
  provider : Provider
  clock : Seconds
  history : List PoolNote

def PoolRun.after (cfg : PoolConfig) (c : PoolCall) (now : Seconds) (r : PoolRun) : PoolRun where
  provider := (c.exec cfg now r.provider).2
  clock := now
  history := r.history ++ c.notes now r.provider (c.exec cfg now r.provider).1

/-- The call is about a lease of this pool, and the clock has not gone back. -/
structure PoolRun.Allows (r : PoolRun) (c : PoolCall) (now : Seconds) : Prop where
  lease : ∀ l, c.lease = some l → r.provider.table.Known l
  clock : r.clock ≤ now

inductive PoolReach (cfg : PoolConfig) (proxyUrls : List String) : PoolRun → Prop
  | start {p : Provider} (clock : Seconds) : newProxyPool cfg proxyUrls = .ok p →
      PoolReach cfg proxyUrls ⟨p, clock, []⟩
  | step {r : PoolRun} {c : PoolCall} {now : Seconds} : PoolReach cfg proxyUrls r →
      r.Allows c now → PoolReach cfg proxyUrls (r.after cfg c now)

/-! ## Selection -/

theorem proxyIdAt_injective {k k' : Nat} (h : proxyIdAt k = proxyIdAt k') : k = k' := by
  have hlist := congrArg String.toList h
  rw [proxyIdAt, proxyIdAt, String.toList_append, String.toList_append] at hlist
  have hdigits : Nat.toDigits 10 (k + 1) = Nat.toDigits 10 (k' + 1) := by
    simpa only [Nat.toString_eq_repr, Nat.toList_repr] using List.append_cancel_left hlist
  have hnumber := congrArg (fun digits => Nat.ofDigitChars 10 digits 0) hdigits
  simpa using hnumber

namespace ProxyEndpoint

variable {now : Seconds} {p : ProxyEndpoint}

@[simp] theorem recordSuccess_proxyId (p : ProxyEndpoint) : p.recordSuccess.proxyId = p.proxyId := by
  unfold recordSuccess
  split <;> rfl

@[simp] theorem refreshed_proxyId (now : Seconds) (p : ProxyEndpoint) :
    (p.refreshed now).proxyId = p.proxyId := by
  unfold refreshed
  split
  · split
    · exact recordSuccess_proxyId p
    · rfl
  · rfl

/-- Asking an endpoint that is not usable does not change it. -/
theorem refreshed_of_not_usable (h : p.usable now = false) : p.refreshed now = p := by
  have hstate : (p.refreshed now).state ≠ .healthy := of_decide_eq_false h
  unfold refreshed at hstate ⊢
  split
  · rename_i hcooldown huntil
    split
    · rename_i hover
      simp [hcooldown, huntil, hover, recordSuccess] at hstate
    · rfl
  · rfl

end ProxyEndpoint

namespace EgressHealth

variable {now : Seconds} {excluded : Option String} {h : EgressHealth}

/-- `endpoint.proxy_id != excluded_proxy_id and endpoint.usable(now)`. -/
def eligible (now : Seconds) (excluded : Option String) (p : ProxyEndpoint) : Bool :=
  some p.proxyId ≠ excluded && p.usable now

theorem update_eq_self {proxyId : String} {f : ProxyEndpoint → ProxyEndpoint}
    (hf : ∀ p ∈ h.endpoints, p.proxyId = proxyId → f p = p) : h.update proxyId f = h := by
  have hmap : (h.endpoints.map fun p => if p.proxyId = proxyId then f p else p) = h.endpoints := by
    refine List.map_congr_left (fun p hp => ?_) |>.trans (List.map_id _)
    split
    · rename_i hid
      exact hf p hp hid
    · rfl
  rw [update, hmap]

/-- The endpoints of a pool have different ids. -/
theorem eq_of_proxyId (hnodup : (h.endpoints.map ProxyEndpoint.proxyId).Nodup)
    {p q : ProxyEndpoint} (hp : p ∈ h.endpoints) (hq : q ∈ h.endpoints)
    (heq : p.proxyId = q.proxyId) : p = q :=
  List.inj_on_of_nodup_map hnodup hp hq heq

/-- `_select` takes the first eligible endpoint of those it goes through, and
asking the others changes nothing. -/
theorem selectFrom_spec (hnodup : (h.endpoints.map ProxyEndpoint.proxyId).Nodup) :
    ∀ {offsets : List Nat} {visited : List ProxyEndpoint},
      offsets.map (fun offset => h.endpoints[(h.nextIndex + offset) % h.endpoints.length]?) =
        visited.map some →
      h.selectFrom now excluded offsets = match visited.find? (eligible now excluded) with
        | none => (none, h)
        | some p => (some p.proxyId, { h.update p.proxyId (·.refreshed now) with
            nextIndex := placeAfter (h.endpoints.map ProxyEndpoint.proxyId) (some p.proxyId) })
  | [], [], _ => rfl
  | [], p :: visited, hvisited => by cases hvisited
  | offset :: offsets, [], hvisited => by cases hvisited
  | offset :: offsets, p :: visited, hvisited => by
      obtain ⟨hget, hrest⟩ := List.cons.inj hvisited
      have ih := selectFrom_spec hnodup hrest
      have hmem := List.mem_of_getElem? hget
      simp only [selectFrom, hget, List.find?_cons, eligible]
      split
      · rename_i hexcluded
        simp only [hexcluded, ne_eq, not_true_eq_false, decide_false, Bool.false_and]
        exact ih
      · rename_i hother
        cases husable : p.usable now with
        | true =>
            have hindex : (h.endpoints.map ProxyEndpoint.proxyId).idxOf p.proxyId =
                (h.nextIndex + offset) % h.endpoints.length := by
              have hid : (h.endpoints.map ProxyEndpoint.proxyId)[(h.nextIndex + offset) %
                  h.endpoints.length]? = some p.proxyId := by
                rw [List.getElem?_map]
                exact congrArg (Option.map ProxyEndpoint.proxyId) hget
              obtain ⟨hlt, heq⟩ := List.getElem?_eq_some_iff.mp hid
              rw [← heq]
              exact hnodup.idxOf_getElem _ _
            simp only [placeAfter, hindex, List.length_map, if_true, hother, ne_eq,
              not_false_eq_true, decide_true, Bool.and_self]
        | false =>
            have hsame : h.update p.proxyId (·.refreshed now) = h := by
              refine update_eq_self fun q hq hid => ?_
              rw [eq_of_proxyId hnodup hq hmem hid]
              exact ProxyEndpoint.refreshed_of_not_usable husable
            simp only [hsame, Bool.and_false, Bool.false_eq_true, if_false]
            exact ih

theorem select_spec (hnodup : (h.endpoints.map ProxyEndpoint.proxyId).Nodup) :
    h.select now excluded =
      match (h.endpoints.rotate h.nextIndex).find? (eligible now excluded) with
      | none => (none, h)
      | some p => (some p.proxyId, { h.update p.proxyId (·.refreshed now) with
          nextIndex := placeAfter (h.endpoints.map ProxyEndpoint.proxyId) (some p.proxyId) }) := by
  refine selectFrom_spec hnodup (List.ext_getElem? fun m => ?_)
  rcases Nat.lt_or_ge m h.endpoints.length with hlt | hge
  · have hrotated := List.getElem?_rotate (n := h.nextIndex) hlt
    have hsome : (m + h.nextIndex) % h.endpoints.length < h.endpoints.length :=
      Nat.mod_lt _ (Nat.zero_lt_of_lt hlt)
    rw [List.getElem?_map, List.getElem?_map, List.getElem?_range hlt, hrotated,
      List.getElem?_eq_getElem hsome]
    simp only [Option.map_some, Nat.add_comm h.nextIndex m, List.getElem?_eq_getElem hsome]
  · rw [List.getElem?_eq_none (by simpa using hge), List.getElem?_eq_none (by simpa using hge)]

@[simp] theorem update_proxyIds {proxyId : String} {f : ProxyEndpoint → ProxyEndpoint}
    (hf : ∀ p, (f p).proxyId = p.proxyId) :
    (h.update proxyId f).endpoints.map ProxyEndpoint.proxyId =
      h.endpoints.map ProxyEndpoint.proxyId := by
  rw [update, List.map_map]
  refine List.map_congr_left fun p _ => ?_
  simp only [Function.comp_apply]
  split
  · exact hf p
  · rfl

end EgressHealth

/-! ## What the notes say about an endpoint -/

/-- The note is about this endpoint's health. -/
def PoolNote.About (proxyId : String) : PoolNote → Prop
  | .created _ => False
  | .succeeded id => id = proxyId
  | .cooledDown id _ => id = proxyId
  | .markedUnhealthy id => id = proxyId

section

variable {cfg : PoolConfig} {proxyId : String} {history : List PoolNote} {note : PoolNote}

theorem pendingCooldown_other (h : ¬note.About proxyId) :
    pendingCooldown cfg proxyId (history ++ [note]) = pendingCooldown cfg proxyId history := by
  unfold pendingCooldown
  rw [List.foldl_append, List.foldl_cons, List.foldl_nil]
  cases note with
  | created l => rfl
  | succeeded id => exact if_neg h
  | cooledDown id now => exact if_neg h
  | markedUnhealthy id => rfl

theorem pendingCooldown_succeeded :
    pendingCooldown cfg proxyId (history ++ [.succeeded proxyId]) = none := by
  unfold pendingCooldown
  rw [List.foldl_append, List.foldl_cons, List.foldl_nil]
  exact if_pos rfl

theorem pendingCooldown_cooledDown {now : Seconds} :
    pendingCooldown cfg proxyId (history ++ [.cooledDown proxyId now]) =
      some (now + cfg.cooldownSeconds) := by
  unfold pendingCooldown
  rw [List.foldl_append, List.foldl_cons, List.foldl_nil]
  exact if_pos rfl

theorem lastChosen_other (h : ∀ l, note ≠ .created l) :
    lastChosen (history ++ [note]) = lastChosen history := by
  unfold lastChosen
  rw [List.foldl_append, List.foldl_cons, List.foldl_nil]
  cases note with
  | created l => exact absurd rfl (h l)
  | succeeded id => rfl
  | cooledDown id now => rfl
  | markedUnhealthy id => rfl

theorem lastChosen_created {l : LeaseRef} :
    lastChosen (history ++ [.created l]) = l.endpoint.or (lastChosen history) := by
  unfold lastChosen
  rw [List.foldl_append, List.foldl_cons, List.foldl_nil]

/-- An endpoint's state is no better than the notes allow. -/
structure ProxyEndpoint.Agrees (cfg : PoolConfig) (clock : Seconds) (history : List PoolNote)
    (p : ProxyEndpoint) : Prop where
  marked : PoolNote.markedUnhealthy p.proxyId ∈ history →
    p.state = .disabled ∨ p.state = .unhealthy
  healthy : p.state = .healthy → ∀ deadline,
    pendingCooldown cfg p.proxyId history = some deadline → deadline ≤ clock
  cooldown : p.state = .cooldown → ∃ cooldownUntil, p.cooldownUntil = some cooldownUntil ∧
    ∀ deadline, pendingCooldown cfg p.proxyId history = some deadline → deadline ≤ cooldownUntil

namespace ProxyEndpoint

variable {p : ProxyEndpoint} {clock now : Seconds}

theorem Agrees.later (h : p.Agrees cfg clock history) (hle : clock ≤ now) :
    p.Agrees cfg now history :=
  ⟨h.marked, fun hstate deadline hd => (h.healthy hstate deadline hd).trans hle, h.cooldown⟩

theorem Agrees.other (h : p.Agrees cfg clock history) (hnote : ¬note.About p.proxyId) :
    p.Agrees cfg clock (history ++ [note]) := by
  refine ⟨fun hmarked => ?_, fun hstate => ?_, fun hstate => ?_⟩
  · rcases List.mem_append.mp hmarked with hmarked | hmarked
    · exact h.marked hmarked
    · rw [← List.mem_singleton.mp hmarked] at hnote
      exact absurd rfl hnote
  · rw [pendingCooldown_other hnote]
    exact h.healthy hstate
  · rw [pendingCooldown_other hnote]
    exact h.cooldown hstate

/-- Nothing has to be shown of an endpoint that stays down. -/
theorem Agrees.of_down (h : p.state = .disabled ∨ p.state = .unhealthy) :
    p.Agrees cfg clock history := by
  refine ⟨fun _ => h, fun hstate => ?_, fun hstate => ?_⟩
  · rw [hstate] at h
    rcases h with h | h <;> cases h
  · rw [hstate] at h
    rcases h with h | h <;> cases h

theorem Agrees.recordSuccess (h : p.Agrees cfg clock history) :
    p.recordSuccess.Agrees cfg clock (history ++ [.succeeded p.proxyId]) := by
  unfold ProxyEndpoint.recordSuccess
  split
  · rename_i hdown
    exact .of_down hdown
  · rename_i hup
    refine ⟨fun hmarked => absurd (h.marked ?_) hup, fun _ => ?_, nofun⟩
    · simpa using hmarked
    · rw [pendingCooldown_succeeded]
      nofun

/-- A cooldown that ends by itself is over by the clock. -/
theorem Agrees.refreshed (h : p.Agrees cfg clock history) (hle : clock ≤ now) :
    (p.refreshed now).Agrees cfg now history := by
  unfold ProxyEndpoint.refreshed
  split
  · rename_i cooldownUntil hstate huntil
    split
    · rename_i hover
      have hup : ¬(p.state = .disabled ∨ p.state = .unhealthy) := by simp [hstate]
      rw [ProxyEndpoint.recordSuccess, if_neg hup]
      refine ⟨fun hmarked => absurd (h.marked hmarked) hup, fun _ deadline hd => ?_, nofun⟩
      obtain ⟨u, hu, hbound⟩ := h.cooldown hstate
      rw [huntil] at hu
      obtain rfl := Option.some.inj hu
      exact (hbound deadline hd).trans hover
    · exact h.later hle
  · exact h.later hle

theorem Agrees.startCooldown (h : p.Agrees cfg clock history) :
    (p.startCooldown cfg.cooldownSeconds now).Agrees cfg now
      (history ++ [.cooledDown p.proxyId now]) := by
  unfold ProxyEndpoint.startCooldown
  split
  · rename_i hdown
    exact .of_down hdown
  · rename_i hup
    refine ⟨fun hmarked => absurd (h.marked ?_) hup, nofun, fun _ => ⟨_, rfl, fun deadline hd => ?_⟩⟩
    · simpa using hmarked
    · simp only [pendingCooldown_cooledDown] at hd
      exact (Option.some.inj hd).symm.le

theorem Agrees.markUnhealthy : p.markUnhealthy.Agrees cfg clock history := by
  unfold ProxyEndpoint.markUnhealthy
  split
  · rename_i hdisabled
    exact .of_down (Or.inl hdisabled)
  · exact .of_down (Or.inr rfl)

@[simp] theorem startCooldown_proxyId (cooldownSeconds now : Seconds) (p : ProxyEndpoint) :
    (p.startCooldown cooldownSeconds now).proxyId = p.proxyId := by
  unfold startCooldown
  split <;> rfl

@[simp] theorem markUnhealthy_proxyId (p : ProxyEndpoint) :
    p.markUnhealthy.proxyId = p.proxyId := by
  unfold markUnhealthy
  split <;> rfl

@[simp] theorem recordFailure_proxyId (threshold : Nat) (cooldownSeconds now : Seconds)
    (p : ProxyEndpoint) : (p.recordFailure threshold cooldownSeconds now).2.proxyId = p.proxyId := by
  unfold recordFailure
  split
  · rfl
  · simp only
    split
    · rfl
    · exact startCooldown_proxyId _ _ _

/-- A counted failure changes neither the state nor the deadline. -/
theorem Agrees.counted (h : p.Agrees cfg clock history) (count : Nat) :
    { p with failureCount := count }.Agrees cfg clock history :=
  ⟨h.marked, h.healthy, h.cooldown⟩

theorem Agrees.recordFailure (h : p.Agrees cfg clock history) (hle : clock ≤ now) :
    (p.recordFailure cfg.failureThreshold cfg.cooldownSeconds now).2.Agrees cfg now
      (history ++ if (p.recordFailure cfg.failureThreshold cfg.cooldownSeconds now).1 then
        [.cooledDown p.proxyId now] else []) := by
  unfold ProxyEndpoint.recordFailure
  split
  · rename_i hdown
    exact .of_down hdown
  · simp only
    split
    · rw [if_neg Bool.false_ne_true, List.append_nil]
      exact (h.counted _).later hle
    · rw [if_pos rfl]
      exact (h.counted (p.failureCount + 1)).startCooldown

end ProxyEndpoint

/-! ## The health of the pool -/

structure EgressHealth.Ok (cfg : PoolConfig) (proxyIds : List String) (clock : Seconds)
    (history : List PoolNote) (h : EgressHealth) : Prop where
  ids : h.endpoints.map ProxyEndpoint.proxyId = proxyIds
  nodup : proxyIds.Nodup
  endpoints : ∀ p ∈ h.endpoints, p.Agrees cfg clock history
  nextIndex : h.nextIndex = placeAfter proxyIds (lastChosen history)

namespace EgressHealth

variable {proxyIds : List String} {clock now : Seconds} {h : EgressHealth}

theorem Ok.later (hok : h.Ok cfg proxyIds clock history) (hle : clock ≤ now) :
    h.Ok cfg proxyIds now history :=
  ⟨hok.ids, hok.nodup, fun p hp => (hok.endpoints p hp).later hle, hok.nextIndex⟩

/-- A change of one endpoint that is noted. -/
theorem Ok.update (hok : h.Ok cfg proxyIds clock history) (hle : clock ≤ now)
    {f : ProxyEndpoint → ProxyEndpoint} (hid : ∀ p, (f p).proxyId = p.proxyId)
    (hnote : ∀ {id}, note.About id → id = proxyId) (hnew : ∀ l, note ≠ .created l)
    (hf : ∀ p ∈ h.endpoints, p.proxyId = proxyId → p.Agrees cfg clock history →
      (f p).Agrees cfg now (history ++ [note])) :
    (h.update proxyId f).Ok cfg proxyIds now (history ++ [note]) := by
  refine ⟨(update_proxyIds hid).trans hok.ids, hok.nodup, fun p hp => ?_, ?_⟩
  · obtain ⟨q, hq, rfl⟩ := List.mem_map.mp hp
    split
    · rename_i heq
      exact hf q hq heq (hok.endpoints q hq)
    · rename_i hne
      exact ((hok.endpoints q hq).later hle).other fun habout => hne (hnote habout)
  · rw [lastChosen_other hnew]
    exact hok.nextIndex

/-- A change of one endpoint that is not noted. -/
theorem Ok.updateQuietly (hok : h.Ok cfg proxyIds clock history) (hle : clock ≤ now)
    {f : ProxyEndpoint → ProxyEndpoint} (hid : ∀ p, (f p).proxyId = p.proxyId)
    (hf : ∀ p ∈ h.endpoints, p.proxyId = proxyId → p.Agrees cfg clock history →
      (f p).Agrees cfg now history) :
    (h.update proxyId f).Ok cfg proxyIds now history := by
  refine ⟨(update_proxyIds hid).trans hok.ids, hok.nodup, fun p hp => ?_, hok.nextIndex⟩
  obtain ⟨q, hq, rfl⟩ := List.mem_map.mp hp
  split
  · rename_i heq
    exact hf q hq heq (hok.endpoints q hq)
  · exact (hok.endpoints q hq).later hle

/-- A new lease says where the next selection starts, if it has an endpoint. -/
theorem Ok.created (hok : h.Ok cfg proxyIds clock history) {l : LeaseRef} {nextIndex : Nat}
    (hnext : nextIndex = placeAfter proxyIds (l.endpoint.or (lastChosen history))) :
    Ok cfg proxyIds clock (history ++ [.created l]) { h with nextIndex := nextIndex } :=
  ⟨hok.ids, hok.nodup, fun p hp => (hok.endpoints p hp).other id,
    by rw [lastChosen_created]; exact hnext⟩

end EgressHealth

end

/-! ## The leases of the pool -/

/-- The table holds the leases that are not released, each under its context. -/
structure LeaseTable.Ok (t : LeaseTable) : Prop where
  wellFormed : t.WellFormed
  current : ∀ {k l}, t.leases k = some l → l.contextId = k ∧ t.isReleased l = false
  live : ∀ {l}, t.Known l → t.isReleased l = false → t.leases l.contextId = some l

namespace LeaseTable

variable {t : LeaseTable} {l l' : LeaseRef} {contextId : ContextId} {endpoint : Option String}

theorem Known.eq_of_id (h : t.Known l) (h' : t.Known l') (hid : l.id = l'.id) : l = l' := by
  obtain ⟨released, hget⟩ := h
  obtain ⟨released', hget'⟩ := h'
  rw [hid, hget'] at hget
  exact (congrArg Prod.fst (Option.some.inj hget)).symm

theorem isReleased_setReleased_other (h : t.Known l) (h' : t.Known l') (hne : l' ≠ l) :
    (t.setReleased l).isReleased l' = t.isReleased l' := by
  have hid : l.id ≠ l'.id := fun hid => hne (h.eq_of_id h' hid).symm
  simp only [isReleased, setReleased, List.getElem?_set_ne hid]

theorem Known.of_setReleased (h : t.Known l) (h' : (t.setReleased l).Known l') : t.Known l' := by
  obtain ⟨released, hget⟩ := h'
  by_cases hid : l.id = l'.id
  · rw [← hid, show (t.setReleased l).objects[l.id]? = some (l, true) from
      List.getElem?_set_self h.lt] at hget
    obtain ⟨rfl, -⟩ := Prod.mk.inj (Option.some.inj hget)
    exact h
  · exact ⟨released, (List.getElem?_set_ne hid).symm.trans hget⟩

/-- A lease that is not released after `l` was is another one. -/
theorem live_of_setReleased (h : t.Known l) (hl' : (t.setReleased l).Known l')
    (hreleased : (t.setReleased l).isReleased l' = false) :
    t.Known l' ∧ t.isReleased l' = false ∧ l' ≠ l := by
  have hne : l' ≠ l := by
    rintro rfl
    rw [isReleased_setReleased h] at hreleased
    cases hreleased
  have hknown := h.of_setReleased hl'
  rw [isReleased_setReleased_other h hknown hne] at hreleased
  exact ⟨hknown, hreleased, hne⟩

theorem Ok.create (h : t.Ok) (hnone : t.leases contextId = none) :
    (t.create contextId endpoint).2.Ok := by
  refine ⟨h.wellFormed.create, fun {k l} hk => ?_, fun {l} hl hreleased => ?_⟩
  · simp only [LeaseTable.create] at hk
    split at hk
    · rename_i hkey
      obtain rfl := Option.some.inj hk
      exact ⟨hkey.symm, create_new.2⟩
    · obtain ⟨hcontext, hlive⟩ := h.current hk
      exact ⟨hcontext, (isReleased_create (h.wellFormed.leases hk)).trans hlive⟩
  · obtain ⟨released, hget⟩ := hl
    rcases Conc.getElem?_concat_iff.mp hget with hold | ⟨-, hnew⟩
    · have hknown : t.Known l := ⟨released, hold⟩
      rw [isReleased_create hknown] at hreleased
      have hlive := h.live hknown hreleased
      have hkey : l.contextId ≠ contextId := by
        rintro rfl
        rw [hnone] at hlive
        cases hlive
      exact (if_neg hkey).trans hlive
    · obtain ⟨rfl, -⟩ := Prod.mk.inj hnew
      exact if_pos rfl

end LeaseTable

namespace Provider

variable {cfg : PoolConfig} {now : Seconds} {l : LeaseRef} {contextId : ContextId}
  {excluded : Option String} {p : Provider}

theorem release_ok (cfg : PoolConfig) (h : p.table.Ok) (hl : p.table.Known l) :
    (p.release cfg.kind l).table.Ok := by
  unfold release PoolConfig.kind
  simp only
  split
  · rename_i hcurrent
    refine ⟨(h.wellFormed.setReleased hl).forget _, fun {k l'} hk => ?_, fun {l'} hl' hlive => ?_⟩
    · simp only [LeaseTable.forget] at hk
      split at hk
      · cases hk
      · rename_i hkey
        obtain ⟨hcontext, hlive⟩ := h.current hk
        have hne : l' ≠ l := by
          rintro rfl
          exact hkey hcontext.symm
        exact ⟨hcontext, (LeaseTable.isReleased_setReleased_other hl
          (h.wellFormed.leases hk) hne).trans hlive⟩
    · obtain ⟨hknown, hlive', hne⟩ := LeaseTable.live_of_setReleased hl hl' hlive
      have hleases := h.live hknown hlive'
      have hkey : l'.contextId ≠ l.contextId := by
        intro heq
        rw [heq, hcurrent] at hleases
        exact hne (Option.some.inj hleases).symm
      exact (if_neg hkey).trans hleases
  · rename_i hstale
    refine ⟨h.wellFormed.setReleased hl, fun {k l'} hk => ?_, fun {l'} hl' hlive => ?_⟩
    · obtain ⟨hcontext, hlive⟩ := h.current hk
      have hne : l' ≠ l := by
        rintro rfl
        exact hstale (hcontext ▸ hk)
      exact ⟨hcontext, (LeaseTable.isReleased_setReleased_other hl
        (h.wellFormed.leases hk) hne).trans hlive⟩
    · obtain ⟨hknown, hlive', -⟩ := LeaseTable.live_of_setReleased hl hl' hlive
      exact h.live hknown hlive'

theorem release_health : (p.release cfg.kind l).health = p.health := by
  unfold release PoolConfig.kind
  simp only
  split <;> rfl

theorem release_objects :
    (p.release cfg.kind l).table.objects.length = p.table.objects.length := by
  unfold release PoolConfig.kind
  simp only
  split <;> exact List.length_set

/-- Releasing a context's current lease leaves the context without one. -/
theorem release_leases (hcurrent : p.table.leases l.contextId = some l) :
    (p.release cfg.kind l).table.leases l.contextId = none := by
  unfold release PoolConfig.kind
  simp only [if_pos hcurrent]
  exact if_pos rfl

/-! ## Acquiring -/

theorem acquire_current (h : p.table.Ok) (hcurrent : p.table.leases contextId = some l) :
    p.acquire cfg.kind now contextId excluded = (.ok l, p) := by
  simp only [acquire, hcurrent, (h.current hcurrent).2, Bool.false_eq_true, if_false]

/-- What `acquire` does for a context without a lease: it takes the first eligible
endpoint in the circle, a direct lease, or nothing. -/
theorem acquire_new (hnodup : (p.health.endpoints.map ProxyEndpoint.proxyId).Nodup)
    (hnone : p.table.leases contextId = none) :
    p.acquire cfg.kind now contextId excluded =
      match (p.health.endpoints.rotate p.health.nextIndex).find?
        (EgressHealth.eligible now excluded) with
      | some q => (.ok (p.table.create contextId (some q.proxyId)).1,
          ⟨(p.table.create contextId (some q.proxyId)).2,
            { p.health.update q.proxyId (·.refreshed now) with
              nextIndex := placeAfter (p.health.endpoints.map ProxyEndpoint.proxyId)
                (some q.proxyId) }⟩)
      | none =>
          if cfg.directFallback then (.ok (p.table.create contextId none).1,
            ⟨(p.table.create contextId none).2, p.health⟩)
          else (.error proxyUnavailable, p) := by
  unfold acquire acquireNew PoolConfig.kind
  simp only [hnone, EgressHealth.select_spec hnodup]
  cases (p.health.endpoints.rotate p.health.nextIndex).find?
      (EgressHealth.eligible now excluded) with
  | some q => rfl
  | none =>
      cases cfg.directFallback with
      | true => rfl
      | false => rfl

theorem newLease_created {before : Provider}
    (hlength : before.table.objects.length = p.table.objects.length) (endpoint : Option String) :
    newLease before (.ok (p.table.create contextId endpoint).1) =
      [.created (p.table.create contextId endpoint).1] :=
  if_pos hlength.symm

variable (contextId excluded) in
theorem acquire_ok {proxyIds : List String} {clock : Seconds} {history : List PoolNote}
    {before : Provider} (h : p.table.Ok) (hhealth : p.health.Ok cfg proxyIds clock history)
    (hle : clock ≤ now) (hlength : before.table.objects.length = p.table.objects.length) :
    (p.acquire cfg.kind now contextId excluded).2.table.Ok ∧
      (p.acquire cfg.kind now contextId excluded).2.health.Ok cfg proxyIds now
        (history ++ newLease before (p.acquire cfg.kind now contextId excluded).1) := by
  cases hcurrent : p.table.leases contextId with
  | some l =>
      have hold : newLease before (.ok l) = [] :=
        if_neg (hlength ▸ Nat.ne_of_lt (h.wellFormed.leases hcurrent).lt)
      rw [acquire_current h hcurrent, hold, List.append_nil]
      exact ⟨h, hhealth.later hle⟩
  | none =>
      have hnodup : (p.health.endpoints.map ProxyEndpoint.proxyId).Nodup := by
        rw [hhealth.ids]
        exact hhealth.nodup
      rw [acquire_new hnodup hcurrent]
      split
      · rename_i q _
        rw [newLease_created hlength]
        refine ⟨h.create hcurrent, EgressHealth.Ok.created (hhealth.updateQuietly hle
          (ProxyEndpoint.refreshed_proxyId now) fun p _ _ hp => hp.refreshed hle) ?_⟩
        rw [hhealth.ids]
        rfl
      · split
        · rw [newLease_created hlength]
          exact ⟨h.create hcurrent, (hhealth.later hle).created hhealth.nextIndex⟩
        · rw [newLease, List.append_nil]
          exact ⟨h, hhealth.later hle⟩

end Provider

/-! ## Every call keeps what the notes say -/

structure PoolRun.Ok (cfg : PoolConfig) (proxyIds : List String) (r : PoolRun) : Prop where
  table : r.provider.table.Ok
  health : r.provider.health.Ok cfg proxyIds r.clock r.history

section

variable {cfg : PoolConfig} {proxyUrls proxyIds : List String} {r : PoolRun} {c : PoolCall}
  {now : Seconds} {l : LeaseRef}

theorem newProxyPool_ok {p : Provider} (h : newProxyPool cfg proxyUrls = .ok p) (clock : Seconds) :
    PoolRun.Ok cfg ((List.range proxyUrls.length).map proxyIdAt) ⟨p, clock, []⟩ := by
  unfold newProxyPool at h
  split at h
  · cases h
  split at h
  · cases h
  split at h
  · cases h
  obtain rfl := Except.ok.inj h
  refine ⟨⟨⟨nofun⟩, nofun, fun {l} hl => ?_⟩, ⟨?_, ?_, fun p hp => ?_, rfl⟩⟩
  · obtain ⟨_, hget⟩ := hl
    cases hget
  · rw [List.map_map]
    rfl
  · exact List.nodup_range.map fun _ _ => proxyIdAt_injective
  · obtain ⟨k, -, rfl⟩ := List.mem_map.mp hp
    exact ⟨nofun, fun _ => nofun, nofun⟩

/-- A recorded fact about the endpoint of a lease: noted, if the lease has one. -/
theorem updateEndpoint_ok {clock : Seconds} {history : List PoolNote} {p : Provider}
    {f : ProxyEndpoint → ProxyEndpoint} {note : String → PoolNote}
    (hok : p.health.Ok cfg proxyIds clock history) (hle : clock ≤ now)
    (hid : ∀ p, (f p).proxyId = p.proxyId)
    (hnote : ∀ {id id'}, (note id).About id' → id' = id) (hnew : ∀ id l, note id ≠ .created l)
    (hf : ∀ p, p.Agrees cfg clock history → (f p).Agrees cfg now (history ++ [note p.proxyId])) :
    (p.updateEndpoint cfg.kind l f).health.Ok cfg proxyIds now
      (history ++ l.endpoint.toList.map note) := by
  unfold Provider.updateEndpoint PoolConfig.kind
  cases l.endpoint with
  | none =>
      rw [Option.toList_none, List.map_nil, List.append_nil]
      exact hok.later hle
  | some id =>
      refine hok.update hle hid hnote (hnew id) fun p _ heq hp => ?_
      rw [← heq]
      exact hf p hp

theorem find_proxyId {h : EgressHealth} {id : String} {p : ProxyEndpoint}
    (hfind : h.find id = some p) : p.proxyId = id ∧ p ∈ h.endpoints :=
  ⟨by simpa using List.find?_some hfind, List.mem_of_find?_eq_some hfind⟩

theorem recordFailure_ok {clock : Seconds} {history : List PoolNote} {p : Provider}
    (hok : p.health.Ok cfg proxyIds clock history) (hle : clock ≤ now) :
    (p.recordFailure cfg.kind now l).2.health.Ok cfg proxyIds now (history ++
      PoolCall.notes now p (.recordFailure l) (.flag (p.recordFailure cfg.kind now l).1)) := by
  unfold Provider.recordFailure PoolConfig.kind
  cases hfind : l.endpoint.bind fun id => p.health.find id with
  | none =>
      show EgressHealth.Ok cfg proxyIds now (history ++ []) p.health
      rw [List.append_nil]
      exact hok.later hle
  | some q =>
      obtain ⟨id, hendpoint, hq⟩ := Option.bind_eq_some_iff.mp hfind
      obtain ⟨rfl, hmem⟩ := find_proxyId hq
      have hsame : ∀ p' ∈ p.health.endpoints, p'.proxyId = q.proxyId → p' = q :=
        fun p' hp' => EgressHealth.eq_of_proxyId (by rw [hok.ids]; exact hok.nodup) hp' hmem
      simp only
      cases hreached : (q.recordFailure cfg.failureThreshold cfg.cooldownSeconds now).1 with
      | true =>
          rw [PoolCall.notes, hendpoint]
          refine hok.update hle (ProxyEndpoint.recordFailure_proxyId _ _ _) (Eq.symm ·) nofun
            fun p' hp' heq hagrees => ?_
          have hp := hagrees.recordFailure hle
          rw [hsame p' hp' heq, hreached, if_pos rfl] at hp
          rw [hsame p' hp' heq]
          exact hp
      | false =>
          rw [show PoolCall.notes now p (.recordFailure l) (.flag false) = [] from rfl,
            List.append_nil]
          refine hok.updateQuietly hle (ProxyEndpoint.recordFailure_proxyId _ _ _)
            fun p' hp' heq hagrees => ?_
          have hp := hagrees.recordFailure hle
          rw [hsame p' hp' heq, hreached, if_neg Bool.false_ne_true, List.append_nil] at hp
          rw [hsame p' hp' heq]
          exact hp

theorem isUsable_ok {clock : Seconds} {history : List PoolNote} {p : Provider}
    (hok : p.health.Ok cfg proxyIds clock history) (hle : clock ≤ now) :
    (p.isUsable cfg.kind now l).2.health.Ok cfg proxyIds now history := by
  unfold Provider.isUsable PoolConfig.kind
  split
  · exact hok.later hle
  · split
    · exact hok.updateQuietly hle (ProxyEndpoint.refreshed_proxyId now)
        fun p _ _ hp => hp.refreshed hle
    · exact hok.later hle

theorem PoolRun.Ok.after (h : r.Ok cfg proxyIds) (hc : r.Allows c now) :
    (r.after cfg c now).Ok cfg proxyIds := by
  obtain ⟨htable, hhealth⟩ := h
  obtain ⟨hlease, hclock⟩ := hc
  cases c with
  | acquire contextId excludedProxyId =>
      obtain ⟨htable', hhealth'⟩ := Provider.acquire_ok contextId excludedProxyId
        htable hhealth hclock rfl
      exact ⟨htable', hhealth'⟩
  | rotate l contextId =>
      have hreleased : (r.provider.release cfg.kind l).health.Ok cfg proxyIds r.clock r.history := by
        rw [Provider.release_health]
        exact hhealth
      obtain ⟨htable', hhealth'⟩ := Provider.acquire_ok contextId l.endpoint
        (Provider.release_ok cfg htable (hlease l rfl)) hreleased hclock
        Provider.release_objects.symm
      exact ⟨htable', hhealth'⟩
  | release l =>
      refine ⟨Provider.release_ok cfg htable (hlease l rfl), ?_⟩
      show EgressHealth.Ok cfg proxyIds now (r.history ++ []) (r.provider.release cfg.kind l).health
      rw [Provider.release_health, List.append_nil]
      exact hhealth.later hclock
  | recordSuccess l =>
      refine ⟨?_, updateEndpoint_ok hhealth hclock ProxyEndpoint.recordSuccess_proxyId
        (Eq.symm ·) nofun fun p hp => (hp.later hclock).recordSuccess⟩
      exact (Provider.updateEndpoint_table (p := r.provider) _).symm ▸ htable
  | recordFailure l =>
      refine ⟨?_, recordFailure_ok hhealth hclock⟩
      exact (Provider.recordFailure_table (p := r.provider)).symm ▸ htable
  | startCooldown l =>
      refine ⟨?_, updateEndpoint_ok hhealth hclock (ProxyEndpoint.startCooldown_proxyId _ _)
        (Eq.symm ·) nofun fun p hp => hp.startCooldown⟩
      exact (Provider.startCooldown_table (p := r.provider)).symm ▸ htable
  | markUnhealthy l =>
      refine ⟨?_, updateEndpoint_ok hhealth hclock ProxyEndpoint.markUnhealthy_proxyId
        (Eq.symm ·) nofun fun p _ => .markUnhealthy⟩
      exact (Provider.updateEndpoint_table (p := r.provider) _).symm ▸ htable
  | isUsable l =>
      refine ⟨?_, ?_⟩
      · exact (Provider.isUsable_table (p := r.provider)).symm ▸ htable
      · show EgressHealth.Ok cfg proxyIds now (r.history ++ []) _
        rw [List.append_nil]
        exact isUsable_ok hhealth hclock

theorem PoolReach.ok (h : PoolReach cfg proxyUrls r) :
    r.Ok cfg ((List.range proxyUrls.length).map proxyIdAt) := by
  induction h with
  | start clock hp => exact newProxyPool_ok hp clock
  | step _ hc ih => exact ih.after hc

/-! ## What the pool promises -/

theorem acquire_picks {p : Provider} {contextId : ContextId} {excluded : Option String}
    (hnodup : (p.health.endpoints.map ProxyEndpoint.proxyId).Nodup)
    (hnone : p.table.leases contextId = none)
    (hl : (p.acquire cfg.kind now contextId excluded).1 = .ok l) :
    l.endpoint = ((p.health.endpoints.rotate p.health.nextIndex).find?
      (EgressHealth.eligible now excluded)).map ProxyEndpoint.proxyId := by
  rw [Provider.acquire_new hnodup hnone] at hl
  split at hl
  · rename_i q hq
    obtain rfl := Except.ok.inj hl
    rw [hq]
    rfl
  · rename_i hq
    rw [hq]
    split at hl
    · obtain rfl := Except.ok.inj hl
      rfl
    · cases hl

theorem acquire_raises_iff {p : Provider} {contextId : ContextId} {excluded : Option String}
    (hnodup : (p.health.endpoints.map ProxyEndpoint.proxyId).Nodup)
    (hnone : p.table.leases contextId = none) :
    (p.acquire cfg.kind now contextId excluded).1 = .error proxyUnavailable ↔
      cfg.directFallback = false ∧ ∀ q ∈ p.health.endpoints, some q.proxyId ≠ excluded →
        q.usable now = false := by
  have hall : (∀ q ∈ p.health.endpoints, some q.proxyId ≠ excluded → q.usable now = false) ↔
      (p.health.endpoints.rotate p.health.nextIndex).find? (EgressHealth.eligible now excluded) =
        none := by
    simp [List.find?_eq_none, EgressHealth.eligible]
  rw [Provider.acquire_new hnodup hnone, hall]
  cases (p.health.endpoints.rotate p.health.nextIndex).find?
      (EgressHealth.eligible now excluded) with
  | some q => simp
  | none =>
      cases cfg.directFallback with
      | true => simp
      | false => simp

/-- The endpoint of a new lease is eligible. -/
theorem acquire_eligible {p : Provider} {contextId : ContextId} {excluded : Option String}
    (hnodup : (p.health.endpoints.map ProxyEndpoint.proxyId).Nodup)
    (hnone : p.table.leases contextId = none)
    (hl : (p.acquire cfg.kind now contextId excluded).1 = .ok l) {id : String}
    (hid : l.endpoint = some id) :
    ∃ q ∈ p.health.endpoints, q.proxyId = id ∧ EgressHealth.eligible now excluded q = true := by
  rw [acquire_picks hnodup hnone hl] at hid
  obtain ⟨q, hq, rfl⟩ := Option.map_eq_some_iff.mp hid
  exact ⟨q, List.mem_rotate.mp (List.mem_of_find?_eq_some hq), rfl, List.find?_some hq⟩

/-- Only a context without a lease gets a new one. -/
theorem leases_of_new {p : Provider} {contextId : ContextId} {excluded : Option String}
    (h : p.table.Ok) (hl : (p.acquire cfg.kind now contextId excluded).1 = .ok l)
    (hnew : l.id = p.table.objects.length) : p.table.leases contextId = none := by
  cases hcurrent : p.table.leases contextId with
  | none => rfl
  | some l' =>
      rw [Provider.acquire_current h hcurrent] at hl
      obtain rfl := Except.ok.inj hl
      exact absurd hnew (Nat.ne_of_lt (h.wellFormed.leases hcurrent).lt)

/-- A usable endpoint was never marked, and its cooldown is over. -/
theorem ProxyEndpoint.Agrees.of_usable {p : ProxyEndpoint} {clock : Seconds}
    {history : List PoolNote} (h : p.Agrees cfg clock history) (hle : clock ≤ now)
    (husable : p.usable now = true) :
    .markedUnhealthy p.proxyId ∉ history ∧
      ∀ deadline, pendingCooldown cfg p.proxyId history = some deadline → deadline ≤ now := by
  have hstate : (p.refreshed now).state = .healthy := of_decide_eq_true husable
  have hagrees := h.refreshed hle
  have hmarked := hagrees.marked
  have hpending := hagrees.healthy hstate
  rw [refreshed_proxyId] at hmarked hpending
  refine ⟨fun hmem => ?_, hpending⟩
  have hdown := hmarked hmem
  rw [hstate] at hdown
  rcases hdown with hdown | hdown <;> cases hdown

/-- What holds of a pool after any run. -/
structure PoolRun.Promises (cfg : PoolConfig) (r : PoolRun) : Prop where
  /-- An entry of the table is a lease that is not released, under its own context. -/
  table : ∀ k l, r.provider.table.leases k = some l →
    l.contextId = k ∧ r.provider.table.isReleased l = false
  /-- A lease that is not released is in the table, so a context has at most one. -/
  single : ∀ l, r.provider.table.Known l → r.provider.table.isReleased l = false →
    r.provider.table.leases l.contextId = some l
  /-- A new lease is not on an endpoint that was marked, or whose cooldown is pending. -/
  created : ∀ c now l id, r.Allows c now →
    .created l ∈ c.notes now r.provider (c.exec cfg now r.provider).1 → l.endpoint = some id →
    .markedUnhealthy id ∉ r.history ∧
      ∀ deadline, pendingCooldown cfg id r.history = some deadline → deadline ≤ now
  /-- Rotating a context's current lease does not give the same proxy again. -/
  rotated : ∀ l id now l', r.provider.table.leases l.contextId = some l → l.endpoint = some id →
    r.clock ≤ now → (r.provider.rotate cfg.kind now l l.contextId).1 = .ok l' →
    l'.endpoint ≠ some id
  /-- A context without a lease gets none if nothing but the excluded endpoint can be used. -/
  raises : ∀ k excluded now, r.provider.table.leases k = none → r.clock ≤ now →
    ((r.provider.acquire cfg.kind now k excluded).1 = .error proxyUnavailable ↔
      cfg.directFallback = false ∧ ∀ p ∈ r.provider.health.endpoints,
        some p.proxyId ≠ excluded → p.usable now = false)
  /-- Otherwise it gets the first that can be used after the one chosen last, in a circle;
  or a direct lease, if there is none. -/
  picks : ∀ k excluded now l, r.provider.table.leases k = none → r.clock ≤ now →
    (r.provider.acquire cfg.kind now k excluded).1 = .ok l →
    l.endpoint = ((r.provider.health.endpoints.rotate
      (placeAfter (r.provider.health.endpoints.map ProxyEndpoint.proxyId)
        (lastChosen r.history))).find? fun p =>
          some p.proxyId ≠ excluded && p.usable now).map ProxyEndpoint.proxyId

theorem mem_newLease {before : Provider} {result : Except PyError LeaseRef}
    (h : PoolNote.created l ∈ newLease before result) :
    result = .ok l ∧ l.id = before.table.objects.length := by
  unfold newLease at h
  split at h
  · split at h
    · rename_i hnew
      obtain rfl := PoolNote.created.inj (List.mem_singleton.mp h)
      exact ⟨rfl, hnew⟩
    · cases h
  · cases h

/-- A call that creates a lease acquires it, perhaps after a release. -/
theorem creates {c : PoolCall} (hc : r.Allows c now) (h : r.provider.table.Ok)
    (hl : .created l ∈ c.notes now r.provider (c.exec cfg now r.provider).1) :
    ∃ (p : Provider) (contextId : ContextId) (excluded : Option String),
      p.table.Ok ∧ p.health = r.provider.health ∧
      (p.acquire cfg.kind now contextId excluded).1 = .ok l ∧
      l.id = p.table.objects.length := by
  cases c with
  | acquire contextId excludedProxyId =>
      obtain ⟨hresult, hnew⟩ := mem_newLease hl
      exact ⟨r.provider, contextId, excludedProxyId, h, rfl, hresult, hnew⟩
  | rotate l' contextId =>
      obtain ⟨hresult, hnew⟩ := mem_newLease hl
      exact ⟨r.provider.release cfg.kind l', contextId, l'.endpoint,
        Provider.release_ok cfg h (hc.lease l' rfl), Provider.release_health, hresult,
        hnew.trans Provider.release_objects.symm⟩
  | release l' => cases hl
  | recordSuccess l' => simp [PoolCall.notes] at hl
  | recordFailure l' =>
      simp only [PoolCall.exec] at hl
      cases hreached : (r.provider.recordFailure cfg.kind now l').1 with
      | true => simp [PoolCall.notes, hreached] at hl
      | false => simp [PoolCall.notes, hreached] at hl
  | startCooldown l' => simp [PoolCall.notes] at hl
  | markUnhealthy l' => simp [PoolCall.notes] at hl
  | isUsable l' => cases hl

theorem pool_keeps_promises (h : PoolReach cfg proxyUrls r) : r.Promises cfg := by
  obtain ⟨htable, hhealth⟩ := h.ok
  have hnodup : (r.provider.health.endpoints.map ProxyEndpoint.proxyId).Nodup := by
    rw [hhealth.ids]
    exact hhealth.nodup
  refine ⟨fun k l hk => htable.current hk, fun l hl hlive => htable.live hl hlive, ?_, ?_, ?_, ?_⟩
  · intro c now l id hc hmem hid
    obtain ⟨p, contextId, excluded, hp, hsame, hresult, hnew⟩ := creates hc htable hmem
    obtain ⟨q, hq, rfl, heligible⟩ := acquire_eligible (by rw [hsame]; exact hnodup)
      (leases_of_new hp hresult hnew) hresult hid
    rw [hsame] at hq
    exact (hhealth.endpoints q hq).of_usable hc.clock ((Bool.and_eq_true _ _).mp heligible).2
  · intro l id now l' hcurrent hid hle hresult heq
    obtain ⟨q, -, hqid, heligible⟩ := acquire_eligible
      (by rw [Provider.release_health]; exact hnodup) (Provider.release_leases hcurrent)
      hresult heq
    rw [EgressHealth.eligible, hid, hqid] at heligible
    simp at heligible
  · intro k excluded now hnone hle
    exact acquire_raises_iff hnodup hnone
  · intro k excluded now l hnone hle hresult
    rw [acquire_picks hnodup hnone hresult, hhealth.nextIndex, ← hhealth.ids]
    rfl

namespace Sample

def twoProxies : PoolConfig := ⟨2, 30, false⟩

def twoUrls : List String := ["http://10.0.0.1:3128", "http://10.0.0.2:3128"]

def twoEndpoints : Provider :=
  ⟨.empty, ⟨[⟨"proxy-1", .healthy, 0, none⟩, ⟨"proxy-2", .healthy, 0, none⟩], 0, fun _ => 0⟩⟩

def firstLease : LeaseRef := ⟨0, contextId, some "proxy-1"⟩

def acquired : PoolRun :=
  PoolRun.after twoProxies (.acquire contextId none) 0 ⟨twoEndpoints, 0, []⟩

def cooling : PoolRun := acquired.after twoProxies (.startCooldown firstLease) 1

def rotated : PoolRun := cooling.after twoProxies (.rotate firstLease contextId) 1

end Sample

open Sample in
theorem pool_keeps_promises_rotation :
    PoolReach twoProxies twoUrls rotated ∧ lastChosen rotated.history = some "proxy-2" ∧
      pendingCooldown twoProxies "proxy-1" rotated.history = some 31 ∧
      rotated.Promises twoProxies := by
  have hnew : newProxyPool twoProxies twoUrls = .ok twoEndpoints := by rfl
  have hacquired : PoolReach twoProxies twoUrls acquired :=
    (PoolReach.start 0 hnew).step ⟨nofun, by decide +kernel⟩
  have hcooling : PoolReach twoProxies twoUrls cooling := by
    refine hacquired.step ⟨fun l hl => ?_, by decide +kernel⟩
    obtain rfl := Option.some.inj hl
    exact ⟨false, by decide +kernel⟩
  have hrotated : PoolReach twoProxies twoUrls rotated := by
    refine hcooling.step ⟨fun l hl => ?_, by decide +kernel⟩
    obtain rfl := Option.some.inj hl
    exact ⟨false, by decide +kernel⟩
  exact ⟨hrotated, by decide +kernel, by decide +kernel, pool_keeps_promises hrotated⟩

end

end Sahabino
