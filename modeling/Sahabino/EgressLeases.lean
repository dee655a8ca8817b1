import Sahabino.PlayStoreClient

/-!
# Leases of one client

One `ApplicationPlayStoreClient` from `open_application` to `close()`,
with any sequence of operations in between. The adapter, the lease, the
refresh flag and the provider's table are changed on different branches;
what they have to agree on is `View.Ok`: an adapter belongs to the current
lease and that is not released, and a released lease has the refresh flag
set. So an operation that starts from such a view gets a lease that is not
released, or raises before its first attempt.

Rotation releases the old lease before it looks for a new one. When none
is found, `_execute` repairs the view for a refused page only: any other
error leaves the adapter on a lease that is released, and so does an
adapter that cannot be closed. `EgressAllowed` leaves out these two.
-/

namespace Sahabino

open Conc

/-! ## The provider's table -/

namespace LeaseTable

variable {t : LeaseTable} {l l' : LeaseRef} {contextId : ContextId} {endpoint : Option String}

/-- The lease is an object of the provider's. -/
def Known (t : LeaseTable) (l : LeaseRef) : Prop :=
  ∃ released, t.objects[l.id]? = some (l, released)

structure WellFormed (t : LeaseTable) : Prop where
  leases : ∀ {k l}, t.leases k = some l → t.Known l

theorem Known.lt (h : t.Known l) : l.id < t.objects.length := by
  obtain ⟨released, hget⟩ := h
  exact (List.getElem?_eq_some_iff.mp hget).1

theorem Known.setReleased (hl : t.Known l) (h : t.Known l') : (t.setReleased l).Known l' := by
  obtain ⟨released, hget⟩ := h
  by_cases hid : l.id = l'.id
  · obtain ⟨released', hget'⟩ := hl
    rw [hid, hget] at hget'
    obtain ⟨rfl, -⟩ := Prod.mk.injEq .. |>.mp (Option.some.inj hget')
    exact ⟨true, List.getElem?_set_self (List.getElem?_eq_some_iff.mp hget).1⟩
  · exact ⟨released, (List.getElem?_set_ne hid).trans hget⟩

theorem isReleased_setReleased (h : t.Known l) : (t.setReleased l).isReleased l = true := by
  simp only [isReleased, LeaseTable.setReleased, List.getElem?_set_self h.lt]

theorem WellFormed.setReleased (h : t.WellFormed) (hl : t.Known l) :
    (t.setReleased l).WellFormed :=
  ⟨fun hk => hl.setReleased (h.leases hk)⟩

theorem WellFormed.forget (h : t.WellFormed) (contextId : ContextId) :
    (t.forget contextId).WellFormed := by
  refine ⟨fun {k l} hk => ?_⟩
  simp only [LeaseTable.forget] at hk
  split at hk
  · cases hk
  · exact h.leases hk

theorem Known.create (h : t.Known l) : (t.create contextId endpoint).2.Known l := by
  have hlt := h.lt
  obtain ⟨released, hget⟩ := h
  exact ⟨released, (List.getElem?_append_left hlt).trans hget⟩

theorem isReleased_create (h : t.Known l) :
    (t.create contextId endpoint).2.isReleased l = t.isReleased l := by
  simp only [isReleased, LeaseTable.create, List.getElem?_append_left h.lt]

/-- A new lease is known and not released. -/
theorem create_new : (t.create contextId endpoint).2.Known (t.create contextId endpoint).1 ∧
    (t.create contextId endpoint).2.isReleased (t.create contextId endpoint).1 = false := by
  have hget : (t.create contextId endpoint).2.objects[(t.create contextId endpoint).1.id]? =
      some ((t.create contextId endpoint).1, false) := List.getElem?_concat_length
  exact ⟨⟨false, hget⟩, by rw [isReleased, hget]⟩

theorem WellFormed.create (h : t.WellFormed) : (t.create contextId endpoint).2.WellFormed := by
  refine ⟨fun {k l} hk => ?_⟩
  simp only [LeaseTable.create] at hk
  split at hk
  · obtain rfl := Option.some.inj hk
    exact create_new.1
  · exact (h.leases hk).create

end LeaseTable

namespace Provider

variable {kind : ProviderKind} {now : Seconds} {l : LeaseRef} {contextId : ContextId}
  {p p' : Provider} {r : Except PyError LeaseRef}

/-- Releasing a lease: it is released, and the table stays in order. -/
theorem release_table (kind : ProviderKind) (h : p.table.WellFormed) (hl : p.table.Known l) :
    (p.release kind l).table.WellFormed ∧ (p.release kind l).table.Known l ∧
      (p.release kind l).table.isReleased l = true := by
  have hset := h.setReleased hl
  have hknown := hl.setReleased hl
  have hreleased := LeaseTable.isReleased_setReleased hl
  unfold release
  simp only
  split
  · exact ⟨hset.forget _, hknown, hreleased⟩
  · split
    · exact ⟨hset.forget _, hknown, hreleased⟩
    · exact ⟨hset, hknown, hreleased⟩

/-- What `acquire` gives is not released, and other leases stay as they were. -/
theorem acquire_table {excluded : Option String} (h : p.table.WellFormed)
    (hx : p.acquire kind now contextId excluded = (r, p')) :
    p'.table.WellFormed ∧ (∀ {l}, p.table.Known l → p'.table.Known l ∧
        p'.table.isReleased l = p.table.isReleased l) ∧
      ∀ l, r = .ok l → p'.table.Known l ∧ p'.table.isReleased l = false := by
  rcases acquire_cases hx with ⟨existing, hleases, hreleased, rfl, rfl⟩ |
    ⟨endpoint, rfl, htable⟩ | ⟨rfl, htable⟩
  · refine ⟨h, fun hl => ⟨hl, rfl⟩, fun l hok => ?_⟩
    obtain rfl := Except.ok.inj hok
    exact ⟨h.leases hleases, hreleased⟩
  · rw [htable]
    refine ⟨h.create, fun hl => ⟨hl.create, LeaseTable.isReleased_create hl⟩, fun l hok => ?_⟩
    obtain rfl := Except.ok.inj hok
    exact LeaseTable.create_new
  · rw [htable]
    exact ⟨h, fun hl => ⟨hl, rfl⟩, nofun⟩

/-- After a rotation the old lease is released, whether or not there is a new
one. -/
theorem rotate_table (h : p.table.WellFormed) (hl : p.table.Known l)
    (hx : p.rotate kind now l contextId = (r, p')) :
    p'.table.WellFormed ∧ p'.table.Known l ∧ p'.table.isReleased l = true ∧
      ∀ l', r = .ok l' → p'.table.Known l' ∧ p'.table.isReleased l' = false := by
  obtain ⟨hwf, hknown, hreleased⟩ := release_table kind h hl
  obtain ⟨hwf', hkept, hok⟩ := acquire_table hwf hx
  obtain ⟨hknown', hreleased'⟩ := hkept hknown
  exact ⟨hwf', hknown', hreleased'.trans hreleased, hok⟩

end Provider

/-! ## Views -/

/-- What the steps of a client read and write: its attributes, the provider's
table, and the adapters by their lease. -/
structure View where
  client : ClientState
  table : LeaseTable
  adapters : List LeaseRef

namespace View

/-- The current lease can be used. -/
def Live (v : View) : Prop := v.table.isReleased v.client.lease = false

structure Ok (v : View) : Prop where
  table : v.table.WellFormed
  lease : v.table.Known v.client.lease
  primary : ∀ {a}, v.client.primary = some a → v.adapters[a]? = some v.client.lease ∧ v.Live
  refresh : v.client.refreshEgressBeforeOperation = true ∨ v.Live

/-- Client `n` as it is in `s`. -/
structure At (n : Nat) (v : View) (s : CrawlerState) : Prop where
  client : s.heap.clients[n]? = some v.client
  table : s.provider.table = v.table
  adapters : s.heap.adapters = v.adapters

end View

/-- A primary operation on an adapter of the current, unreleased lease. -/
def PrimaryUse.Consistent (u : PrimaryUse) : Prop :=
  u.adapterLease = some u.clientLease ∧ u.released = false

/-- The steps that the results are about: a rotation for any other error than a
refused page finds a proxy, and an adapter is closed without an exception once
the client's lease is released. -/
def EgressAllowed (cfg : CrawlerConfig) (c : CrawlerCmd) (e : CrawlerEnv) (s : CrawlerState) :
    Prop :=
  match c with
  | .egress (.handleFailure error lease contextId allowRotation) =>
      error.isInstance [.accessForbidden] = true ∨
        ∀ x, (NetworkPolicy.handleFailure cfg.provider e.now cfg.rateLimitRotateAfter error lease
          contextId allowRotation (s.shared e)).1 ≠ .error x
  | .outside (.close client _) => ∀ c, s.heap.clients[client]? = some c →
      s.provider.table.isReleased c.lease = true → e.raises = none
  | _ => True

/-- A primary operation is only issued on an adapter of the current lease. -/
def EgressOwed (c : CrawlerCmd) (s : CrawlerState) : Prop :=
  match c with
  | .outside (.primaryOperation client adapter) => ∀ c, s.heap.clients[client]? = some c →
      s.heap.adapters[adapter]? = some c.lease ∧ s.provider.table.isReleased c.lease = false
  | _ => True

/-- One client alone. -/
def egressProto (cfg : CrawlerConfig) : Proto CrawlerState CrawlerCmd CrawlerEnv where
  inv s := ∀ u ∈ s.heap.uses, u.Consistent
  rely _ s s' := s' = s
  pre _ c s := EgressOwed c s
  allow _ c e s := EgressAllowed cfg c e s

section Egress

open ApplicationPlayStoreClient

variable {cfg : CrawlerConfig} {i n : Nat} {e : CrawlerEnv} {s s' : CrawlerState} {v : View}

theorem CrawlerState.use_uses (client adapter : Nat) (s : CrawlerState) :
    (s.use client adapter).heap.uses = s.heap.uses ∨ ∃ c, s.heap.clients[client]? = some c ∧
      (s.use client adapter).heap.uses = s.heap.uses ++
        [⟨s.heap.adapters[adapter]?, c.lease, s.provider.table.isReleased c.lease⟩] := by
  unfold CrawlerState.use
  split
  · exact Or.inl rfl
  · rename_i c hc
    exact Or.inr ⟨c, hc, rfl⟩

/-- Only a primary operation is logged. -/
theorem uses_exec {c : CrawlerCmd} {r : Except PyError c.Answer}
    (hx : crawlerExec cfg i e c s = some (r, s')) : s'.heap.uses = s.heap.uses ∨
      ∃ client adapter, c = .outside (.primaryOperation client adapter) ∧
        s' = s.use client adapter := by
  cases c with
  | client c =>
      obtain ⟨⟨a, heap⟩, hc, heq⟩ := Option.map_eq_some_iff.mp hx
      obtain ⟨-, rfl⟩ := Prod.mk.injEq .. |>.mp heq
      left
      cases c with
      | attributes client =>
          obtain ⟨c, -, hc⟩ := Option.map_eq_some_iff.mp hc
          obtain ⟨-, rfl⟩ := Prod.mk.injEq .. |>.mp hc
          rfl
      | _ =>
          obtain ⟨-, rfl⟩ := Prod.mk.injEq .. |>.mp (Option.some.inj hc)
          rfl
  | breaker c =>
      obtain ⟨-, rfl⟩ := Prod.mk.injEq .. |>.mp (Option.some.inj hx)
      exact Or.inl rfl
  | egress c =>
      obtain ⟨-, rfl⟩ := Prod.mk.injEq .. |>.mp (Option.some.inj hx)
      exact Or.inl rfl
  | outside c =>
      obtain ⟨-, rfl⟩ := Prod.mk.injEq .. |>.mp (Option.some.inj hx)
      cases c with
      | primaryOperation client adapter => exact Or.inr ⟨client, adapter, rfl, rfl⟩
      | create contextId lease =>
          left
          simp only
          split <;> rfl
      | publish task =>
          left
          simp only
          split <;> rfl
      | _ => exact Or.inl rfl
  | lifecycle c =>
      obtain ⟨-, rfl⟩ := Prod.mk.injEq .. |>.mp (Option.some.inj hx)
      exact Or.inl rfl
  | executor c =>
      obtain ⟨r', -, heq⟩ := Option.map_eq_some_iff.mp hx
      obtain ⟨-, rfl⟩ := Prod.mk.injEq .. |>.mp heq
      exact Or.inl rfl

theorem egress_inv {c : CrawlerCmd} {r : Except PyError c.Answer}
    (hi : ∀ u ∈ s.heap.uses, u.Consistent) (howed : EgressOwed c s)
    (hx : crawlerExec cfg i e c s = some (r, s')) : ∀ u ∈ s'.heap.uses, u.Consistent := by
  rcases uses_exec hx with heq | ⟨client, adapter, rfl, rfl⟩
  · rw [heq]
    exact hi
  · intro u hu
    rcases s.use_uses client adapter with heq | ⟨c, hc, heq⟩
    · rw [heq] at hu
      exact hi u hu
    · rw [heq, List.mem_append, List.mem_singleton] at hu
      rcases hu with hold | rfl
      · exact hi u hold
      · exact howed c hc

/-! ## Rules for the commands -/

/-- Nobody else moves: a command is judged where it is issued. -/
theorem egress_cmd {c : CrawlerCmd} {Q : c.Answer → CrawlerState → Prop}
    {X : PyError → CrawlerState → Prop} (howed : EgressOwed c s)
    (hstep : ∀ {e r s'}, EgressAllowed cfg c e s → crawlerExec cfg i e c s = some (r, s') →
      (∀ a, r = .ok a → Q a s') ∧ ∀ x, r = .error x → X x s') :
    (egressProto cfg).wp (crawlerExec cfg) i (Prog.cmd c) Q X s := by
  refine Proto.wp_cmd.mpr fun t ht _ => ?_
  obtain rfl := ht
  exact ⟨howed, fun e r s' ha hx _ => hstep ha hx⟩

/-- The commands that leave every view as it is. -/
def CrawlerCmd.Still : CrawlerCmd → Prop
  | breaker _ => True
  | client (.setLastPrimaryAttempt _) => True
  | client .lastPrimaryAttempt => True
  | egress (.isUsable _) => True
  | egress (.recordSuccess _) => True
  | outside (.close _ _) => True
  | outside .secondaryOperation => True
  | outside (.classify _) => True
  | outside .hook => True
  | outside (.delayFor _ _) => True
  | outside (.sleep _) => True
  | _ => False

theorem CrawlerCmd.Still.owed {c : CrawlerCmd} (h : c.Still) (s : CrawlerState) :
    EgressOwed c s := by
  unfold EgressOwed
  split
  · exact h.elim
  · trivial

theorem still_exec {c : CrawlerCmd} {r : Except PyError c.Answer} (hc : c.Still)
    (h : v.At n s) (hx : crawlerExec cfg i e c s = some (r, s')) : v.At n s' := by
  obtain ⟨hclient, htable, hadapters⟩ := h
  cases c with
  | breaker c =>
      obtain ⟨-, rfl⟩ := Prod.mk.injEq .. |>.mp (Option.some.inj hx)
      exact ⟨hclient, htable, hadapters⟩
  | client c =>
      obtain ⟨⟨a, heap⟩, hheap, heq⟩ := Option.map_eq_some_iff.mp hx
      obtain ⟨-, rfl⟩ := Prod.mk.injEq .. |>.mp heq
      cases c with
      | setLastPrimaryAttempt k =>
          obtain ⟨-, rfl⟩ := Prod.mk.injEq .. |>.mp (Option.some.inj hheap)
          exact ⟨hclient, htable, hadapters⟩
      | lastPrimaryAttempt =>
          obtain ⟨-, rfl⟩ := Prod.mk.injEq .. |>.mp (Option.some.inj hheap)
          exact ⟨hclient, htable, hadapters⟩
      | _ => exact hc.elim
  | egress c =>
      obtain ⟨-, rfl⟩ := Prod.mk.injEq .. |>.mp (Option.some.inj hx)
      cases c with
      | isUsable lease => exact ⟨hclient, Provider.isUsable_table.trans htable, hadapters⟩
      | recordSuccess lease =>
          exact ⟨hclient, (Provider.updateEndpoint_table _).trans htable, hadapters⟩
      | _ => exact hc.elim
  | outside c =>
      obtain ⟨-, rfl⟩ := Prod.mk.injEq .. |>.mp (Option.some.inj hx)
      cases c with
      | create contextId lease => exact hc.elim
      | primaryOperation client adapter => exact hc.elim
      | publish task => exact hc.elim
      | listActiveApplications => exact hc.elim
      | _ => exact ⟨hclient, htable, hadapters⟩
  | lifecycle c => exact hc.elim
  | executor c => exact hc.elim

theorem still_wp {c : CrawlerCmd} (hc : c.Still) (h : v.At n s) :
    (egressProto cfg).wp (crawlerExec cfg) i (Prog.cmd c) (fun _ => v.At n) (fun _ => v.At n) s :=
  egress_cmd (hc.owed s) fun _ hx =>
    ⟨fun _ _ => still_exec hc h hx, fun _ _ => still_exec hc h hx⟩

theorem attributes_wp (h : v.At n s) :
    (egressProto cfg).wp (crawlerExec cfg) i (attributes n) (fun c s => c = v.client ∧ v.At n s)
      (fun _ _ => False) s := by
  refine egress_cmd trivial fun _ hx => ?_
  obtain ⟨⟨a, heap⟩, hheap, heq⟩ := Option.map_eq_some_iff.mp hx
  obtain ⟨rfl, rfl⟩ := Prod.mk.injEq .. |>.mp heq
  obtain ⟨c, hc, hread⟩ := Option.map_eq_some_iff.mp hheap
  obtain ⟨rfl, rfl⟩ := Prod.mk.injEq .. |>.mp hread
  refine ⟨fun c' hc' => ?_, nofun⟩
  obtain rfl := Except.ok.inj hc'
  exact ⟨Option.some.inj (hc.symm.trans h.client), h.client, h.table, h.adapters⟩

/-- An attribute of the client is set. -/
theorem modify_wp {c : ClientCmd} (f : ClientState → ClientState)
    (hc : ∀ heap, ∃ a, c.exec i heap = some (a, heap.modify n f)) (h : v.At n s) :
    (egressProto cfg).wp (crawlerExec cfg) i (onClient c)
      (fun _ => View.At n { v with client := f v.client }) (fun _ _ => False) s := by
  refine egress_cmd trivial fun _ hx => ?_
  obtain ⟨⟨a, heap⟩, hheap, heq⟩ := Option.map_eq_some_iff.mp hx
  obtain ⟨rfl, rfl⟩ := Prod.mk.injEq .. |>.mp heq
  obtain ⟨a', hexec⟩ := hc s.heap
  obtain ⟨-, rfl⟩ := Prod.mk.injEq .. |>.mp (Option.some.inj (hheap.symm.trans hexec))
  refine ⟨fun _ _ => ⟨?_, h.table, h.adapters⟩, nofun⟩
  show (s.heap.clients.modify n f)[n]? = some (f v.client)
  rw [List.getElem?_modify_eq, h.client]
  rfl

theorem setPrimary_wp (adapter : Option Nat) (h : v.At n s) :
    (egressProto cfg).wp (crawlerExec cfg) i (setPrimary n adapter)
      (fun _ => View.At n { v with client := { v.client with primary := adapter } })
      (fun _ _ => False) s :=
  modify_wp (fun c => { c with primary := adapter }) (fun _ => ⟨_, rfl⟩) h

theorem setLease_wp (lease : LeaseRef) (h : v.At n s) :
    (egressProto cfg).wp (crawlerExec cfg) i (setLease n lease)
      (fun _ => View.At n { v with client := { v.client with lease := lease } })
      (fun _ _ => False) s :=
  modify_wp (fun c => { c with lease := lease }) (fun _ => ⟨_, rfl⟩) h

theorem setRefresh_wp (refresh : Bool) (h : v.At n s) :
    (egressProto cfg).wp (crawlerExec cfg) i (setRefresh n refresh)
      (fun _ => View.At n
        { v with client := { v.client with refreshEgressBeforeOperation := refresh } })
      (fun _ _ => False) s :=
  modify_wp (fun c => { c with refreshEgressBeforeOperation := refresh }) (fun _ => ⟨_, rfl⟩) h

/-- The adapter of a released lease is closed without an exception. -/
theorem closeAdapter_wp {adapter : Nat} (hreleased : v.table.isReleased v.client.lease = true)
    (h : v.At n s) : (egressProto cfg).wp (crawlerExec cfg) i (closeAdapter n adapter)
      (fun _ => v.At n) (fun _ _ => False) s := by
  refine egress_cmd trivial fun ha hx => ⟨fun _ _ => still_exec (by trivial) h hx,
    fun x hraised => ?_⟩
  have hcalm := ha v.client h.client (by rw [h.table]; exact hreleased)
  obtain ⟨rfl, -⟩ := Prod.mk.injEq .. |>.mp (Option.some.inj hx)
  simp only [CrawlerEnv.outcome, hcalm] at hraised
  cases hraised

theorem createClient_wp {contextId : ContextId} {lease : LeaseRef} (h : v.At n s) :
    (egressProto cfg).wp (crawlerExec cfg) i (outside (.create contextId lease))
      (fun (a : Nat) s => a = v.adapters.length ∧
        View.At n { v with adapters := v.adapters ++ [lease] } s) (fun _ => v.At n) s := by
  refine egress_cmd trivial fun {e r s'} _ hx => ?_
  obtain ⟨rfl, rfl⟩ := Prod.mk.injEq .. |>.mp (Option.some.inj hx)
  obtain ⟨hclient, htable, hadapters⟩ := h
  simp only
  split
  · exact ⟨nofun, fun _ _ => ⟨hclient, htable, hadapters⟩⟩
  · refine ⟨fun a ha => ?_, nofun⟩
    obtain rfl := Except.ok.inj ha
    refine ⟨by rw [hadapters], hclient, htable, ?_⟩
    show s.heap.adapters ++ [lease] = v.adapters ++ [lease]
    rw [hadapters]

/-- `rotate` and a `handle_failure` that rotates. -/
theorem View.Ok.rotate {p p' : Provider} {now : Seconds} {r : Except PyError LeaseRef}
    (hv : v.Ok) (hp : p.table = v.table)
    (hx : p.rotate cfg.provider now v.client.lease v.client.contextId = (r, p')) :
    p'.table.WellFormed ∧ p'.table.Known v.client.lease ∧
      p'.table.isReleased v.client.lease = true ∧
      ∀ l, r = .ok l → p'.table.Known l ∧ p'.table.isReleased l = false :=
  Provider.rotate_table (hp ▸ hv.table) (hp ▸ hv.lease) hx

/-- The view after a rotation that found no proxy. -/
def View.Stranded (lease : LeaseRef) (n : Nat) (v : View) (s : CrawlerState) : Prop :=
  ∃ table : LeaseTable, View.At n { v with table := table } s ∧ table.WellFormed ∧
    table.Known lease ∧ table.isReleased lease = true

theorem egress_exec {c : EgressCmd} {r : Except PyError c.Answer}
    (h : crawlerExec cfg i e (.egress c) s = some (r, s')) :
    c.exec cfg e.now (s.shared e) = (r, s'.provider) ∧ s'.heap = s.heap := by
  obtain ⟨rfl, rfl⟩ := Prod.mk.injEq .. |>.mp (Option.some.inj h)
  exact ⟨rfl, rfl⟩

/-- A step on the provider changes a view in its table only. -/
theorem View.At.retabled {table : LeaseTable} (h : v.At n s) (hheap : s'.heap = s.heap)
    (htable : s'.provider.table = table) : View.At n { v with table := table } s' :=
  ⟨by rw [hheap]; exact h.client, htable, by rw [hheap]; exact h.adapters⟩

theorem rotate_wp (hv : v.Ok) (h : v.At n s) :
    (egressProto cfg).wp (crawlerExec cfg) i
      (onEgress (.rotate v.client.lease v.client.contextId))
      (fun (lease : LeaseRef) s => ∃ table : LeaseTable, View.At n { v with table := table } s ∧
        table.WellFormed ∧ table.Known lease ∧ table.isReleased lease = false)
      (fun _ => v.Stranded v.client.lease n) s := by
  refine egress_cmd trivial fun {e r s'} _ hx => ?_
  obtain ⟨hexec, hheap⟩ := egress_exec hx
  have hshared : (s.shared e).table = v.table := h.table
  obtain ⟨hwf, hknown, hreleased, hok⟩ := hv.rotate hshared hexec
  have hat := h.retabled hheap rfl
  refine ⟨fun lease hlease => ?_, fun x _ => ⟨_, hat, hwf, hknown, hreleased⟩⟩
  obtain ⟨hnew, hlive⟩ := hok lease hlease
  exact ⟨_, hat, hwf, hnew, hlive⟩

/-- `handle_failure` keeps the lease, replaces it, or - for a refused page - leaves it
released. -/
theorem handleFailure_egress {error : PyError} {allowRotation : Bool} (hv : v.Ok) (h : v.At n s) :
    (egressProto cfg).wp (crawlerExec cfg) i
      (ApplicationPlayStoreClient.handleFailure error v.client allowRotation)
      (fun lease s => (lease = v.client.lease ∧ v.At n s) ∨
        (∃ table : LeaseTable, View.At n { v with table := table } s ∧ table.WellFormed ∧
          table.isReleased v.client.lease = true ∧ table.Known lease ∧
          table.isReleased lease = false))
      (fun x s => x = proxyUnavailable ∧ error.isInstance [.accessForbidden] = true ∧
        v.Stranded v.client.lease n s) s := by
  refine egress_cmd trivial fun {e r s'} ha hx => ?_
  obtain ⟨hexec, hheap⟩ := egress_exec hx
  rcases NetworkPolicy.handleFailure_cases hexec with ⟨rfl, htable⟩ | ⟨p₁, hp₁, hrotate⟩
  · refine ⟨fun lease hlease => Or.inl ?_, nofun⟩
    exact ⟨(Except.ok.inj hlease).symm, h.retabled hheap (htable.trans h.table)⟩
  · obtain ⟨hwf, hknown, hreleased, hok⟩ := hv.rotate (hp₁.trans h.table) hrotate
    have hat := h.retabled hheap rfl
    refine ⟨fun lease hlease => Or.inr ?_, fun x hraised => ?_⟩
    · obtain ⟨hnew, hlive⟩ := hok lease hlease
      exact ⟨_, hat, hwf, hreleased, hnew, hlive⟩
    · have hresult := congrArg Prod.fst hexec
      rw [hraised] at hresult
      refine ⟨EgressCmd.raises hresult, ?_, _, hat, hwf, hknown, hreleased⟩
      exact ha.resolve_right fun hnot => hnot x hresult

/-! ## The client's operations -/

def Sane (n : Nat) (s : CrawlerState) : Prop := ∃ v : View, v.Ok ∧ v.At n s

def LiveAt (n : Nat) (s : CrawlerState) : Prop := ∃ v : View, v.Ok ∧ v.Live ∧ v.At n s

/-- The client's adapter is `a`. -/
def OnAdapter (n a : Nat) (s : CrawlerState) : Prop :=
  ∃ v : View, v.Ok ∧ v.client.primary = some a ∧ v.At n s

theorem LiveAt.sane (h : LiveAt n s) : Sane n s := by
  obtain ⟨v, hv, -, hat⟩ := h
  exact ⟨v, hv, hat⟩

/-- A client without an adapter that may use its lease. -/
theorem View.Ok.ofLive (table : v.table.WellFormed) (lease : v.table.Known v.client.lease)
    (hnone : v.client.primary = none) (hlive : v.Live) : v.Ok := by
  refine ⟨table, lease, fun h => ?_, Or.inr hlive⟩
  rw [hnone] at h
  cases h

/-- A client without an adapter that has to ask for a lease. -/
theorem View.Ok.ofRefresh (table : v.table.WellFormed) (lease : v.table.Known v.client.lease)
    (hnone : v.client.primary = none) (hrefresh : v.client.refreshEgressBeforeOperation = true) :
    v.Ok := by
  refine ⟨table, lease, fun h => ?_, Or.inl hrefresh⟩
  rw [hnone] at h
  cases h

/-- A command in front that leaves the view alone, and any way it ends. -/
theorem still_seq {α : Type} {c : CrawlerCmd} {f : c.Answer → CrawlerProg α}
    {Q : α → CrawlerState → Prop} {X : PyError → CrawlerState → Prop} (hc : c.Still)
    (h : v.At n s) (hX : ∀ {x s}, v.At n s → X x s)
    (hf : ∀ {a s}, v.At n s → (egressProto cfg).wp (crawlerExec cfg) i (f a) Q X s) :
    (egressProto cfg).wp (crawlerExec cfg) i (Prog.cmd c >>= f) Q X s :=
  Proto.wp_seq (Proto.wp_mono (fun _ _ h => hf h) (fun _ _ h => hX h) (still_wp hc h))

/-- A command in front that cannot raise. -/
theorem calm_seq {α β : Type} {p : CrawlerProg β} {f : β → CrawlerProg α}
    {Q : α → CrawlerState → Prop} {X : PyError → CrawlerState → Prop}
    {R : β → CrawlerState → Prop}
    (hp : (egressProto cfg).wp (crawlerExec cfg) i p R (fun _ _ => False) s)
    (hf : ∀ {a s}, R a s → (egressProto cfg).wp (crawlerExec cfg) i (f a) Q X s) :
    (egressProto cfg).wp (crawlerExec cfg) i (p >>= f) Q X s :=
  Proto.wp_seq (Proto.wp_mono (fun _ _ h => hf h) (fun _ _ h => h.elim) hp)

/-- The end of `_refresh_egress_if_needed`. -/
theorem refreshRotate_wp (hv : v.Ok) (hnone : v.client.primary = none)
    (hrefresh : v.client.refreshEgressBeforeOperation = true) (h : v.At n s)
    {c : ClientState} (hlease : c.lease = v.client.lease)
    (hcontext : c.contextId = v.client.contextId) :
    (egressProto cfg).wp (crawlerExec cfg) i (refreshEgressIfNeeded.rotate n c)
      (fun _ => LiveAt n) (fun _ => Sane n) s := by
  unfold refreshEgressIfNeeded.rotate
  rw [hlease, hcontext]
  refine Proto.wp_seq (Proto.wp_mono (fun lease s hrotated => ?_) (fun x s hstranded => ?_)
    (rotate_wp hv h))
  · obtain ⟨table, hat, hwf, hknown, hlive⟩ := hrotated
    refine calm_seq (setLease_wp lease hat) fun {_ s} hat => ?_
    refine Proto.wp_mono (fun _ s hat => ?_) (fun _ _ h => h.elim) (setRefresh_wp false hat)
    refine ⟨_, ?_, ?_, hat⟩
    · exact .ofLive hwf hknown hnone hlive
    · exact hlive
  · obtain ⟨table, hat, hwf, hknown, -⟩ := hstranded
    refine ⟨_, ?_, hat⟩
    exact .ofRefresh hwf hknown hnone hrefresh

/-- After `_refresh_egress_if_needed` the lease can be used. -/
theorem refreshEgressIfNeeded_live (hs : Sane n s) :
    (egressProto cfg).wp (crawlerExec cfg) i (refreshEgressIfNeeded n)
      (fun _ => LiveAt n) (fun _ => Sane n) s := by
  obtain ⟨v, hv, hat⟩ := hs
  refine calm_seq (attributes_wp hat) fun {c s} hc => ?_
  obtain ⟨rfl, hat⟩ := hc
  split
  · rename_i hrefresh
    split
    · rename_i hnone
      exact refreshRotate_wp hv hnone hrefresh hat rfl rfl
    · refine still_seq (by trivial) hat (fun hat => ⟨v, hv, hat⟩) fun {_ s} hat => ?_
      refine calm_seq (setPrimary_wp none hat) fun {_ s} hat => ?_
      have hdropped : View.Ok { v with client := { v.client with primary := none } } :=
        .ofRefresh hv.table hv.lease rfl hrefresh
      exact refreshRotate_wp hdropped rfl hrefresh hat rfl rfl
  · rename_i hrefresh
    exact ⟨v, hv, hv.refresh.resolve_left hrefresh, hat⟩

/-- `_get_primary` gives an adapter of the current lease. -/
theorem getPrimary_live (hs : LiveAt n s) :
    (egressProto cfg).wp (crawlerExec cfg) i (getPrimary n)
      (fun a => OnAdapter n a) (fun _ => LiveAt n) s := by
  obtain ⟨v, hv, hlive, hat⟩ := hs
  refine calm_seq (attributes_wp hat) fun {c s} hc => ?_
  obtain ⟨rfl, hat⟩ := hc
  split
  · rename_i adapter hprimary
    exact ⟨v, hv, hprimary, hat⟩
  · refine Proto.wp_seq (Proto.wp_mono (fun adapter s hcreated => ?_)
      (fun x s hat => ⟨v, hv, hlive, hat⟩) (createClient_wp hat))
    obtain ⟨rfl, hat⟩ := hcreated
    refine calm_seq (setPrimary_wp _ hat) fun {_ s} hat => ?_
    refine ⟨_, ?_, ?_, hat⟩
    · refine ⟨hv.table, hv.lease, fun h => ?_, Or.inr hlive⟩
      obtain rfl := Option.some.inj h
      exact ⟨List.getElem?_concat_length, hlive⟩
    · rfl

/-- After a failed attempt: the lease can be used if another attempt follows. -/
def FailedAt (n : Nat) (x : PyError) (s : CrawlerState) : Prop :=
  Sane n s ∧ (RetryPolicy.retries x = true → LiveAt n s)

theorem LiveAt.failed (h : LiveAt n s) (x : PyError) : FailedAt n x s := ⟨h.sane, fun _ => h⟩

theorem live_wp {c : CrawlerCmd} (hc : c.Still) (hs : LiveAt n s) :
    (egressProto cfg).wp (crawlerExec cfg) i (Prog.cmd c) (fun _ => LiveAt n)
      (fun x => FailedAt n x) s := by
  obtain ⟨v, hv, hlive, hat⟩ := hs
  exact Proto.wp_mono (fun _ _ h => ⟨v, hv, hlive, h⟩)
    (fun x _ h => LiveAt.failed ⟨v, hv, hlive, h⟩ x) (still_wp hc hat)

theorem sane_wp {c : CrawlerCmd} (hc : c.Still) (hs : Sane n s) :
    (egressProto cfg).wp (crawlerExec cfg) i (Prog.cmd c) (fun _ => Sane n)
      (fun _ => Sane n) s := by
  obtain ⟨v, hv, hat⟩ := hs
  exact Proto.wp_mono (fun _ _ h => ⟨v, hv, h⟩) (fun _ _ h => ⟨v, hv, h⟩) (still_wp hc hat)

/-- A refused page without a new egress is not tried again. -/
theorem refused_not_retried {error : CrawlerError}
    (h : PyError.isInstance (.crawler error) [.accessForbidden] = true) :
    RetryPolicy.retries (.crawler { error with retryWithNewEgress := false }) = false := by
  have hcls : error.cls = .accessForbidden := by simpa [PyError.isInstance] using h
  simp [RetryPolicy.retries, RetryPolicy.isTryAgain, RetryPolicy.isRetryable, PyError.isInstance,
    hcls]

theorem failed_egress {k a : Nat} {error : CrawlerError} (hs : OnAdapter n a s) :
    (egressProto cfg).wp (crawlerExec cfg) i (failed cfg n k a error) (fun _ => LiveAt n)
      (FailedAt n) s := by
  obtain ⟨v, hv, hprimary, hat⟩ := hs
  have hlive := (hv.primary hprimary).2
  refine calm_seq (attributes_wp hat) fun {c s} hc => ?_
  obtain ⟨rfl, hat⟩ := hc
  refine Proto.wp_seq (Proto.wp_outcome.mpr (Proto.wp_mono (fun lease s hhandled => ?_)
    (fun x s hhandled => ?_) (handleFailure_egress hv hat)))
  · rcases hhandled with ⟨rfl, hat⟩ | ⟨table, hat, hwf, hreleased, hknown, hnew⟩
    · -- the lease stays
      simp only [ne_eq, not_true_eq_false, if_false]
      refine still_seq (by trivial) hat (fun {x s} hat => LiveAt.failed ⟨v, hv, hlive, hat⟩ x)
        fun {usable s} hat => ?_
      split
      · refine calm_seq (setRefresh_wp true hat) fun {_ s} hat => LiveAt.failed ⟨_, ?_, ?_, hat⟩ _
        · exact ⟨hv.table, hv.lease, hv.primary, Or.inl rfl⟩
        · exact hlive
      · exact LiveAt.failed ⟨v, hv, hlive, hat⟩ _
    · -- a new lease: the adapter goes with the old one
      have hne : lease ≠ v.client.lease := by
        rintro rfl
        rw [hreleased] at hnew
        cases hnew
      simp only [if_pos hne]
      refine calm_seq (closeAdapter_wp hreleased hat) fun {_ s} hat => ?_
      refine calm_seq (setPrimary_wp none hat) fun {_ s} hat => ?_
      refine calm_seq (setLease_wp lease hat) fun {_ s} hat => LiveAt.failed ⟨_, ?_, ?_, hat⟩ _
      · exact .ofLive hwf hknown rfl hnew
      · exact hnew
  · obtain ⟨rfl, hforbidden, table, hat, hwf, hknown, hreleased⟩ := hhandled
    have hunavailable : proxyUnavailable.isInstance [.proxyUnavailable] = true := rfl
    simp only [hunavailable, hforbidden, Bool.not_true, Bool.false_eq_true, if_false]
    refine calm_seq (closeAdapter_wp hreleased hat) fun {_ s} hat => ?_
    refine calm_seq (setPrimary_wp none hat) fun {_ s} hat => ?_
    refine calm_seq (setRefresh_wp true hat) fun {_ s} hat => ⟨⟨_, ?_, hat⟩, fun hretries => ?_⟩
    · exact .ofRefresh hwf hknown rfl rfl
    · rw [refused_not_retried hforbidden] at hretries
      cases hretries

theorem attempt_egress {k : Nat} (hs : LiveAt n s) :
    (egressProto cfg).wp (crawlerExec cfg) i (attempt cfg n .arbitrary k) (fun _ => LiveAt n)
      (FailedAt n) s := by
  have hstart : (egressProto cfg).wp (crawlerExec cfg) i (startAttempt .arbitrary k)
      (fun _ => LiveAt n) (FailedAt n) s :=
    Proto.wp_seq (Proto.wp_mono (fun _ _ h => live_wp (by trivial) h) (fun _ _ h => h)
      (live_wp (by trivial) hs))
  refine Proto.wp_seq (Proto.wp_mono (fun _ s hs => ?_) (fun _ _ h => h) hstart)
  refine Proto.wp_seq (Proto.wp_mono (fun a s hs => ?_) (fun x s hs => hs.failed x)
    (getPrimary_live hs))
  -- the operation: the adapter belongs to the lease, and the lease is not released
  obtain ⟨v, hv, hprimary, hat⟩ := hs
  have hon := hv.primary hprimary
  have hoperation : (egressProto cfg).wp (crawlerExec cfg) i (outside (.primaryOperation n a))
      (fun _ => v.At n) (fun _ => v.At n) s := by
    refine egress_cmd (fun c hc => ?_) fun {e r s'} _ hx => ?_
    · obtain rfl := Option.some.inj (hat.client.symm.trans hc)
      rw [hat.adapters, hat.table]
      exact hon
    · obtain ⟨-, rfl⟩ := Prod.mk.injEq .. |>.mp (Option.some.inj hx)
      have hused : v.At n (s.use n a) := by
        unfold CrawlerState.use
        split
        · exact hat
        · exact ⟨hat.client, hat.table, hat.adapters⟩
      exact ⟨fun _ _ => hused, fun _ _ => hused⟩
  refine Proto.wp_seq (Proto.wp_outcome.mpr (Proto.wp_mono (fun _ s hat => ?_)
    (fun rawError s hat => ?_) hoperation))
  · exact ⟨v, hv, hon.2, hat⟩
  · refine still_seq (by trivial) hat (fun {x s} hat => LiveAt.failed ⟨v, hv, hon.2, hat⟩ x)
      fun {error s} hat => failed_egress ⟨v, hv, hprimary, hat⟩

theorem attempts_egress (hs : LiveAt n s) :
    (egressProto cfg).wp (crawlerExec cfg) i
      (RetryPolicy.execute cfg (attempt cfg n .arbitrary) OperationHooks.arbitrary.beforeRetry)
      (fun _ => Sane n) (fun _ => Sane n) s := by
  have hpos := cfg.maxAttempts_pos
  have hpause : ∀ {x seconds s}, LiveAt n s → (egressProto cfg).wp (crawlerExec cfg) i
      (RetryPolicy.pause OperationHooks.arbitrary.beforeRetry x seconds) (fun _ => LiveAt n)
      (FailedAt n) s := fun hs =>
    Proto.wp_seq (Proto.wp_mono (fun _ _ h => live_wp (by trivial) h) (fun _ _ h => h)
      (live_wp (by trivial) hs))
  have hall : (egressProto cfg).wp (crawlerExec cfg) i
      (RetryPolicy.attemptsFrom (attempt cfg n .arbitrary) OperationHooks.arbitrary.beforeRetry
        (cfg.maxAttempts - 1) (0 + 1)) (fun _ s => ∃ k ≤ cfg.maxAttempts, LiveAt n s)
      (fun x s => ∃ k ≤ cfg.maxAttempts, FailedAt n x s) s := by
    refine RetryPolicy.attemptsFrom_wp (fun _ hs => attempt_egress hs)
      (fun {k x s} hretries hs => ?_) (fun _ hretries hs => hpause (hs.2 hretries)) id _ 0
      (by omega) hs
    exact Proto.wp_mono (fun _ _ h => h.failed x) (fun _ _ h => h)
      (live_wp (by trivial) (hs.2 hretries))
  exact Proto.wp_mono (fun _ _ ⟨_, _, h⟩ => h.sane) (fun _ _ ⟨_, _, h⟩ => h.1) hall

/-- An operation leaves the client in order, however it ends. -/
theorem execute_egress (hs : Sane n s) :
    (egressProto cfg).wp (crawlerExec cfg) i (execute cfg n .arbitrary) (fun _ => Sane n)
      (fun _ => Sane n) s := by
  have hseq : ∀ {c : CrawlerCmd} {f : c.Answer → CrawlerProg Unit} {s}, c.Still → Sane n s →
      (∀ {a s}, Sane n s → (egressProto cfg).wp (crawlerExec cfg) i (f a) (fun _ => Sane n)
        (fun _ => Sane n) s) →
      (egressProto cfg).wp (crawlerExec cfg) i (Prog.cmd c >>= f) (fun _ => Sane n)
        (fun _ => Sane n) s := fun hc hs hf =>
    Proto.wp_seq (Proto.wp_mono (fun _ _ h => hf h) (fun _ _ h => h) (sane_wp hc hs))
  have hattributes : ∀ {f : ClientState → CrawlerProg Unit} {s}, Sane n s →
      (∀ {a s}, Sane n s → (egressProto cfg).wp (crawlerExec cfg) i (f a) (fun _ => Sane n)
        (fun _ => Sane n) s) →
      (egressProto cfg).wp (crawlerExec cfg) i (attributes n >>= f) (fun _ => Sane n)
        (fun _ => Sane n) s := by
    rintro f s ⟨v, hv, hat⟩ hf
    exact calm_seq (attributes_wp hat) fun h => hf ⟨v, hv, h.2⟩
  have hfallback : ∀ {error token s}, Sane n s → (egressProto cfg).wp (crawlerExec cfg) i
      (fallback .arbitrary error token) (fun _ => Sane n) (fun _ => Sane n) s := by
    intro error token s hs
    refine hseq (by trivial) hs fun {_ s} hs => ?_
    refine hseq (by trivial) hs fun {last s} hs => ?_
    refine hseq (by trivial) hs fun {_ s} hs => ?_
    refine Proto.wp_seq (Proto.wp_outcome.mpr (Proto.wp_mono (fun _ s hs => ?_)
      (fun rawError s hs => ?_) (sane_wp (by trivial) hs)))
    · exact sane_wp (by trivial) hs
    · refine hseq (by trivial) hs fun {error s} hs => ?_
      exact hseq (by trivial) hs fun {_ s} hs => hs
  refine Proto.wp_seq (Proto.wp_mono (fun _ s hs => ?_) (fun _ _ h => h)
    (refreshEgressIfNeeded_live hs))
  obtain ⟨v, hv, hlive, hat⟩ := hs
  refine still_seq (by trivial) hat (fun hat => ⟨v, hv, hat⟩) fun {token s} hat => ?_
  refine still_seq (by trivial) hat (fun hat => ⟨v, hv, hat⟩) fun {_ s} hat => ?_
  refine Proto.wp_seq (Proto.wp_outcome.mpr (Proto.wp_mono (fun _ s hs => ?_)
    (fun x s hs => ?_) (attempts_egress ⟨v, hv, hlive, hat⟩)))
  · refine hattributes hs fun {c s} hs => ?_
    exact hseq (by trivial) hs fun {_ s} hs => sane_wp (by trivial) hs
  · cases x with
    | crawler error =>
        refine hattributes hs fun {c s} hs => ?_
        refine hseq (by trivial) hs fun {_ s} hs => ?_
        split
        · exact hs
        · exact hfallback hs
    | other name message => exact hs

/-- The client's lease is released. -/
def Released (n : Nat) (s : CrawlerState) : Prop :=
  ∀ c, s.heap.clients[n]? = some c → s.provider.table.isReleased c.lease = true

theorem close_egress (hs : Sane n s) :
    (egressProto cfg).wp (crawlerExec cfg) i (close n) (fun _ => Released n)
      (fun _ => Released n) s := by
  have hrelease : ∀ {v : View} {s}, v.At n s → v.table.WellFormed →
      v.table.Known v.client.lease → (egressProto cfg).wp (crawlerExec cfg) i (close.release n)
        (fun _ => Released n) (fun _ => Released n) s := by
    intro v s hat hwf hknown
    refine calm_seq (attributes_wp hat) fun {c s} hc => ?_
    obtain ⟨rfl, hat⟩ := hc
    refine egress_cmd trivial fun {e r s'} _ hx => ?_
    obtain ⟨hexec, hheap⟩ := egress_exec hx
    have hshared : (s.shared e).table = v.table := hat.table
    have hreleased : Released n s' := by
      intro c hc
      rw [hheap, hat.client] at hc
      obtain rfl := Option.some.inj hc
      have hprovider : s'.provider = (s.shared e).release cfg.provider v.client.lease :=
        (congrArg Prod.snd hexec).symm
      rw [hprovider]
      exact (Provider.release_table cfg.provider (hshared ▸ hwf) (hshared ▸ hknown)).2.2
    exact ⟨fun _ _ => hreleased, fun _ _ => hreleased⟩
  obtain ⟨v, hv, hat⟩ := hs
  refine calm_seq (attributes_wp hat) fun {c s} hc => ?_
  obtain ⟨rfl, hat⟩ := hc
  refine calm_seq (setPrimary_wp none hat) fun {_ s} hat => Proto.wp_ensure.mpr ?_
  split
  · refine Proto.wp_mono (fun _ _ hat => ?_) (fun _ _ hat => ?_) (still_wp (by trivial) hat)
    · exact hrelease hat hv.table hv.lease
    · exact hrelease hat hv.table hv.lease
  · exact hrelease hat hv.table hv.lease

/-- A context without a lease gets one, or there is no client. -/
theorem openApplication_egress {contextId : ContextId} (htable : s.provider.table.WellFormed)
    (hn : s.heap.clients.length = n) :
    (egressProto cfg).wp (crawlerExec cfg) i (openApplication contextId)
      (fun client s => client = n ∧ Sane n s) (fun _ => Released n) s := by
  have hacquire : (egressProto cfg).wp (crawlerExec cfg) i (onEgress (.acquire contextId))
      (fun (lease : LeaseRef) s => s.heap.clients.length = n ∧ s.provider.table.WellFormed ∧
        s.provider.table.Known lease ∧ s.provider.table.isReleased lease = false)
      (fun _ => Released n) s := by
    refine egress_cmd trivial fun {e r s'} _ hx => ?_
    obtain ⟨hexec, hheap⟩ := egress_exec hx
    have hshared : (s.shared e).table.WellFormed := htable
    obtain ⟨hwf, -, hok⟩ := Provider.acquire_table hshared hexec
    refine ⟨fun lease hlease => ?_, fun x _ c hc => ?_⟩
    · exact ⟨by rw [hheap]; exact hn, hwf, hok lease hlease⟩
    · rw [hheap, List.getElem?_eq_none hn.le] at hc
      cases hc
  refine Proto.wp_seq (Proto.wp_mono (fun lease s hs => ?_) (fun _ _ h => h) hacquire)
  obtain ⟨hn, hwf, hknown, hlive⟩ := hs
  refine egress_cmd trivial fun {e r s'} _ hx => ?_
  obtain ⟨rfl, rfl⟩ := Prod.mk.injEq .. |>.mp (Option.some.inj hx)
  refine ⟨fun client hclient => ?_, nofun⟩
  obtain rfl := Except.ok.inj hclient
  refine ⟨hn, ⟨⟨contextId, lease, none, false⟩, s.provider.table, s.heap.adapters⟩, ?_, ?_⟩
  · exact .ofLive hwf hknown rfl hlive
  · refine ⟨?_, rfl, rfl⟩
    rw [← hn]
    exact List.getElem?_concat_length

end Egress

/-! ## A client from beginning to end -/

open ApplicationPlayStoreClient in
/-- `count` operations in a row, each with whatever outcome. -/
def operations (cfg : CrawlerConfig) (client : Nat) : Nat → CrawlerProg Unit
  | 0 => return ()
  | count + 1 => do
      let _ ← (execute cfg client .arbitrary).outcome
      operations cfg client count

open ApplicationPlayStoreClient in
/-- `with open_application(context_id) as client`. -/
def applicationSession (cfg : CrawlerConfig) (contextId : ContextId) (count : Nat) :
    CrawlerProg Unit := do
  let client ← openApplication contextId
  (operations cfg client count).ensure (close client)

theorem operations_egress {cfg : CrawlerConfig} {i n : Nat} (count : Nat) {s : CrawlerState}
    (hs : Sane n s) : (egressProto cfg).wp (crawlerExec cfg) i (operations cfg n count)
      (fun _ => Sane n) (fun _ => Sane n) s := by
  induction count generalizing s with
  | zero => exact hs
  | succ count ih =>
      refine Proto.wp_seq (Proto.wp_outcome.mpr ?_)
      exact Proto.wp_mono (fun _ _ hs => ih hs) (fun _ _ hs => ih hs) (execute_egress hs)

/-- Every primary operation of a client runs on an adapter of its current lease,
which is not released, and a client that is closed has released its lease. -/
theorem egress_consistent {cfg : CrawlerConfig} {contextId : ContextId} {count i : Nat}
    {s₀ s : CrawlerState} {p : CrawlerProg Unit} (htable : s₀.provider.table.WellFormed)
    (huses : s₀.heap.uses = [])
    (h : Steps (crawlerExec cfg) (EgressAllowed cfg) i (applicationSession cfg contextId count)
      s₀ p s) :
    (∀ u ∈ s.heap.uses, u.Consistent) ∧
      (p.ended = true → ∀ c, s.heap.clients[s₀.heap.clients.length]? = some c →
        s.provider.table.isReleased c.lease = true) := by
  have hsession : (egressProto cfg).wp (crawlerExec cfg) i
      (applicationSession cfg contextId count) (fun _ => Released s₀.heap.clients.length)
      (fun _ => Released s₀.heap.clients.length) s₀ := by
    refine Proto.wp_seq (Proto.wp_mono (fun client s hs => ?_) (fun _ _ h => h)
      (openApplication_egress htable rfl))
    obtain ⟨rfl, hs⟩ := hs
    exact Proto.wp_ensure.mpr (Proto.wp_mono (fun _ _ hs => close_egress hs)
      (fun _ _ hs => close_egress hs) (operations_egress count hs))
  have hinit : (egressProto cfg).inv s₀ := by
    intro u hu
    rw [huses] at hu
    cases hu
  obtain ⟨hinv, hwp⟩ := Steps.wp (P := egressProto cfg) (fun _ => rfl)
    (fun hi howed _ hx => egress_inv hi howed hx) h hinit hsession
  refine ⟨hinv, fun hended => ?_⟩
  cases p with
  | ret a => exact hwp
  | raise x => exact hwp
  | call c k => cases hended

/-- `EgressAllowed`, as a check: no adapter fails to close. -/
def egressCheck (cfg : CrawlerConfig) (c : CrawlerCmd) (e : CrawlerEnv) (s : CrawlerState) :
    Bool :=
  match c with
  | .egress (.handleFailure error lease contextId allowRotation) =>
      error.isInstance [.accessForbidden] ||
        match (NetworkPolicy.handleFailure cfg.provider e.now cfg.rateLimitRotateAfter error lease
          contextId allowRotation (s.shared e)).1 with
        | .ok _ => true
        | .error _ => false
  | .outside (.close _ _) => e.raises.isNone
  | _ => true

theorem egressAllowed_of_check {cfg : CrawlerConfig} (c : CrawlerCmd) (e : CrawlerEnv)
    (s : CrawlerState) (h : egressCheck cfg c e s = true) : EgressAllowed cfg c e s := by
  unfold EgressAllowed
  split
  · simp only [egressCheck, Bool.or_eq_true] at h
    refine h.imp_right fun hok x hraised => ?_
    rw [hraised] at hok
    cases hok
  · exact fun _ _ _ => Option.isNone_iff_eq_none.mp h
  · trivial

namespace Sample

/-- Two attempts through a pool, without a direct fallback. -/
def poolConfig : CrawlerConfig :=
  { crawlerConfig with
    provider := .pool 1 300 false
    maxAttempts := 2
    maxAttempts_pos := by decide }

/-- Healthy proxies and no client. -/
def poolState (proxyIds : List String) : CrawlerState :=
  { crawlerState with
    heap := ⟨[], [], fun _ => 0, []⟩
    provider := ⟨.empty, ⟨proxyIds.map fun id => ⟨id, .healthy, 0, none⟩, 0, fun _ => 0⟩⟩ }

def proxyRejected : PyError :=
  .crawler ⟨.proxyAuthenticationFailure, "proxy authentication was rejected", true, none⟩

theorem poolState_wellFormed (proxyIds : List String) :
    (poolState proxyIds).provider.table.WellFormed := ⟨nofun⟩

/-- The first operation's first attempt is rejected by the proxy. -/
def rejectedOnce (rest : Nat) : List CrawlerEnv :=
  List.replicate 10 calm ++ [raising proxyRejected] ++ List.replicate rest calm

end Sample

open Sample in
/-- A rotation to the second proxy: three primary operations on two leases. -/
theorem egress_consistent_rotation :
    ∃ p s, Steps (crawlerExec poolConfig) (EgressAllowed poolConfig) 0
        (applicationSession poolConfig contextId 2) (poolState ["proxy-1", "proxy-2"]) p s ∧
      p.ended = true ∧ s.heap.uses.map (·.clientLease.id) = [0, 1, 1] ∧
      (∀ u ∈ s.heap.uses, u.Consistent) ∧
      ∃ c, s.heap.clients[0]? = some c ∧ s.provider.table.isReleased c.lease = true := by
  have hrun : (stepsIf (crawlerExec poolConfig) 0 (egressCheck poolConfig) (rejectedOnce 33)
      (applicationSession poolConfig contextId 2) (poolState ["proxy-1", "proxy-2"])).map
        (fun r => (r.1.ended, r.2.heap.uses.map (·.clientLease.id), r.2.heap.clients.length)) =
      some (true, [0, 1, 1], 1) := by
    decide +kernel
  obtain ⟨⟨p, s⟩, hsteps, hfacts⟩ := Option.map_eq_some_iff.mp hrun
  simp only [Prod.mk.injEq] at hfacts
  obtain ⟨hended, huses, hclients⟩ := hfacts
  have h := Steps.of_stepsIf egressAllowed_of_check hsteps
  obtain ⟨hconsistent, hreleased⟩ := egress_consistent (poolState_wellFormed _) rfl h
  have hclient : s.heap.clients[0]? = some (s.heap.clients.get ⟨0, by omega⟩) :=
    List.getElem?_eq_getElem (by omega)
  exact ⟨p, s, h, hended, huses, hconsistent, _, hclient, hreleased hended _ hclient⟩

open Sample in
/-- With a single proxy the rotation fails: the next operation runs on the adapter
of the lease that was released. -/
theorem egress_inconsistent :
    ¬∀ (cfg : CrawlerConfig) (contextId : ContextId) (count i : Nat) (s₀ s : CrawlerState)
      (p : CrawlerProg Unit), s₀.provider.table.WellFormed → s₀.heap.uses = [] →
        Steps (crawlerExec cfg) (fun _ _ _ => True) i (applicationSession cfg contextId count)
          s₀ p s → ∀ u ∈ s.heap.uses, u.Consistent := by
  intro hclaim
  have hrun : (stepsIf (crawlerExec poolConfig) 0 (fun _ _ _ => true) (rejectedOnce 12)
      (applicationSession poolConfig contextId 2) (poolState ["proxy-1"])).map
        (fun r => r.2.heap.uses.map (·.released)) = some [false, true] := by
    decide +kernel
  obtain ⟨⟨p, s⟩, hsteps, hreleased⟩ := Option.map_eq_some_iff.mp hrun
  have h := Steps.of_stepsIf (fun _ _ _ _ => trivial) hsteps
  have hall := hclaim poolConfig contextId 2 0 _ s p (poolState_wellFormed _) rfl h
  obtain ⟨u, hu, hbad⟩ : ∃ u ∈ s.heap.uses, u.released = true := by
    have hmem : true ∈ s.heap.uses.map (·.released) := by
      rw [hreleased]
      simp
    simpa using hmem
  have hgood := (hall u hu).2
  rw [hbad] at hgood
  cases hgood

end Sahabino
