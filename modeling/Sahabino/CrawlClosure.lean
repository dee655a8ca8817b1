import Sahabino.CrawlLifecycle

/-!
# What crawls and workers do to the tasks

The programs of `CrawlService` under the discipline of `CrawlLifecycle`.
A worker follows its task through `_execute`: `n` attempts have begun and
the task is running, or is waiting for the next one; whatever is raised,
the task is open, and the handlers close it. A crawl follows the rows of
its run from `create_tasks` to `finish_run`.
-/

namespace Sahabino

open Conc

/-! ## The discipline -/

def CrawlRely (i : Nat) (s s' : CrawlerState) : Prop :=
  CrawlMoves i s.lifecycle s.executor s'.lifecycle s'.executor ∧
    s'.heap.lastPrimaryAttempt i = s.heap.lastPrimaryAttempt i

/-- The registry never lists an application twice. -/
def DistinctApplications (c : CrawlerCmd) (e : CrawlerEnv) : Prop :=
  c = .outside .listActiveApplications → (e.applications.map (·.applicationId)).Nodup

def crawlProto (cfg : CrawlerConfig) (base : Nat) : Proto CrawlerState CrawlerCmd CrawlerEnv where
  inv s := CrawlInv cfg base s.lifecycle s.executor
  rely := CrawlRely
  pre i c s := CrawlOwes cfg base i c s.lifecycle s.executor
  allow _ c e _ := DistinctApplications c e

/-- What the moves of the other threads do not change. -/
def CrawlStable (i : Nat) (I : CrawlerState → Prop) : Prop :=
  ∀ s s', CrawlRely i s s' → I s → I s'

section Rules

variable {cfg : CrawlerConfig} {base i k t t' m n : Nat} {s s' : CrawlerState}
  {P P' Q : CrawlTaskRow → Prop}

theorem offline_owes {c : CrawlerCmd} (hc : c.Offline) {l : Lifecycle} {x : Executor} :
    CrawlOwes cfg base i c l x := by
  cases c with
  | lifecycle c => exact hc.elim
  | executor c => exact hc.elim
  | _ => trivial

/-- The commands of a client, but for the one that sets the number of the
attempt. -/
def CrawlerCmd.Neutral : CrawlerCmd → Prop
  | client (.setLastPrimaryAttempt _) => False
  | lifecycle _ => False
  | executor _ => False
  | _ => True

theorem CrawlerCmd.Neutral.offline {c : CrawlerCmd} (h : c.Neutral) : c.Offline := by
  cases c with
  | lifecycle c => exact h.elim
  | executor c => exact h.elim
  | _ => trivial

theorem CrawlerCmd.Neutral.ne {c : CrawlerCmd} (h : c.Neutral) (n : Nat) :
    c ≠ .client (.setLastPrimaryAttempt n) := by
  rintro rfl
  exact h

/-- A neutral command is a move of its own thread as well. -/
theorem neutral_wp {c : CrawlerCmd} {I : CrawlerState → Prop} (hc : c.Neutral)
    (hI : CrawlStable i I) (hs : I s) :
    (crawlProto cfg base).wp (crawlerExec cfg) i (Prog.cmd c) (fun _ => I) (fun _ => I) s := by
  refine Proto.wp_cmd.mpr fun s' hr _ => ⟨offline_owes hc.offline, fun e r s'' _ hx _ => ?_⟩
  have hmove : CrawlRely i s' s'' :=
    ⟨offline_moves hc.offline hx i, lastPrimaryAttempt_exec hx (Or.inr hc.ne)⟩
  have hs'' := hI s' s'' hmove (hI s s' hr hs)
  exact ⟨fun _ _ => hs'', fun _ _ => hs''⟩

/-- A neutral command in front. -/
theorem neutral_seq {α : Type} {c : CrawlerCmd} {f : c.Answer → CrawlerProg α}
    {I : CrawlerState → Prop} {R : α → CrawlerState → Prop} {X : PyError → CrawlerState → Prop}
    (hc : c.Neutral) (hI : CrawlStable i I) (hs : I s) (hX : ∀ {x s}, I s → X x s)
    (hf : ∀ {a s}, I s → (crawlProto cfg base).wp (crawlerExec cfg) i (f a) R X s) :
    (crawlProto cfg base).wp (crawlerExec cfg) i (Prog.cmd c >>= f) R X s :=
  Proto.wp_seq (Proto.wp_mono (fun _ _ h => hf h) (fun _ _ h => hX h) (neutral_wp hc hI hs))

/-! ## A worker and its two tasks -/

/-- Thread `i` has taken item `k` with the tasks `t` and `t'`, whose rows are in `P`
and `Q`; the last attempt of its call is number `m`. -/
structure Tending (i k t t' m : Nat) (P Q : CrawlTaskRow → Prop) (s : CrawlerState) : Prop where
  taken : s.executor.takenBy[k]? = some i
  item : ∃ item, s.executor.submitted[k]? = some item ∧
    ((item.details = t ∧ item.reviews = t') ∨ (item.details = t' ∧ item.reviews = t))
  future : s.executor.futures k = none
  last : s.heap.lastPrimaryAttempt i = m
  task : ∃ row, s.lifecycle.tasks[t]? = some row ∧ P row
  other : ∃ row, s.lifecycle.tasks[t']? = some row ∧ Q row

namespace Tending

theorem owns (h : Tending i k t t' m P Q s) : Owns i t s.executor := by
  obtain ⟨item, hitem, ⟨hd, -⟩ | ⟨-, hr⟩⟩ := h.item
  · exact ⟨k, item, h.taken, hitem, h.future, Or.inl hd.symm⟩
  · exact ⟨k, item, h.taken, hitem, h.future, Or.inr hr.symm⟩

theorem swap (h : Tending i k t t' m P Q s) : Tending i k t' t m Q P s := by
  obtain ⟨item, hitem, hboth⟩ := h.item
  exact ⟨h.taken, ⟨item, hitem, hboth.symm⟩, h.future, h.last, h.other, h.task⟩

theorem mono (h : Tending i k t t' m P Q s) (hP : ∀ {row}, P row → P' row) :
    Tending i k t t' m P' Q s := by
  obtain ⟨row, hrow, hp⟩ := h.task
  exact ⟨h.taken, h.item, h.future, h.last, ⟨row, hrow, hP hp⟩, h.other⟩

theorem ne (h : Tending i k t t' m P Q s) (hinv : CrawlInv cfg base s.lifecycle s.executor) :
    t' ≠ t := by
  obtain ⟨item, hitem, ⟨hd, hr⟩ | ⟨hd, hr⟩⟩ := h.item
  · rw [← hd, ← hr]
    exact (hinv.distinct hitem).symm
  · rw [← hd, ← hr]
    exact hinv.distinct hitem

theorem stable (i k t t' m : Nat) (P Q : CrawlTaskRow → Prop) :
    CrawlStable i (Tending i k t t' m P Q) := by
  rintro s s' ⟨hmoves, hlast⟩ h
  obtain ⟨item, hitem, hboth⟩ := h.item
  obtain ⟨row, hrow, hp⟩ := h.task
  obtain ⟨row', hrow', hq⟩ := h.other
  exact ⟨hmoves.taken.mpr h.taken, ⟨item, hmoves.submitted hitem, hboth⟩,
    (hmoves.own h.taken).trans h.future, hlast.trans h.last,
    ⟨row, (hmoves.held h.owns).trans hrow, hp⟩,
    ⟨row', (hmoves.held h.swap.owns).trans hrow', hq⟩⟩

/-- The row of the first task is written. -/
theorem written (h : Tending i k t t' m P Q s)
    (hinv : CrawlInv cfg base s.lifecycle s.executor) {row : CrawlTaskRow}
    (htasks : s'.lifecycle.tasks = s.lifecycle.tasks.set t row)
    (hexecutor : s'.executor = s.executor) (hheap : s'.heap = s.heap) (hp : P' row) :
    Tending i k t t' m P' Q s' := by
  obtain ⟨old, hold, -⟩ := h.task
  obtain ⟨row', hrow', hq⟩ := h.other
  have hlt : t < s.lifecycle.tasks.length := (List.getElem?_eq_some_iff.mp hold).1
  refine ⟨by rw [hexecutor]; exact h.taken, by rw [hexecutor]; exact h.item,
    by rw [hexecutor]; exact h.future, by rw [hheap]; exact h.last, ⟨row, ?_, hp⟩, row', ?_, hq⟩
  · rw [htasks]
    exact List.getElem?_set_self hlt
  · rw [htasks]
    exact (List.getElem?_set_ne (h.ne hinv).symm).trans hrow'

end Tending

/-- The same, whatever the last attempt. -/
def Tended (i k t t' : Nat) (P Q : CrawlTaskRow → Prop) (s : CrawlerState) : Prop :=
  ∃ m, Tending i k t t' m P Q s

theorem Tended.stable (i k t t' : Nat) (P Q : CrawlTaskRow → Prop) :
    CrawlStable i (Tended i k t t' P Q) :=
  fun s s' hr ⟨m, hs⟩ => ⟨m, Tending.stable i k t t' m P Q s s' hr hs⟩

theorem Tended.mono (h : Tended i k t t' P Q s) (hP : ∀ {row}, P row → P' row) :
    Tended i k t t' P' Q s :=
  h.imp fun _ hs => hs.mono hP

theorem Tended.swap (h : Tended i k t t' P Q s) : Tended i k t' t Q P s :=
  h.imp fun _ hs => hs.swap

/-- A transition of the first task that is not refused. -/
theorem transition_wp {c : LifecycleCmd} {J : CrawlerState → Prop}
    {X : PyError → CrawlerState → Prop} (hJ : CrawlStable i J)
    (htending : ∀ {s}, J s → Tending i k t t' m P Q s)
    (howes : ∀ {s}, J s → CrawlOwes cfg base i (.lifecycle c) s.lifecycle s.executor)
    (hexec : ∀ {l : Lifecycle} {row}, l.tasks[t]? = some row → P row → ∃ v l' row',
      c.exec i l = (.ok v, l') ∧ l'.tasks = l.tasks.set t row' ∧ P' row')
    (hs : J s) : (crawlProto cfg base).wp (crawlerExec cfg) i (onLifecycle c)
      (fun _ => Tending i k t t' m P' Q) X s := by
  refine Proto.wp_cmd.mpr fun s' hr hinv => ?_
  have hs' := hJ _ _ hr hs
  refine ⟨howes hs', fun e r s'' _ hx _ => ?_⟩
  obtain ⟨hlifecycle, hexecutor, hheap⟩ := lifecycle_exec hx
  obtain ⟨row, hrow, hp⟩ := (htending hs').task
  obtain ⟨v, l', row', heq, htasks, hp'⟩ := hexec hrow hp
  obtain ⟨rfl, rfl⟩ := Prod.mk.injEq .. |>.mp (heq.symm.trans hlifecycle)
  exact ⟨fun _ _ => (htending hs').written hinv htasks hexecutor hheap hp', nofun⟩

/-- `n` attempts were made, and another one may begin. -/
def Waiting (n : Nat) (row : CrawlTaskRow) : Prop :=
  (row.status = .pending ∨ row.status = .retrying) ∧ row.attemptCount = n

/-- The `n`th attempt is under way. -/
def Going (n : Nat) (row : CrawlTaskRow) : Prop :=
  row.status = .running ∧ row.attemptCount = n

def Closed (row : CrawlTaskRow) : Prop := row.status.terminal = true

def Anyhow (_ : CrawlTaskRow) : Prop := True

theorem Tended.anyhow (h : Tended i k t t' P Q s) : Tended i k t t' Anyhow Anyhow s :=
  ((h.mono fun _ => trivial).swap.mono fun _ => trivial).swap

open ApplicationCrawlCommand

theorem beginAttempt_wp {X : PyError → CrawlerState → Prop} (hn : n ≤ cfg.maxAttempts)
    (hs : Tending i k t t' m (Waiting n) Q s) :
    (crawlProto cfg base).wp (crawlerExec cfg) i ((hooks t).beforeAttempt (n + 1))
      (fun _ => Tending i k t t' m (Going (n + 1)) Q) X s := by
  refine transition_wp (Tending.stable i k t t' m (Waiting n) Q) id (fun {s} hs => ?_)
    (fun {l row} hrow hp => ?_) hs
  · obtain ⟨row, hrow, hstatus, hcount⟩ := hs.task
    exact ⟨hs.owns, row, hrow, hstatus, by rw [hcount], by rw [hcount]; exact hn⟩
  · exact ⟨(), _, _, Lifecycle.beginAttempt_ok (n + 1) hrow hp.1, rfl, rfl, by rw [hp.2]⟩

theorem markRetrying_wp {X : PyError → CrawlerState → Prop} {error : PyError}
    (hs : Tending i k t t' m (Going n) Q s) :
    (crawlProto cfg base).wp (crawlerExec cfg) i ((hooks t).beforeRetry error)
      (fun _ => Tending i k t t' m (Waiting n) Q) X s := by
  refine transition_wp (Tending.stable i k t t' m (Going n) Q) id (fun {s} hs => ?_)
    (fun {l row} hrow hp => ?_) hs
  · obtain ⟨row, hrow, hstatus, -⟩ := hs.task
    exact ⟨hs.owns, row, hrow, hstatus⟩
  · exact ⟨(), _, _, Lifecycle.markRetrying_ok hrow hp.1, rfl, Or.inr rfl, hp.2⟩

/-- The task has been published, and is running. -/
def Published (i k t t' : Nat) (Q : CrawlTaskRow → Prop) (s : CrawlerState) : Prop :=
  t ∈ s.lifecycle.published ∧ Tended i k t t' (fun row => row.status = .running) Q s

theorem markSucceeded_wp {X : PyError → CrawlerState → Prop} (hs : Published i k t t' Q s) :
    (crawlProto cfg base).wp (crawlerExec cfg) i (markSucceeded t)
      (fun _ => Tended i k t t' Closed Q) X s := by
  obtain ⟨hpublished, m, hs⟩ := hs
  have hJ : CrawlStable i fun s => t ∈ s.lifecycle.published ∧
      Tending i k t t' m (fun row => row.status = .running) Q s :=
    fun s s' hr h => ⟨hr.1.published h.1, Tending.stable _ _ _ _ _ _ _ s s' hr h.2⟩
  refine Proto.wp_mono (fun _ s h => ⟨m, h⟩) (fun _ _ h => h) (transition_wp hJ And.right
    (fun {s} hs => ?_) (fun {l row} hrow hp => ?_) ⟨hpublished, hs⟩)
  · obtain ⟨row, hrow, hstatus⟩ := hs.2.task
    exact ⟨hs.2.owns, hs.1, row, hrow, hstatus⟩
  · exact ⟨(), _, _, Lifecycle.markTaskSucceeded_ok hrow hp, rfl, rfl⟩

/-- Whatever the answer, the task is closed afterwards. -/
theorem markFailed_wp {error : PyError} (hs : Tended i k t t' P Q s) :
    (crawlProto cfg base).wp (crawlerExec cfg) i (markFailed t error)
      (fun _ => Tended i k t t' Closed Q) (fun _ => Tended i k t t' Closed Q) s := by
  obtain ⟨m, hs⟩ := hs
  refine Proto.wp_cmd.mpr fun s' hr hinv => ?_
  have hs' := Tending.stable _ _ _ _ _ _ _ s s' hr hs
  refine ⟨hs'.owns, fun e r s'' _ hx _ => ?_⟩
  obtain ⟨hlifecycle, hexecutor, hheap⟩ := lifecycle_exec hx
  have hclosed : Tending i k t t' m Closed Q s'' := by
    obtain ⟨row, hrow, -⟩ := hs'.task
    rcases Lifecycle.markTaskFailed_cases (errorCode error) hrow with ⟨-, heq⟩ | ⟨hclosed, heq⟩
    · obtain ⟨-, htasks⟩ := Prod.mk.injEq .. |>.mp (heq.symm.trans hlifecycle)
      have htask : (CrawlTaskRow.status { row with
          status := .failed, errorCode := some (errorCode error) }).terminal = true := rfl
      exact hs'.written hinv (by rw [← htasks]) hexecutor hheap htask
    · have hsame : s''.lifecycle = s'.lifecycle := (congrArg Prod.snd hlifecycle).symm.trans heq
      obtain ⟨row', hrow', hq⟩ := hs'.other
      refine ⟨by rw [hexecutor]; exact hs'.taken, by rw [hexecutor]; exact hs'.item,
        by rw [hexecutor]; exact hs'.future, by rw [hheap]; exact hs'.last, ⟨row, ?_, hclosed⟩,
        row', ?_, hq⟩
      · rw [hsame]
        exact hrow
      · rw [hsame]
        exact hrow'
  exact ⟨fun _ _ => ⟨m, hclosed⟩, fun _ _ => ⟨m, hclosed⟩⟩

theorem setLastPrimaryAttempt_wp {X : PyError → CrawlerState → Prop}
    (hs : Tending i k t t' m P Q s) : (crawlProto cfg base).wp (crawlerExec cfg) i
      (onClient (.setLastPrimaryAttempt n)) (fun _ => Tending i k t t' n P Q) X s := by
  refine Proto.wp_cmd.mpr fun s' hr _ => ⟨trivial, fun e r s'' _ hx _ => ?_⟩
  have hs' := Tending.stable _ _ _ _ _ _ _ s s' hr hs
  obtain ⟨rfl, rfl⟩ := Prod.mk.injEq .. |>.mp (Option.some.inj hx)
  exact ⟨fun _ _ => ⟨hs'.taken, hs'.item, hs'.future, if_pos rfl, hs'.task, hs'.other⟩, nofun⟩

theorem lastPrimaryAttempt_wp {X : PyError → CrawlerState → Prop}
    (hs : Tending i k t t' m P Q s) : (crawlProto cfg base).wp (crawlerExec cfg) i
      ApplicationPlayStoreClient.lastPrimaryAttempt
      (fun last s => last = m ∧ Tending i k t t' m P Q s) X s := by
  refine Proto.wp_cmd.mpr fun s' hr _ => ⟨trivial, fun e r s'' _ hx _ => ?_⟩
  have hs' := Tending.stable _ _ _ _ _ _ _ s s' hr hs
  obtain ⟨rfl, rfl⟩ := Prod.mk.injEq .. |>.mp (Option.some.inj hx)
  refine ⟨fun last hlast => ⟨?_, hs'⟩, nofun⟩
  obtain rfl := Except.ok.inj hlast
  exact hs'.last

/-- Only exceptions of others come out of a sleep. -/
theorem sleep_wp {I : CrawlerState → Prop} {seconds : Seconds} (hI : CrawlStable i I)
    (hs : I s) : (crawlProto cfg base).wp (crawlerExec cfg) i (outside (.sleep seconds))
      (fun _ => I) (fun x s => I s ∧ ∀ error, x ≠ .crawler error) s := by
  refine Proto.wp_cmd.mpr fun s' hr _ => ⟨trivial, fun e r s'' _ hx _ => ?_⟩
  have hs' := hI s s' hr hs
  obtain ⟨hslept, rfl⟩ := Prod.mk.injEq .. |>.mp (Option.some.inj hx)
  refine ⟨fun _ _ => hs', fun x hraised => ⟨hs', ?_⟩⟩
  rintro error rfl
  have hnone : e.slept = .error (.crawler error) := hslept.trans hraised
  unfold CrawlerEnv.slept at hnone
  split at hnone <;> cases hnone

theorem publish_wp (hs : Tended i k t t' (fun row => row.status = .running) Q s) :
    (crawlProto cfg base).wp (crawlerExec cfg) i (outside (.publish t))
      (fun _ => Published i k t t' Q)
      (fun _ => Tended i k t t' (fun row => row.status = .running) Q) s := by
  have hstable := Tended.stable i k t t' (fun row => row.status = .running) Q
  refine Proto.wp_cmd.mpr fun s' hr _ => ⟨trivial, fun e r s'' _ hx _ => ?_⟩
  have hmove : CrawlRely i s' s'' :=
    ⟨offline_moves (by trivial) hx i, lastPrimaryAttempt_exec hx (Or.inr nofun)⟩
  have hs'' := hstable s' s'' hmove (hstable s s' hr hs)
  refine ⟨fun _ hok => ⟨?_, hs''⟩, fun _ _ => hs''⟩
  obtain ⟨hexec, hstate⟩ := Prod.mk.injEq .. |>.mp (Option.some.inj hx)
  simp only at hexec hstate
  split at hexec
  · cases hexec.trans hok
  · rename_i hnone
    rw [hnone] at hstate
    rw [← hstate]
    exact List.mem_append_right _ (List.mem_singleton_self t)

/-! ## One operation -/

theorem CrawlerCmd.Idle.neutral {c : CrawlerCmd} (h : c.Idle) : c.Neutral := by
  cases c with
  | client c =>
      cases c with
      | setLastPrimaryAttempt n => exact h.elim
      | _ => trivial
  | breaker c => exact h.elim
  | egress c => trivial
  | outside c => trivial
  | lifecycle c => exact h.elim
  | executor c => exact h.elim

theorem crawl_steady {I : CrawlerState → Prop} (hI : CrawlStable i I) :
    Steady (crawlProto cfg base) cfg i I (fun _ _ => True) where
  idle hc hs := Proto.wp_mono (fun _ _ h => h) (fun _ _ h => ⟨h, trivial⟩)
    (neutral_wp hc.neutral hI hs)
  operation hs := neutral_wp (by trivial) hI hs
  crawler _ := trivial

open ApplicationPlayStoreClient

variable {client : Nat}

theorem startAttempt_wp {X : PyError → CrawlerState → Prop} (hn : n ≤ cfg.maxAttempts)
    (hs : Tending i k t t' m (Waiting n) Q s) :
    (crawlProto cfg base).wp (crawlerExec cfg) i (startAttempt (hooks t) (n + 1))
      (fun _ => Tending i k t t' (n + 1) (Going (n + 1)) Q) X s :=
  Proto.wp_seq (Proto.wp_mono (fun _ _ hs => beginAttempt_wp hn hs) (fun _ _ h => h)
    (setLastPrimaryAttempt_wp hs))

/-- How the attempts of a task end: within the last one, or in a sleep. -/
def AttemptsLeft (i k t t' : Nat) (Q : CrawlTaskRow → Prop) (n : Nat) (x : PyError)
    (s : CrawlerState) : Prop :=
  Tending i k t t' n (Going n) Q s ∨
    (Tending i k t t' n (Waiting n) Q s ∧ ∀ error, x ≠ .crawler error)

theorem crawl_attempts (hs : Tending i k t t' 0 (Waiting 0) Q s) :
    (crawlProto cfg base).wp (crawlerExec cfg) i
      (RetryPolicy.execute cfg (attempt cfg client (hooks t)) (hooks t).beforeRetry)
      (fun _ s => ∃ n ≤ cfg.maxAttempts, Tending i k t t' n (Going n) Q s)
      (fun x s => ∃ n ≤ cfg.maxAttempts, AttemptsLeft i k t t' Q n x s) s := by
  have hpos := cfg.maxAttempts_pos
  have hgoing := fun n => Tending.stable i k t t' n (Going n) Q
  have hoperation : ∀ {n s}, n < cfg.maxAttempts → Tending i k t t' n (Waiting n) Q s →
      (crawlProto cfg base).wp (crawlerExec cfg) i (attempt cfg client (hooks t) (n + 1))
        (fun _ => Tending i k t t' (n + 1) (Going (n + 1)) Q)
        (fun _ => Tending i k t t' (n + 1) (Going (n + 1)) Q) s := by
    intro n s hn hs
    exact Proto.wp_mono (fun _ _ h => h) (fun _ _ h => h.1)
      ((crawl_steady (hgoing (n + 1))).attempt_wp (startAttempt_wp hn.le hs))
  have hdelay : ∀ {n x s}, RetryPolicy.retries x = true → Tending i k t t' n (Going n) Q s →
      (crawlProto cfg base).wp (crawlerExec cfg) i (outside (.delayFor n x))
        (fun _ => Tending i k t t' n (Going n) Q) (AttemptsLeft i k t t' Q n) s := by
    intro n x s _ hs
    exact Proto.wp_mono (fun _ _ h => h) (fun _ _ h => Or.inl h)
      (neutral_wp (by trivial) (hgoing n) hs)
  have hpause : ∀ {n x s seconds}, n < cfg.maxAttempts → RetryPolicy.retries x = true →
      Tending i k t t' n (Going n) Q s → (crawlProto cfg base).wp (crawlerExec cfg) i
        (RetryPolicy.pause (hooks t).beforeRetry x seconds)
        (fun _ => Tending i k t t' n (Waiting n) Q) (AttemptsLeft i k t t' Q n) s := by
    intro n x s seconds _ _ hs
    refine Proto.wp_seq (Proto.wp_mono (fun _ s hs => ?_) (fun _ _ h => h) (markRetrying_wp hs))
    exact Proto.wp_mono (fun _ _ h => h) (fun _ _ h => Or.inr h)
      (sleep_wp (Tending.stable i k t t' n (Waiting n) Q) hs)
  exact RetryPolicy.attemptsFrom_wp hoperation hdelay hpause (fun h => Or.inl h) _ 0 (by omega) hs

/-- The task is running, on either way out of the secondary operation. -/
theorem crawl_fallback {error : PyError} {token : Option Nat} (hn : n ≤ cfg.maxAttempts)
    (hs : Tending i k t t' n (Going n) Q s) :
    (crawlProto cfg base).wp (crawlerExec cfg) i (fallback (hooks t) error token)
      (fun _ => Tended i k t t' (fun row => row.status = .running) Q)
      (fun _ => Tended i k t t' Anyhow Q) s := by
  refine Proto.wp_seq (Proto.wp_mono (fun _ s hs => ?_) (fun _ _ h => h) (markRetrying_wp hs))
  refine Proto.wp_seq (Proto.wp_mono (fun last s hs => ?_) (fun _ _ h => h)
    (lastPrimaryAttempt_wp hs))
  obtain ⟨rfl, hs⟩ := hs
  refine Proto.wp_seq (Proto.wp_mono (fun _ s hs => ?_) (fun _ _ h => h) (beginAttempt_wp hn hs))
  have hstable := Tending.stable i k t t' last (Going (last + 1)) Q
  have hany : ∀ {s}, Tending i k t t' last (Going (last + 1)) Q s →
      Tended i k t t' Anyhow Q s := fun h => ⟨last, h.mono fun _ => trivial⟩
  refine Proto.wp_seq (Proto.wp_outcome.mpr (Proto.wp_mono (fun _ s hs => ?_)
    (fun rawError s hs => ?_) (neutral_wp (by trivial) hstable hs)))
  · exact Proto.wp_mono (fun _ _ h => ⟨last, h.mono And.left⟩) (fun _ _ h => hany h)
      (neutral_wp (by trivial) hstable hs)
  · refine neutral_seq (by trivial) hstable hs hany fun {_ s} hs => ?_
    exact neutral_seq (by trivial) hstable hs hany fun {_ s} hs => hany hs

/-- `_execute`, once the token is there. -/
theorem crawl_admitted {token : Option Nat} (hs : Tended i k t t' (Waiting 0) Q s) :
    (crawlProto cfg base).wp (crawlerExec cfg) i (admitted cfg client (hooks t) token)
      (fun _ => Tended i k t t' (fun row => row.status = .running) Q)
      (fun _ => Tended i k t t' Anyhow Q) s := by
  obtain ⟨m, hs⟩ := hs
  refine Proto.wp_seq (Proto.wp_mono (fun _ s hs => ?_) (fun _ _ h => h)
    (setLastPrimaryAttempt_wp hs))
  refine Proto.wp_seq (Proto.wp_outcome.mpr (Proto.wp_mono (fun _ s hs => ?_) (fun x s hx => ?_)
    (crawl_attempts hs)))
  · obtain ⟨n, -, hs⟩ := hs
    have hstable := Tending.stable i k t t' n (Going n) Q
    have hany : ∀ {s}, Tending i k t t' n (Going n) Q s → Tended i k t t' Anyhow Q s :=
      fun h => ⟨n, h.mono fun _ => trivial⟩
    refine neutral_seq (by trivial) hstable hs hany fun {c s} hs => ?_
    refine neutral_seq (by trivial) hstable hs hany fun {_ s} hs => ?_
    exact Proto.wp_mono (fun _ _ h => ⟨n, h.mono And.left⟩) (fun _ _ h => hany h)
      (neutral_wp (by trivial) hstable hs)
  · obtain ⟨n, hn, hleft⟩ := hx
    cases x with
    | crawler error =>
        -- a sleep raises no such exception, so the last attempt is under way
        have hs := hleft.resolve_right fun h => h.2 error rfl
        have hstable := Tending.stable i k t t' n (Going n) Q
        have hany : ∀ {s}, Tending i k t t' n (Going n) Q s → Tended i k t t' Anyhow Q s :=
          fun h => ⟨n, h.mono fun _ => trivial⟩
        refine neutral_seq (by trivial) hstable hs hany fun {c s} hs => ?_
        refine neutral_seq (by trivial) hstable hs hany fun {_ s} hs => ?_
        split
        · exact hany hs
        · exact crawl_fallback hn hs
    | other name message =>
        rcases hleft with hs | ⟨hs, -⟩
        · exact ⟨n, hs.mono fun _ => trivial⟩
        · exact ⟨n, hs.mono fun _ => trivial⟩

/-- An operation that returns leaves its task running. -/
theorem crawl_execute (hs : Tended i k t t' (Waiting 0) Q s) :
    (crawlProto cfg base).wp (crawlerExec cfg) i
      (ApplicationPlayStoreClient.execute cfg client (hooks t))
      (fun _ => Tended i k t t' (fun row => row.status = .running) Q)
      (fun _ => Tended i k t t' Anyhow Q) s := by
  have hstable := Tended.stable i k t t' (Waiting 0) Q
  have hany : ∀ {s}, Tended i k t t' (Waiting 0) Q s → Tended i k t t' Anyhow Q s :=
    fun h => h.mono fun _ => trivial
  refine Proto.wp_seq (Proto.wp_mono (fun _ s hs => ?_) (fun _ _ h => hany h.1)
    ((crawl_steady hstable).refreshEgressIfNeeded_wp hs))
  exact neutral_seq (by trivial) hstable hs hany fun {token s} hs => crawl_admitted hs

/-! ## One application -/

theorem markFailedOr_wp {message : String} {error : PyError} (hs : Tended i k t t' P Q s) :
    (crawlProto cfg base).wp (crawlerExec cfg) i (markFailedOr message t error)
      (fun _ => Tended i k t t' Closed Q) (fun _ => Tended i k t t' Closed Q) s :=
  Proto.wp_tryCatch.mpr (Proto.wp_mono (fun _ _ h => h) (fun _ _ h => h) (markFailed_wp hs))

/-- A task that was run is closed. -/
theorem runTask_wp (hs : Tended i k t t' (Waiting 0) Q s) :
    (crawlProto cfg base).wp (crawlerExec cfg) i (runTask cfg client t)
      (fun _ => Tended i k t t' Closed Q) (fun _ => Tended i k t t' Closed Q) s := by
  have hfetch : (crawlProto cfg base).wp (crawlerExec cfg) i
      (runTask.fetchAndPublish cfg client t) (fun _ => Published i k t t' Q)
      (fun _ => Tended i k t t' Anyhow Q) s := by
    refine Proto.wp_seq (Proto.wp_mono (fun _ s hs => ?_) (fun _ _ h => h) (crawl_execute hs))
    exact Proto.wp_mono (fun _ _ h => h) (fun _ _ h => h.mono fun _ => trivial) (publish_wp hs)
  refine Proto.wp_seq (Proto.wp_outcome.mpr (Proto.wp_mono (fun _ s hs => ?_) (fun x s hs => ?_)
    hfetch))
  · exact markSucceeded_wp hs
  · cases x with
    | crawler error => exact markFailedOr_wp hs
    | other name message =>
        exact Proto.wp_seq (Proto.wp_mono (fun _ _ h => h) (fun _ _ h => h) (markFailedOr_wp hs))

/-- The first task is closed, whatever came before. -/
theorem failOpenTask_wp {error : PyError} {X : PyError → CrawlerState → Prop}
    (hs : Tended i k t t' P Q s) :
    (crawlProto cfg base).wp (crawlerExec cfg) i (failOpenTask t error)
      (fun _ => Tended i k t t' Closed Q) X s :=
  Proto.wp_seq (Proto.wp_outcome.mpr (Proto.wp_mono (fun _ _ h => h) (fun _ _ h => h)
    (markFailed_wp hs)))

theorem failOpenTasks_wp {item : WorkItem} {error : PyError}
    {X : PyError → CrawlerState → Prop} (hs : Tended i k item.details item.reviews P Q s) :
    (crawlProto cfg base).wp (crawlerExec cfg) i (failOpenTasks item error)
      (fun _ => Tended i k item.details item.reviews Closed Closed) X s := by
  refine Proto.wp_seq (Proto.wp_mono (fun _ s hs => ?_) (fun _ _ h => h) (failOpenTask_wp hs))
  refine Proto.wp_seq (Proto.wp_mono (fun _ s hs => ?_) (fun _ _ h => h)
    (failOpenTask_wp hs.swap))
  exact hs.swap

theorem close_wp {I : CrawlerState → Prop} (hI : CrawlStable i I) (hs : I s) :
    (crawlProto cfg base).wp (crawlerExec cfg) i (close client) (fun _ => I) (fun _ => I) s := by
  have hrelease : ∀ {s}, I s → (crawlProto cfg base).wp (crawlerExec cfg) i
      (close.release client) (fun _ => I) (fun _ => I) s := fun hs =>
    neutral_seq (by trivial) hI hs id fun {c s} hs => neutral_wp (by trivial) hI hs
  refine neutral_seq (by trivial) hI hs id fun {c s} hs => ?_
  refine neutral_seq (by trivial) hI hs id fun {_ s} hs => Proto.wp_ensure.mpr ?_
  split
  · exact Proto.wp_mono (fun _ _ h => hrelease h) (fun _ _ h => hrelease h)
      (neutral_wp (by trivial) hI hs)
  · exact hrelease hs

theorem openApplication_wp {contextId : ContextId} {I : CrawlerState → Prop}
    (hI : CrawlStable i I) (hs : I s) : (crawlProto cfg base).wp (crawlerExec cfg) i
      (openApplication contextId) (fun _ => I) (fun _ => I) s :=
  neutral_seq (by trivial) hI hs id fun {lease s} hs => neutral_wp (by trivial) hI hs

/-- Either both tasks are closed, or the handlers around still have them. -/
theorem runTasks_wp {item : WorkItem}
    (hs : Tended i k item.details item.reviews (Waiting 0) (Waiting 0) s) :
    (crawlProto cfg base).wp (crawlerExec cfg) i (runTasks cfg item)
      (fun _ => Tended i k item.details item.reviews Closed Closed)
      (fun _ => Tended i k item.details item.reviews Anyhow Anyhow) s := by
  have hstable := Tended.stable i k item.details item.reviews
  refine Proto.wp_seq (Proto.wp_mono (fun client s hs => ?_) (fun _ _ h => h.anyhow)
    (openApplication_wp (hstable (Waiting 0) (Waiting 0)) hs))
  refine Proto.wp_ensure.mpr (Proto.wp_seq (Proto.wp_mono (fun _ s hs => ?_) (fun x s hs => ?_)
    (runTask_wp hs)))
  · refine Proto.wp_mono (fun _ s hs => ?_) (fun x s hs => ?_) (runTask_wp hs.swap)
    · exact Proto.wp_mono (fun _ _ h => h) (fun _ _ h => h.anyhow)
        (close_wp (hstable Closed Closed) hs.swap)
    · exact Proto.wp_mono (fun _ _ h => h.anyhow) (fun _ _ h => h.anyhow)
        (close_wp (hstable Closed Closed) hs.swap)
  · exact Proto.wp_mono (fun _ _ h => h.anyhow) (fun _ _ h => h.anyhow)
      (close_wp (hstable Closed (Waiting 0)) hs)

/-- However the command ends, both tasks are closed. -/
theorem command_wp {item : WorkItem}
    (hs : Tended i k item.details item.reviews (Waiting 0) (Waiting 0) s) :
    (crawlProto cfg base).wp (crawlerExec cfg) i (ApplicationCrawlCommand.execute cfg item)
      (fun _ => Tended i k item.details item.reviews Closed Closed)
      (fun _ => Tended i k item.details item.reviews Closed Closed) s := by
  refine Proto.wp_seq (Proto.wp_outcome.mpr (Proto.wp_mono (fun _ _ h => h) (fun x s hs => ?_)
    (runTasks_wp hs)))
  cases x with
  | crawler error =>
      refine Proto.wp_seq (Proto.wp_mono (fun errors s hs => ?_) (fun _ _ h => h)
        (failOpenTasks_wp hs))
      split
      · exact hs
      · exact hs
  | other name message =>
      refine Proto.wp_seq (Proto.wp_mono (fun errors s hs => ?_) (fun _ _ h => h)
        (failOpenTasks_wp hs))
      split
      · exact hs
      · exact hs

/-! ## A worker -/

/-- The tasks of the next item have not been touched. -/
theorem take_wp {X : PyError → CrawlerState → Prop} :
    (crawlProto cfg base).wp (crawlerExec cfg) i CrawlerService.work.take
      (fun (k, item) => Tended i k item.details item.reviews (Waiting 0) (Waiting 0)) X s := by
  refine Proto.wp_cmd.mpr fun s' _ hinv => ⟨trivial, fun e r s'' _ hx _ => ?_⟩
  obtain ⟨hexec, hlifecycle, -⟩ := executor_exec hx
  obtain ⟨item, hitem, heq⟩ := Option.map_eq_some_iff.mp hexec
  obtain ⟨rfl, hexecutor⟩ := Prod.mk.injEq .. |>.mp heq
  have hwaiting : ∀ t, item.Has t → ∃ row, s''.lifecycle.tasks[t]? = some row ∧
      Waiting 0 row := by
    intro t hhas
    obtain ⟨hb, row, hrow, -⟩ := hinv.item hitem hhas
    obtain ⟨hpending, hcount⟩ := hinv.idle hb hrow fun k item' hk hitem' hhas' => by
      have heq := hinv.disjoint hitem' hitem hhas' hhas
      omega
    exact ⟨row, by rw [hlifecycle]; exact hrow, Or.inl hpending, hcount⟩
  refine ⟨fun a ha => ?_, nofun⟩
  obtain rfl := Except.ok.inj ha
  refine ⟨_, ?_, ⟨item, ?_, Or.inl ⟨rfl, rfl⟩⟩, ?_, rfl, hwaiting _ (Or.inl rfl),
    hwaiting _ (Or.inr rfl)⟩
  · rw [← hexecutor]
    exact List.getElem?_concat_length
  · rw [← hexecutor]
    exact hitem
  · rw [← hexecutor]
    cases hfuture : s'.executor.futures s'.executor.takenBy.length with
    | none => rfl
    | some r =>
        have hlt := hinv.taken (k := s'.executor.takenBy.length) (by rw [hfuture]; rfl)
        omega

theorem work_wp : (crawlProto cfg base).wp (crawlerExec cfg) i (CrawlerService.work cfg)
    (fun _ _ => True) (fun _ _ => True) s := by
  refine Proto.wp_seq (Proto.wp_mono (fun (k, item) s hs => ?_) (fun _ _ h => h) take_wp)
  have hset : ∀ {result : Except PyError Unit} {s},
      Tended i k item.details item.reviews Closed Closed s →
      (crawlProto cfg base).wp (crawlerExec cfg) i (onExecutor (.setResult k result))
        (fun _ _ => True) (fun _ _ => True) s := by
    intro result s hs
    refine Proto.wp_cmd.mpr fun s' hr _ => ⟨?_, fun _ _ _ _ _ _ =>
      ⟨fun _ _ => trivial, fun _ _ => trivial⟩⟩
    obtain ⟨m, hs'⟩ := Tended.stable i k item.details item.reviews Closed Closed s s' hr hs
    obtain ⟨item', hitem, hboth⟩ := hs'.item
    obtain ⟨row, hrow, hclosed⟩ := hs'.task
    obtain ⟨row', hrow', hclosed'⟩ := hs'.other
    refine ⟨item', hs'.taken, hitem, hs'.future, fun {t found} hhas hfound => ?_⟩
    have hcases : t = item.details ∨ t = item.reviews := by
      rcases hboth with ⟨hd, hr⟩ | ⟨hd, hr⟩
      · exact hhas.imp (fun h => h.trans hd) fun h => h.trans hr
      · exact (hhas.imp (fun h => h.trans hd) fun h => h.trans hr).symm
    rcases hcases with rfl | rfl
    · obtain rfl := Option.some.inj (hrow.symm.trans hfound)
      exact hclosed
    · obtain rfl := Option.some.inj (hrow'.symm.trans hfound)
      exact hclosed'
  exact Proto.wp_seq (Proto.wp_outcome.mpr (Proto.wp_mono (fun _ _ h => hset h)
    (fun _ _ h => hset h) (command_wp hs)))

end Rules

end Sahabino
