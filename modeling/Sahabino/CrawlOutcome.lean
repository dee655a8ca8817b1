import Sahabino.CrawlClosure

/-!
# How a crawl ends

A crawl follows the rows of its run: none while the run is new, a block of
two for each application after `create_tasks`, of which more and more are
in the executor's queue. When the executor lets the crawl go, the futures
of all of them are set, so the rows are closed and nobody writes them any
more; `finish_run` counts what will stay.
-/

namespace Sahabino

open Conc

/-! ## The run of a thread -/

/-- Run `r` is the one run that thread `i` created. -/
def OwnRun (i r : Nat) (run : CrawlRunRow) (l : Lifecycle) : Prop :=
  run.startedBy = some i ∧ ∀ {r' : Nat} {run' : CrawlRunRow}, run'.startedBy = some i →
    (l.runs[r']? = some run' ↔ r' = r ∧ run' = run)

namespace OwnRun

variable {i r : Nat} {run : CrawlRunRow} {l l' : Lifecycle} {x x' : Executor}

theorem row (h : OwnRun i r run l) : l.runs[r]? = some run := (h.2 h.1).mpr ⟨rfl, rfl⟩

theorem started (h : OwnRun i r run l) : Started i r l := ⟨run, h.row, h.1⟩

theorem moves (h : OwnRun i r run l) (hmoves : CrawlMoves i l x l' x') : OwnRun i r run l' :=
  ⟨h.1, fun hi => (hmoves.runs hi).trans (h.2 hi)⟩

theorem created {status : CrawlRunStatus} {tasksCreated : Bool}
    (h : ∀ run ∈ l.runs, run.startedBy ≠ some i)
    (hl : l'.runs = l.runs ++ [⟨status, some i, tasksCreated⟩]) :
    OwnRun i l.runs.length ⟨status, some i, tasksCreated⟩ l' := by
  refine ⟨rfl, fun {r' run'} hi => ?_⟩
  rw [hl, getElem?_concat_iff]
  exact or_iff_right fun hold => h run' (List.mem_of_getElem? hold) hi

theorem modify (h : OwnRun i r run l) (f : CrawlRunRow → CrawlRunRow)
    (hf : ∀ run, (f run).startedBy = run.startedBy) (hl : l'.runs = l.runs.modify r f) :
    OwnRun i r (f run) l' := by
  refine ⟨(hf run).trans h.1, fun {r' run'} hi => ?_⟩
  rw [hl]
  by_cases hr : r = r'
  · subst hr
    rw [List.getElem?_modify_eq, h.row]
    exact ⟨fun heq => ⟨rfl, (Option.some.inj heq).symm⟩, fun heq => by rw [heq.2]; rfl⟩
  · rw [List.getElem?_modify_ne _ _ hr, h.2 hi]
    exact iff_of_false (fun heq => hr heq.1.symm) fun heq => hr heq.1.symm

end OwnRun

/-! ## The ids of new tasks -/

/-- What `create_tasks` answers for rows from number `b` on. -/
def newTaskIds (run b : Nat) (applications : List ApplicationRef) : TaskIds :=
  ((Lifecycle.newTasks run applications).zipIdx b).map fun (row, id) =>
    ((row.applicationId, row.taskType), id)

namespace TaskIds

variable {ids : TaskIds} {key other : Uuid × TaskType} {n : Nat}

theorem get_cons_ne (h : other ≠ key) : TaskIds.get ((other, n) :: ids) key = ids.get key := by
  unfold TaskIds.get
  rw [List.filter_cons_of_neg (by simpa using h)]

theorem get_cons_self (h : ids.filter (fun entry => entry.1 = key) = []) :
    TaskIds.get ((key, n) :: ids) key = some n := by
  unfold TaskIds.get
  rw [List.filter_cons_of_pos (by simp), h]
  rfl

end TaskIds

section NewTasks

variable {run b : Nat} {a : ApplicationRef} {applications : List ApplicationRef}

theorem newTaskIds_cons : newTaskIds run b (a :: applications) =
    ((a.applicationId, .appDetails), b) :: ((a.applicationId, .reviews), b + 1) ::
      newTaskIds run (b + 2) applications := by
  simp [newTaskIds, Lifecycle.newTasks, Lifecycle.taskTypes]

theorem length_newTasks :
    (Lifecycle.newTasks run applications).length = 2 * applications.length := by
  induction applications with
  | nil => rfl
  | cons a applications ih =>
      simp only [Lifecycle.newTasks, Lifecycle.taskTypes, List.flatMap_cons, List.length_append,
        List.length_map, List.length_cons, List.length_nil] at ih ⊢
      omega

theorem newTaskIds_absent {key : Uuid × TaskType}
    (h : key.1 ∉ applications.map (·.applicationId)) :
    (newTaskIds run b applications).filter (fun entry => entry.1 = key) = [] := by
  induction applications generalizing b with
  | nil => rfl
  | cons a applications ih =>
      rw [List.map_cons, List.mem_cons, not_or] at h
      have hne : ∀ type, (a.applicationId, type) ≠ key :=
        fun type heq => h.1 (congrArg Prod.fst heq).symm
      rw [newTaskIds_cons, List.filter_cons_of_neg (by simpa using hne .appDetails),
        List.filter_cons_of_neg (by simpa using hne .reviews)]
      exact ih h.2

/-- The tasks of an application that is listed once. -/
theorem newTaskIds_get (hdistinct : (applications.map (·.applicationId)).Nodup) {j : Nat}
    (hj : applications[j]? = some a) :
    (newTaskIds run b applications).get (a.applicationId, .appDetails) = some (b + 2 * j) ∧
      (newTaskIds run b applications).get (a.applicationId, .reviews) = some (b + 2 * j + 1) := by
  induction applications generalizing b j with
  | nil => cases hj
  | cons c applications ih =>
      rw [List.map_cons, List.nodup_cons] at hdistinct
      rw [newTaskIds_cons]
      cases j with
      | zero =>
          obtain rfl := Option.some.inj hj
          have habsent : ∀ type, (newTaskIds run (b + 2) applications).filter
              (fun entry => entry.1 = (c.applicationId, type)) = [] :=
            fun type => newTaskIds_absent hdistinct.1
          refine ⟨TaskIds.get_cons_self ?_, ?_⟩
          · rw [List.filter_cons_of_neg (by simp)]
            exact habsent .appDetails
          · rw [TaskIds.get_cons_ne (by simp)]
            exact TaskIds.get_cons_self (habsent .reviews)
      | succ j =>
          have hne : ∀ type type' : TaskType,
              (c.applicationId, type) ≠ (a.applicationId, type') := by
            intro type type' heq
            have hmem : a ∈ applications := List.mem_of_getElem? hj
            have hid : c.applicationId = a.applicationId := congrArg Prod.fst heq
            exact hdistinct.1 (hid ▸ List.mem_map_of_mem hmem)
          obtain ⟨hdetails, hreviews⟩ := ih (b := b + 2) hdistinct.2 hj
          rw [TaskIds.get_cons_ne (hne _ _), TaskIds.get_cons_ne (hne _ _),
            TaskIds.get_cons_ne (hne _ _), TaskIds.get_cons_ne (hne _ _), hdetails, hreviews]
          exact ⟨by congr 1; omega, by congr 1; omega⟩

end NewTasks

/-! ## The rows of a run -/

/-- The tasks of run `r` are the `2 * total` rows from `b` on, and those of the first
`n` applications are in the queue. -/
structure Submitting (i r b n total : Nat) (run : CrawlRunRow) (s : CrawlerState) : Prop where
  own : OwnRun i r run s.lifecycle
  rows : ∀ {t : Nat} {row}, s.lifecycle.tasks[t]? = some row → row.crawlRunId = r →
    b ≤ t ∧ t < b + 2 * total
  there : ∀ {t : Nat}, b ≤ t → t < b + 2 * total → ∃ row, s.lifecycle.tasks[t]? = some row ∧
    row.crawlRunId = r
  items : ∀ {k t : Nat} {item}, s.executor.submitted[k]? = some item → item.run = r →
    item.Has t → t < b + 2 * n
  sent : ∀ {t : Nat}, b ≤ t → t < b + 2 * n → ∃ (k : Nat) (item : WorkItem),
    s.executor.submitted[k]? = some item ∧ item.run = r ∧ item.Has t

/-- The rows of run `r` are closed. -/
structure RunClosed (i r : Nat) (run : CrawlRunRow) (s : CrawlerState) : Prop where
  own : OwnRun i r run s.lifecycle
  closed : ∀ row ∈ s.lifecycle.tasks, row.crawlRunId = r → row.status.terminal = true

section Phases

variable {cfg : CrawlerConfig} {base i r b n total : Nat} {run : CrawlRunRow}
  {s s' : CrawlerState} {l l' : Lifecycle} {x x' : Executor}

/-- A row of one's own run was there before, and belongs to the run. -/
theorem CrawlMoves.oldRow (h : CrawlMoves i l x l' x') (hr : Started i r l) {t : Nat}
    {row' : CrawlTaskRow} (ht : l'.tasks[t]? = some row') (hrun : row'.crawlRunId = r) :
    ∃ row, l.tasks[t]? = some row ∧ row.crawlRunId = r ∧
      (row.status.terminal = true → row' = row) := by
  have hlt := h.newTask ht (hrun ▸ hr)
  obtain ⟨row'', ht'', hkey, hsame⟩ := h.task (List.getElem?_eq_getElem hlt)
  obtain rfl := Option.some.inj (ht.symm.trans ht'')
  exact ⟨l.tasks[t], List.getElem?_eq_getElem hlt, (congrArg Prod.fst hkey).symm.trans hrun, hsame⟩

theorem Submitting.stable (i r b n total : Nat) (run : CrawlRunRow) :
    CrawlStable i (Submitting i r b n total run) := by
  rintro s s' ⟨hmoves, -⟩ h
  have hstarted := h.own.started
  refine ⟨h.own.moves hmoves, fun {t row'} ht hrun => ?_, fun {t} hb ht => ?_,
    fun {k t item} hitem hrun hhas => ?_, fun {t} hb ht => ?_⟩
  · obtain ⟨row, hrow, hrun', -⟩ := hmoves.oldRow hstarted ht hrun
    exact h.rows hrow hrun'
  · obtain ⟨row, hrow, hrun⟩ := h.there hb ht
    obtain ⟨row', hrow', hkey, -⟩ := hmoves.task hrow
    exact ⟨row', hrow', (congrArg Prod.fst hkey).trans hrun⟩
  · exact h.items (hmoves.mine hitem (hrun ▸ hstarted)) hrun hhas
  · obtain ⟨k, item, hitem, hrun, hhas⟩ := h.sent hb ht
    exact ⟨k, item, hmoves.submitted hitem, hrun, hhas⟩

/-- Closed rows of one's own run are the same rows for good. -/
theorem CrawlMoves.settled (h : CrawlMoves i l x l' x') (hr : Started i r l)
    (hclosed : ∀ row ∈ l.tasks, row.crawlRunId = r → row.status.terminal = true)
    {row : CrawlTaskRow} (hrun : row.crawlRunId = r) : row ∈ l'.tasks ↔ row ∈ l.tasks := by
  constructor
  · intro hmem
    obtain ⟨t, ht⟩ := List.getElem?_of_mem hmem
    obtain ⟨old, hold, hrun', hsame⟩ := h.oldRow hr ht hrun
    have hmem' := List.mem_of_getElem? hold
    rw [hsame (hclosed old hmem' hrun')]
    exact hmem'
  · intro hmem
    obtain ⟨t, ht⟩ := List.getElem?_of_mem hmem
    obtain ⟨row', hrow', -, hsame⟩ := h.task ht
    obtain rfl := hsame (hclosed row hmem hrun)
    exact List.mem_of_getElem? hrow'

theorem RunClosed.stable (i r : Nat) (run : CrawlRunRow) : CrawlStable i (RunClosed i r run) := by
  rintro s s' ⟨hmoves, -⟩ h
  refine ⟨h.own.moves hmoves, fun row hmem hrun => ?_⟩
  exact h.closed row ((hmoves.settled h.own.started h.closed hrun).mp hmem) hrun

/-! ## The steps of a crawl -/

open CrawlerService

theorem createRun_wp {X : PyError → CrawlerState → Prop}
    (hs : ∀ run ∈ s.lifecycle.runs, run.startedBy ≠ some i) :
    (crawlProto cfg base).wp (crawlerExec cfg) i createRun
      (fun r => Submitting i r 0 0 0 ⟨.running, some i, false⟩) X s := by
  refine Proto.wp_cmd.mpr fun s' hr hinv => ⟨trivial, fun e v s'' _ hx _ => ?_⟩
  obtain ⟨hlifecycle, hexecutor, -⟩ := lifecycle_exec hx
  obtain ⟨rfl, hl⟩ := Prod.mk.injEq .. |>.mp hlifecycle
  refine ⟨fun r hv => ?_, nofun⟩
  obtain rfl := Except.ok.inj hv
  have hnone : ∀ run ∈ s'.lifecycle.runs, run.startedBy ≠ some i := by
    intro run hmem hi
    obtain ⟨r, hrow⟩ := List.getElem?_of_mem hmem
    exact hs run (List.mem_of_getElem? ((hr.1.runs hi).mp hrow)) hi
  have htasks : s''.lifecycle.tasks = s'.lifecycle.tasks := by rw [← hl]
  -- the rows that are there belong to the runs that were
  have hold : ∀ {t : Nat} {row}, s'.lifecycle.tasks[t]? = some row →
      row.crawlRunId ≠ s'.lifecycle.runs.length := fun ht => (hinv.run ht).ne
  refine ⟨OwnRun.created hnone (by rw [← hl]), fun {t row} ht hrun => ?_, fun {t} _ ht => ?_,
    fun {k t item} hitem hrun hhas => ?_, fun {t} _ ht => ?_⟩
  · rw [htasks] at ht
    exact absurd hrun (hold ht)
  · omega
  · rw [hexecutor] at hitem
    obtain ⟨-, row, hrow, hrun'⟩ := hinv.item hitem hhas
    exact absurd (hrun'.trans hrun) (hold hrow)
  · omega

theorem createTasks_wp {X : PyError → CrawlerState → Prop} {applications : List ApplicationRef}
    (hs : Submitting i r 0 0 0 run s) :
    (crawlProto cfg base).wp (crawlerExec cfg) i (createTasks r applications)
      (fun ids s => ∃ b, base ≤ b ∧ ids = newTaskIds r b applications ∧
        Submitting i r b 0 applications.length { run with tasksCreated := true } s) X s := by
  refine Proto.wp_cmd.mpr fun s' hr hinv => ?_
  have hs' := Submitting.stable _ _ _ _ _ _ s s' hr hs
  refine ⟨hs'.own.started, fun e v s'' _ hx _ => ?_⟩
  obtain ⟨hlifecycle, hexecutor, -⟩ := lifecycle_exec hx
  obtain ⟨rfl, hl⟩ := Prod.mk.injEq .. |>.mp hlifecycle
  refine ⟨fun ids hids => ?_, nofun⟩
  obtain rfl := Except.ok.inj hids
  have htasks : s''.lifecycle.tasks =
      s'.lifecycle.tasks ++ Lifecycle.newTasks r applications := by rw [← hl]
  have hnone : ∀ {t : Nat} {row}, s'.lifecycle.tasks[t]? = some row → row.crawlRunId ≠ r := by
    intro t row ht hrun
    obtain ⟨-, hlt⟩ := hs'.rows ht hrun
    omega
  refine ⟨s'.lifecycle.tasks.length, hinv.created, rfl, ?_, fun {t row} ht hrun => ?_,
    fun {t} hb ht => ?_, fun {k t item} hitem hrun hhas => ?_, fun {t} _ ht => ?_⟩
  · exact hs'.own.modify (fun run => { run with tasksCreated := true }) (fun _ => rfl)
      (by rw [← hl])
  · rw [htasks] at ht
    rcases Nat.lt_or_ge t s'.lifecycle.tasks.length with hlt | hge
    · rw [List.getElem?_append_left hlt] at ht
      exact absurd hrun (hnone ht)
    · have hlen := (List.getElem?_eq_some_iff.mp ht).1
      rw [List.length_append, length_newTasks] at hlen
      exact ⟨hge, hlen⟩
  · have hlen : t - s'.lifecycle.tasks.length < (Lifecycle.newTasks r applications).length := by
      rw [length_newTasks]
      omega
    refine ⟨(Lifecycle.newTasks r applications)[t - s'.lifecycle.tasks.length], ?_,
      (Lifecycle.newTasks_row (List.getElem_mem hlen)).1⟩
    rw [htasks, List.getElem?_append_right hb]
    exact List.getElem?_eq_getElem hlen
  · rw [hexecutor] at hitem
    obtain ⟨-, row, hrow, hrun'⟩ := hinv.item hitem hhas
    exact absurd (hrun'.trans hrun) (hnone hrow)
  · omega

/-- The next application goes into the queue. -/
theorem submit_wp {X : PyError → CrawlerState → Prop} {application : ApplicationRef}
    (hb : base ≤ b) (hn : n < total) (hs : Submitting i r b n total run s) :
    (crawlProto cfg base).wp (crawlerExec cfg) i
      (submitAll.submit ⟨r, application, b + 2 * n, b + 2 * n + 1⟩)
      (fun _ => Submitting i r b (n + 1) total run) X s := by
  have hhas : ∀ {t}, WorkItem.Has ⟨r, application, b + 2 * n, b + 2 * n + 1⟩ t →
      b + 2 * n ≤ t ∧ t < b + 2 * (n + 1) := by
    intro t ht
    have hcases : t = b + 2 * n ∨ t = b + 2 * n + 1 := ht
    omega
  refine Proto.wp_cmd.mpr fun s' hr hinv => ?_
  have hs' := Submitting.stable _ _ _ _ _ _ s s' hr hs
  refine ⟨⟨hs'.own.started, by simp, fun {t} ht => ?_⟩, fun e v s'' _ hx _ => ?_⟩
  · obtain ⟨hge, hlt⟩ := hhas ht
    obtain ⟨row, hrow, hrun⟩ := hs'.there (by omega) (show t < b + 2 * total by omega)
    refine ⟨⟨by omega, row, hrow, hrun⟩, fun k item hitem hhas' => ?_⟩
    -- another item with this task would be one of this run
    obtain ⟨-, row', hrow', hrun'⟩ := hinv.item hitem hhas'
    obtain rfl := Option.some.inj (hrow.symm.trans hrow')
    have hearlier := hs'.items hitem (hrun'.symm.trans hrun) hhas'
    omega
  · obtain ⟨hexec, hlifecycle, -⟩ := executor_exec hx
    obtain ⟨rfl, hexecutor⟩ := Prod.mk.injEq .. |>.mp (Option.some.inj hexec)
    refine ⟨fun _ _ => ?_, nofun⟩
    have hsubmitted : s''.executor.submitted =
        s'.executor.submitted ++ [⟨r, application, b + 2 * n, b + 2 * n + 1⟩] := by
      rw [← hexecutor]
    refine ⟨by rw [hlifecycle]; exact hs'.own, by rw [hlifecycle]; exact hs'.rows,
      by rw [hlifecycle]; exact hs'.there, fun {k t item} hitem hrun ht => ?_,
      fun {t} hge hlt => ?_⟩
    · rw [hsubmitted] at hitem
      rcases getElem?_concat_iff.mp hitem with hold | ⟨-, rfl⟩
      · have hearlier := hs'.items hold hrun ht
        omega
      · exact (hhas ht).2
    · rw [hsubmitted]
      by_cases hold : t < b + 2 * n
      · obtain ⟨k, item, hitem, hrun, ht⟩ := hs'.sent hge hold
        refine ⟨k, item, ?_, hrun, ht⟩
        rw [List.getElem?_append_left (List.getElem?_eq_some_iff.mp hitem).1]
        exact hitem
      · refine ⟨_, _, List.getElem?_concat_length, rfl, ?_⟩
        show t = b + 2 * n ∨ t = b + 2 * n + 1
        omega

/-- All applications go into the queue, and nothing is raised. -/
theorem submitAll_wp {X : PyError → CrawlerState → Prop} {ids : TaskIds} (hb : base ≤ b)
    (rest : List ApplicationRef) (n : Nat) (htotal : n + rest.length = total)
    (hids : ∀ {j a}, rest[j]? = some a →
      ids.get (a.applicationId, .appDetails) = some (b + 2 * (n + j)) ∧
        ids.get (a.applicationId, .reviews) = some (b + 2 * (n + j) + 1))
    {s : CrawlerState} (hs : Submitting i r b n total run s) :
    (crawlProto cfg base).wp (crawlerExec cfg) i (submitAll r ids rest)
      (fun _ => Submitting i r b total total run) X s := by
  induction rest generalizing n s with
  | nil =>
      obtain rfl : n = total := htotal
      exact hs
  | cons a rest ih =>
      obtain ⟨hdetails, hreviews⟩ := hids (show (a :: rest)[0]? = some a from rfl)
      simp only [submitAll, hdetails, hreviews, Nat.add_zero]
      rw [List.length_cons] at htotal
      refine Proto.wp_seq (Proto.wp_mono (fun _ s hs => ?_) (fun _ _ h => h)
        (submit_wp hb (by omega) hs))
      refine Proto.wp_seq (Proto.wp_mono (fun _ _ h => h) (fun _ _ h => h)
        (ih (n + 1) (by omega) (fun {j a'} hj => ?_) hs))
      have hnext := hids (show (a :: rest)[j + 1]? = some a' from hj)
      rwa [show n + (j + 1) = n + 1 + j by omega] at hnext

theorem awaitAll_wp {I : CrawlerState → Prop} (hI : CrawlStable i I) (futures : List Nat)
    {s : CrawlerState} (hs : I s) :
    (crawlProto cfg base).wp (crawlerExec cfg) i (awaitAll futures) (fun _ => I) (fun _ => I)
      s := by
  induction futures generalizing s with
  | nil => exact hs
  | cons k futures ih =>
      refine Proto.wp_seq (Proto.wp_cmd.mpr fun s' hr _ => ⟨trivial, fun e v s'' _ hx _ => ?_⟩)
      obtain ⟨⟨v', x'⟩, hresult, heq⟩ := Option.map_eq_some_iff.mp hx
      obtain ⟨result, -, hsame⟩ := Option.map_eq_some_iff.mp hresult
      obtain ⟨-, rfl⟩ := Prod.mk.injEq .. |>.mp hsame
      obtain ⟨-, rfl⟩ := Prod.mk.injEq .. |>.mp heq
      have hs' := hI s s' hr hs
      exact ⟨fun _ _ => ih hs', fun _ _ => hs'⟩

/-- All futures of the run are set, so its rows are closed. -/
theorem shutdown_wp {X : PyError → CrawlerState → Prop}
    (hs : Submitting i r b total total run s) :
    (crawlProto cfg base).wp (crawlerExec cfg) i (onExecutor (.shutdown r))
      (fun _ => RunClosed i r run) X s := by
  refine Proto.wp_cmd.mpr fun s' hr hinv => ⟨trivial, fun e v s'' _ hx _ => ?_⟩
  have hs' := Submitting.stable _ _ _ _ _ _ s s' hr hs
  obtain ⟨hexec, hlifecycle, -⟩ := executor_exec hx
  simp only [ExecutorCmd.exec] at hexec
  split at hexec
  · rename_i hall
    obtain ⟨rfl, -⟩ := Prod.mk.injEq .. |>.mp (Option.some.inj hexec)
    refine ⟨fun _ _ => ⟨by rw [hlifecycle]; exact hs'.own, fun row hmem hrun => ?_⟩,
      fun _ hc => by cases hc⟩
    rw [hlifecycle] at hmem
    obtain ⟨t, ht⟩ := List.getElem?_of_mem hmem
    obtain ⟨hge, hlt⟩ := hs'.rows ht hrun
    obtain ⟨k, item, hitem, hrun', hhas⟩ := hs'.sent hge hlt
    have hset := List.all_eq_true.mp hall (item, k) (List.mem_zipIdx_iff_getElem?.mpr hitem)
    have hfuture : (s'.executor.futures k).isSome = true := by simpa [hrun'] using hset
    exact hinv.done hitem hfuture hhas ht
  · cases hexec

theorem finishRun_wp {X : PyError → CrawlerState → Prop} {forcedStatus : Option CrawlRunStatus}
    (hs : RunClosed i r run s) :
    (crawlProto cfg base).wp (crawlerExec cfg) i (finishRun r forcedStatus)
      (fun _ s => ∃ status,
        status = forcedStatus.getD (Lifecycle.overall (s.lifecycle.taskStatuses r)) ∧
          RunClosed i r { run with status := status } s) X s := by
  refine Proto.wp_cmd.mpr fun s' hr _ => ?_
  have hs' := RunClosed.stable _ _ _ s s' hr hs
  refine ⟨hs'.own.started, fun e v s'' _ hx _ => ?_⟩
  obtain ⟨hlifecycle, -, -⟩ := lifecycle_exec hx
  have hlt : r < s'.lifecycle.runs.length := (List.getElem?_eq_some_iff.mp hs'.own.row).1
  obtain ⟨status, hstatus⟩ : ∃ status, status = forcedStatus.getD
    (Lifecycle.overall (s'.lifecycle.taskStatuses r)) := ⟨_, rfl⟩
  simp only [LifecycleCmd.exec, Lifecycle.finishRun, if_pos hlt, ← hstatus] at hlifecycle
  obtain ⟨rfl, hl⟩ := Prod.mk.injEq .. |>.mp hlifecycle
  have htasks : s''.lifecycle.tasks = s'.lifecycle.tasks := by rw [← hl]
  have hstatuses : s''.lifecycle.taskStatuses r = s'.lifecycle.taskStatuses r := by
    rw [Lifecycle.taskStatuses, htasks, Lifecycle.taskStatuses]
  refine ⟨fun _ _ => ⟨status, by rw [hstatuses]; exact hstatus, ?_,
    by rw [htasks]; exact hs'.closed⟩, fun _ hc => by cases hc⟩
  exact hs'.own.modify (fun run => { run with status := status }) (fun _ => rfl) (by rw [← hl])

end Phases

/-! ## The verdict -/

/-- The status of run `r` says how its tasks ended. -/
structure Verdict (r : Nat) (status : CrawlRunStatus) (l : Lifecycle) : Prop where
  succeeded : status = .succeeded ↔
    ∀ row ∈ l.tasks, row.crawlRunId = r → row.status = .succeeded
  failed : status = .failed ↔ (∃ row ∈ l.tasks, row.crawlRunId = r) ∧
    ∀ row ∈ l.tasks, row.crawlRunId = r → row.status = .failed
  otherwise : status = .partiallyFailed ↔ status ≠ .succeeded ∧ status ≠ .failed

theorem count_eq_length_iff {statuses : List CrawlTaskStatus} {status : CrawlTaskStatus} :
    statuses.count status = statuses.length ↔ ∀ other ∈ statuses, other = status :=
  List.count_eq_length.trans ⟨fun h s hs => (h s hs).symm, fun h s hs => (h s hs).symm⟩

theorem Lifecycle.overall_succeeded {statuses : List CrawlTaskStatus} :
    overall statuses = .succeeded ↔ ∀ status ∈ statuses, status = .succeeded := by
  unfold overall
  split
  · rename_i h
    refine iff_of_true rfl ?_
    rcases h with rfl | h
    · nofun
    · exact count_eq_length_iff.mp h
  · rename_i h
    rw [not_or] at h
    refine iff_of_false ?_ fun hall => h.2 (count_eq_length_iff.mpr hall)
    split <;> nofun

theorem Lifecycle.overall_failed {statuses : List CrawlTaskStatus} :
    overall statuses = .failed ↔ statuses ≠ [] ∧ ∀ status ∈ statuses, status = .failed := by
  unfold overall
  split
  · rename_i h
    refine iff_of_false nofun ?_
    rintro ⟨hne, hall⟩
    obtain ⟨status, hmem⟩ := List.exists_mem_of_ne_nil _ hne
    have hsucceeded := count_eq_length_iff.mp (h.resolve_left hne) status hmem
    cases hsucceeded.symm.trans (hall status hmem)
  · rename_i h
    rw [not_or] at h
    split
    · rename_i hfailed
      exact iff_of_true rfl ⟨h.1, count_eq_length_iff.mp hfailed⟩
    · rename_i hfailed
      exact iff_of_false nofun fun hall => hfailed (count_eq_length_iff.mpr hall.2)

theorem Lifecycle.overall_ne_running (statuses : List CrawlTaskStatus) :
    overall statuses ≠ .running := by
  unfold overall
  split
  · nofun
  · split <;> nofun

theorem Lifecycle.mem_taskStatuses {l : Lifecycle} {r : Nat} {status : CrawlTaskStatus} :
    status ∈ l.taskStatuses r ↔ ∃ row ∈ l.tasks, row.crawlRunId = r ∧ row.status = status := by
  simp [taskStatuses, and_assoc]

theorem Lifecycle.all_taskStatuses {l : Lifecycle} {r : Nat} {status : CrawlTaskStatus} :
    (∀ other ∈ l.taskStatuses r, other = status) ↔
      ∀ row ∈ l.tasks, row.crawlRunId = r → row.status = status := by
  constructor
  · intro h row hmem hrun
    exact h row.status (mem_taskStatuses.mpr ⟨row, hmem, hrun, rfl⟩)
  · intro h other hother
    obtain ⟨row, hmem, hrun, rfl⟩ := mem_taskStatuses.mp hother
    exact h row hmem hrun

theorem Lifecycle.verdict (l : Lifecycle) (r : Nat) :
    Verdict r (overall (l.taskStatuses r)) l where
  succeeded := overall_succeeded.trans all_taskStatuses
  failed := by
    refine overall_failed.trans (and_congr ?_ all_taskStatuses)
    rw [ne_eq, ← List.isEmpty_iff, Bool.not_eq_true, List.isEmpty_eq_false_iff_exists_mem]
    simp only [mem_taskStatuses]
    exact ⟨fun ⟨_, row, hmem, hrun, _⟩ => ⟨row, hmem, hrun⟩,
      fun ⟨row, hmem, hrun⟩ => ⟨_, row, hmem, hrun, rfl⟩⟩
  otherwise := by
    have hrunning := overall_ne_running (l.taskStatuses r)
    cases hstatus : overall (l.taskStatuses r) with
    | running => exact absurd hstatus hrunning
    | _ => simp

/-! ## A whole crawl -/

/-- The run of thread `i` has ended, and so have its tasks. -/
structure Concluded (i r : Nat) (run : CrawlRunRow) (s : CrawlerState) : Prop where
  settled : RunClosed i r run s
  ended : run.status ≠ .running

/-- Where tasks were created, the status of the run is the verdict on them. -/
def Judged (i r : Nat) (run : CrawlRunRow) (s : CrawlerState) : Prop :=
  Concluded i r run s ∧ (run.tasksCreated = true → Verdict r run.status s.lifecycle)

section Crawl

variable {cfg : CrawlerConfig} {base i r : Nat} {run : CrawlRunRow} {s : CrawlerState}

theorem concluded_stable (i r : Nat) (run : CrawlRunRow) : CrawlStable i (Concluded i r run) :=
  fun s s' hr h => ⟨RunClosed.stable i r run s s' hr h.settled, h.ended⟩

theorem judged_stable (i r : Nat) (run : CrawlRunRow) : CrawlStable i (Judged i r run) := by
  rintro s s' hr ⟨h, hverdict⟩
  refine ⟨concluded_stable i r run s s' hr h, fun hcreated => ?_⟩
  have hsame : ∀ {row}, row.crawlRunId = r →
      (row ∈ s'.lifecycle.tasks ↔ row ∈ s.lifecycle.tasks) := fun hrun =>
    hr.1.settled h.settled.own.started h.settled.closed hrun
  have hall : ∀ {p : CrawlTaskRow → Prop},
      (∀ row ∈ s'.lifecycle.tasks, row.crawlRunId = r → p row) ↔
        ∀ row ∈ s.lifecycle.tasks, row.crawlRunId = r → p row :=
    ⟨fun h row hmem hrun => h row ((hsame hrun).mpr hmem) hrun,
      fun h row hmem hrun => h row ((hsame hrun).mp hmem) hrun⟩
  have hsome : (∃ row ∈ s'.lifecycle.tasks, row.crawlRunId = r) ↔
      ∃ row ∈ s.lifecycle.tasks, row.crawlRunId = r :=
    ⟨fun ⟨row, hmem, hrun⟩ => ⟨row, (hsame hrun).mp hmem, hrun⟩,
      fun ⟨row, hmem, hrun⟩ => ⟨row, (hsame hrun).mpr hmem, hrun⟩⟩
  obtain ⟨hsucceeded, hfailed, hotherwise⟩ := hverdict hcreated
  exact ⟨hsucceeded.trans hall.symm, hfailed.trans (and_congr hsome.symm hall.symm), hotherwise⟩

open CrawlerService

theorem runAll_wp {applications : List ApplicationRef} {b : Nat} (hb : base ≤ b)
    (hdistinct : (applications.map (·.applicationId)).Nodup)
    (hs : Submitting i r b 0 applications.length run s) :
    (crawlProto cfg base).wp (crawlerExec cfg) i
      (runAll r (newTaskIds r b applications) applications)
      (fun _ => RunClosed i r run) (fun _ => RunClosed i r run) s := by
  have hids : ∀ {j a}, applications[j]? = some a →
      (newTaskIds r b applications).get (a.applicationId, .appDetails) = some (b + 2 * (0 + j)) ∧
        (newTaskIds r b applications).get (a.applicationId, .reviews) =
          some (b + 2 * (0 + j) + 1) := by
    intro j a hj
    rw [Nat.zero_add]
    exact newTaskIds_get hdistinct hj
  refine Proto.wp_ensure.mpr (Proto.wp_seq (Proto.wp_mono (fun futures s hs => ?_)
    (fun _ _ h => h) (submitAll_wp hb applications 0 (Nat.zero_add _) hids hs)))
  exact Proto.wp_mono (fun _ _ h => shutdown_wp h) (fun _ _ h => shutdown_wp h)
    (awaitAll_wp (Submitting.stable _ _ _ _ _ _) futures hs)

theorem crawl_wp {applications : List ApplicationRef}
    (hdistinct : (applications.map (·.applicationId)).Nodup)
    (hs : Submitting i r 0 0 0 run s) :
    (crawlProto cfg base).wp (crawlerExec cfg) i (crawl r applications)
      (fun _ s => ∃ run, Judged i r run s) (fun _ s => ∃ run, RunClosed i r run s) s := by
  refine Proto.wp_seq (Proto.wp_mono (fun ids s hs => ?_) (fun _ _ h => h) (createTasks_wp hs))
  obtain ⟨b, hb, rfl, hs⟩ := hs
  refine Proto.wp_seq (Proto.wp_mono (fun _ s hs => ?_) (fun _ _ h => ⟨_, h⟩)
    (runAll_wp hb hdistinct hs))
  refine Proto.wp_mono (fun _ s hs => ?_) (fun _ _ h => h) (finishRun_wp hs)
  obtain ⟨status, rfl, hs⟩ := hs
  exact ⟨_, ⟨hs, Lifecycle.overall_ne_running _⟩, fun _ => s.lifecycle.verdict r⟩

theorem finishFailedPreserving_wp {X : PyError → CrawlerState → Prop}
    (hs : RunClosed i r run s) :
    (crawlProto cfg base).wp (crawlerExec cfg) i (finishFailedPreserving r)
      (fun _ => Concluded i r { run with status := .failed }) X s := by
  refine Proto.wp_tryCatch.mpr (Proto.wp_mono (fun _ s hs => ?_) (fun _ _ h => h)
    (finishRun_wp hs))
  obtain ⟨status, rfl, hs⟩ := hs
  exact ⟨hs, nofun⟩

theorem listActiveApplications_wp {I : CrawlerState → Prop} (hI : CrawlStable i I) (hs : I s) :
    (crawlProto cfg base).wp (crawlerExec cfg) i listActiveApplications
      (fun applications s => (applications.map (·.applicationId)).Nodup ∧ I s) (fun _ => I) s := by
  refine Proto.wp_cmd.mpr fun s' hr _ => ⟨trivial, fun e v s'' hdistinct hx _ => ?_⟩
  obtain ⟨hlisted, rfl⟩ := Prod.mk.injEq .. |>.mp (Option.some.inj hx)
  have hs' := hI s s' hr hs
  refine ⟨fun applications hok => ⟨?_, hs'⟩, fun _ _ => hs'⟩
  have hanswer : e.outcome e.applications = .ok applications := hlisted.trans hok
  unfold CrawlerEnv.outcome at hanswer
  split at hanswer
  · cases hanswer
  · obtain rfl := Except.ok.inj hanswer
    exact hdistinct rfl

theorem crawlOnce_wp (hs : ∀ run ∈ s.lifecycle.runs, run.startedBy ≠ some i) :
    (crawlProto cfg base).wp (crawlerExec cfg) i crawlOnce
      (fun r s => ∃ run, Judged i r run s) (fun _ s => ∃ r run, Concluded i r run s) s := by
  refine Proto.wp_seq (Proto.wp_mono (fun r s hs => ?_) (fun _ _ h => h) (createRun_wp hs))
  refine Proto.wp_seq (Proto.wp_outcome.mpr (Proto.wp_mono (fun applications s hs => ?_)
    (fun x s hs => ?_) (listActiveApplications_wp (Submitting.stable _ _ _ _ _ _) hs)))
  · obtain ⟨hdistinct, hs⟩ := hs
    refine Proto.wp_seq (Proto.wp_outcome.mpr (Proto.wp_mono (fun _ s hs => hs)
      (fun x s hs => ?_) (crawl_wp hdistinct hs)))
    obtain ⟨run, hs⟩ := hs
    exact Proto.wp_seq (Proto.wp_mono (fun _ _ h => ⟨r, _, h⟩) (fun _ _ h => h)
      (finishFailedPreserving_wp hs))
  · -- no task was created
    have hsettled : RunClosed i r ⟨.running, some i, false⟩ s := by
      refine ⟨hs.own, fun row hmem hrun => ?_⟩
      obtain ⟨t, ht⟩ := List.getElem?_of_mem hmem
      obtain ⟨-, hlt⟩ := hs.rows ht hrun
      omega
    exact Proto.wp_seq (Proto.wp_mono (fun _ _ h => ⟨_, h, nofun⟩) (fun _ _ h => h)
      (finishFailedPreserving_wp hsettled))

end Crawl

/-! ## Every interleaving -/

def crawlDiscipline (cfg : CrawlerConfig) (base : Nat) :
    Discipline CrawlerState CrawlerCmd CrawlerEnv Empty CrawlerThread PyError (Option Nat) where
  inv s := CrawlInv cfg base s.lifecycle s.executor
  rely := CrawlRely
  fresh i s := ∀ run ∈ s.lifecycle.runs, run.startedBy ≠ some i
  pre _ i c s := CrawlOwes cfg base i c s.lifecycle s.executor
  allow _ _ c e _ := DistinctApplications c e
  allowExt _ _ := True
  post
    | .crawlOnce, i, a, s => ∃ r run, a = some r ∧ Judged i r run s
    | .worker, _, _, _ => True
  xpost
    | .crawlOnce, i, _, s => ∃ r run, Concluded i r run s
    | .worker, _, _, _ => True

theorem crawlDiscipline_sound (cfg : CrawlerConfig) (base : Nat) :
    (crawlDiscipline cfg base).Sound (crawler cfg) where
  rely_refl i s := ⟨.refl i _ _, rfl⟩
  rely_trans h h' := ⟨h.1.trans h'.1, h'.2.trans h.2⟩
  fresh_rely h hs run hmem hi := by
    obtain ⟨r, hrow⟩ := List.getElem?_of_mem hmem
    exact hs run (List.mem_of_getElem? ((h.1.runs hi).mp hrow)) hi
  post_rely {thread i a s s'} hr h := by
    cases thread with
    | crawlOnce =>
        obtain ⟨r, run, ha, h⟩ := h
        exact ⟨r, run, ha, judged_stable i r run s s' hr h⟩
    | worker => trivial
  xpost_rely {thread i x s s'} hr h := by
    cases thread with
    | crawlOnce =>
        obtain ⟨r, run, h⟩ := h
        exact ⟨r, run, concluded_stable i r run s s' hr h⟩
    | worker => trivial
  exec hinv howes _ hx := by
    obtain ⟨hinv', hmoves⟩ := crawl_exec hinv howes hx
    exact ⟨hinv', fun j hj => ⟨hmoves j hj, lastPrimaryAttempt_exec hx (Or.inl hj)⟩⟩
  crash hinv := ⟨hinv, fun j _ => ⟨.refl j _ _, rfl⟩⟩
  ext {x} := nomatch x
  spawn {thread i s} _ hfresh := by
    cases thread with
    | crawlOnce =>
        exact Proto.wp_seq (Proto.wp_mono (fun r _ ⟨run, h⟩ => ⟨r, run, rfl, h⟩) (fun _ _ h => h)
          (crawlOnce_wp hfresh))
    | worker =>
        exact Proto.wp_seq (Proto.wp_mono (fun _ _ _ => trivial) (fun _ _ h => h) work_wp)

/-- No list of active applications names one twice. -/
def distinctListings : Label CrawlerEnv Empty CrawlerThread → CrawlerWorld → Prop
  | .run i e, w => ∀ thread k,
      w.sessions[i]? = some ⟨thread, some (.call (.outside .listActiveApplications) k)⟩ →
        (e.applications.map (·.applicationId)).Nodup
  | _, _ => True

/-- A process that has not crawled yet. The database may hold runs of others. -/
structure CrawlerState.Unused (s : CrawlerState) : Prop where
  executor : s.executor = ⟨[], [], fun _ => none⟩
  runs : ∀ run ∈ s.lifecycle.runs, run.startedBy = none
  tasks : ∀ row ∈ s.lifecycle.tasks, row.crawlRunId < s.lifecycle.runs.length
  attempts : ∀ t, s.lifecycle.attempts t = []
  published : s.lifecycle.published = []
  illegal : s.lifecycle.illegal = []

theorem CrawlInv.initial {cfg : CrawlerConfig} {s : CrawlerState} (h : s.Unused) :
    CrawlInv cfg s.lifecycle.tasks.length s.lifecycle s.executor := by
  have hnew : ∀ {t : Nat} {row : CrawlTaskRow}, s.lifecycle.tasks.length ≤ t →
      s.lifecycle.tasks[t]? ≠ some row := by
    intro t row ht hrow
    rw [List.getElem?_eq_none ht] at hrow
    cases hrow
  rw [h.executor]
  exact ⟨fun ht => h.tasks _ (List.mem_of_getElem? ht), fun ht hrow => absurd hrow (hnew ht),
    fun ht hrow => absurd hrow (hnew ht), fun {t} _ => h.attempts t, le_rfl, h.illegal, nofun,
    nofun, nofun, fun ht hrow => absurd hrow (hnew ht), nofun, nofun, le_rfl⟩

/-- The tasks from `base` on are those of this process. A crawl that has ended has
one run. -/
structure CrawlClosed (cfg : CrawlerConfig) (base : Nat) (w : CrawlerWorld) : Prop where
  legal : w.shared.lifecycle.illegal = []
  attempts : ∀ {t : Nat} {row}, base ≤ t → w.shared.lifecycle.tasks[t]? = some row →
    w.shared.lifecycle.attempts t = List.range' 1 row.attemptCount ∧
      row.attemptCount ≤ cfg.maxAttempts + 1
  published : ∀ {t : Nat} {row}, base ≤ t → w.shared.lifecycle.tasks[t]? = some row →
    row.status = .succeeded → t ∈ w.shared.lifecycle.published
  returned : ∀ {i : Nat} {a}, w.sessions[i]? = some ⟨.crawlOnce, some (.ret a)⟩ →
    ∃ r run, a = some r ∧ Concluded i r run w.shared ∧
      (run.tasksCreated = true → Verdict r run.status w.shared.lifecycle)
  raised : ∀ {i : Nat} {x}, w.sessions[i]? = some ⟨.crawlOnce, some (.raise x)⟩ →
    ∃ r run, Concluded i r run w.shared

theorem crawl_closed (cfg : CrawlerConfig) {s₀ : CrawlerState} (hs₀ : s₀.Unused)
    {w : CrawlerWorld} (h : (crawler cfg).Reach distinctListings ⟨s₀, []⟩ w) :
    CrawlClosed cfg s₀.lifecycle.tasks.length w := by
  have hallows : ∀ l w, distinctListings l w →
      (crawlDiscipline cfg s₀.lifecycle.tasks.length).Allows l w := by
    intro l w hdistinct
    cases l with
    | run i e =>
        rintro thread c k hi rfl
        exact hdistinct thread k hi
    | spawn r => trivial
    | crash i => trivial
    | ext x => trivial
  have hidle : (crawlDiscipline cfg s₀.lifecycle.tasks.length).Ok (crawler cfg) ⟨s₀, []⟩ := by
    refine Discipline.ok_idle (.initial hs₀) fun i run hmem hi => ?_
    rw [hs₀.runs run hmem] at hi
    cases hi
  have hok := (crawlDiscipline_sound cfg _).ok_of_reach hidle (h.mono hallows)
  have hinv : CrawlInv cfg s₀.lifecycle.tasks.length w.shared.lifecycle w.shared.executor := hok.inv
  exact ⟨hinv.illegal, hinv.attempts, hinv.published, fun hi => hok.returned hi,
    fun hi => hok.raised hi⟩

/-- `distinctListings`, as a check. -/
def listsDistinct : Label CrawlerEnv Empty CrawlerThread → CrawlerWorld → Bool
  | .run _ e, _ => (e.applications.map (·.applicationId)).Nodup
  | _, _ => true

theorem distinctListings_of_listsDistinct (l : Label CrawlerEnv Empty CrawlerThread)
    (w : CrawlerWorld) (h : listsDistinct l w = true) : distinctListings l w := by
  cases l with
  | run i e => exact fun _ _ _ => of_decide_eq_true h
  | spawn r => trivial
  | crash i => trivial
  | ext x => trivial

namespace Sample

def working (n : Nat) : List (Label CrawlerEnv Empty CrawlerThread) :=
  List.replicate n (.run 1 calm)

/-- One application. Its page cannot be read on the primary adapter, and its reviews
are refused by the publisher. -/
def oneApplication : List (Label CrawlerEnv Empty CrawlerThread) :=
  [.spawn .crawlOnce, .spawn .worker] ++
    List.replicate 4 (.run 0 { calm with applications := [⟨⟨7⟩, "com.example.app"⟩] }) ++
    working 11 ++ [.run 1 (raising unreadable)] ++
    working 23 ++ [.run 1 (raising throttled)] ++ working 7 ++
    List.replicate 3 (.run 0 calm)

end Sample

open Sample in
/-- The details take a second attempt on the other adapter; the crawl returns. -/
theorem crawl_closed_fallback :
    ∃ w, (crawler crawlerConfig).Reach distinctListings ⟨crawlerState, []⟩ w ∧
      w.isQuiescent = true ∧
      w.shared.lifecycle.tasks.map (fun row => (row.status, row.attemptCount)) =
        [(.succeeded, 2), (.failed, 1)] ∧
      w.shared.lifecycle.runs = [⟨.partiallyFailed, some 0, true⟩] ∧
      CrawlClosed crawlerConfig 0 w := by
  have hrun : ((crawler crawlerConfig).runIf listsDistinct ⟨crawlerState, []⟩
      oneApplication).map (fun w => (w.isQuiescent,
        w.shared.lifecycle.tasks.map (fun row => (row.status, row.attemptCount)),
        w.shared.lifecycle.runs)) =
      some (true, [(.succeeded, 2), (.failed, 1)], [⟨.partiallyFailed, some 0, true⟩]) := by
    decide +kernel
  obtain ⟨w, hw, hfacts⟩ := Option.map_eq_some_iff.mp hrun
  simp only [Prod.mk.injEq] at hfacts
  obtain ⟨hquiescent, htasks, hruns⟩ := hfacts
  have hreach := System.reach_of_runIf distinctListings_of_listsDistinct .refl hw
  have hunused : crawlerState.Unused := ⟨rfl, nofun, nofun, fun _ => rfl, rfl, rfl⟩
  exact ⟨w, hreach, hquiescent, htasks, hruns, crawl_closed crawlerConfig hunused hreach⟩

end Sahabino
