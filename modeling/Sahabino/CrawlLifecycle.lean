import Sahabino.CrawlService

/-!
# Every crawl is brought to an end

The tasks of a run belong to the worker that took their item from the
queue: from there on nobody else touches their rows, so the worker's own
transitions follow the control flow of `ApplicationCrawlCommand`. Before
that they are pending, and once the item's future is set they are closed
(`CrawlInv`). What the other threads may do to a worker or to a crawl is
`CrawlMoves`.

A crawl knows the rows it created: it submits each of them once, and when
its executor lets it go, all futures are set. So the rows of the run are
closed when `finish_run` counts them, and stay as they are.

`base` is the number of task rows that were there before.
-/

namespace Sahabino

open Conc

def WorkItem.Has (item : WorkItem) (t : Nat) : Prop := t = item.details ∨ t = item.reviews

def CrawlTaskStatus.terminal : CrawlTaskStatus → Bool
  | succeeded => true
  | failed => true
  | _ => false

/-- The columns of a task that are never written again. -/
def CrawlTaskRow.key (row : CrawlTaskRow) : Nat × Uuid × TaskType :=
  (row.crawlRunId, row.applicationId, row.taskType)

/-! ## The invariant -/

/-- `idle`: only the worker that took a task touches it. `done`: a future is set when
the tasks are closed. -/
structure CrawlInv (cfg : CrawlerConfig) (base : Nat) (l : Lifecycle) (x : Executor) : Prop where
  run : ∀ {t : Nat} {row}, l.tasks[t]? = some row → row.crawlRunId < l.runs.length
  attempts : ∀ {t : Nat} {row}, base ≤ t → l.tasks[t]? = some row →
    l.attempts t = List.range' 1 row.attemptCount ∧ row.attemptCount ≤ cfg.maxAttempts + 1
  published : ∀ {t : Nat} {row}, base ≤ t → l.tasks[t]? = some row → row.status = .succeeded →
    t ∈ l.published
  fresh : ∀ {t}, l.tasks.length ≤ t → l.attempts t = []
  created : base ≤ l.tasks.length
  illegal : l.illegal = []
  distinct : ∀ {k : Nat} {item}, x.submitted[k]? = some item → item.details ≠ item.reviews
  item : ∀ {k : Nat} {item t}, x.submitted[k]? = some item → item.Has t → base ≤ t ∧
    ∃ row, l.tasks[t]? = some row ∧ row.crawlRunId = item.run
  disjoint : ∀ {k k' : Nat} {item item' t}, x.submitted[k]? = some item →
    x.submitted[k']? = some item' →
    item.Has t → item'.Has t → k = k'
  idle : ∀ {t : Nat} {row}, base ≤ t → l.tasks[t]? = some row →
    (∀ (k : Nat) item, k < x.takenBy.length → x.submitted[k]? = some item → ¬item.Has t) →
      row.status = .pending ∧ row.attemptCount = 0
  done : ∀ {k t : Nat} {item row}, x.submitted[k]? = some item → (x.futures k).isSome → item.Has t →
    l.tasks[t]? = some row → row.status.terminal = true
  taken : ∀ {k}, (x.futures k).isSome → k < x.takenBy.length
  queue : x.takenBy.length ≤ x.submitted.length

/-- Thread `i` has taken task `t` and not yet handed in the result. -/
def Owns (i t : Nat) (x : Executor) : Prop :=
  ∃ (k : Nat) (item : WorkItem), x.takenBy[k]? = some i ∧ x.submitted[k]? = some item ∧
    x.futures k = none ∧ item.Has t

/-- Thread `i` created the run. -/
def Started (i r : Nat) (l : Lifecycle) : Prop :=
  ∃ row, l.runs[r]? = some row ∧ row.startedBy = some i

/-- What the other threads do, as thread `i` sees it. -/
structure CrawlMoves (i : Nat) (l : Lifecycle) (x : Executor) (l' : Lifecycle) (x' : Executor) :
    Prop where
  submitted : ∀ {k : Nat} {item}, x.submitted[k]? = some item → x'.submitted[k]? = some item
  mine : ∀ {k : Nat} {item}, x'.submitted[k]? = some item → Started i item.run l →
    x.submitted[k]? = some item
  futures : ∀ {k r}, x.futures k = some r → x'.futures k = some r
  taken : ∀ {k : Nat}, x'.takenBy[k]? = some i ↔ x.takenBy[k]? = some i
  own : ∀ {k : Nat}, x.takenBy[k]? = some i → x'.futures k = x.futures k
  task : ∀ {t : Nat} {row}, l.tasks[t]? = some row → ∃ row', l'.tasks[t]? = some row' ∧
    row'.key = row.key ∧ (row.status.terminal = true → row' = row)
  newTask : ∀ {t : Nat} {row}, l'.tasks[t]? = some row → Started i row.crawlRunId l →
    t < l.tasks.length
  runs : ∀ {r : Nat} {row}, row.startedBy = some i →
    (l'.runs[r]? = some row ↔ l.runs[r]? = some row)
  held : ∀ {t}, Owns i t x → l'.tasks[t]? = l.tasks[t]?
  published : ∀ {t}, t ∈ l.published → t ∈ l'.published

namespace CrawlMoves

variable {i j : Nat} {l l' l'' : Lifecycle} {x x' x'' : Executor}

theorem started (h : CrawlMoves i l x l' x') {r : Nat} (hr : Started i r l) : Started i r l' := by
  obtain ⟨row, hrow, hi⟩ := hr
  exact ⟨row, (h.runs hi).mpr hrow, hi⟩

theorem owns (h : CrawlMoves i l x l' x') {t : Nat} (ht : Owns i t x) : Owns i t x' := by
  obtain ⟨k, item, htaken, hitem, hnone, hhas⟩ := ht
  exact ⟨k, item, h.taken.mpr htaken, h.submitted hitem, (h.own htaken).trans hnone, hhas⟩

/-- Rows and queue as before: only what is published may grow, and runs of other
threads may change. -/
theorem of_eq (htasks : l'.tasks = l.tasks)
    (hruns : ∀ {r : Nat} {row}, row.startedBy = some i →
      (l'.runs[r]? = some row ↔ l.runs[r]? = some row))
    (hpublished : ∀ {t}, t ∈ l.published → t ∈ l'.published) : CrawlMoves i l x l' x := by
  refine ⟨id, fun h _ => h, id, Iff.rfl, fun _ => rfl, fun {t row} h => ?_, fun {t row} h _ => ?_,
    hruns, fun _ => by rw [htasks], hpublished⟩
  · exact ⟨row, by rw [htasks]; exact h, rfl, fun _ => rfl⟩
  · rw [htasks] at h
    exact (List.getElem?_eq_some_iff.mp h).1

theorem refl (i : Nat) (l : Lifecycle) (x : Executor) : CrawlMoves i l x l x :=
  .of_eq rfl (fun _ => Iff.rfl) id

theorem trans (h : CrawlMoves i l x l' x') (h' : CrawlMoves i l' x' l'' x'') :
    CrawlMoves i l x l'' x'' where
  submitted hk := h'.submitted (h.submitted hk)
  mine hk hr := h.mine (h'.mine hk (h.started hr)) hr
  futures hk := h'.futures (h.futures hk)
  taken := h'.taken.trans h.taken
  own hk := (h'.own (h.taken.mpr hk)).trans (h.own hk)
  task {t row} ht := by
    obtain ⟨row', ht', hkey, hsame⟩ := h.task ht
    obtain ⟨row'', ht'', hkey', hsame'⟩ := h'.task ht'
    refine ⟨row'', ht'', hkey'.trans hkey, fun hterminal => ?_⟩
    obtain rfl := hsame hterminal
    exact hsame' hterminal
  newTask {t row} ht hr := by
    have hlt := h'.newTask ht (h.started hr)
    obtain ⟨row'', ht'', hkey, -⟩ := h'.task (List.getElem?_eq_getElem hlt)
    obtain rfl := Option.some.inj (ht.symm.trans ht'')
    have hrun : l'.tasks[t].crawlRunId = row.crawlRunId := (congrArg Prod.fst hkey).symm
    exact h.newTask (List.getElem?_eq_getElem hlt) (hrun ▸ hr)
  runs hi := (h'.runs hi).trans (h.runs hi)
  held ht := (h'.held (h.owns ht)).trans (h.held ht)
  published ht := h'.published (h.published ht)

end CrawlMoves

/-! ## What one step does -/

namespace CrawlInv

variable {cfg : CrawlerConfig} {base i j : Nat} {l l' : Lifecycle} {x x' : Executor}

/-- Nobody else has a thread's task. -/
theorem owner (h : CrawlInv cfg base l x) {t : Nat} (hi : Owns i t x) (hj : Owns j t x) :
    i = j := by
  obtain ⟨k, item, htaken, hitem, -, hhas⟩ := hi
  obtain ⟨k', item', htaken', hitem', -, hhas'⟩ := hj
  obtain rfl := h.disjoint hitem hitem' hhas hhas'
  exact Option.some.inj (htaken.symm.trans htaken')

/-- A row of the owner's is written: the row stays in its run, and was not closed
before. -/
theorem setRow (h : CrawlInv cfg base l x) {t : Nat} {row row' : CrawlTaskRow}
    (howns : Owns i t x) (hrow : l.tasks[t]? = some row) (hopen : row.status.terminal = false)
    (hkey : row'.key = row.key) {attempts : Nat → List Nat}
    (hothers : ∀ u, u ≠ t → attempts u = l.attempts u)
    (hattempts : attempts t = List.range' 1 row'.attemptCount)
    (hmax : row'.attemptCount ≤ cfg.maxAttempts + 1)
    (hpublished : row'.status = .succeeded → t ∈ l.published) :
    CrawlInv cfg base { l with tasks := l.tasks.set t row', attempts := attempts } x ∧
      ∀ j, j ≠ i → CrawlMoves j l x
        { l with tasks := l.tasks.set t row', attempts := attempts } x := by
  have hlt : t < l.tasks.length := (List.getElem?_eq_some_iff.mp hrow).1
  have hself : (l.tasks.set t row')[t]? = some row' := List.getElem?_set_self hlt
  have hne : ∀ {u : Nat}, u ≠ t → (l.tasks.set t row')[u]? = l.tasks[u]? :=
    fun hu => List.getElem?_set_ne (Ne.symm hu)
  have hrun : row'.crawlRunId = row.crawlRunId := congrArg Prod.fst hkey
  -- a row of the new table: the one that was written, or an old one
  have hcases : ∀ {u : Nat} {r}, (l.tasks.set t row')[u]? = some r →
      (u = t ∧ r = row') ∨ (u ≠ t ∧ l.tasks[u]? = some r) := by
    intro u r hu
    by_cases hut : u = t
    · subst hut
      exact Or.inl ⟨rfl, Option.some.inj (hu.symm.trans hself)⟩
    · exact Or.inr ⟨hut, (hne hut).symm.trans hu⟩
  obtain ⟨k, item, htaken, hitem, hnone, hhas⟩ := howns
  refine ⟨⟨fun {u r} hu => ?_, fun {u r} hb hu => ?_, fun {u r} hb hu hs => ?_, fun {u} hu => ?_,
    ?_, h.illegal, h.distinct, fun {k' item' u} hk' hu => ?_, h.disjoint,
    fun {u r} hb hu hfree => ?_, fun {k' u item' r} hk' hf hu hr => ?_, h.taken, h.queue⟩,
    fun j hj => ⟨id, fun hk _ => hk, id, Iff.rfl, fun _ => rfl, fun {u r} hu => ?_,
      fun {u r} hu _ => ?_, fun _ => Iff.rfl, fun {u} hu => hne ?_, id⟩⟩
  · rcases hcases hu with ⟨rfl, rfl⟩ | ⟨-, hold⟩
    · rw [hrun]
      exact h.run hrow
    · exact h.run hold
  · rcases hcases hu with ⟨rfl, rfl⟩ | ⟨hut, hold⟩
    · exact ⟨hattempts, hmax⟩
    · simp only [hothers u hut]
      exact h.attempts hb hold
  · rcases hcases hu with ⟨rfl, rfl⟩ | ⟨-, hold⟩
    · exact hpublished hs
    · exact h.published hb hold hs
  · have hlen : l.tasks.length ≤ u := by simpa using hu
    simp only [hothers u (by omega)]
    exact h.fresh hlen
  · simpa using h.created
  · obtain ⟨hb, r, hr, hrun'⟩ := h.item hk' hu
    by_cases hut : u = t
    · subst hut
      obtain rfl := Option.some.inj (hrow.symm.trans hr)
      exact ⟨hb, row', hself, hrun.trans hrun'⟩
    · exact ⟨hb, r, (hne hut).trans hr, hrun'⟩
  · rcases hcases hu with ⟨rfl, rfl⟩ | ⟨-, hold⟩
    · exact absurd hhas (hfree k item (List.getElem?_eq_some_iff.mp htaken).1 hitem)
    · exact h.idle hb hold hfree
  · rcases hcases hr with ⟨rfl, rfl⟩ | ⟨-, hold⟩
    · obtain rfl := h.disjoint hitem hk' hhas hu
      rw [hnone] at hf
      cases hf
    · exact h.done hk' hf hu hold
  · by_cases hut : u = t
    · subst hut
      obtain rfl := Option.some.inj (hrow.symm.trans hu)
      refine ⟨row', hself, hkey, fun hterminal => ?_⟩
      rw [hopen] at hterminal
      cases hterminal
    · exact ⟨r, (hne hut).trans hu, rfl, fun _ => rfl⟩
  · rcases hcases hu with ⟨rfl, -⟩ | ⟨-, hold⟩
    · exact hlt
    · exact (List.getElem?_eq_some_iff.mp hold).1
  · rintro rfl
    exact hj (h.owner hu ⟨k, item, htaken, hitem, hnone, hhas⟩)

/-- Only what is published grows. -/
theorem of_eq (h : CrawlInv cfg base l x) (htasks : l'.tasks = l.tasks)
    (hruns : l.runs.length ≤ l'.runs.length) (hattempts : l'.attempts = l.attempts)
    (hillegal : l'.illegal = l.illegal)
    (hpublished : ∀ {t}, t ∈ l.published → t ∈ l'.published) : CrawlInv cfg base l' x where
  run ht := (h.run (htasks ▸ ht)).trans_le hruns
  attempts hb ht := by
    rw [hattempts]
    exact h.attempts hb (htasks ▸ ht)
  published hb ht hs := hpublished (h.published hb (htasks ▸ ht) hs)
  fresh ht := by
    rw [hattempts]
    exact h.fresh (htasks ▸ ht)
  created := htasks ▸ h.created
  illegal := hillegal.trans h.illegal
  distinct := h.distinct
  item hk ht := by
    rw [htasks]
    exact h.item hk ht
  disjoint := h.disjoint
  idle hb ht hfree := h.idle hb (htasks ▸ ht) hfree
  done hk hf ht hr := h.done hk hf ht (htasks ▸ hr)
  taken := h.taken
  queue := h.queue

/-- A new run. -/
theorem createRun (h : CrawlInv cfg base l x) {status : CrawlRunStatus} {created : Bool} :
    CrawlInv cfg base { l with runs := l.runs ++ [⟨status, some i, created⟩] } x ∧
      ∀ j, j ≠ i → CrawlMoves j l x
        { l with runs := l.runs ++ [⟨status, some i, created⟩] } x := by
  refine ⟨h.of_eq rfl (by simp) rfl rfl id, fun j hj => .of_eq rfl (fun {r row} hrow => ?_) id⟩
  rw [getElem?_concat_iff]
  refine or_iff_left ?_
  rintro ⟨-, rfl⟩
  exact hj (Option.some.inj hrow).symm

/-- A thread writes to a run of its own. -/
theorem modifyRun {r : Nat} (hr : Started i r l) (f : CrawlRunRow → CrawlRunRow)
    (hf : ∀ row, (f row).startedBy = row.startedBy) {r' : Nat} {row : CrawlRunRow} (hj : j ≠ i)
    (hrow : row.startedBy = some j) :
    (l.runs.modify r f)[r']? = some row ↔ l.runs[r']? = some row := by
  by_cases hrr : r = r'
  · subst hrr
    obtain ⟨mine, hmine, hi⟩ := hr
    rw [List.getElem?_modify_eq, hmine]
    refine iff_of_false (fun heq => ?_) fun heq => ?_
    · obtain rfl := Option.some.inj heq
      rw [hf, hi] at hrow
      exact hj (Option.some.inj hrow).symm
    · obtain rfl := Option.some.inj heq
      rw [hi] at hrow
      exact hj (Option.some.inj hrow).symm
  · rw [List.getElem?_modify_ne _ _ hrr]

theorem finishRun (h : CrawlInv cfg base l x) {r : Nat} (hr : Started i r l)
    (f : CrawlRunRow → CrawlRunRow) (hf : ∀ row, (f row).startedBy = row.startedBy) :
    CrawlInv cfg base { l with runs := l.runs.modify r f } x ∧
      ∀ j, j ≠ i → CrawlMoves j l x { l with runs := l.runs.modify r f } x :=
  ⟨h.of_eq rfl (by simp) rfl rfl id,
    fun _ hj => .of_eq rfl (fun hrow => modifyRun hr f hf hj hrow) id⟩

end CrawlInv

theorem Lifecycle.newTasks_row {run : Nat} {applications : List ApplicationRef}
    {row : CrawlTaskRow} (h : row ∈ newTasks run applications) :
    row.crawlRunId = run ∧ row.status = .pending ∧ row.attemptCount = 0 := by
  obtain ⟨a, -, hrow⟩ := List.mem_flatMap.mp h
  obtain ⟨type, -, rfl⟩ := List.mem_map.mp hrow
  exact ⟨rfl, rfl, rfl⟩

namespace CrawlInv

variable {cfg : CrawlerConfig} {base i j : Nat} {l l' : Lifecycle} {x x' : Executor}

/-- New rows for a run of the thread's own. -/
theorem createTasks (h : CrawlInv cfg base l x) {r : Nat} (hr : Started i r l)
    (applications : List ApplicationRef) :
    CrawlInv cfg base (l.createTasks r applications).2 x ∧
      ∀ j, j ≠ i → CrawlMoves j l x (l.createTasks r applications).2 x := by
  have hrlt : r < l.runs.length := by
    obtain ⟨row, hrow, -⟩ := hr
    exact (List.getElem?_eq_some_iff.mp hrow).1
  have hold : ∀ {t : Nat} {row}, l.tasks[t]? = some row →
      (l.tasks ++ Lifecycle.newTasks r applications)[t]? = some row := fun ht =>
    (List.getElem?_append_left (List.getElem?_eq_some_iff.mp ht).1).trans ht
  -- a row of the new table: an old one, or a pending one of this run
  have hcases : ∀ {t : Nat} {row}, (l.tasks ++ Lifecycle.newTasks r applications)[t]? = some row →
      l.tasks[t]? = some row ∨ (l.tasks.length ≤ t ∧ row.crawlRunId = r ∧
        row.status = .pending ∧ row.attemptCount = 0) := by
    intro t row ht
    rcases Nat.lt_or_ge t l.tasks.length with hlt | hge
    · exact Or.inl ((List.getElem?_append_left hlt).symm.trans ht)
    · rw [List.getElem?_append_right hge] at ht
      exact Or.inr ⟨hge, Lifecycle.newTasks_row (List.mem_of_getElem? ht)⟩
  refine ⟨⟨fun {t row} ht => ?_, fun {t row} hb ht => ?_, fun {t row} hb ht hs => ?_,
    fun {t} ht => h.fresh ?_, ?_, h.illegal, h.distinct, fun {k item t} hk ht => ?_, h.disjoint,
    fun {t row} hb ht hfree => ?_, fun {k t item row} hk hf ht hrow => ?_, h.taken, h.queue⟩,
    fun j hj => ⟨id, fun hk _ => hk, id, Iff.rfl, fun _ => rfl, fun {t row} ht => ?_,
      fun {t row} ht hj' => ?_, fun hrow => modifyRun hr
        (fun row => { row with tasksCreated := true }) (fun _ => rfl) hj hrow,
      fun {t} ht => ?_, id⟩⟩
  · simp only [Lifecycle.createTasks, List.length_modify]
    rcases hcases ht with ht | ⟨-, hrun, -⟩
    · exact h.run ht
    · rw [hrun]
      exact hrlt
  · rcases hcases ht with ht | ⟨hge, -, -, hcount⟩
    · exact h.attempts hb ht
    · rw [hcount]
      exact ⟨h.fresh hge, Nat.zero_le _⟩
  · rcases hcases ht with ht | ⟨-, -, hpending, -⟩
    · exact h.published hb ht hs
    · rw [hpending] at hs
      cases hs
  · have hlen : (l.tasks ++ Lifecycle.newTasks r applications).length ≤ t := ht
    rw [List.length_append] at hlen
    omega
  · have hlen := h.created
    show base ≤ (l.tasks ++ Lifecycle.newTasks r applications).length
    rw [List.length_append]
    omega
  · obtain ⟨hb, row, hrow, hrun⟩ := h.item hk ht
    exact ⟨hb, row, hold hrow, hrun⟩
  · rcases hcases ht with ht | ⟨-, -, hpending, hcount⟩
    · exact h.idle hb ht hfree
    · exact ⟨hpending, hcount⟩
  · obtain ⟨-, row', hrow', -⟩ := h.item hk ht
    obtain rfl := Option.some.inj ((hold hrow').symm.trans hrow)
    exact h.done hk hf ht hrow'
  · exact ⟨row, hold ht, rfl, fun _ => rfl⟩
  · rcases hcases ht with ht | ⟨-, hrun, -⟩
    · exact (List.getElem?_eq_some_iff.mp ht).1
    · rw [hrun] at hj'
      obtain ⟨row₁, hrow₁, hi⟩ := hr
      obtain ⟨row₂, hrow₂, hj₂⟩ := hj'
      obtain rfl := Option.some.inj (hrow₁.symm.trans hrow₂)
      exact absurd (Option.some.inj (hj₂.symm.trans hi)) hj
  · obtain ⟨k, item, -, hitem, -, hhas⟩ := ht
    obtain ⟨-, row, hrow, -⟩ := h.item hitem hhas
    exact (hold hrow).trans hrow.symm

theorem submit (h : CrawlInv cfg base l x) {item : WorkItem} (hr : Started i item.run l)
    (hdistinct : item.details ≠ item.reviews)
    (hitem : ∀ {t}, item.Has t → (base ≤ t ∧ ∃ row, l.tasks[t]? = some row ∧
      row.crawlRunId = item.run) ∧ ∀ (k : Nat) item', x.submitted[k]? = some item' → ¬item'.Has t) :
    CrawlInv cfg base l { x with submitted := x.submitted ++ [item] } ∧
      ∀ j, j ≠ i → CrawlMoves j l x l { x with submitted := x.submitted ++ [item] } := by
  have hold : ∀ {k : Nat} {item'}, x.submitted[k]? = some item' →
      (x.submitted ++ [item])[k]? = some item' := fun hk => getElem?_concat_iff.mpr (Or.inl hk)
  refine ⟨⟨h.run, h.attempts, h.published, h.fresh, h.created, h.illegal, fun hk => ?_,
    fun hk ht => ?_, fun {k k' item₁ item₂ t} hk hk' ht ht' => ?_, fun hb ht hfree => ?_,
    fun {k t item' row} hk hf ht hrow => ?_, h.taken, ?_⟩,
    fun j hj => ⟨hold, fun {k item'} hk hj' => ?_, id, Iff.rfl, fun _ => rfl,
      fun {t row} ht => ⟨row, ht, rfl, fun _ => rfl⟩,
      fun ht _ => (List.getElem?_eq_some_iff.mp ht).1, fun _ => Iff.rfl, fun _ => rfl, id⟩⟩
  · rcases getElem?_concat_iff.mp hk with hk | ⟨-, rfl⟩
    · exact h.distinct hk
    · exact hdistinct
  · rcases getElem?_concat_iff.mp hk with hk | ⟨-, rfl⟩
    · exact h.item hk ht
    · exact (hitem ht).1
  · rcases getElem?_concat_iff.mp hk with hold₁ | ⟨rfl, rfl⟩
    · rcases getElem?_concat_iff.mp hk' with hold₂ | ⟨-, rfl⟩
      · exact h.disjoint hold₁ hold₂ ht ht'
      · exact absurd ht ((hitem ht').2 k item₁ hold₁)
    · rcases getElem?_concat_iff.mp hk' with hold₂ | ⟨rfl, -⟩
      · exact absurd ht' ((hitem ht).2 k' item₂ hold₂)
      · rfl
  · exact h.idle hb ht fun k item' hk hitem' => hfree k item' hk (hold hitem')
  · rcases getElem?_concat_iff.mp hk with hk | ⟨rfl, -⟩
    · exact h.done hk hf ht hrow
    · have hlt := h.taken hf
      have hle := h.queue
      omega
  · rw [List.length_append]
    exact h.queue.trans (Nat.le_add_right _ _)
  · rcases getElem?_concat_iff.mp hk with hk | ⟨-, rfl⟩
    · exact hk
    · obtain ⟨row₁, hrow₁, hi⟩ := hr
      obtain ⟨row₂, hrow₂, hj₂⟩ := hj'
      obtain rfl := Option.some.inj (hrow₁.symm.trans hrow₂)
      exact absurd (Option.some.inj (hj₂.symm.trans hi)) hj

theorem take (h : CrawlInv cfg base l x) {item : WorkItem}
    (hitem : x.submitted[x.takenBy.length]? = some item) :
    CrawlInv cfg base l { x with takenBy := x.takenBy ++ [i] } ∧
      ∀ j, j ≠ i → CrawlMoves j l x l { x with takenBy := x.takenBy ++ [i] } := by
  refine ⟨⟨h.run, h.attempts, h.published, h.fresh, h.created, h.illegal, h.distinct, h.item,
    h.disjoint, fun hb ht hfree => h.idle hb ht fun k item' hk hitem' => ?_, h.done,
    fun hf => ?_, ?_⟩,
    fun j hj => ⟨id, fun hk _ => hk, id, fun {k} => ?_, fun _ => rfl,
      fun {t row} ht => ⟨row, ht, rfl, fun _ => rfl⟩,
      fun ht _ => (List.getElem?_eq_some_iff.mp ht).1, fun _ => Iff.rfl, fun _ => rfl, id⟩⟩
  · refine hfree k item' ?_ hitem'
    rw [List.length_append]
    exact hk.trans (Nat.lt_succ_self _)
  · rw [List.length_append]
    exact (h.taken hf).trans (Nat.lt_succ_self _)
  · rw [List.length_append, List.length_singleton]
    exact (List.getElem?_eq_some_iff.mp hitem).1
  · rcases Nat.lt_or_ge k x.takenBy.length with hlt | hge
    · rw [List.getElem?_append_left hlt]
    · rw [List.getElem?_append_right hge, List.getElem?_singleton, List.getElem?_eq_none hge]
      split
      · exact iff_of_false (fun heq => hj (Option.some.inj heq).symm) nofun
      · exact Iff.rfl

theorem setResult (h : CrawlInv cfg base l x) {k : Nat} {item : WorkItem}
    {r : Except PyError Unit} (htaken : x.takenBy[k]? = some i)
    (hitem : x.submitted[k]? = some item) (hnone : x.futures k = none)
    (hterminal : ∀ {t row}, item.Has t → l.tasks[t]? = some row → row.status.terminal = true) :
    CrawlInv cfg base l { x with futures := fun k' => if k' = k then some r else x.futures k' } ∧
      ∀ j, j ≠ i → CrawlMoves j l x l
        { x with futures := fun k' => if k' = k then some r else x.futures k' } := by
  have hne : ∀ {k'}, k' ≠ k → (if k' = k then some r else x.futures k') = x.futures k' :=
    fun hk => if_neg hk
  refine ⟨⟨h.run, h.attempts, h.published, h.fresh, h.created, h.illegal, h.distinct, h.item,
    h.disjoint, h.idle, fun {k' t item' row} hk' hf ht hrow => ?_, fun {k'} hf => ?_, h.queue⟩,
    fun j hj => ⟨id, fun hk _ => hk, fun {k' r'} hk' => ?_, Iff.rfl, fun {k'} hk' => hne ?_,
      fun {t row} ht => ⟨row, ht, rfl, fun _ => rfl⟩,
      fun ht _ => (List.getElem?_eq_some_iff.mp ht).1, fun _ => Iff.rfl, fun _ => rfl, id⟩⟩
  · by_cases hkk : k' = k
    · subst hkk
      obtain rfl := Option.some.inj (hitem.symm.trans hk')
      exact hterminal ht hrow
    · simp only [hne hkk] at hf
      exact h.done hk' hf ht hrow
  · by_cases hkk : k' = k
    · subst hkk
      exact (List.getElem?_eq_some_iff.mp htaken).1
    · simp only [hne hkk] at hf
      exact h.taken hf
  · by_cases hkk : k' = k
    · subst hkk
      rw [hnone] at hk'
      cases hk'
    · exact (hne hkk).trans hk'
  · rintro rfl
    exact hj (Option.some.inj (hk'.symm.trans htaken))

end CrawlInv

/-! ## Steps of a thread -/

namespace Lifecycle

variable {l : Lifecycle} {t : Nat} {row : CrawlTaskRow}

theorem transition_ok {verb : String} {sources : List CrawlTaskStatus}
    {f : CrawlTaskRow → CrawlTaskRow} (hrow : l.tasks[t]? = some row)
    (hstatus : sources.contains row.status = true) :
    l.transition t verb sources f = (.ok (), { l with tasks := l.tasks.set t (f row) }) := by
  simp only [transition, hrow, hstatus, if_true]

theorem beginAttempt_ok (n : Nat) (hrow : l.tasks[t]? = some row)
    (hstatus : row.status = .pending ∨ row.status = .retrying) :
    l.beginAttempt t n = (.ok (), { l with
      tasks := l.tasks.set t { row with
        status := .running, attemptCount := row.attemptCount + 1, errorCode := none }
      attempts := fun k => if k = t then l.attempts k ++ [n] else l.attempts k }) := by
  have hcontains : [CrawlTaskStatus.pending, .retrying].contains row.status = true := by
    rcases hstatus with h | h <;> rw [h] <;> rfl
  simp only [beginAttempt, transition, hrow, hcontains, if_true, noting]

theorem markRetrying_ok (hrow : l.tasks[t]? = some row) (hstatus : row.status = .running) :
    l.markRetrying t = (.ok (), { l with
      tasks := l.tasks.set t { row with status := .retrying } }) := by
  unfold markRetrying
  rw [transition_ok hrow (by rw [hstatus]; rfl)]
  rfl

theorem markTaskSucceeded_ok (hrow : l.tasks[t]? = some row) (hstatus : row.status = .running) :
    l.markTaskSucceeded t = (.ok (), { l with
      tasks := l.tasks.set t { row with status := .succeeded, errorCode := none } }) := by
  unfold markTaskSucceeded
  rw [transition_ok hrow (by rw [hstatus]; rfl)]
  rfl

/-- A task that is closed already stays as it is. -/
theorem markTaskFailed_cases (errorCode : String) (hrow : l.tasks[t]? = some row) :
    (row.status.terminal = false ∧ l.markTaskFailed t errorCode = (.ok (), { l with
      tasks := l.tasks.set t { row with status := .failed, errorCode := some errorCode } })) ∨
    (row.status.terminal = true ∧ (l.markTaskFailed t errorCode).2 = l) := by
  unfold markTaskFailed
  cases hstatus : row.status with
  | pending => exact Or.inl ⟨rfl, transition_ok hrow (by rw [hstatus]; rfl)⟩
  | running => exact Or.inl ⟨rfl, transition_ok hrow (by rw [hstatus]; rfl)⟩
  | retrying => exact Or.inl ⟨rfl, transition_ok hrow (by rw [hstatus]; rfl)⟩
  | succeeded => exact Or.inr ⟨rfl, by simp [transition, hrow, hstatus]⟩
  | failed => exact Or.inr ⟨rfl, by simp [transition, hrow, hstatus]⟩

end Lifecycle

/-- What a thread owes before a command: the transitions of the tasks it has taken,
runs of its own, and every task submitted once. -/
def CrawlOwes (cfg : CrawlerConfig) (base i : Nat) (c : CrawlerCmd) (l : Lifecycle)
    (x : Executor) : Prop :=
  match c with
  | .lifecycle (.beginAttempt t n) => Owns i t x ∧ ∃ row, l.tasks[t]? = some row ∧
      (row.status = .pending ∨ row.status = .retrying) ∧ n = row.attemptCount + 1 ∧
      row.attemptCount ≤ cfg.maxAttempts
  | .lifecycle (.markRetrying t) => Owns i t x ∧ ∃ row, l.tasks[t]? = some row ∧
      row.status = .running
  | .lifecycle (.markTaskSucceeded t) => Owns i t x ∧ t ∈ l.published ∧
      ∃ row, l.tasks[t]? = some row ∧ row.status = .running
  | .lifecycle (.markTaskFailed t _) => Owns i t x
  | .lifecycle (.createTasks run _) => Started i run l
  | .lifecycle (.finishRun run _) => Started i run l
  | .executor (.submit item) => Started i item.run l ∧ item.details ≠ item.reviews ∧
      ∀ {t}, item.Has t → (base ≤ t ∧ ∃ row, l.tasks[t]? = some row ∧
        row.crawlRunId = item.run) ∧
        ∀ (k : Nat) item', x.submitted[k]? = some item' → ¬item'.Has t
  | .executor (.setResult k _) => ∃ item, x.takenBy[k]? = some i ∧
      x.submitted[k]? = some item ∧ x.futures k = none ∧
      ∀ {t row}, item.Has t → l.tasks[t]? = some row → row.status.terminal = true
  | _ => True

namespace CrawlInv

variable {cfg : CrawlerConfig} {base i : Nat} {l l' : Lifecycle} {x x' : Executor}

/-- The row of a task that somebody has taken. -/
theorem owned (h : CrawlInv cfg base l x) {t : Nat} (hi : Owns i t x) :
    base ≤ t ∧ ∃ row, l.tasks[t]? = some row := by
  obtain ⟨k, item, -, hitem, -, hhas⟩ := hi
  obtain ⟨hb, row, hrow, -⟩ := h.item hitem hhas
  exact ⟨hb, row, hrow⟩

/-- A transition that is no new attempt. -/
theorem setStatus (h : CrawlInv cfg base l x) {t : Nat} {row : CrawlTaskRow}
    (howns : Owns i t x) (hrow : l.tasks[t]? = some row) (hopen : row.status.terminal = false)
    (status : CrawlTaskStatus) (errorCode : Option String)
    (hpublished : status = .succeeded → t ∈ l.published) :
    CrawlInv cfg base { l with
        tasks := l.tasks.set t { row with status := status, errorCode := errorCode } } x ∧
      ∀ j, j ≠ i → CrawlMoves j l x { l with
        tasks := l.tasks.set t { row with status := status, errorCode := errorCode } } x := by
  obtain ⟨hb, -⟩ := h.owned howns
  obtain ⟨hlog, hmax⟩ := h.attempts hb hrow
  refine h.setRow howns hrow hopen ?_ ?_ ?_ ?_ ?_
  · rfl
  · exact fun _ _ => rfl
  · exact hlog
  · exact hmax
  · exact hpublished

theorem lifecycle {c : LifecycleCmd} {v : Except PyError c.Answer} (h : CrawlInv cfg base l x)
    (howes : CrawlOwes cfg base i (.lifecycle c) l x) (hx : c.exec i l = (v, l')) :
    CrawlInv cfg base l' x ∧ ∀ j, j ≠ i → CrawlMoves j l x l' x := by
  cases c with
  | createRun =>
      obtain ⟨-, rfl⟩ := Prod.mk.injEq .. |>.mp hx
      exact h.createRun
  | createTasks run applications =>
      obtain ⟨-, rfl⟩ := Prod.mk.injEq .. |>.mp hx
      exact h.createTasks howes applications
  | beginAttempt t n =>
      obtain ⟨howns, row, hrow, hstatus, rfl, hmax⟩ := howes
      have heq := (Lifecycle.beginAttempt_ok _ hrow hstatus).symm.trans hx
      obtain ⟨-, rfl⟩ := Prod.mk.injEq .. |>.mp heq
      obtain ⟨hb, -⟩ := h.owned howns
      obtain ⟨hlog, -⟩ := h.attempts hb hrow
      refine h.setRow howns hrow ?_ ?_ ?_ ?_ ?_ ?_
      · rcases hstatus with hs | hs <;> rw [hs] <;> rfl
      · rfl
      · exact fun u hu => if_neg hu
      · simp only [if_true, hlog, List.range'_1_concat, Nat.add_comm 1]
      · show row.attemptCount + 1 ≤ cfg.maxAttempts + 1
        omega
      · nofun
  | markRetrying t =>
      obtain ⟨howns, row, hrow, hstatus⟩ := howes
      have heq := (Lifecycle.markRetrying_ok hrow hstatus).symm.trans hx
      obtain ⟨-, rfl⟩ := Prod.mk.injEq .. |>.mp heq
      exact h.setStatus howns hrow (by rw [hstatus]; rfl) .retrying row.errorCode nofun
  | markTaskSucceeded t =>
      obtain ⟨howns, hpublished, row, hrow, hstatus⟩ := howes
      have heq := (Lifecycle.markTaskSucceeded_ok hrow hstatus).symm.trans hx
      obtain ⟨-, rfl⟩ := Prod.mk.injEq .. |>.mp heq
      exact h.setStatus howns hrow (by rw [hstatus]; rfl) .succeeded none fun _ => hpublished
  | markTaskFailed t errorCode =>
      obtain ⟨hb, row, hrow⟩ := h.owned howes
      rcases Lifecycle.markTaskFailed_cases errorCode hrow with ⟨hopen, heq⟩ | ⟨-, heq⟩
      · obtain ⟨-, rfl⟩ := Prod.mk.injEq .. |>.mp (heq.symm.trans hx)
        exact h.setStatus howes hrow hopen .failed (some errorCode) nofun
      · obtain rfl : l' = l := (congrArg Prod.snd hx).symm.trans heq
        exact ⟨h, fun j _ => .refl j l' x⟩
  | finishRun run forcedStatus =>
      have hlt : run < l.runs.length := by
        obtain ⟨row, hrow, -⟩ := howes
        exact (List.getElem?_eq_some_iff.mp hrow).1
      simp only [LifecycleCmd.exec, Lifecycle.finishRun, if_pos hlt] at hx
      obtain ⟨-, rfl⟩ := Prod.mk.injEq .. |>.mp hx
      exact h.finishRun howes _ fun _ => rfl

theorem executor {c : ExecutorCmd} {v : Except PyError c.Answer} (h : CrawlInv cfg base l x)
    (howes : CrawlOwes cfg base i (.executor c) l x) (hx : c.exec i x = some (v, x')) :
    CrawlInv cfg base l x' ∧ ∀ j, j ≠ i → CrawlMoves j l x l x' := by
  cases c with
  | submit item =>
      obtain ⟨-, rfl⟩ := Prod.mk.injEq .. |>.mp (Option.some.inj hx)
      exact h.submit howes.1 howes.2.1 howes.2.2
  | take =>
      obtain ⟨item, hitem, heq⟩ := Option.map_eq_some_iff.mp hx
      obtain ⟨-, rfl⟩ := Prod.mk.injEq .. |>.mp heq
      exact h.take hitem
  | setResult k r =>
      obtain ⟨-, rfl⟩ := Prod.mk.injEq .. |>.mp (Option.some.inj hx)
      obtain ⟨item, htaken, hitem, hnone, hterminal⟩ := howes
      exact h.setResult htaken hitem hnone hterminal
  | result k =>
      obtain ⟨r, -, heq⟩ := Option.map_eq_some_iff.mp hx
      obtain ⟨-, rfl⟩ := Prod.mk.injEq .. |>.mp heq
      exact ⟨h, fun j _ => .refl j l x⟩
  | shutdown run =>
      simp only [ExecutorCmd.exec] at hx
      split at hx
      · obtain ⟨-, rfl⟩ := Prod.mk.injEq .. |>.mp (Option.some.inj hx)
        exact ⟨h, fun j _ => .refl j l x⟩
      · cases hx

end CrawlInv

section Exec

variable {cfg : CrawlerConfig} {base i : Nat} {e : CrawlerEnv} {s s' : CrawlerState}

theorem lifecycle_exec {c : LifecycleCmd} {v : Except PyError c.Answer}
    (h : crawlerExec cfg i e (.lifecycle c) s = some (v, s')) :
    c.exec i s.lifecycle = (v, s'.lifecycle) ∧ s'.executor = s.executor ∧ s'.heap = s.heap := by
  obtain ⟨rfl, rfl⟩ := Prod.mk.injEq .. |>.mp (Option.some.inj h)
  exact ⟨rfl, rfl, rfl⟩

theorem executor_exec {c : ExecutorCmd} {v : Except PyError c.Answer}
    (h : crawlerExec cfg i e (.executor c) s = some (v, s')) :
    c.exec i s.executor = some (v, s'.executor) ∧ s'.lifecycle = s.lifecycle ∧
      s'.heap = s.heap := by
  obtain ⟨⟨r, x⟩, hx, heq⟩ := Option.map_eq_some_iff.mp h
  obtain ⟨rfl, rfl⟩ := Prod.mk.injEq .. |>.mp heq
  exact ⟨hx, rfl, rfl⟩

/-- The commands on neither the lifecycle nor the executor. -/
def CrawlerCmd.Offline : CrawlerCmd → Prop
  | lifecycle _ => False
  | executor _ => False
  | _ => True

/-- They can only add to what is published. -/
theorem offline_exec {c : CrawlerCmd} {v : Except PyError c.Answer} (hc : c.Offline)
    (h : crawlerExec cfg i e c s = some (v, s')) :
    s'.executor = s.executor ∧ s'.lifecycle.tasks = s.lifecycle.tasks ∧
      s'.lifecycle.runs = s.lifecycle.runs ∧ s'.lifecycle.attempts = s.lifecycle.attempts ∧
      s'.lifecycle.illegal = s.lifecycle.illegal ∧
      ∀ t, t ∈ s.lifecycle.published → t ∈ s'.lifecycle.published := by
  have hsame : s'.executor = s.executor → s'.lifecycle = s.lifecycle →
      s'.executor = s.executor ∧ s'.lifecycle.tasks = s.lifecycle.tasks ∧
      s'.lifecycle.runs = s.lifecycle.runs ∧ s'.lifecycle.attempts = s.lifecycle.attempts ∧
      s'.lifecycle.illegal = s.lifecycle.illegal ∧
      ∀ t, t ∈ s.lifecycle.published → t ∈ s'.lifecycle.published := by
    intro hx hl
    rw [hx, hl]
    exact ⟨rfl, rfl, rfl, rfl, rfl, fun _ h => h⟩
  cases c with
  | client c =>
      obtain ⟨r, -, heq⟩ := Option.map_eq_some_iff.mp h
      obtain ⟨-, rfl⟩ := Prod.mk.injEq .. |>.mp heq
      exact hsame rfl rfl
  | breaker c =>
      obtain ⟨-, rfl⟩ := Prod.mk.injEq .. |>.mp (Option.some.inj h)
      exact hsame rfl rfl
  | egress c =>
      obtain ⟨-, rfl⟩ := Prod.mk.injEq .. |>.mp (Option.some.inj h)
      exact hsame rfl rfl
  | outside c =>
      obtain ⟨-, heq⟩ := Prod.mk.injEq .. |>.mp (Option.some.inj h)
      cases c with
      | create contextId lease =>
          simp only at heq
          split at heq <;> exact heq ▸ ⟨rfl, rfl, rfl, rfl, rfl, fun _ h => h⟩
      | primaryOperation client adapter =>
          simp only [CrawlerState.use] at heq
          split at heq <;> exact heq ▸ ⟨rfl, rfl, rfl, rfl, rfl, fun _ h => h⟩
      | publish task =>
          simp only at heq
          split at heq
          · exact heq ▸ ⟨rfl, rfl, rfl, rfl, rfl, fun _ h => h⟩
          · exact heq ▸ ⟨rfl, rfl, rfl, rfl, rfl, fun _ h => List.mem_append_left _ h⟩
      | _ => exact heq ▸ ⟨rfl, rfl, rfl, rfl, rfl, fun _ h => h⟩
  | lifecycle c => exact hc.elim
  | executor c => exact hc.elim

theorem offline_moves {c : CrawlerCmd} {v : Except PyError c.Answer} (hc : c.Offline)
    (h : crawlerExec cfg i e c s = some (v, s')) (j : Nat) :
    CrawlMoves j s.lifecycle s.executor s'.lifecycle s'.executor := by
  obtain ⟨hx, htasks, hruns, -, -, hpublished⟩ := offline_exec hc h
  rw [hx]
  exact .of_eq htasks (fun _ => by rw [hruns]) fun h => hpublished _ h

/-- Every command keeps the invariant, and is a move for the other threads. -/
theorem crawl_exec {c : CrawlerCmd} {v : Except PyError c.Answer}
    (h : CrawlInv cfg base s.lifecycle s.executor)
    (howes : CrawlOwes cfg base i c s.lifecycle s.executor)
    (hx : crawlerExec cfg i e c s = some (v, s')) :
    CrawlInv cfg base s'.lifecycle s'.executor ∧
      ∀ j, j ≠ i → CrawlMoves j s.lifecycle s.executor s'.lifecycle s'.executor := by
  by_cases hc : c.Offline
  · obtain ⟨hexecutor, htasks, hruns, hattempts, hillegal, hpublished⟩ := offline_exec hc hx
    refine ⟨?_, fun j _ => offline_moves hc hx j⟩
    rw [hexecutor]
    exact h.of_eq htasks (by rw [hruns]) hattempts hillegal fun h => hpublished _ h
  cases c with
  | lifecycle c =>
      obtain ⟨hexec, hexecutor, -⟩ := lifecycle_exec hx
      rw [hexecutor]
      exact h.lifecycle howes hexec
  | executor c =>
      obtain ⟨hexec, hlifecycle, -⟩ := executor_exec hx
      rw [hlifecycle]
      exact h.executor howes hexec
  | _ => exact absurd trivial hc

/-- `last_primary_attempt` is local to its call. -/
theorem lastPrimaryAttempt_exec {c : CrawlerCmd} {v : Except PyError c.Answer}
    (hx : crawlerExec cfg i e c s = some (v, s')) {j : Nat}
    (hj : j ≠ i ∨ ∀ n, c ≠ .client (.setLastPrimaryAttempt n)) :
    s'.heap.lastPrimaryAttempt j = s.heap.lastPrimaryAttempt j := by
  cases c with
  | client c =>
      obtain ⟨⟨a, heap⟩, hheap, heq⟩ := Option.map_eq_some_iff.mp hx
      obtain ⟨-, rfl⟩ := Prod.mk.injEq .. |>.mp heq
      cases c with
      | attributes client =>
          obtain ⟨c, -, hc⟩ := Option.map_eq_some_iff.mp hheap
          obtain ⟨-, rfl⟩ := Prod.mk.injEq .. |>.mp hc
          rfl
      | setLastPrimaryAttempt n =>
          obtain ⟨-, rfl⟩ := Prod.mk.injEq .. |>.mp (Option.some.inj hheap)
          exact if_neg (hj.resolve_right fun h => h n rfl)
      | _ =>
          obtain ⟨-, rfl⟩ := Prod.mk.injEq .. |>.mp (Option.some.inj hheap)
          rfl
  | breaker c =>
      obtain ⟨-, rfl⟩ := Prod.mk.injEq .. |>.mp (Option.some.inj hx)
      rfl
  | egress c =>
      obtain ⟨-, rfl⟩ := Prod.mk.injEq .. |>.mp (Option.some.inj hx)
      rfl
  | outside c =>
      obtain ⟨-, heq⟩ := Prod.mk.injEq .. |>.mp (Option.some.inj hx)
      cases c with
      | create contextId lease =>
          simp only at heq
          split at heq <;> exact heq ▸ rfl
      | primaryOperation client adapter =>
          simp only [CrawlerState.use] at heq
          split at heq <;> exact heq ▸ rfl
      | publish task =>
          simp only at heq
          split at heq <;> exact heq ▸ rfl
      | _ => exact heq ▸ rfl
  | lifecycle c => rw [(lifecycle_exec hx).2.2]
  | executor c => rw [(executor_exec hx).2.2]

end Exec

end Sahabino
