import Sahabino.ContainerSafety
import Sahabino.ReleasePlay

/-!
# What a release may do, and when

The stages of a release are read off the transcript, each upon the one
before it: the mark after the crawler was idle or an interruption was
authorised; the application stopped since; the dump, checked; the
verified snapshot; the migration, at the head of the code; then API,
workers and crawler, in this order. Every command that could hurt is due
at one of them only. A release that fails has either left the application
alone or ends with stopping it.

Again nothing is assumed about what the host answers.
-/

namespace Sahabino

namespace Deploy

open Py (JsonVal)
open Conc (Prog Audit Said Grown Steps Evident Lasting Upon Just Since lasting_just evident_said)
open ReleaseBackup (CompletedProcess)

abbrev HostEvent := Conc.Event HostCommand HostReply ToolRaise

/-! ## Kinds of commands -/

/-- The application is started, or a part of it. -/
def StartsApplication : HostCommand → Prop
  | .docker (.up _ _ service) => service ∈ APPLICATION
  | .task .startApi | .task .startWorkers | .task .startCrawler | .task .waitAll => True
  | _ => False

def NoStart (c : HostCommand) : Prop := ¬StartsApplication c

/-- A container is stopped or removed. -/
def NoStop : HostCommand → Prop
  | .docker (.stop _) | .docker (.rm _) => False
  | _ => True

/-- Tasks that must wait for a stage. -/
def PlayTask.waits : PlayTask → Bool
  | .postgresDump | .snapshot _ | .reconcileSeaweed | .alembicUpgrade | .provisionTopics => true
  | .startApi | .startWorkers | .startCrawler | .waitAll => true
  | _ => false

/-- Commands that may be issued at any stage. -/
def Plain : HostCommand → Prop
  | .task t => t.waits = false
  | c => c.isQuiet = true

/-- What may happen before the mark. -/
def Before : HostCommand → Prop
  | .docker (.up _ _ service) => service ∉ APPLICATION
  | .docker (.start _) => True
  | c => Plain c

/-- The commands of `stop_application`. -/
def Stopping : HostCommand → Prop
  | .docker (.stop _) => True
  | c => c.isQuiet = true

theorem Plain.before {c : HostCommand} (h : Plain c) : Before c := by
  unfold Before
  split
  · cases h
  · cases h
  · exact h

theorem Plain.noStart {c : HostCommand} (h : Plain c) : NoStart c := by
  intro hstart
  unfold StartsApplication at hstart
  split at hstart
  all_goals first | exact hstart | cases h

theorem Plain.noStop {c : HostCommand} (h : Plain c) : NoStop c := by
  unfold NoStop
  split
  · cases h
  · cases h
  · trivial

theorem Stopping.noStart {c : HostCommand} (h : Stopping c) : NoStart c := by
  intro hstart
  unfold StartsApplication at hstart
  split at hstart
  all_goals first | exact hstart | cases h

/-! ## Stages -/

section

variable {W : Type} (lib : Stdlib) (loads : String → Except Py.Exc JsonVal)
  (quote : String → String) (isLetter : Char → Bool) (v : PlayVars)

/-- Active crawls may be interrupted. -/
def Authorised (s : HostState W) : Prop :=
  v.allowInterruption = true ∨
    v.drainInteractive = true ∧ ∃ r, Saw (.task .askInterruption) r s ∧ r.stdout = "2"

def MayInterrupt (s : HostState W) : Prop := JustCounted v.compose 0 s ∨ Authorised v s

def IsMark (e : HostEvent) : Prop := e.command = .markWriterStop

def Marked : HostState W → Prop := Upon (fun _ => True) IsMark (MayInterrupt v)

/-- The container was not running, or it has been stopped. -/
def Halted (item : JsonVal) (s : HostState W) : Prop :=
  Running item false ∨ ∃ id r, item.index "Id" = .ok (.str id) ∧ Told (.stop id) r s ∧
    r.returncode = 0

/-- Whatever container of the application was found, it is halted. -/
def AllStopped (project : String) (s : HostState W) : Prop :=
  ∀ service ∈ APPLICATION, ∃ found items, Found loads project service found s ∧
    found.elements = .ok items ∧ ∀ item ∈ items, Halted item s

/-- All of it was found stopped, or has been stopped, since the mark, and nothing of it started. -/
def Stopped : HostState W → Prop :=
  Upon (fun s => Just NoStart s ∧ AllStopped loads v.project s) IsMark (MayInterrupt v)

/-- A task that succeeded. -/
def Done (t : PlayTask) (ok : CompletedProcess → Prop) (e : HostEvent) : Prop :=
  ∃ r : CompletedProcess, e = ⟨.task t, .ok r⟩ ∧ r.returncode = 0 ∧ ok r

/-- A dump that is a regular file, not empty, and can be listed. -/
def Restorable (path : String) (s : HostState W) : Prop :=
  Filled (.of path) s ∧ ∃ r, Saw (.task (.pgRestoreList path)) r s ∧ r.returncode = 0

def Dumped (path : String) : HostState W → Prop :=
  Upon (fun s => Just NoStart s ∧ Restorable path s)
    (Done .postgresDump fun r => createdPath r.stdout = some path) (Stopped loads v)

/-- The snapshot with that dump has been taken and verified. -/
def Snapshotted (s : HostState W) : Prop :=
  ∃ path, Upon (Just NoStart)
    (Done (.snapshot path) fun r => contains "BACKUP_VERIFIED:" r.stdout = true)
    (Dumped loads v path) s

/-- The database is at the head of the code. -/
def AtHead (s : HostState W) : Prop :=
  ∃ heads database, Saw (.task .alembicHeads) heads s ∧ Saw (.task .databaseRevision) database s ∧
    heads.returncode = 0 ∧ database.returncode = 0 ∧ revisionsAgree heads database = true

def Migrated : HostState W → Prop :=
  Upon (fun s => Just NoStart s ∧ AtHead s) (Done .alembicUpgrade fun _ => True)
    (Snapshotted loads v)

def ApiStarted : HostState W → Prop :=
  Upon (Just NoStop) (Done .startApi fun _ => True) (Migrated loads v)

def WorkersStarted : HostState W → Prop :=
  Upon (Just NoStop) (Done .startWorkers fun _ => True) (ApiStarted loads v)

def CrawlerStarted : HostState W → Prop :=
  Upon (Just NoStop) (Done .startCrawler fun _ => True) (WorkersStarted loads v)

/-- The group was last seen stable, with a member. -/
def GroupStable (s : HostState W) : Prop :=
  ∃ result state, Told (.groupState v.groupCommand) result s ∧ result.returncode = 0 ∧
    parseGroupState isLetter result.stdout = some state ∧ isHealthy state = true

/-- All was waited for, and verified since then. -/
def Released : HostState W → Prop :=
  Upon (fun s => Just NoStop s ∧ GroupStable isLetter v s ∧
      ∀ service ∈ APPLICATION, VerifiedService loads v.project v.revision service s)
    (Done .waitAll fun _ => True) (CrawlerStarted loads v)

/-! ## What is due -/

/-- The stage at which a command is due. -/
def Due : HostCommand → HostState W → Prop
  | .markWriterStop, s => MayInterrupt v s
  | .docker (.stop _), s => Marked v s
  | .docker (.rm _), s => Snapshotted loads v s
  | .docker (.up _ _ service), _ => service ∉ APPLICATION
  | .task .postgresDump, s => Stopped loads v s
  | .task (.snapshot path), s => Dumped loads v path s
  | .task .reconcileSeaweed, s => Snapshotted loads v s
  | .task .alembicUpgrade, s => Snapshotted loads v s
  | .task .provisionTopics, s => Migrated loads v s
  | .task .startApi, s => Migrated loads v s
  | .task .startWorkers, s => ApiStarted loads v s
  | .task .startCrawler, s => WorkersStarted loads v s
  | .task .waitAll, s => CrawlerStarted loads v s
  | _, _ => True

/-- What the container tool issues has been earned by one of its modes. -/
def Kept : HostCommand → HostState W → Prop
  | .task _, _ | .markWriterStop, _ => True
  | c, s => ∃ mode, Earned lib loads v.project quote mode c s

/-- The discipline of the play. -/
def playAudit : Audit HostCommand HostReply ToolRaise W where
  pre c s := Kept lib loads quote v c s ∧ Due loads v c s
  allow _ _ _ := True

/-- The discipline before the mark. -/
def openingAudit : Audit HostCommand HostReply ToolRaise W where
  pre c s := Kept lib loads quote v c s ∧ Before c
  allow _ _ _ := True

/-! ## How a release fails -/

/-- An entry that says whether the container runs, and which it is if it does. -/
def Tells (item : JsonVal) : Prop :=
  ∃ b, Running item b ∧ (b = true → ∃ id, item.index "Id" = .ok (.str id))

/-- An inspection that can be read. -/
def Readable (r : CompletedProcess) : Prop :=
  ∃ found items, loads (ReleaseBackup.stripped r.stdout) = .ok found ∧ found.elements = .ok items ∧
    ∀ item ∈ items, Tells item

/-- Docker did not let the application be stopped: it gave no answer or a failure, listed more than
one container for a service, or printed an inspection that cannot be read. -/
def Faulty (project : String) (s : HostState W) : Prop :=
  (∃ c x, (⟨.docker c, .error x⟩ : HostEvent) ∈ s.log) ∨
  (∃ c r, Told c r s ∧ r.returncode ≠ 0) ∨
  (∃ service r, Told (.psService project service) r s ∧
    1 < (Py.textLines (ReleaseBackup.stripped r.stdout)).length) ∨
  ∃ ids r, Told (.inspect ids) r s ∧ ¬Readable loads r

/-- Before the mark nothing was stopped, removed, migrated or started; after it the last that
happened is that the application was stopped, unless Docker did not let it. -/
def FailedClosed (s : HostState W) : Prop :=
  Just Before s ∨ Marked v s ∧ ∃ base, Since base (fun t =>
    Just Stopping t ∧ (AllStopped loads v.project t ∨ Faulty loads v.project t)) s

end

/-! ## Stages last -/

section

variable {W : Type} {lib : Stdlib} {loads : String → Except Py.Exc JsonVal}
  {quote : String → String} {isLetter : Char → Bool} {v : PlayVars} {s : HostState W}

theorem evident_halted {item : JsonVal} : Evident (Halted (W := W) item) :=
  .or (.const _) (.exists_ fun _ => .exists_ fun _ =>
    .and (.const _) (.and evident_told (.const _)))

theorem evident_allStopped {project : String} : Evident (AllStopped (W := W) loads project) := by
  intro s s' hs h service hservice
  obtain ⟨found, items, hfound, hitems, hall⟩ := h service hservice
  exact ⟨found, items, evident_found s s' hs hfound, hitems,
    fun item hitem => evident_halted s s' hs (hall item hitem)⟩

theorem evident_restorable {path : String} : Evident (Restorable (W := W) path) :=
  .and evident_filled (.exists_ fun _ => .and evident_saw (.const _))

theorem evident_atHead : Evident (AtHead (W := W)) :=
  .exists_ fun _ => .exists_ fun _ => .and evident_saw (.and evident_saw (.const _))

theorem lasting_mayInterrupt : Lasting (fun _ => False) (MayInterrupt (W := W) v) := by
  rintro s s' hs (h | h)
  · exact Or.inl (Lasting.upon lasting_just (Evident.lasting (P := fun _ => True) (.const True))
      s s' hs h)
  · refine Or.inr (h.imp id ?_)
    rintro ⟨hinteractive, r, hsaw, htwo⟩
    exact ⟨hinteractive, r, evident_saw s s' (hs.mono fun _ _ => trivial) hsaw, htwo⟩

theorem evident_marked : Evident (Marked (W := W) v) :=
  Lasting.upon (fun _ _ _ h => h) lasting_mayInterrupt

theorem lasting_stopped : Lasting NoStart (Stopped (W := W) loads v) :=
  Lasting.upon (lasting_just.and evident_allStopped.lasting) lasting_mayInterrupt

theorem lasting_dumped {path : String} : Lasting NoStart (Dumped (W := W) loads v path) :=
  Lasting.upon (lasting_just.and evident_restorable.lasting) lasting_stopped

theorem lasting_snapshotted : Lasting NoStart (Snapshotted (W := W) loads v) := by
  rintro s s' hs ⟨path, h⟩
  exact ⟨path, Lasting.upon lasting_just lasting_dumped s s' hs h⟩

theorem lasting_migrated : Lasting NoStart (Migrated (W := W) loads v) :=
  Lasting.upon (lasting_just.and evident_atHead.lasting) lasting_snapshotted

theorem lasting_apiStarted : Lasting NoStop (ApiStarted (W := W) loads v) :=
  Lasting.upon lasting_just lasting_migrated

theorem lasting_workersStarted : Lasting NoStop (WorkersStarted (W := W) loads v) :=
  Lasting.upon lasting_just lasting_apiStarted

theorem lasting_crawlerStarted : Lasting NoStop (CrawlerStarted (W := W) loads v) :=
  Lasting.upon lasting_just lasting_workersStarted

end

/-! ## Stopping the application -/

section

variable {W : Type} {loads : String → Except Py.Exc JsonVal} {project : String}
  {A : Audit HostCommand HostReply ToolRaise W} {s : HostState W}

theorem evident_faulty : Evident (Faulty (W := W) loads project) := by
  refine .or ?_ (.or ?_ (.or ?_ ?_))
  · exact .exists_ fun _ => .exists_ fun _ => fun _ _ hs h => hs.mem h
  · exact .exists_ fun _ => .exists_ fun _ => .and evident_told (.const _)
  · exact .exists_ fun _ => .exists_ fun _ => .and evident_told (.const _)
  · exact .exists_ fun _ => .exists_ fun _ => .and evident_told (.const _)

/-- A command either succeeds, or Docker is at fault. -/
theorem meets_command {c : DockerCommand} (hpre : A.pre (.docker c) s)
    {Q : String → HostState W → Prop}
    (h : ∀ r t, Later s t → Told c r t → r.returncode = 0 → Q (ReleaseBackup.stripped r.stdout) t) :
    A.Meets (command c) Q (fun _ t => Faulty loads project t) s := by
  refine Audit.meets_seq (Audit.meets_cmd hpre (fun e r _ hr => ?_) fun e x _ hx => ?_)
  · have htold : Told c r (s.step (.docker c) e) := Conc.said_step hr
    split
    · rename_i hcode
      exact Audit.meets_raise (Or.inr (Or.inl ⟨c, r, htold, hcode⟩))
    · rename_i hcode
      exact h r _ (.step trivial) htold (not_not.mp hcode)
  · refine Or.inl ⟨c, x, ?_⟩
    rw [Conc.log_step hx]
    exact List.mem_cons_self ..

theorem meets_py {α : Type} {x : Except Py.Exc α} {Q : α → HostState W → Prop}
    (h : ∀ a, x = .ok a → Q a s) (hX : ∀ e, x = .error e → Faulty loads project s) :
    A.Meets (py x) Q (fun _ t => Faulty loads project t) s := by
  cases x with
  | ok a => exact h a rfl
  | error e => exact hX e rfl

/-- The containers of a service: none, or those of an inspection. -/
def Inspected (loads : String → Except Py.Exc JsonVal) (found : JsonVal) (s : HostState W) : Prop :=
  found = .arr [] ∨ ∃ ids r, Told (.inspect ids) r s ∧
    loads (ReleaseBackup.stripped r.stdout) = .ok found

theorem meets_containers (hA : Lenient A) {service : String} {Q : JsonVal → HostState W → Prop}
    (h : ∀ found t, Later s t → Found loads project service found t → Inspected loads found t →
      Q found t) :
    A.Meets (containers loads project service) Q (fun _ t => Faulty loads project t) s := by
  refine Audit.meets_seq (meets_command (hA _ _ rfl) fun r t ht htold hcode => ?_)
  cases hids : Py.textLines (ReleaseBackup.stripped r.stdout) with
  | nil => exact h _ t ht ⟨r, htold, hcode, Or.inl ⟨hids, rfl⟩⟩ (Or.inl rfl)
  | cons id rest =>
      cases rest with
      | cons id' rest =>
          refine Audit.meets_raise (Or.inr (Or.inr (Or.inl ⟨service, r, htold, ?_⟩)))
          rw [hids]
          simp
      | nil =>
          refine Audit.meets_seq (meets_command (hA _ _ rfl) fun r' t' ht' htold' hcode' => ?_)
          refine meets_py (fun found hfound => ?_) fun e he => ?_
          · refine h found t' (ht.trans ht') ?_ (Or.inr ⟨[id], r', htold', hfound⟩)
            exact ⟨r, evident_told t t' ht' htold, hcode,
              Or.inr ⟨id, r', hids, htold', hcode', hfound⟩⟩
          · refine Or.inr (Or.inr (Or.inr ⟨[id], r', htold', ?_⟩))
            rintro ⟨found, items, hfound, -⟩
            rw [he] at hfound
            cases hfound

theorem meets_stopItem (hstop : ∀ id s, A.pre (.docker (.stop id)) s) {item : JsonVal}
    (hbad : ¬Tells item → Faulty loads project s) :
    A.Meets (stopItem item) (fun _ t => Later s t ∧ Halted item t)
      (fun _ t => Faulty loads project t) s := by
  refine Audit.meets_seq (Audit.meets_seq (meets_py (fun state hstate => ?_) fun e he => ?_))
  · refine Audit.meets_seq (meets_py (fun value hvalue => ?_) fun e he => ?_)
    · refine Audit.meets_pure ?_
      split
      · rename_i hrunning
        have hbad' : (∀ id, item.index "Id" ≠ .ok (.str id)) → Faulty loads project s := by
          refine fun hid => hbad ?_
          rintro ⟨b, ⟨state', value', hstate', hvalue', hb⟩, htells⟩
          obtain rfl : state = state' := Except.ok.inj (hstate.symm.trans hstate')
          obtain rfl : value = value' := Except.ok.inj (hvalue.symm.trans hvalue')
          obtain ⟨id, hid'⟩ := htells (hb.symm.trans hrunning)
          exact hid id hid'
        refine Audit.meets_seq (Audit.meets_seq (meets_py (fun ident hident => ?_) fun e he => ?_))
        · cases ident with
          | str id =>
              refine Audit.meets_pure (Audit.meets_seq (meets_command (hstop id s)
                fun r t ht htold hcode => ?_))
              exact ⟨ht, Or.inr ⟨id, r, hident, htold, hcode⟩⟩
          | _ => exact Audit.meets_raise (hbad' fun id hid => by rw [hident] at hid; cases hid)
        · exact hbad' fun id hid => by rw [he] at hid; cases hid
      · rename_i hrunning
        exact ⟨.refl, Or.inl ⟨state, value, hstate, hvalue, Bool.eq_false_iff.mpr hrunning⟩⟩
    · refine hbad ?_
      rintro ⟨b, ⟨state', value, hstate', hvalue, -⟩, -⟩
      obtain rfl : state = state' := Except.ok.inj (hstate.symm.trans hstate')
      rw [he] at hvalue
      cases hvalue
  · refine hbad ?_
    rintro ⟨b, ⟨state, value, hstate, -⟩, -⟩
    rw [he] at hstate
    cases hstate

theorem meets_stopItems (hstop : ∀ id s, A.pre (.docker (.stop id)) s) {service : String}
    {items : List JsonVal} (hbad : ∀ item ∈ items, ¬Tells item → Faulty loads project s) :
    A.Meets (collect stopItem service items)
      (fun _ t => Later s t ∧ ∀ item ∈ items, Halted item t)
      (fun _ t => Faulty loads project t) s := by
  induction items generalizing s with
  | nil => exact ⟨.refl, fun item hitem => by cases hitem⟩
  | cons item items ih =>
      refine Audit.meets_seq ((meets_stopItem hstop (hbad item (List.mem_cons_self ..))).mono
        (fun did t ht => ?_) fun _ _ h => h)
      have hrest := ih (s := t) fun x hx htells =>
        evident_faulty s t ht.1 (hbad x (List.mem_cons_of_mem item hx) htells)
      refine Audit.meets_seq (hrest.mono (fun others t' ht' => ?_) fun _ _ h => h)
      refine ⟨ht.1.trans ht'.1, fun x hx => ?_⟩
      rcases List.mem_cons.mp hx with rfl | hx
      · exact evident_halted t t' ht'.1 ht.2
      · exact ht'.2 x hx

/-- It stops the application, or Docker is at fault. -/
theorem meets_stopServices (hA : Lenient A) (hstop : ∀ id s, A.pre (.docker (.stop id)) s)
    {services : List String} :
    A.Meets (overContainers loads project (fun _ => stopItem) services)
      (fun _ t => Later s t ∧ ∀ service ∈ services, ∃ found items,
        Found loads project service found t ∧ found.elements = .ok items ∧
        ∀ item ∈ items, Halted item t)
      (fun _ t => Faulty loads project t) s := by
  induction services generalizing s with
  | nil => exact ⟨.refl, fun service hservice => by cases hservice⟩
  | cons service services ih =>
      refine Audit.meets_seq (meets_containers hA fun found t ht hfound hinspected => ?_)
      have hbad : (¬∃ items, found.elements = .ok items ∧ ∀ item ∈ items, Tells item) →
          Faulty loads project t := by
        intro hunread
        rcases hinspected with rfl | ⟨ids, r, htold, hloads⟩
        · exact absurd ⟨[], rfl, fun item hitem => by cases hitem⟩ hunread
        · refine Or.inr (Or.inr (Or.inr ⟨ids, r, htold, ?_⟩))
          rintro ⟨found', items, hloads', hitems⟩
          obtain rfl : found = found' := Except.ok.inj (hloads.symm.trans hloads')
          exact hunread ⟨items, hitems⟩
      refine Audit.meets_seq (meets_py (fun items hitems => ?_) fun e he => ?_)
      · have hstopped : A.Meets (collect stopItem service items)
            (fun _ t' => Later t t' ∧ ∀ item ∈ items, Halted item t')
            (fun _ t' => Faulty loads project t') t :=
          meets_stopItems hstop fun item hitem htells => hbad fun ⟨items', hitems', hall⟩ => by
            obtain rfl : items = items' := Except.ok.inj (hitems.symm.trans hitems')
            exact htells (hall item hitem)
        refine Audit.meets_seq (hstopped.mono (fun here t₁ ht₁ => ?_) fun _ _ h => h)
        refine Audit.meets_seq ((ih (s := t₁)).mono (fun others t₂ ht₂ => ?_) fun _ _ h => h)
        refine ⟨ht.trans (ht₁.1.trans ht₂.1), fun service' hservice' => ?_⟩
        rcases List.mem_cons.mp hservice' with rfl | hservice'
        · exact ⟨found, items, evident_found t t₂ (ht₁.1.trans ht₂.1) hfound, hitems,
            fun item hitem => evident_halted t₁ t₂ ht₂.1 (ht₁.2 item hitem)⟩
        · exact ht₂.2 service' hservice'
      · refine hbad ?_
        rintro ⟨items, hitems, -⟩
        rw [he] at hitems
        cases hitems

end

/-! ## The parts of the play -/

theorem only_taskOk {t : PlayTask} (ht : t.waits = false) : (taskOk t).Only Plain := by
  refine Prog.Only.seq (Prog.Only.cmd (c := HostCommand.task t) ht) fun r => ?_
  split
  · trivial
  · trivial

theorem only_retried {t : PlayTask} (ht : t.waits = false) {ok : CompletedProcess → Bool}
    {delay : ℚ} {n : Nat} : (retried t ok delay n).Only Plain := by
  induction n with
  | zero =>
      refine Prog.Only.seq (Prog.Only.cmd (c := HostCommand.task t) ht) fun r => ?_
      split
      · trivial
      · trivial
  | succ n ih =>
      refine Prog.Only.seq (Prog.Only.cmd (c := HostCommand.task t) ht) fun r => ?_
      split
      · trivial
      · exact Prog.Only.seq (Prog.Only.cmd (c := HostCommand.sleep delay) rfl) fun _ => ih

theorem only_forEach {α : Type} {body : α → Tool Unit} (hbody : ∀ x, (body x).Only Plain)
    {items : List α} : (forEach body items).Only Plain := by
  induction items with
  | nil => trivial
  | cons x items ih => exact Prog.Only.seq (hbody x) fun _ => ih

theorem only_missingImages {images : List String} : (missingImages images).Only Plain := by
  induction images with
  | nil => trivial
  | cons image images ih =>
      refine Prog.Only.seq (Prog.Only.cmd (c := HostCommand.task (.inspectBase image)) rfl)
        fun r => ?_
      exact Prog.Only.seq ih fun others => trivial

theorem only_prepareImages : prepareImages.Only Plain := by
  refine Prog.Only.seq (only_taskOk rfl) fun _ => Prog.Only.seq only_missingImages fun missing => ?_
  refine Prog.Only.seq (only_forEach fun image => only_retried rfl) fun _ => ?_
  refine Prog.Only.seq (only_taskOk rfl) fun _ => ?_
  refine Prog.Only.seq (only_forEach fun service => ?_) fun _ => ?_
  · exact Prog.Only.seq (only_taskOk rfl) fun _ => trivial
  · exact Prog.Only.seq (only_taskOk rfl) fun _ => Prog.Only.seq (only_taskOk rfl) fun _ => trivial

theorem only_reconcileRest : (do
    retried .seaweedHealth (fun result => ReleaseBackup.stripped result.stdout = "healthy") 3 30
    retried .kafkaReady (fun _ => true) 3 30 : Tool Unit).Only Plain :=
  Prog.Only.seq (only_retried rfl) fun _ => only_retried rfl

theorem only_configureGrafana {v : PlayVars} : (configureGrafana v).Only Plain := by
  unfold configureGrafana
  split
  · refine Prog.Only.seq (Prog.Only.outcome (only_taskOk rfl)) fun r => ?_
    cases r with
    | ok _ => trivial
    | error _ => exact Prog.Only.seq (only_taskOk rfl) fun _ => trivial
  · trivial

theorem only_isAbsentOrEmpty {p : HostPath} : (isAbsentOrEmpty p).Only Plain := by
  refine Prog.Only.seq (Prog.Only.cmd (c := HostCommand.isSymlink p) rfl) fun link => ?_
  split
  · trivial
  refine Prog.Only.seq (Prog.Only.cmd (c := HostCommand.isFile p) rfl) fun file => ?_
  split
  · trivial
  · exact Prog.Only.seq (Prog.Only.cmd (c := HostCommand.size p) rfl) fun _ => trivial

theorem only_checkDump {path : String} : (checkDump path).Only Plain := by
  refine Prog.Only.seq only_isAbsentOrEmpty fun b => ?_
  split
  · trivial
  · exact Prog.Only.seq (only_taskOk rfl) fun _ => trivial

theorem only_checkHead : checkHead.Only Plain := by
  refine Prog.Only.seq (only_taskOk rfl) fun heads => ?_
  refine Prog.Only.seq (only_taskOk rfl) fun database => ?_
  split
  · trivial
  · trivial

/-! ### What the container tool issues -/

def Mode.stops : Mode → Bool
  | .stopApp | .removeStalePersisted _ => true
  | _ => false

def Mode.removes : Mode → Bool
  | .removeStale | .removeStalePersisted _ => true
  | _ => false

def Mode.brings : Mode → Bool
  | .ensure _ | .recoverMissing _ _ => true
  | _ => false

section

variable {W : Type} {lib : Stdlib} {loads : String → Except Py.Exc JsonVal}
  {quote : String → String} {isLetter : Char → Bool} {v : PlayVars} {s : HostState W}

theorem not_application {service : String} (h : service ∈ ["postgres", "kafka", "seaweedfs"]) :
    service ∉ APPLICATION := by
  intro happlication
  simp only [List.mem_cons, List.not_mem_nil, or_false] at h
  rcases h with rfl | rfl | rfl
  all_goals exact absurd happlication (by decide)

theorem Earned.kinds {mode : Mode} {c : HostCommand}
    (h : Earned lib loads v.project quote mode c s) :
    c.isQuiet = true ∨ (mode.stops = true ∧ ∃ id, c = .docker (.stop id)) ∨
      (mode.removes = true ∧ ∃ id, c = .docker (.rm id)) ∨
      (mode.brings = true ∧ ((∃ id, c = .docker (.start id)) ∨
        ∃ argv recreate service, c = .docker (.up argv recreate service) ∧
          service ∉ APPLICATION)) := by
  unfold Earned at h
  split at h
  · exact Or.inr (Or.inl ⟨rfl, _, rfl⟩)
  · exact Or.inr (Or.inr (Or.inl ⟨rfl, _, rfl⟩))
  · exact Or.inr (Or.inl ⟨rfl, _, rfl⟩)
  · exact Or.inr (Or.inr (Or.inl ⟨rfl, _, rfl⟩))
  · exact Or.inr (Or.inr (Or.inr ⟨rfl, Or.inl ⟨_, rfl⟩⟩))
  · obtain ⟨rfl, hservice, -⟩ := h
    exact Or.inr (Or.inr (Or.inr ⟨rfl, Or.inr ⟨_, _, _, rfl, not_application hservice⟩⟩))
  · obtain ⟨rfl, hservice, -⟩ := h
    exact Or.inr (Or.inr (Or.inr ⟨rfl, Or.inr ⟨_, _, _, rfl, not_application hservice⟩⟩))
  · exact Or.inl h

theorem Earned.kept {mode : Mode} {c : HostCommand}
    (h : Earned lib loads v.project quote mode c s) : Kept lib loads quote v c s := by
  unfold Kept
  split
  · trivial
  · trivial
  · exact ⟨mode, h⟩

theorem due_quiet {c : HostCommand} (hc : c.isQuiet = true) : Due loads v c s := by
  unfold Due
  split <;> trivial

theorem kept_quiet {c : HostCommand} (hc : c.isQuiet = true) : Kept lib loads quote v c s := by
  unfold Kept
  split
  · trivial
  · trivial
  · exact ⟨.stopApp, lenient_guarded c s hc⟩

theorem lenient_play : Lenient (playAudit (W := W) lib loads quote v) :=
  fun _ _ hc => ⟨kept_quiet hc, due_quiet hc⟩

theorem plain_of_quiet {c : HostCommand} (hc : c.isQuiet = true) : Plain c := by
  unfold Plain
  split
  · cases hc
  · exact hc

theorem lenient_opening : Lenient (openingAudit (W := W) lib loads quote v) :=
  fun _ _ hc => ⟨kept_quiet hc, (plain_of_quiet hc).before⟩

theorem due_plain {c : HostCommand} (hc : Plain c) : Due loads v c s := by
  cases c with
  | task t => cases t <;> trivial
  | _ => exact due_quiet hc

theorem pre_plain {c : HostCommand} (hc : Plain c) : (playAudit lib loads quote v).pre c s := by
  cases c with
  | task t => exact ⟨trivial, due_plain hc⟩
  | _ => exact lenient_play _ s hc

/-- A mode of the container tool, at a stage that its commands do not end. -/
theorem safe_containerTool {mode : Mode} {P : HostCommand → Prop} {R : HostState W → Prop}
    (hR : Lasting P R) (hs : R s) (hquiet : ∀ c, c.isQuiet = true → P c)
    (hstop : mode.stops = true → ∀ id t, R t → Marked v t ∧ P (.docker (.stop id)))
    (hrm : mode.removes = true → ∀ id t, R t → Snapshotted loads v t ∧ P (.docker (.rm id)))
    (hup : mode.brings = true → (∀ id, P (.docker (.start id))) ∧
      ∀ argv recreate service, service ∉ APPLICATION → P (.docker (.up argv recreate service))) :
    Safe (playAudit lib loads quote v) (containerTool lib loads quote v mode)
      (fun _ t => R t) s := by
  have hmain : Safe (guarded lib loads v.project quote mode) (containerTool lib loads quote v mode)
      (fun _ _ => True) s := main_guarded.mono (fun _ _ _ => trivial) fun _ _ h => h
  refine (hmain.under (P := P) (fun _ _ _ _ => trivial) (fun c t ht hc => ?_) .refl).mono
    (fun _ t h => hR s t h.2 hs) fun _ _ _ => trivial
  have hRt := hR s t ht hs
  refine ⟨⟨Earned.kept hc, ?_⟩, ?_⟩
  · rcases Earned.kinds hc with hc | ⟨hm, id, rfl⟩ | ⟨hm, id, rfl⟩ |
      ⟨hm, ⟨id, rfl⟩ | ⟨argv, b, x, rfl, hx⟩⟩
    · exact due_quiet hc
    · exact (hstop hm id t hRt).1
    · exact (hrm hm id t hRt).1
    · trivial
    · exact hx
  · rcases Earned.kinds hc with hc | ⟨hm, id, rfl⟩ | ⟨hm, id, rfl⟩ |
      ⟨hm, ⟨id, rfl⟩ | ⟨argv, b, x, rfl, hx⟩⟩
    · exact hquiet c hc
    · exact (hstop hm id t hRt).2
    · exact (hrm hm id t hRt).2
    · exact (hup hm).1 id
    · exact (hup hm).2 argv b x hx

/-- In the window. -/
theorem safe_windowTool {mode : Mode} {R : HostState W → Prop} (hR : Lasting NoStart R) (hs : R s)
    (hstop : mode.stops = true → ∀ t, R t → Marked v t)
    (hrm : mode.removes = true → ∀ t, R t → Snapshotted loads v t) :
    Safe (playAudit lib loads quote v) (containerTool lib loads quote v mode) (fun _ t => R t) s :=
  safe_containerTool hR hs (fun _ hc => (plain_of_quiet hc).noStart)
    (fun hm _ t ht => ⟨hstop hm t ht, id⟩) (fun hm _ t ht => ⟨hrm hm t ht, id⟩)
    fun _ => ⟨fun _ => id, fun _ _ _ hservice => hservice⟩

/-- Plain commands, at any stage. -/
theorem safe_plain {α : Type} {p : Tool α} (hp : p.Only Plain) {P : HostCommand → Prop}
    {R : HostState W → Prop} (hR : Lasting P R) (hP : ∀ c, Plain c → P c) (hs : R s) :
    Safe (playAudit lib loads quote v) p (fun _ t => R t) s :=
  (Audit.meets_of_only hp (fun _ _ hc => pre_plain hc) .refl).mono
    (fun _ t ht => hR s t (ht.mono hP) hs) fun _ _ _ => trivial

theorem safe_taskOk {t : PlayTask} (hdue : Due loads v (.task t) s)
    {Q : CompletedProcess → HostState W → Prop}
    (h : ∀ r s', s'.log = ⟨.task t, .ok r⟩ :: s.log → r.returncode = 0 → Q r s') :
    Safe (playAudit lib loads quote v) (taskOk t) Q s := by
  refine Audit.meets_seq (Audit.meets_cmd ⟨trivial, hdue⟩ (fun e r _ hr => ?_)
    fun _ _ _ _ => trivial)
  split
  · exact safe_fail
  · rename_i hcode
    exact h r _ (Conc.log_step hr) (not_not.mp hcode)

/-- A task that is the next stage. -/
theorem safe_stage {t : PlayTask} {S R : HostState W → Prop} {P : HostCommand → Prop}
    (hdue : Due loads v (.task t) s) (hR : Lasting P R) (hs : R s) (hS : ∀ w, S ⟨w, []⟩) :
    Safe (playAudit lib loads quote v) (taskOk t)
      (fun _ t' => Upon S (Done t fun _ => True) R t') s := by
  refine safe_taskOk hdue fun r s' hlog hcode =>
    ⟨[], _, s.log, hlog, hS _, ⟨r, rfl, hcode, trivial⟩, ?_⟩
  exact hR s ⟨s'.world, s.log⟩ ⟨[], rfl, fun _ h => by cases h⟩ hs

/-- What a check finds out on its own, found out since its start. -/
theorem safe_since {α : Type} {A : Audit HostCommand HostReply ToolRaise W} {p : Tool α}
    {Q Q' : α → HostState W → Prop} (h : Safe A p Q s)
    (h' : Safe (Audit.only fun _ => True) p Q' ⟨s.world, []⟩) :
    Safe A p (fun a t => Q a t ∧ Since s.log (Q' a) t) s :=
  (Audit.meets_since rfl h h').mono (fun _ _ h => h) fun _ _ _ => trivial

theorem lenient_only :
    Lenient (Audit.only fun _ => True : Audit HostCommand HostReply ToolRaise W) :=
  fun _ _ _ => trivial

/-- A plain check. -/
theorem safe_check {α : Type} {p : Tool α} (hp : p.Only Plain) {S : α → HostState W → Prop}
    (h' : Safe (Audit.only fun _ => True) p S ⟨s.world, []⟩) :
    Safe (playAudit lib loads quote v) p
      (fun a t => Since s.log (fun t' => Just NoStart t' ∧ S a t') t) s := by
  have hplay : Safe (playAudit lib loads quote v) p (fun _ _ => True) s :=
    safe_plain hp (P := Plain) (fun _ _ _ h => h) (fun _ h => h) trivial
  have hjust := Audit.Meets.and h'
    (Audit.meets_of_only (P := Plain) hp (fun _ _ _ => trivial) .refl)
  have hstrict : Safe (Audit.only fun _ => True) p (fun a t => Just NoStart t ∧ S a t)
      ⟨s.world, []⟩ :=
    hjust.mono (fun a t ht => ⟨fun e he => (ht.2.just e he).noStart, ht.1⟩) fun _ _ _ => trivial
  exact (safe_since hplay hstrict).mono (fun a t ht => ht.2) fun _ _ _ => trivial

/-! ### Before the mark -/

theorem safe_exitCode {A : Audit HostCommand HostReply ToolRaise W} {p : Tool ℤ}
    {Q : ℤ → HostState W → Prop} (h : Safe A p Q s) :
    Safe A (exitCode p) (fun code t => Q code t ∨ code = 2 ∨ code = 1) s := by
  refine Audit.meets_seq (Conc.Proto.wp_outcome.mpr (Audit.Meets.mono h (fun code t ht => ?_)
    fun e t _ => ?_))
  · exact Audit.meets_pure (Or.inl ht)
  · cases e with
    | crawlState message => exact Audit.meets_pure (Or.inr (Or.inl rfl))
    | stillPolling => exact safe_raise
    | _ => exact Audit.meets_pure (Or.inr (Or.inr rfl))

theorem pre_opening {c : HostCommand} (hc : Plain c) : (openingAudit lib loads quote v).pre c s :=
  ⟨(pre_plain hc).1, hc.before⟩

theorem safe_drainExit {A : Audit HostCommand HostReply ToolRaise W} (hA : Lenient A) :
    Safe A (drainExit v) (fun code t => DrainMeans v.compose code t) s := by
  refine Audit.meets_seq ((safe_waitForDrain hA).mono (fun r t ht => ?_) fun _ _ h => h)
  cases r with
  | none => exact safe_raise
  | some code => exact Audit.meets_pure (ht code rfl)

/-- A yes of the operator is on record; without a question there is no command. -/
theorem safe_askInterruption {code : ℤ} {R : HostState W → Prop} (hs : R s) :
    Safe (openingAudit lib loads quote v) (askInterruption v code)
      (fun chosen t => (chosen = true → Authorised v t) ∧ (code ≠ 3 → chosen = false ∧ R t)) s := by
  unfold askInterruption
  split
  · rename_i hask
    refine Audit.meets_seq (Audit.meets_said (pre_opening rfl) fun r t _ hsaid => ?_)
    refine Audit.meets_pure ⟨fun htwo => ?_, fun hcode => absurd hask.1 hcode⟩
    exact Or.inr ⟨hask.2.1, r, hsaid, of_decide_eq_true htwo⟩
  · exact Audit.meets_pure ⟨fun h => (by cases h), fun _ => ⟨rfl, hs⟩⟩

theorem evident_authorised : Evident (Authorised (W := W) v) :=
  .or (.const _) (.and (.const _) (.exists_ fun _ => .and evident_saw (.const _)))

theorem safe_drainCrawler :
    Safe (openingAudit lib loads quote v) (drainCrawler v) (fun _ t => MayInterrupt v t) s := by
  have hA : Lenient (openingAudit (W := W) lib loads quote v) := lenient_opening
  refine Audit.meets_seq ((safe_exitCode (safe_drainExit hA)).mono (fun code t hcode => ?_)
    fun _ _ h => h)
  split
  · exact safe_fail
  rename_i hknown
  have hmeans : DrainMeans v.compose code t := by
    rcases hcode with h | rfl | rfl
    · exact h
    · exact absurd hknown (by decide)
    · exact absurd hknown (by decide)
  refine Audit.meets_seq ((safe_askInterruption (R := DrainMeans v.compose code) hmeans).mono
    (fun chosen t' ht' => ?_) fun _ _ h => h)
  dsimp only
  split
  · exact safe_fail
  split
  · -- the final count, or the interruption is allowed
    have hkeep : Evident fun t : HostState W => chosen = true → Authorised v t :=
      .forall_ fun _ => evident_authorised
    have hcheck : Safe (openingAudit lib loads quote v)
        (finalCheck v.compose (v.allowInterruption || chosen)) (fun code t => ((code = 0 ∧
          (JustCounted v.compose 0 t ∨ (v.allowInterruption || chosen) = true)) ∨ code = 3) ∧
          (chosen = true → Authorised v t)) t' :=
      ((safe_finalCheck hA).keep hkeep ht'.1).mono (fun _ _ h => h) fun _ _ _ => trivial
    refine Audit.meets_seq ((safe_exitCode hcheck).mono (fun code' t'' h => ?_) fun _ _ h => h)
    split
    · exact safe_fail
    rename_i hzero
    refine Audit.meets_pure ?_
    rcases h with ⟨⟨-, hcount | hallowed⟩ | h, hchosen⟩ | h | h
    · exact Or.inl hcount
    · refine Or.inr ?_
      rcases Bool.or_eq_true_iff.mp hallowed with hallowed | hyes
      · exact Or.inl hallowed
      · exact hchosen hyes
    all_goals exact absurd (h.symm.trans (not_not.mp hzero)) (by decide)
  · rename_i hnone
    have hcode : code = NO_CRAWLER := not_not.mp hnone
    obtain ⟨-, hmeans'⟩ := ht'.2 (by rw [hcode]; decide)
    refine Audit.meets_pure (Or.inl ?_)
    rcases hmeans' with ⟨h, -⟩ | ⟨-, h, -⟩ | ⟨h, -⟩
    · exact absurd (hcode.symm.trans h) (by decide)
    · exact h
    · exact absurd (hcode.symm.trans h) (by decide)

/-- Docker can tell the containers of this project apart. -/
def ProjectOk (project : String) : Prop :=
  ¬(project = "" ∨ ¬project.toList.all isProjectChar = true)

theorem Earned.before {service : String} {c : HostCommand}
    (h : Earned lib loads v.project quote (.ensure service) c s) : Before c := by
  rcases Earned.kinds h with hc | ⟨hm, -⟩ | ⟨hm, -⟩ | ⟨-, ⟨id, rfl⟩ | ⟨argv, b, x, rfl, hx⟩⟩
  · exact (plain_of_quiet hc).before
  · cases hm
  · cases hm
  · trivial
  · exact hx

theorem safe_prepareStorage :
    Safe (openingAudit lib loads quote v) (prepareStorage lib loads quote v)
      (fun _ _ => ProjectOk v.project) s := by
  have hmain : Safe (guarded lib loads v.project quote (.ensure "seaweedfs"))
      (containerTool lib loads quote v (.ensure "seaweedfs")) (fun _ _ => ProjectOk v.project) s :=
    main_guarded
  have htool := hmain.under (B := openingAudit lib loads quote v) (P := Before)
    (fun _ _ _ _ => trivial)
    (fun c t _ hc => ⟨⟨Earned.kept hc, Earned.before hc⟩, Earned.before hc⟩) .refl
  refine Audit.meets_seq (htool.mono (fun _ t ht => ?_) fun _ _ _ => trivial)
  have hrest : ∀ {p : Tool Unit}, p.Only Plain →
      Safe (openingAudit lib loads quote v) p (fun _ _ => ProjectOk v.project) t := fun hp =>
    (Audit.meets_of_only hp (fun _ _ hc => pre_opening hc) .refl).mono (fun _ _ _ => ht.1)
      fun _ _ _ => trivial
  refine hrest (Prog.Only.seq (only_retried rfl) fun _ => ?_)
  exact Prog.Only.seq (only_taskOk rfl) fun _ => Prog.Only.seq (only_taskOk rfl) fun _ => trivial

theorem safe_beforeWindow :
    Safe (openingAudit lib loads quote v) (beforeWindow lib loads quote v)
      (fun _ t => MayInterrupt v t ∧ ProjectOk v.project) s := by
  have himages : Safe (openingAudit lib loads quote v) prepareImages (fun _ _ => True) s :=
    (Audit.meets_of_only only_prepareImages (fun _ _ hc => pre_opening hc) .refl).mono
      (fun _ _ _ => trivial) fun _ _ _ => trivial
  refine Audit.meets_seq (himages.mono (fun _ t _ => ?_) fun _ _ h => h)
  refine Audit.meets_seq (safe_prepareStorage.mono (fun _ t₁ hname => ?_) fun _ _ h => h)
  exact safe_drainCrawler.mono (fun _ _ h => ⟨h, hname⟩) fun _ _ h => h

theorem due_before {c : HostCommand} (hc : Before c) : Due loads v c s := by
  unfold Before at hc
  split at hc
  · exact hc
  · trivial
  · exact due_plain hc

/-! ### In the window -/

theorem Stopped.marked (h : Stopped loads v s) : Marked v s := Upon.mono h fun _ _ => trivial

theorem Dumped.marked {path : String} (h : Dumped loads v path s) : Marked v s :=
  Upon.past h evident_marked fun _ => Stopped.marked

theorem Snapshotted.marked (h : Snapshotted loads v s) : Marked v s := by
  obtain ⟨path, h⟩ := h
  exact Upon.past h evident_marked fun _ => Dumped.marked

theorem stopping_of_quiet {c : HostCommand} (hc : c.isQuiet = true) : Stopping c := by
  unfold Stopping
  split
  · trivial
  · exact hc

/-- From the moment it is run, it only stops containers: all of the application, or Docker is at
fault. -/
theorem meets_stopApp (hmarked : Marked v s) (hname : ProjectOk v.project) :
    (playAudit lib loads quote v).Meets (containerTool lib loads quote v .stopApp)
      (fun _ t => Since s.log (fun t' => Just Stopping t' ∧ AllStopped loads v.project t') t)
      (fun _ t => Since s.log (fun t' => Just Stopping t' ∧ Faulty loads v.project t') t) s := by
  have hplay : Safe (playAudit lib loads quote v) (containerTool lib loads quote v .stopApp)
      (fun _ _ => True) s :=
    (safe_containerTool (P := fun _ => True) evident_marked hmarked (fun _ _ => trivial)
      (fun _ _ _ ht => ⟨ht, trivial⟩) (fun hm => by cases hm) fun hm => by cases hm).mono
      (fun _ _ _ => trivial) fun _ _ h => h
  have hlenient : Lenient (Audit.only Stopping : Audit HostCommand HostReply ToolRaise W) :=
    fun _ _ hc => stopping_of_quiet hc
  have halone : (Audit.only Stopping).Meets (containerTool lib loads quote v .stopApp)
      (fun _ t => AllStopped loads v.project t) (fun _ t => Faulty loads v.project t)
      (⟨s.world, []⟩ : HostState W) := by
    unfold containerTool main
    rw [if_neg hname]
    refine Audit.meets_seq ((meets_stopServices hlenient fun _ _ => trivial).mono
      (fun _ t ht => ht.2) fun _ _ h => h)
  refine (Audit.meets_since rfl hplay ((halone.under (P := Stopping) (B := Audit.only fun _ => True)
    (fun _ _ _ _ => trivial) (fun _ _ _ hc => ⟨trivial, hc⟩) .refl).mono
    (fun _ t ht => ⟨ht.2.just, ht.1⟩) fun _ t ht => ⟨ht.2.just, ht.1⟩)).mono
    (fun _ _ h => h.2) fun _ _ h => h.2

theorem safe_forEach {α : Type} {A : Audit HostCommand HostReply ToolRaise W} {body : α → Tool Unit}
    {R : HostState W → Prop} (hbody : ∀ x s, R s → Safe A (body x) (fun _ t => R t) s)
    {items : List α} (hs : R s) : Safe A (forEach body items) (fun _ t => R t) s := by
  induction items generalizing s with
  | nil => exact hs
  | cons x items ih =>
      exact Audit.meets_seq ((hbody x s hs).mono (fun _ t ht => ih ht) fun _ _ h => h)

theorem safe_checkDump {A : Audit HostCommand HostReply ToolRaise W} (hA : Lenient A)
    (htask : ∀ path s, A.pre (.task (.pgRestoreList path)) s) {path : String} :
    Safe A (checkDump path) (fun _ t => Restorable path t) s := by
  refine Audit.meets_seq (safe_isAbsentOrEmpty hA (fun t => ?_) fun t _ hfilled => ?_)
  · exact safe_fail
  refine Audit.meets_seq (Audit.meets_seq
    (Audit.meets_said (htask path t) fun r t' ht' hsaid => ?_))
  split
  · exact safe_fail
  · rename_i hcode
    exact ⟨evident_filled t t' ht' hfilled, r, hsaid, not_not.mp hcode⟩

theorem safe_checkHead {A : Audit HostCommand HostReply ToolRaise W}
    (hheads : ∀ s, A.pre (.task .alembicHeads) s)
    (hdatabase : ∀ s, A.pre (.task .databaseRevision) s) :
    Safe A checkHead (fun _ t => AtHead t) s := by
  refine Audit.meets_seq (Audit.meets_seq (Audit.meets_said (hheads s) fun heads t _ hsaid => ?_))
  split
  · exact safe_fail
  rename_i hcode
  refine Audit.meets_pure (Audit.meets_seq (Audit.meets_seq (Audit.meets_said (hdatabase t)
    fun database t' ht' hsaid' => ?_)))
  split
  · exact safe_fail
  rename_i hcode'
  refine Audit.meets_pure ?_
  split
  · exact safe_fail
  rename_i hagree
  exact ⟨heads, database, evident_saw t t' ht' hsaid, hsaid', not_not.mp hcode, not_not.mp hcode',
    by simpa using hagree⟩

theorem safe_snapshotAll (hs : Stopped loads v s) :
    Safe (playAudit lib loads quote v) snapshotAll (fun _ t => Snapshotted loads v t) s := by
  have hdue : Due loads v (.task .postgresDump) s := hs
  refine Audit.meets_seq (Audit.meets_seq (safe_taskOk hdue fun created t hlog hcode => ?_))
  cases hpath : createdPath created.stdout with
  | none => exact safe_fail
  | some path =>
      refine Audit.meets_seq ((safe_check (S := fun _ => Restorable path) only_checkDump
        (safe_checkDump lenient_only fun _ _ => trivial)).mono (fun _ t₁ ht₁ => ?_) fun _ _ h => h)
      rw [hlog] at ht₁
      have hdumped : Dumped loads v path t₁ :=
        ht₁.upon ⟨created, rfl, hcode, hpath⟩ lasting_stopped hs
      have hdue' : Due loads v (.task (.snapshot path)) t₁ := hdumped
      refine Audit.meets_pure (Audit.meets_seq
        (safe_taskOk hdue' fun snapshot t₂ hlog₂ hcode₂ => ?_))
      split
      · exact safe_fail
      rename_i hverified
      refine Audit.meets_pure ⟨path, [], _, t₁.log, hlog₂, fun e he => (by cases he), ?_, ?_⟩
      · exact ⟨snapshot, rfl, hcode₂, by simpa using hverified⟩
      · exact lasting_dumped t₁ ⟨t₂.world, t₁.log⟩ ⟨[], rfl, fun _ h => by cases h⟩ hdumped

theorem safe_cleanContainers {snapshot : String} (hs : Snapshotted loads v s) :
    Safe (playAudit lib loads quote v) (cleanContainers lib loads quote v snapshot)
      (fun _ t => Snapshotted loads v t) s := by
  have htool : ∀ mode (t : HostState W), Snapshotted loads v t → Safe (playAudit lib loads quote v)
      (containerTool lib loads quote v mode) (fun _ t' => Snapshotted loads v t') t := fun _ _ ht =>
    safe_windowTool lasting_snapshotted ht (fun _ _ h => h.marked) fun _ _ h => h
  refine Audit.meets_seq ((htool .removeStale s hs).mono (fun _ t ht => ?_) fun _ _ h => h)
  split
  · exact safe_fail
  · exact htool _ t ht

theorem safe_reconcile (hs : Snapshotted loads v s) :
    Safe (playAudit lib loads quote v) reconcile (fun _ t => Snapshotted loads v t) s := by
  have hdue : Due loads v (.task .reconcileSeaweed) s := hs
  refine Audit.meets_seq (safe_taskOk hdue fun r t hlog _ => ?_)
  have ht : Snapshotted loads v t :=
    lasting_snapshotted s t ⟨[_], hlog, fun e he => by
      obtain rfl := List.mem_singleton.mp he
      exact id⟩ hs
  exact safe_plain only_reconcileRest lasting_snapshotted (fun _ hc => hc.noStart) ht

theorem safe_migrate (hs : Snapshotted loads v s) :
    Safe (playAudit lib loads quote v) migrate (fun _ t => Migrated loads v t) s := by
  have hdue : Due loads v (.task .alembicUpgrade) s := hs
  refine Audit.meets_seq (safe_taskOk hdue fun r t hlog hcode => ?_)
  refine (safe_check (S := fun _ => AtHead) only_checkHead
    (safe_checkHead (fun _ => trivial) fun _ => trivial)).mono (fun _ t' ht' => ?_) fun _ _ h => h
  rw [hlog] at ht'
  exact ht'.upon ⟨r, rfl, hcode, trivial⟩ lasting_snapshotted hs

/-- API, workers, crawler: one upon the other. -/
theorem safe_startServices (hs : Migrated loads v s) :
    Safe (playAudit lib loads quote v) startServices
      (fun _ t => Upon (fun t' => t'.log = []) (Done .waitAll fun _ => True)
        (CrawlerStarted loads v) t) s := by
  have hnone : ∀ w : W, Just NoStop (⟨w, []⟩ : HostState W) := fun _ _ he => by cases he
  have hapi : Due loads v (.task .startApi) s := hs
  refine Audit.meets_seq ((safe_stage (S := Just NoStop) hapi lasting_migrated hs hnone).mono
    (fun _ t ht => ?_) fun _ _ h => h)
  have hworkers : Due loads v (.task .startWorkers) t := ht
  refine Audit.meets_seq ((safe_stage (S := Just NoStop) hworkers lasting_apiStarted ht hnone).mono
    (fun _ t₁ ht₁ => ?_) fun _ _ h => h)
  have hcrawler : Due loads v (.task .startCrawler) t₁ := ht₁
  refine Audit.meets_seq ((safe_stage (S := Just NoStop) hcrawler lasting_workersStarted ht₁
    hnone).mono (fun _ t₂ ht₂ => ?_) fun _ _ h => h)
  have hstarted : Lasting NoStop (CrawlerStarted (W := W) loads v) := lasting_crawlerStarted
  refine Audit.meets_seq ((safe_plain (only_taskOk (t := .startObservability) rfl) hstarted
    (fun _ hc => hc.noStop) ht₂).mono
    (fun _ t₃ ht₃ => ?_) fun _ _ h => h)
  have hwait : Due loads v (.task .waitAll) t₃ := ht₃
  refine Audit.meets_seq ((safe_stage (S := fun t' => t'.log = []) hwait lasting_crawlerStarted ht₃
    fun _ => rfl).mono (fun _ t₄ ht₄ => ht₄) fun _ _ h => h)

theorem safe_groupHealth {A : Audit HostCommand HostReply ToolRaise W} (hA : Lenient A) :
    Safe A (groupHealth isLetter v) (fun _ t => GroupStable isLetter v t) s := by
  have hpoll : Safe A (waitForHealthyGroup isLetter v.groupCommand 180 5 v.rounds)
      (fun r t => r = some true → GroupStable isLetter v t) s := by
    refine Audit.meets_seq (safe_quiet hA rfl fun (now : ℚ) t _ _ => ?_)
    refine Conc.pollUntil_spec (I := fun _ => True) (T := fun _ _ => True) (J := fun _ => True)
      ?_ ?_ ?_ ?_ ?_ trivial
    · intro s _
      refine Audit.meets_seq (Conc.Proto.wp_outcome.mpr (Audit.meets_cmd (hA _ _ rfl)
        (fun e r _ hr => ?_) fun e x _ _ => ?_))
      · dsimp only
        split
        · rename_i hcode
          split
          · rename_i state hstate
            split
            · rename_i hhealthy
              exact fun _ => ⟨r, state, Conc.said_step hr, hcode, hstate, hhealthy⟩
            · trivial
          · trivial
        · trivial
      · cases x with
        | timeoutExpired => trivial
        | osError message => exact fun h => by cases h
        | _ => exact safe_raise
    · exact fun s _ => safe_quiet hA rfl fun _ _ _ _ => ⟨trivial, trivial⟩
    · exact fun s x _ => safe_quiet hA rfl fun _ _ _ _ => trivial
    · exact fun s x _ _ _ h => by cases h
    · exact fun s _ h => by cases h
  refine Audit.meets_seq (hpoll.mono (fun r t ht => ?_) fun _ _ h => h)
  split
  · exact Audit.meets_pure (ht rfl)
  · exact safe_fail
  · exact safe_raise

/-- What the verification says, all of it found out since it began. -/
theorem safe_verifyRelease :
    Safe (playAudit lib loads quote v) (verifyRelease lib loads quote isLetter v)
      (fun _ t => Since s.log (fun t' => Just NoStop t' ∧ GroupStable isLetter v t' ∧
        ∀ service ∈ APPLICATION, VerifiedService loads v.project v.revision service t') t) s := by
  have hlenient : Lenient (Audit.only Plain : Audit HostCommand HostReply ToolRaise W) :=
    fun _ _ hc => plain_of_quiet hc
  have hservices : ∀ t : HostState W, Safe (Audit.only Plain)
      (containerTool lib loads quote v (.verify v.revision)) (fun _ t' => Later t t' ∧
        ∀ service ∈ APPLICATION, VerifiedService loads v.project v.revision service t') t := by
    intro t
    unfold containerTool main
    dsimp only
    split
    · exact safe_fail
    split
    · exact safe_fail
    · exact safe_verifyServices hlenient
  have halone : ∀ t : HostState W,
    Safe (Audit.only Plain) (verifyRelease lib loads quote isLetter v)
      (fun _ t' => GroupStable isLetter v t' ∧
        ∀ service ∈ APPLICATION, VerifiedService loads v.project v.revision service t') t := by
    intro t
    refine Audit.meets_seq ((Audit.meets_of_only (only_taskOk (t := .verifyRuntime) rfl)
      (fun _ _ hc => hc) .refl).mono (fun _ t₁ _ => ?_) fun _ _ _ => trivial)
    refine Audit.meets_seq ((safe_groupHealth hlenient).mono (fun _ t₂ hgroup => ?_) fun _ _ h => h)
    refine Audit.meets_seq ((hservices t₂).mono (fun _ t₃ h₃ => ?_) fun _ _ h => h)
    split
    · exact safe_fail
    · refine Audit.meets_pure ⟨?_, h₃.2⟩
      obtain ⟨result, state, htold, hstate⟩ := hgroup
      exact ⟨result, state, evident_told t₂ t₃ h₃.1 htold, hstate⟩
  have hplay := (halone s).under (B := playAudit lib loads quote v) (P := Plain)
    (fun _ _ _ _ => trivial) (fun _ _ _ hc => ⟨pre_plain hc, hc⟩) .refl
  have hempty := (halone ⟨s.world, []⟩).under (B := Audit.only fun _ => True) (P := Plain)
    (fun _ _ _ _ => trivial) (fun _ _ _ hc => ⟨trivial, hc⟩) .refl
  refine (safe_since (hplay.mono (fun _ _ h => h) fun _ _ _ => trivial) (hempty.mono
    (fun _ t ht => ?_) fun _ _ _ => trivial)).mono (fun _ _ h => h.2) fun _ _ h => h
  exact ⟨fun e he => (ht.2.just e he).noStop, ht.1⟩

theorem safe_inWindow {x : Except ToolRaise Unit} {older : List HostEvent}
    (hlog : s.log = ⟨.markWriterStop, x⟩ :: older)
    (hmay : MayInterrupt v (⟨s.world, older⟩ : HostState W))
    (hname : ProjectOk v.project) :
    Safe (playAudit lib loads quote v) (inWindow lib loads quote isLetter v)
      (fun _ t => Released loads isLetter v t) s := by
  have hmarked : Marked v s := ⟨[], _, older, hlog, trivial, rfl, hmay⟩
  refine Audit.meets_seq ((meets_stopApp hmarked hname).mono (fun _ t ht => ?_)
    fun _ _ _ => trivial)
  rw [hlog] at ht
  obtain ⟨added, hadded, hjust, hall⟩ := ht
  have hstopped : Stopped loads v t :=
    Since.upon ⟨added, hadded, fun e he => (hjust e he).noStart, hall⟩ rfl lasting_mayInterrupt hmay
  refine Audit.meets_seq ((safe_forEach (fun service t ht => safe_windowTool lasting_stopped ht
    (fun hm => by cases hm) fun hm => by cases hm) hstopped).mono (fun _ t₁ h₁ => ?_)
      fun _ _ h => h)
  refine Audit.meets_seq ((safe_plain (only_retried rfl) lasting_stopped (fun _ hc => hc.noStart)
    h₁).mono (fun _ t₂ h₂ => ?_) fun _ _ h => h)
  refine Audit.meets_seq ((safe_plain (only_retried rfl) lasting_stopped (fun _ hc => hc.noStart)
    h₂).mono (fun _ t₃ h₃ => ?_) fun _ _ h => h)
  refine Audit.meets_seq ((safe_snapshotAll h₃).mono (fun snapshot t₄ h₄ => ?_) fun _ _ h => h)
  refine Audit.meets_seq ((safe_cleanContainers h₄).mono (fun _ t₅ h₅ => ?_) fun _ _ h => h)
  refine Audit.meets_seq ((safe_reconcile h₅).mono (fun _ t₆ h₆ => ?_) fun _ _ h => h)
  refine Audit.meets_seq ((safe_migrate h₆).mono (fun _ t₇ h₇ => ?_) fun _ _ h => h)
  refine Audit.meets_seq ((safe_plain only_configureGrafana lasting_migrated
    (fun _ hc => hc.noStart) h₇).mono (fun _ t₈ h₈ => ?_) fun _ _ h => h)
  have htopics : Due loads v (.task .provisionTopics) t₈ := h₈
  refine Audit.meets_seq (safe_taskOk htopics fun r t₉ hlog₉ _ => ?_)
  have h₉ : Migrated loads v t₉ := lasting_migrated t₈ t₉ ⟨[_], hlog₉, fun e he => by
    obtain rfl := List.mem_singleton.mp he
    exact id⟩ h₈
  refine Audit.meets_seq ((safe_startServices h₉).mono (fun _ t₁₀ h₁₀ => ?_) fun _ _ h => h)
  refine safe_verifyRelease.mono (fun _ t₁₁ h₁₁ => ?_) fun _ _ h => h
  obtain ⟨newer, e, before, hlog₁₀, rfl, he, hstarted⟩ := h₁₀
  rw [hlog₁₀] at h₁₁
  exact h₁₁.upon he lasting_crawlerStarted hstarted

/-! ## The whole release -/

/-- Every command is due, a release that succeeds is verified, and one that fails is closed. -/
theorem deploy_meets {w : W} :
    (playAudit lib loads quote v).Meets (deploy lib loads quote isLetter v)
      (fun _ t => Released loads isLetter v t) (fun _ t => FailedClosed loads v t) ⟨w, []⟩ := by
  have hopening : Safe (openingAudit lib loads quote v) (beforeWindow lib loads quote v)
      (fun _ t => MayInterrupt v t ∧ ProjectOk v.project) (⟨w, []⟩ : HostState W) :=
        safe_beforeWindow
  have hbefore := hopening.under (B := playAudit lib loads quote v) (P := Before)
    (fun _ _ _ _ => trivial) (fun _ _ _ hc => ⟨⟨hc.1, due_before hc.2⟩, hc.2⟩) .refl
  refine Audit.meets_seq (Conc.Proto.wp_outcome.mpr (Audit.Meets.mono hbefore (fun _ t ht => ?_)
    fun e t ht => ?_))
  swap
  · exact Audit.meets_raise (Or.inl ht.2.just)
  obtain ⟨⟨hmay, hname⟩, -⟩ := ht
  refine Audit.meets_call.mpr ⟨⟨trivial, hmay⟩, fun e _ => ?_⟩
  have hmay' : MayInterrupt v (⟨e.after, t.log⟩ : HostState W) :=
    lasting_mayInterrupt t _ ⟨[], rfl, fun _ h => by cases h⟩ hmay
  have hmarked : Marked v (t.step .markWriterStop e) := ⟨[], _, t.log, rfl, trivial, rfl, hmay'⟩
  have hinside : Safe (playAudit lib loads quote v) (inWindow lib loads quote isLetter v)
      (fun _ t' => Released loads isLetter v t') (t.step .markWriterStop e) :=
    safe_inWindow rfl hmay' hname
  have hwindow := hinside.keep evident_marked hmarked
  refine Audit.meets_seq (Conc.Proto.wp_outcome.mpr (hwindow.mono (fun _ t₁ h₁ => h₁.1)
    fun e' t₁ h₁ => ?_))
  -- the rescue
  refine Audit.meets_seq (Conc.Proto.wp_outcome.mpr (((meets_stopApp h₁.2 hname).keep evident_marked
    h₁.2).mono (fun _ t₂ h₂ => ?_) fun e'' t₂ h₂ => ?_))
  · obtain ⟨⟨added, hadded, hjust, hall⟩, hmarked₂⟩ := h₂
    exact Audit.meets_raise (Or.inr ⟨hmarked₂, t₁.log, added, hadded, hjust, Or.inl hall⟩)
  · obtain ⟨⟨added, hadded, hjust, hfaulty⟩, hmarked₂⟩ := h₂
    exact Audit.meets_raise (Or.inr ⟨hmarked₂, t₁.log, added, hadded, hjust, Or.inr hfaulty⟩)

section

variable {w : W} {c : HostCommand} {k : Except ToolRaise (HostReply c) → Tool Unit}

theorem deploy_owed (hrun : Steps Conc.recording (fun _ _ _ => True) 0
    (deploy lib loads quote isLetter v) ⟨w, []⟩ (.call c k) s) :
    Kept lib loads quote v c s ∧ Due loads v c s := deploy_meets.owed hrun

end

/-- No container is stopped in a release unless the maintenance window has been marked, and right
before that either the database counted no unfinished crawl or the interruption was authorised by
the configuration or the operator. -/
theorem stops_only_permitted {w : W} {id : String}
    {k : Except ToolRaise CompletedProcess → Tool Unit}
    (hrun : Steps Conc.recording (fun _ _ _ => True) 0 (deploy lib loads quote isLetter v) ⟨w, []⟩
      (.call (.docker (.stop id)) k) s) : Marked v s :=
  (deploy_owed hrun).2

/-- A release that succeeds has gone through all its stages; and since the last of them every
application service was seen in one container, running, from the image of the revision, and the
consumer group stable. -/
theorem successful_release_verified {w : W}
    (hrun : Conc.Runs Conc.recording (fun _ _ _ => True) 0
      (deploy lib loads quote isLetter v) ⟨w, []⟩ (.ok ()) s) : Released loads isLetter v s :=
  (deploy_meets.runs hrun).1 () rfl

end

/-! ## A release on a calm host -/

def calmInspection : JsonVal :=
  .arr [.obj [("Id", .str "c1"), ("Image", .str "sha"), ("State", .obj [("Running", .bool true)]),
    ("Mounts", .arr [
      .obj [("Type", .str "volume"), ("Name", .str "p_seaweedfs_data"), ("Destination", .str "/data")],
      .obj [("Type", .str "volume"), ("Name", .str "p_postgres_data"),
        ("Destination", .str "/var/lib/postgresql/data")],
      .obj [("Type", .str "volume"), ("Name", .str "p_kafka_data"),
        ("Destination", .str "/var/lib/kafka/data")]])]]

def calmLoads (text : String) : Except Py.Exc JsonVal :=
  if text = "inspection" then .ok calmInspection
  else .ok (.obj [("project", .str "p"), ("local_only", .bool true)])

def calmDocker : DockerCommand → CompletedProcess
  | .inspect _ => ⟨0, "inspection", ""⟩
  | .imageId _ => ⟨0, "sha\n", ""⟩
  | .crawlCount _ => ⟨0, "0\n", ""⟩
  | .groupState _ => ⟨0, "crawlers kafka:9092 Stable 1\n", ""⟩
  | _ => ⟨0, "c1\n", ""⟩

/-- All tasks succeed, but for a broken one. -/
def calmTask (broken : Option PlayTask) (t : PlayTask) : CompletedProcess :=
  if broken = some t then ⟨1, "", ""⟩
  else
    match t with
    | .postgresDump => ⟨0, "CREATED:/dumps/1", ""⟩
    | .snapshot _ => ⟨0, "BACKUP_VERIFIED:/releases/1", ""⟩
    | .seaweedHealth => ⟨0, "healthy\n", ""⟩
    | .alembicHeads => ⟨0, "0006 (head)", ""⟩
    | .databaseRevision => ⟨0, "0006", ""⟩
    | _ => ⟨0, "", ""⟩

def calmReply (broken : Option PlayTask) : (c : HostCommand) → HostReply c
  | .task t => calmTask broken t
  | .isFile _ => true
  | .size _ => (1 : Nat)
  | c => bareReply calmDocker 0 c

def calmReaction (broken : Option PlayTask) : Conc.Reaction HostCommand HostReply ToolRaise Unit :=
  ⟨fun c => .ok (calmReply broken c), ()⟩

def calmRevision : String := "0123456789abcdef0123456789abcdef01234567"

def calmVars : PlayVars :=
  ⟨"p", calmRevision, calmRevision, ["docker", "compose"], [], false, false, 0, 0, 0, 0, false, 1⟩

def calmRelease : Tool Unit := deploy sampleLib calmLoads id (fun _ => false) calmVars

set_option maxRecDepth 20000 in
theorem calm_release_stops :
    ∃ k s, Steps Conc.recording (fun _ _ _ => True) 0 calmRelease ⟨(), []⟩
        (.call (.docker (.stop "c1")) k) s ∧ Marked calmVars s := by
  have hrun : ∃ k s, Steps Conc.recording (fun _ _ _ => True) 0 calmRelease ⟨(), []⟩
      (.call (.docker (.stop "c1")) k) s :=
    ⟨_, _, Steps.recorded (List.replicate 23 (calmReaction none)) (fun _ _ _ => trivial) rfl⟩
  obtain ⟨k, s, hrun⟩ := hrun
  exact ⟨k, s, hrun, stops_only_permitted hrun⟩

set_option maxRecDepth 20000 in
theorem calm_release_verified :
    ∃ s, Conc.Runs Conc.recording (fun _ _ _ => True) 0 calmRelease ⟨(), []⟩ (.ok ()) s ∧
      Released calmLoads (fun _ => false) calmVars s := by
  have hrun : ∃ s, Conc.Runs Conc.recording (fun _ _ _ => True) 0 calmRelease ⟨(), []⟩ (.ok ()) s :=
    ⟨_, Conc.Runs.recorded (List.replicate 98 (calmReaction none)) (fun _ _ _ => trivial) rfl⟩
  obtain ⟨s, hrun⟩ := hrun
  exact ⟨s, hrun, successful_release_verified hrun⟩

end Deploy

end Sahabino
