import Mathlib.Data.List.Nodup
import Mathlib.Data.List.Sort
import Sahabino.CircuitBreaker
import Sahabino.Lib.PyText

/-!
# The release snapshot

`create_snapshot` stops the containers that own the persistent volumes,
writes their archives into a bundle directory and starts the containers
again on every way out. Docker, the disk and the encryption are outside:
each of their operations succeeds, fails or raises as it likes, in view of
all that was done before it.

A container is remembered for the restart only after its stop has
succeeded, and a failed restart raises before the bundle is removed. So
there are outcomes after which a container stays stopped or a partial
bundle stays behind; `snapshot_restores_iff` says which.
-/

namespace Sahabino

namespace ReleaseBackup

/-! ## Docker -/

structure CompletedProcess where
  returncode : Int
  stdout : String
  stderr : String

/-- The two commands that change what is running. -/
inductive DockerCall where
  | stop (id : String)
  | start (id : String)
deriving DecidableEq

def DockerCall.args : DockerCall → List String
  | .stop id => ["stop", "--time", "60", id]
  | .start id => ["start", id]

/-- `runner`: what becomes of a command after those before it. -/
abbrev Runner := List DockerCall → DockerCall → Except PyError CompletedProcess

def runtimeError (message : String) : PyError := .other "RuntimeError" message

def stripped (s : String) : String := String.ofList (Py.strip s.toList)

def docker (runner : Runner) (before : List DockerCall) (call : DockerCall) :
    Except PyError String := do
  let process ← runner before call
  if process.returncode ≠ 0 then
    .error (runtimeError
      ("Docker " ++ call.args.headD "" ++ " failed: " ++ stripped process.stderr))
  else .ok (stripped process.stdout)

/-! ## The snapshot -/

structure Container where
  id : String
  running : Bool
deriving DecidableEq

structure GatheredService where
  service : String
  container : Option Container
deriving DecidableEq

/-- What `gather` gives. A container carries one service label, so no two services have
the same one. -/
structure Gathered where
  items : List GatheredService
  distinct : (items.filterMap fun item => item.container.map (·.id)).Nodup

/-- What is done to the bundle directory between the stops and the restarts. -/
inductive BundleStep where
  | copyDump
  | fingerprintDump
  | makeTar (service : String)
  | fingerprintTar (service : String)
  | backupSecrets
  | fingerprintSecrets
  | writeManifest
  | restrictManifest
deriving DecidableEq

/-- The parts of the world that decide how it goes. -/
structure Surroundings where
  /-- an exception before there is a bundle: the checks, `gather`, `capacity`, `mkdir` -/
  refused : Option PyError
  runner : Runner
  work : List BundleStep → BundleStep → Option PyError
  /-- what `backup_secrets` returns -/
  savedPaths : List String
  rmtree : Option PyError

/-- The variables of the call, the commands it has issued, and the files in the bundle
directory while there is one. -/
structure Snapshot where
  calls : List DockerCall
  previouslyRunning : List String
  bundle : Option (List String)
  completed : Bool
deriving DecidableEq

def Snapshot.issue (s : Snapshot) (call : DockerCall) : Snapshot :=
  { s with calls := s.calls ++ [call] }

def Snapshot.remember (s : Snapshot) (id : String) : Snapshot :=
  { s with previouslyRunning := s.previouslyRunning ++ [id] }

def Snapshot.add (s : Snapshot) (files : List String) : Snapshot :=
  { s with bundle := s.bundle.map (· ++ files) }

/-- The loop that stops what is running. -/
def stopRunning (runner : Runner) : List GatheredService → Snapshot →
    Except PyError Unit × Snapshot
  | [], s => (.ok (), s)
  | item :: items, s =>
      match item.container with
      | some ⟨id, true⟩ =>
          match docker runner s.calls (.stop id) with
          | .ok _ => stopRunning runner items ((s.issue (.stop id)).remember id)
          | .error error => (.error error, s.issue (.stop id))
      | _ => stopRunning runner items s

def bundleSteps (items : List GatheredService) (savedPaths : List String) : List BundleStep :=
  [.copyDump, .fingerprintDump]
    ++ items.flatMap (fun item => [.makeTar item.service, .fingerprintTar item.service])
    ++ [.backupSecrets]
    ++ (if savedPaths.isEmpty then [] else [.fingerprintSecrets])
    ++ [.writeManifest, .restrictManifest]

/-- The files that a step leaves in the bundle. -/
def BundleStep.files (savedPaths : List String) : BundleStep → List String
  | .copyDump => ["postgres.dump"]
  | .makeTar service => [service ++ ".tar"]
  | .backupSecrets => if savedPaths.isEmpty then [] else ["secrets.tar.enc"]
  | .writeManifest => ["manifest.json"]
  | _ => []

def runSteps (c : Surroundings) : List BundleStep → List BundleStep → Snapshot →
    Except PyError Unit × Snapshot
  | _, [], s => (.ok (), s)
  | before, step :: steps, s =>
      match c.work before step with
      | some error => (.error error, s)
      | none => runSteps c (before ++ [step]) steps (s.add (step.files c.savedPaths))

def rank : String → Nat
  | "kafka" => 0
  | "seaweedfs" => 1
  | "loki" => 2
  | "grafana" => 3
  | "alloy" => 4
  | _ => 99

/-- `service_by_id`; a later item overrides an earlier one. -/
def serviceById (items : List GatheredService) (id : String) : String :=
  ((items.reverse.find? fun item => item.container.any (·.id = id)).map (·.service)).getD ""

/-- `sorted(previously_running, key=...)`. -/
def restartOrder (items : List GatheredService) (ids : List String) : List String :=
  ids.insertionSort fun a b => rank (serviceById items a) ≤ rank (serviceById items b)

def isRuntimeError : PyError → Bool
  | .other name _ => name = "RuntimeError"
  | _ => false

def messageOf : PyError → String
  | .other _ message => message
  | .crawler failure => failure.message

/-- The loop of the `finally` block, with the failures so far. -/
def startAll (runner : Runner) : List String → List String → Snapshot →
    Except PyError (List String) × Snapshot
  | [], failures, s => (.ok failures, s)
  | id :: ids, failures, s =>
      match docker runner s.calls (.start id) with
      | .ok _ => startAll runner ids failures (s.issue (.start id))
      | .error error =>
          if isRuntimeError error then
            startAll runner ids (failures ++ [messageOf error]) (s.issue (.start id))
          else (.error error, s.issue (.start id))

/-- The `finally` block. -/
def restore (c : Surroundings) (items : List GatheredService) (s : Snapshot) :
    Except PyError Unit × Snapshot :=
  match startAll c.runner (restartOrder items s.previouslyRunning) [] s with
  | (.error error, s) => (.error error, s)
  | (.ok failures, s) =>
      if failures ≠ [] then
        (.error (runtimeError ("Failed to restart originally running persistent containers: "
          ++ "; ".intercalate failures)), s)
      else if s.completed then (.ok (), s)
      else
        match c.rmtree with
        | some error => (.error error, s)
        | none => (.ok (), { s with bundle := none })

/-- The `try` block. -/
def takeSnapshot (c : Surroundings) (items : List GatheredService) (s : Snapshot) :
    Except PyError Unit × Snapshot :=
  match stopRunning c.runner items s with
  | (.error error, s) => (.error error, s)
  | (.ok (), s) =>
      match runSteps c [] (bundleSteps items c.savedPaths) s with
      | (.error error, s) => (.error error, s)
      | (.ok (), s) => (.ok (), { s with completed := true })

/-- `create_snapshot`. -/
def createSnapshot (c : Surroundings) (items : List GatheredService) :
    Except PyError Unit × Snapshot :=
  match c.refused with
  | some error => (.error error, ⟨[], [], none, false⟩)
  | none =>
      let body := takeSnapshot c items ⟨[], [], some [], false⟩
      match restore c items body.2 with
      | (.error error, s) => (.error error, s)
      | (.ok (), s) => (body.1, s)

/-! ## Patterns of outcomes -/

/-- `P` of every element, in view of those before it. -/
def AllFrom {α : Type} (P : List α → α → Prop) : List α → List α → Prop
  | _, [] => True
  | before, x :: xs => P before x ∧ AllFrom P (before ++ [x]) xs

theorem allFrom_append {α : Type} {P : List α → α → Prop} {xs ys : List α} :
    ∀ {before}, AllFrom P before (xs ++ ys) ↔ AllFrom P before xs ∧ AllFrom P (before ++ xs) ys := by
  induction xs with
  | nil =>
      intro before
      simp [AllFrom]
  | cons x xs ih =>
      intro before
      simp [AllFrom, ih, and_assoc]

def Succeeds (runner : Runner) (before : List DockerCall) (call : DockerCall) : Prop :=
  ∃ stdout, docker runner before call = .ok stdout

/-- It raises something that the restart loop does not catch. -/
def Escapes (runner : Runner) (before : List DockerCall) (call : DockerCall) : Prop :=
  ∃ error, docker runner before call = .error error ∧ isRuntimeError error = false

def runningIds (items : List GatheredService) : List String :=
  items.filterMap fun item => (item.container.filter (·.running)).map (·.id)

def stops (items : List GatheredService) : List DockerCall := (runningIds items).map .stop

def starts (items : List GatheredService) : List DockerCall :=
  (restartOrder items (runningIds items)).map .start

/-- Every step of the bundle succeeds. -/
def BundleWritten (c : Surroundings) (items : List GatheredService) : Prop :=
  AllFrom (fun before step => c.work before step = none) [] (bundleSteps items c.savedPaths)

/-- The outcomes that leave nothing stopped and no partial bundle: every stop succeeds; no
restart but the last raises anything that is not caught; and if the bundle could not be
written, every restart and the removal succeed. -/
structure Orderly (c : Surroundings) (items : List GatheredService) : Prop where
  stopped : AllFrom (Succeeds c.runner) [] (stops items)
  issued : AllFrom (fun before call => ¬Escapes c.runner before call) (stops items)
    (starts items).dropLast
  removed : ¬BundleWritten c items →
    AllFrom (Succeeds c.runner) (stops items) (starts items) ∧ c.rmtree = none

/-! ## What is promised -/

/-- A start of the container was issued after its last stop. -/
def Restarted (calls : List DockerCall) (id : String) : Prop :=
  ∃ before after, calls = before ++ .start id :: after ∧ .stop id ∉ after

/-- Whatever was running and was told to stop has been told to start again. -/
def RestoresRunState (items : List GatheredService) (s : Snapshot) : Prop :=
  ∀ item ∈ items, ∀ id, item.container = some ⟨id, true⟩ → .stop id ∈ s.calls →
    Restarted s.calls id

/-- A bundle directory is there only if the snapshot was completed, with its manifest. -/
def KeepsOnlyCompleted (s : Snapshot) : Prop :=
  ∀ files, s.bundle = some files → s.completed = true ∧ "manifest.json" ∈ files

theorem restarted_iff {stopped started : List String} {id : String} :
    Restarted (stopped.map .stop ++ started.map .start) id ↔ id ∈ started := by
  constructor
  · rintro ⟨before, after, hcalls, -⟩
    have hmem : DockerCall.start id ∈ stopped.map .stop ++ started.map .start := by
      rw [hcalls]
      exact List.mem_append_right _ (List.mem_cons_self ..)
    rcases List.mem_append.mp hmem with h | h
    · obtain ⟨_, -, h⟩ := List.mem_map.mp h
      cases h
    · obtain ⟨id', hid', h⟩ := List.mem_map.mp h
      exact DockerCall.start.inj h ▸ hid'
  · intro h
    obtain ⟨xs, ys, rfl⟩ := List.append_of_mem h
    refine ⟨stopped.map .stop ++ xs.map .start, ys.map .start, by simp, fun hstop => ?_⟩
    obtain ⟨_, -, hstop⟩ := List.mem_map.mp hstop
    cases hstop

/-! ## The loops -/

section

variable {runner : Runner}

theorem succeeds_of_ok {before : List DockerCall} {call : DockerCall} {stdout : String}
    (h : docker runner before call = .ok stdout) : Succeeds runner before call :=
  ⟨stdout, h⟩

theorem not_succeeds_of_error {before : List DockerCall} {call : DockerCall} {error : PyError}
    (h : docker runner before call = .error error) : ¬Succeeds runner before call := by
  rintro ⟨stdout, hok⟩
  rw [h] at hok
  cases hok

theorem not_escapes_of_ok {before : List DockerCall} {call : DockerCall} {stdout : String}
    (h : docker runner before call = .ok stdout) : ¬Escapes runner before call := by
  rintro ⟨error, herror, -⟩
  rw [h] at herror
  cases herror

variable (runner) in
/-- Either all stops succeed, or the loop ends at the first that does not. -/
theorem stopRunning_cases (items : List GatheredService) : ∀ s : Snapshot,
    (AllFrom (Succeeds runner) s.calls (stops items) ∧
      stopRunning runner items s = (.ok (), { s with
        calls := s.calls ++ stops items
        previouslyRunning := s.previouslyRunning ++ runningIds items })) ∨
    (¬AllFrom (Succeeds runner) s.calls (stops items) ∧
      ∃ done id rest error, runningIds items = done ++ id :: rest ∧
      stopRunning runner items s = (.error error, { s with
        calls := s.calls ++ (done ++ [id]).map .stop
        previouslyRunning := s.previouslyRunning ++ done })) := by
  induction items with
  | nil =>
      intro s
      exact Or.inl ⟨trivial, by simp [stopRunning, stops, runningIds]⟩
  | cons item items ih =>
      intro s
      obtain ⟨service, container⟩ := item
      match container with
      | none => exact ih s
      | some ⟨id, false⟩ => exact ih s
      | some ⟨id, true⟩ =>
          have hids : runningIds (⟨service, some ⟨id, true⟩⟩ :: items) = id :: runningIds items := rfl
          cases hdocker : docker runner s.calls (.stop id) with
          | error error =>
              refine Or.inr ⟨fun h => not_succeeds_of_error hdocker h.1, [], id, runningIds items,
                error, hids, ?_⟩
              simp [stopRunning, hdocker, Snapshot.issue]
          | ok stdout =>
              have hstop : stops (⟨service, some ⟨id, true⟩⟩ :: items) = .stop id :: stops items := rfl
              rw [hids, hstop, stopRunning]
              simp only [hdocker]
              rcases ih ((s.issue (.stop id)).remember id) with ⟨hall, hloop⟩ |
                ⟨hnot, done, last, rest, error, hrest, hloop⟩
              · refine Or.inl ⟨⟨succeeds_of_ok hdocker, hall⟩, ?_⟩
                rw [hloop]
                simp [Snapshot.issue, Snapshot.remember]
              · refine Or.inr ⟨fun h => hnot h.2, id :: done, last, rest, error, by rw [hrest]; rfl, ?_⟩
                rw [hloop]
                simp [Snapshot.issue, Snapshot.remember]

/-- One start: it is issued, and either it escapes or the loop goes on. -/
theorem startAll_cons (runner : Runner) (id : String) (ids failures : List String) (s : Snapshot) :
    (¬Escapes runner s.calls (.start id) ∧ ∃ failures',
      startAll runner (id :: ids) failures s = startAll runner ids failures' (s.issue (.start id)) ∧
      (failures' = [] ↔ failures = [] ∧ Succeeds runner s.calls (.start id))) ∨
    (Escapes runner s.calls (.start id) ∧ ∃ error,
      startAll runner (id :: ids) failures s = (.error error, s.issue (.start id))) := by
  cases hdocker : docker runner s.calls (.start id) with
  | ok stdout =>
      refine Or.inl ⟨not_escapes_of_ok hdocker, failures, by rw [startAll, hdocker], ?_⟩
      exact ⟨fun h => ⟨h, succeeds_of_ok hdocker⟩, fun h => h.1⟩
  | error error =>
      cases hcaught : isRuntimeError error with
      | true =>
          refine Or.inl ⟨?_, failures ++ [messageOf error], ?_, fun h => absurd h (by simp),
            fun h => absurd h.2 (not_succeeds_of_error hdocker)⟩
          · rintro ⟨error', herror', hnot⟩
            obtain rfl := Except.error.inj (hdocker.symm.trans herror')
            exact absurd (hcaught.symm.trans hnot) (by decide)
          · rw [startAll, hdocker]
            exact if_pos hcaught
      | false =>
          refine Or.inr ⟨⟨error, hdocker, hcaught⟩, error, ?_⟩
          rw [startAll, hdocker]
          exact if_neg (by rw [hcaught]; exact Bool.false_ne_true)

variable (runner) in
/-- Either nothing escapes and all are started, or the loop ends at the first that
escapes. -/
theorem startAll_cases (ids : List String) : ∀ (failures : List String) (s : Snapshot),
    (AllFrom (fun before call => ¬Escapes runner before call) s.calls (ids.map .start) ∧
      ∃ failures', startAll runner ids failures s =
        (.ok failures', { s with calls := s.calls ++ ids.map .start }) ∧
      (failures' = [] ↔ failures = [] ∧ AllFrom (Succeeds runner) s.calls (ids.map .start))) ∨
    ∃ done id rest error, ids = done ++ id :: rest ∧
      AllFrom (fun before call => ¬Escapes runner before call) s.calls (done.map .start) ∧
      Escapes runner (s.calls ++ done.map .start) (.start id) ∧
      startAll runner ids failures s =
        (.error error, { s with calls := s.calls ++ (done ++ [id]).map .start }) := by
  induction ids with
  | nil =>
      intro failures s
      exact Or.inl ⟨trivial, failures, by simp [startAll], by simp [AllFrom]⟩
  | cons id ids ih =>
      intro failures s
      rcases startAll_cons runner id ids failures s with
        ⟨hcaught, failures₁, hloop, hfailures⟩ | ⟨hescapes, error, hloop⟩
      · rcases ih failures₁ (s.issue (.start id)) with ⟨hall, failures', hrest, hiff⟩ |
          ⟨done, last, rest, error, hids, hall, hescapes, hrest⟩
        · refine Or.inl ⟨⟨hcaught, hall⟩, failures', ?_, ?_⟩
          · rw [hloop, hrest]
            simp [Snapshot.issue]
          · rw [hiff, hfailures, and_assoc]
            rfl
        · refine Or.inr ⟨id :: done, last, rest, error, by rw [hids]; rfl, ⟨hcaught, hall⟩, ?_, ?_⟩
          · simpa [Snapshot.issue] using hescapes
          · rw [hloop, hrest]
            simp [Snapshot.issue]
      · refine Or.inr ⟨[], id, ids, error, rfl, trivial, by simpa using hescapes, ?_⟩
        rw [hloop]
        simp [Snapshot.issue]

end

section

variable {c : Surroundings} {items : List GatheredService}

theorem runSteps_cases (steps : List BundleStep) : ∀ (before : List BundleStep) (s : Snapshot)
    (files : List String), s.bundle = some files →
    (AllFrom (fun before step => c.work before step = none) before steps ∧
      runSteps c before steps s =
        (.ok (), { s with bundle := some (files ++ steps.flatMap (·.files c.savedPaths)) })) ∨
    (¬AllFrom (fun before step => c.work before step = none) before steps ∧
      ∃ error files', runSteps c before steps s = (.error error, { s with bundle := some files' })) := by
  induction steps with
  | nil =>
      intro before s files hbundle
      exact Or.inl ⟨trivial, by simp [runSteps, ← hbundle]⟩
  | cons step steps ih =>
      intro before s files hbundle
      rw [runSteps]
      cases hwork : c.work before step with
      | some error =>
          refine Or.inr ⟨fun h => ?_, error, files, by simp [← hbundle]⟩
          rw [AllFrom, hwork] at h
          cases h.1
      | none =>
          have hadd : (s.add (step.files c.savedPaths)).bundle =
              some (files ++ step.files c.savedPaths) := by
            rw [Snapshot.add, hbundle]
            rfl
          rcases ih (before ++ [step]) _ _ hadd with ⟨hall, hloop⟩ | ⟨hnot, error, files', hloop⟩
          · refine Or.inl ⟨⟨hwork, hall⟩, ?_⟩
            simp only [hloop]
            simp [Snapshot.add]
          · exact Or.inr ⟨fun h => hnot h.2, error, files', hloop⟩

/-- The bundle is removed exactly when the snapshot was not completed and all restarts and
the removal succeed. -/
def bundleAfter (s : Snapshot) (clean : Prop) [Decidable clean] : Option (List String) :=
  if s.completed = false ∧ clean then none else s.bundle

open Classical in
variable (items) in
/-- What the `finally` block leaves behind. -/
theorem restore_cases (c : Surroundings) (s : Snapshot) {order : List String}
    (horder : order = restartOrder items s.previouslyRunning) :
    (AllFrom (fun before call => ¬Escapes c.runner before call) s.calls (order.map .start) ∧
      (restore c items s).2 = { s with
        calls := s.calls ++ order.map .start
        bundle := bundleAfter s
          (AllFrom (Succeeds c.runner) s.calls (order.map .start) ∧ c.rmtree = none) }) ∨
    ∃ done id rest, order = done ++ id :: rest ∧
      AllFrom (fun before call => ¬Escapes c.runner before call) s.calls (done.map .start) ∧
      Escapes c.runner (s.calls ++ done.map .start) (.start id) ∧
      (restore c items s).2 = { s with calls := s.calls ++ (done ++ [id]).map .start } := by
  rw [restore, ← horder]
  rcases startAll_cases c.runner order [] s with ⟨hall, failures, hloop, hiff⟩ |
    ⟨done, id, rest, error, hids, hall, hescapes, hloop⟩
  · refine Or.inl ⟨hall, ?_⟩
    simp only [hloop, bundleAfter]
    by_cases hfailures : failures = []
    · have hsucceeds := (hiff.mp hfailures).2
      rw [if_neg (not_not_intro hfailures)]
      cases hcompleted : s.completed with
      | true => simp
      | false =>
          cases hrmtree : c.rmtree with
          | none => simp [hsucceeds]
          | some error => simp
    · have hfails : ¬AllFrom (Succeeds c.runner) s.calls (order.map .start) :=
        fun h => hfailures (hiff.mpr ⟨rfl, h⟩)
      rw [if_pos hfailures]
      simp [hfails]
  · exact Or.inr ⟨done, id, rest, hids, hall, hescapes, by rw [hloop]⟩

theorem createSnapshot_state (hrefused : c.refused = none) :
    (createSnapshot c items).2 =
      (restore c items (takeSnapshot c items ⟨[], [], some [], false⟩).2).2 := by
  rw [createSnapshot, hrefused]
  dsimp only
  split
  · rename_i h
    rw [h]
  · rename_i h
    rw [h]

/-! ## What was running -/

theorem mem_runningIds {id : String} :
    id ∈ runningIds items ↔ ∃ item ∈ items, item.container = some ⟨id, true⟩ := by
  simp only [runningIds, List.mem_filterMap, Option.map_eq_some_iff, Option.filter_eq_some_iff]
  constructor
  · rintro ⟨item, hitem, ⟨id', running⟩, ⟨hcontainer, hrunning⟩, rfl⟩
    obtain rfl : running = true := hrunning
    exact ⟨item, hitem, hcontainer⟩
  · rintro ⟨item, hitem, hcontainer⟩
    exact ⟨item, hitem, ⟨id, true⟩, ⟨hcontainer, rfl⟩, rfl⟩

theorem runningIds_sublist : ∀ items : List GatheredService,
    (runningIds items).Sublist (items.filterMap fun item => item.container.map (·.id))
  | [] => .slnil
  | ⟨_, none⟩ :: items => runningIds_sublist items
  | ⟨_, some ⟨id, false⟩⟩ :: items => (runningIds_sublist items).cons id
  | ⟨_, some ⟨id, true⟩⟩ :: items => (runningIds_sublist items).cons_cons id

theorem Gathered.nodup_runningIds (g : Gathered) : (runningIds g.items).Nodup :=
  g.distinct.sublist (runningIds_sublist g.items)

theorem restartOrder_perm (items : List GatheredService) (ids : List String) :
    (restartOrder items ids).Perm ids :=
  List.perm_insertionSort _ ids

/-- Of the commands `stopped` and then `started`. -/
theorem restoresRunState_iff {s : Snapshot} {stopped started : List String}
    (hcalls : s.calls = stopped.map .stop ++ started.map .start)
    (hrunning : ∀ id ∈ stopped, id ∈ runningIds items) :
    RestoresRunState items s ↔ ∀ id ∈ stopped, id ∈ started := by
  have hstop : ∀ id, DockerCall.stop id ∈ s.calls ↔ id ∈ stopped := by
    intro id
    rw [hcalls]
    simp
  constructor
  · intro h id hid
    obtain ⟨item, hitem, hcontainer⟩ := mem_runningIds.mp (hrunning id hid)
    have hrestarted := h item hitem id hcontainer ((hstop id).mpr hid)
    rw [hcalls] at hrestarted
    exact restarted_iff.mp hrestarted
  · intro h item _ id _ hid
    rw [hcalls]
    exact restarted_iff.mpr (h id ((hstop id).mp hid))

/-- How the `try` block may go. -/
theorem takeSnapshot_cases (c : Surroundings) (items : List GatheredService) :
    (¬AllFrom (Succeeds c.runner) [] (stops items) ∧ ∃ done id rest,
      runningIds items = done ++ id :: rest ∧
      (takeSnapshot c items ⟨[], [], some [], false⟩).2 =
        ⟨(done ++ [id]).map .stop, done, some [], false⟩) ∨
    (AllFrom (Succeeds c.runner) [] (stops items) ∧ ∃ files completed,
      (completed = true ↔ BundleWritten c items) ∧
      (completed = true → "manifest.json" ∈ files) ∧
      (takeSnapshot c items ⟨[], [], some [], false⟩).2 =
        ⟨stops items, runningIds items, some files, completed⟩) := by
  rw [takeSnapshot]
  rcases stopRunning_cases c.runner items ⟨[], [], some [], false⟩ with
    ⟨hall, hstops⟩ | ⟨hnot, done, id, rest, error, hids, hstops⟩
  · refine Or.inr ⟨hall, ?_⟩
    rw [hstops]
    dsimp only
    rcases runSteps_cases (c := c) (bundleSteps items c.savedPaths) []
      ⟨[] ++ stops items, [] ++ runningIds items, some [], false⟩ [] rfl with
      ⟨hwritten, hsteps⟩ | ⟨hnot, error, files, hsteps⟩
    · rw [hsteps]
      refine ⟨_, true, iff_of_true rfl hwritten, fun _ => ?_, rfl⟩
      refine List.mem_append_right _ (List.mem_flatMap.mpr ⟨.writeManifest, ?_, ?_⟩)
      · simp [bundleSteps]
      · exact List.mem_singleton_self _
    · rw [hsteps]
      exact ⟨files, false, iff_of_false Bool.false_ne_true hnot, fun h => (by cases h), rfl⟩
  · refine Or.inl ⟨hnot, done, id, rest, hids, ?_⟩
    rw [hstops]
    rfl

theorem allFrom_dropLast {α : Type} {P : List α → α → Prop} {before xs : List α}
    (h : AllFrom P before xs) : AllFrom P before xs.dropLast := by
  rcases List.eq_nil_or_concat xs with rfl | ⟨ys, y, rfl⟩
  · trivial
  · rw [List.concat_eq_append] at h ⊢
    rw [List.dropLast_concat]
    exact (allFrom_append.mp h).1

/-- With an outcome of `P` that ends the list before it, all but the last are in `P` only if
nothing follows. -/
theorem allFrom_dropLast_iff {α : Type} {P : List α → α → Prop} {before done : List α} {x : α}
    (rest : List α) (hdone : AllFrom P before done) (hx : ¬P (before ++ done) x) :
    AllFrom P before (done ++ x :: rest).dropLast ↔ rest = [] := by
  cases rest with
  | nil => simp [hdone]
  | cons y rest =>
      refine iff_of_false (fun h => ?_) (List.cons_ne_nil y rest)
      have hshape : (done ++ x :: y :: rest).dropLast = done ++ x :: (y :: rest).dropLast := by
        rw [List.dropLast_append_of_ne_nil (List.cons_ne_nil _ _)]
        rfl
      rw [hshape] at h
      exact hx (allFrom_append.mp h).2.1

/-- Only what was remembered is started. -/
theorem restore_calls (c : Surroundings) (items : List GatheredService) (s : Snapshot) :
    ∃ started : List String, (∀ id ∈ started, id ∈ s.previouslyRunning) ∧
      (restore c items s).2.calls = s.calls ++ started.map .start := by
  have hperm := restartOrder_perm items s.previouslyRunning
  rcases restore_cases items c s rfl with ⟨-, hrestore⟩ |
    ⟨done, id, rest, hshape, -, -, hrestore⟩
  · exact ⟨_, fun id hid => hperm.mem_iff.mp hid, by rw [hrestore]⟩
  · refine ⟨done ++ [id], fun x hx => hperm.mem_iff.mp ?_, by rw [hrestore]⟩
    rw [hshape]
    rcases List.mem_append.mp hx with hx | hx
    · exact List.mem_append_left _ hx
    · obtain rfl := List.mem_singleton.mp hx
      exact List.mem_append_right _ (List.mem_cons_self ..)

/-- A failed stop is never made good. -/
theorem not_restores_of_failed_stop (c : Surroundings) {g : Gathered} {done rest : List String}
    {id : String} (hids : runningIds g.items = done ++ id :: rest) :
    ¬RestoresRunState g.items
      (restore c g.items ⟨(done ++ [id]).map .stop, done, some [], false⟩).2 := by
  intro hrestores
  obtain ⟨started, hstarted, hcalls⟩ :=
    restore_calls c g.items ⟨(done ++ [id]).map .stop, done, some [], false⟩
  have hnodup := g.nodup_runningIds
  rw [hids] at hnodup
  have hrunning : ∀ x ∈ done ++ [id], x ∈ runningIds g.items := by
    intro x hx
    rw [hids]
    rcases List.mem_append.mp hx with hx | hx
    · exact List.mem_append_left _ hx
    · obtain rfl := List.mem_singleton.mp hx
      exact List.mem_append_right _ (List.mem_cons_self ..)
  have hid : id ∈ done :=
    hstarted id ((restoresRunState_iff hcalls hrunning).mp hrestores id (by simp))
  exact (List.disjoint_of_nodup_append hnodup) hid (List.mem_cons_self ..)

theorem keepsOnlyCompleted_some {calls : List DockerCall} {ids files : List String}
    {completed : Bool} (hmanifest : completed = true → "manifest.json" ∈ files) :
    KeepsOnlyCompleted ⟨calls, ids, some files, completed⟩ ↔ completed = true := by
  refine ⟨fun h => (h files rfl).1, fun h files' hfiles => ?_⟩
  obtain rfl := Option.some.inj hfiles
  exact ⟨h, hmanifest h⟩

/-- All starts are issued: what remains is the bundle. -/
theorem keepsOnlyCompleted_bundleAfter {calls : List DockerCall} {ids files : List String}
    {completed : Bool} (hmanifest : completed = true → "manifest.json" ∈ files) (clean : Prop)
    [Decidable clean] {s : Snapshot} (hbundle : s.bundle = some files)
    (hcompleted : s.completed = completed) :
    KeepsOnlyCompleted ⟨calls, ids, bundleAfter s clean, completed⟩ ↔
      (completed = false → clean) := by
  rw [bundleAfter, hbundle, hcompleted]
  by_cases hremoved : completed = false ∧ clean
  · rw [if_pos hremoved]
    exact iff_of_true (fun files h => by cases h) fun _ => hremoved.2
  · rw [if_neg hremoved, keepsOnlyCompleted_some hmanifest]
    cases completed with
    | true => simp
    | false => simpa using hremoved

open Classical in
/-- When all stops have succeeded, the rest decides. -/
theorem restores_iff_of_stopped (c : Surroundings) (g : Gathered) {files : List String}
    {completed : Bool} (hstopped : AllFrom (Succeeds c.runner) [] (stops g.items))
    (hcompleted : completed = true ↔ BundleWritten c g.items)
    (hmanifest : completed = true → "manifest.json" ∈ files) {s : Snapshot}
    (hs : s = ⟨stops g.items, runningIds g.items, some files, completed⟩) :
    RestoresRunState g.items (restore c g.items s).2 ∧ KeepsOnlyCompleted (restore c g.items s).2 ↔
      Orderly c g.items := by
  have hperm := restartOrder_perm g.items (runningIds g.items)
  have hfalse : completed = false ↔ ¬BundleWritten c g.items := by
    rw [← hcompleted, Bool.not_eq_true]
  subst hs
  rcases restore_cases g.items c ⟨stops g.items, runningIds g.items, some files, completed⟩
    rfl with ⟨hall, hrestore⟩ | ⟨done, id, rest, hshape, hdone, hescapes, hrestore⟩
  · rw [hrestore, keepsOnlyCompleted_bundleAfter hmanifest _ rfl rfl, hfalse]
    refine ⟨fun h => ⟨hstopped, allFrom_dropLast hall, h.2⟩, fun h => ⟨?_, h.removed⟩⟩
    exact (restoresRunState_iff rfl fun _ hid => hid).mpr fun id hid => hperm.mem_iff.mpr hid
  · -- the restart of `id` escapes: everything is restarted if it is the last one
    have hstarts : starts g.items = done.map .start ++ .start id :: rest.map .start := by
      rw [starts, show restartOrder g.items (runningIds g.items) = done ++ id :: rest from hshape]
      simp
    have hissued := allFrom_dropLast_iff (rest.map DockerCall.start) hdone
      (not_not_intro hescapes)
    rw [← hstarts, List.map_eq_nil_iff] at hissued
    have hrestored : RestoresRunState g.items (restore c g.items
        ⟨stops g.items, runningIds g.items, some files, completed⟩).2 ↔ rest = [] := by
      rw [hrestore]
      refine (restoresRunState_iff rfl fun _ hid => hid).trans ⟨fun h => ?_, fun h x hx => ?_⟩
      · refine List.eq_nil_iff_forall_not_mem.mpr fun x hx => ?_
        have hmem : x ∈ done ++ id :: rest := by simp [hx]
        have hx' : x ∈ done ++ [id] := h x (hperm.mem_iff.mp (hshape ▸ hmem))
        have hnodup : ((done ++ [id]) ++ rest).Nodup := by
          have hall := hperm.nodup_iff.mpr g.nodup_runningIds
          rw [show restartOrder g.items (runningIds g.items) = done ++ id :: rest from hshape] at hall
          simpa using hall
        exact List.disjoint_of_nodup_append hnodup hx' hx
      · have hx' : x ∈ done ++ id :: rest := hshape ▸ hperm.mem_iff.mpr hx
        rw [h] at hx'
        exact hx'
    have hfails : ¬AllFrom (Succeeds c.runner) (stops g.items) (starts g.items) := by
      obtain ⟨error, herror, -⟩ := hescapes
      rw [hstarts]
      exact fun h => not_succeeds_of_error herror (allFrom_append.mp h).2.1
    rw [hrestored, hrestore, keepsOnlyCompleted_some hmanifest, hcompleted]
    refine ⟨fun h => ⟨hstopped, hissued.mpr h.1, fun hnot => absurd h.2 hnot⟩, fun h => ?_⟩
    refine ⟨hissued.mp h.issued, ?_⟩
    by_contra hnot
    exact hfails (h.removed hnot).1

end

/-- Nothing stays stopped and no partial bundle stays behind exactly when nothing was begun
or the outcomes are orderly. -/
theorem snapshot_restores_iff (c : Surroundings) (g : Gathered) :
    RestoresRunState g.items (createSnapshot c g.items).2 ∧
        KeepsOnlyCompleted (createSnapshot c g.items).2 ↔
      c.refused ≠ none ∨ Orderly c g.items := by
  cases hrefused : c.refused with
  | some error =>
      refine iff_of_true ⟨fun item _ id _ hstop => ?_, fun files hfiles => ?_⟩
        (Or.inl (Option.some_ne_none error))
      · rw [createSnapshot, hrefused] at hstop
        cases hstop
      · rw [createSnapshot, hrefused] at hfiles
        cases hfiles
  | none =>
      rw [createSnapshot_state hrefused]
      simp only [ne_eq, not_true_eq_false, false_or]
      rcases takeSnapshot_cases c g.items with ⟨hfailed, done, id, rest, hids, hbody⟩ |
        ⟨hstopped, files, completed, hcompleted, hmanifest, hbody⟩
      · rw [hbody]
        exact iff_of_false (fun h => not_restores_of_failed_stop c hids h.1)
          fun h => hfailed h.stopped
      · exact restores_iff_of_stopped c g hstopped hcompleted hmanifest hbody

/-! ## Two bad outcomes -/

def kafkaAndStorage : Gathered where
  items := [⟨"kafka", some ⟨"k", true⟩⟩, ⟨"seaweedfs", some ⟨"s", true⟩⟩]
  distinct := List.pairwise_pair.mpr fun h => absurd (String.ext_iff.mp h) (by decide)

def succeeded : CompletedProcess := ⟨0, "", ""⟩

/-- The second stop takes too long for the client. -/
def slowStop : Surroundings where
  refused := none
  runner := fun _ call =>
    if call = .stop "s" then .ok ⟨1, "", "context deadline exceeded"⟩ else .ok succeeded
  work := fun _ _ => none
  savedPaths := ["vault"]
  rmtree := none

/-- The second archive cannot be written, and the first container does not start. -/
def failedRestart : Surroundings where
  refused := none
  runner := fun _ call =>
    if call = .start "k" then .ok ⟨1, "", "no such network"⟩ else .ok succeeded
  work := fun _ step =>
    if step = .makeTar "seaweedfs" then some (.other "OSError" "No space left on device") else none
  savedPaths := ["vault"]
  rmtree := none

/-- A container whose stop reports a failure stays stopped, and a partial bundle stays behind
when a restart fails. -/
theorem snapshot_leaves_stopped :
    ¬RestoresRunState kafkaAndStorage.items (createSnapshot slowStop kafkaAndStorage.items).2 ∧
      ¬KeepsOnlyCompleted (createSnapshot failedRestart kafkaAndStorage.items).2 := by
  have hslow : (createSnapshot slowStop kafkaAndStorage.items).2 =
      ⟨[.stop "k", .stop "s", .start "k"], ["k"], none, false⟩ := by decide +kernel
  have hfailed : (createSnapshot failedRestart kafkaAndStorage.items).2 =
      ⟨[.stop "k", .stop "s", .start "k", .start "s"], ["k", "s"],
        some ["postgres.dump", "kafka.tar"], false⟩ := by decide +kernel
  rw [hslow, hfailed]
  constructor
  · intro h
    obtain ⟨before, after, hcalls, -⟩ := h ⟨"seaweedfs", some ⟨"s", true⟩⟩ (by decide) "s" rfl
      (by decide)
    have hmem : DockerCall.start "s" ∈ [.stop "k", .stop "s", .start "k"] := by
      rw [show [.stop "k", .stop "s", .start "k"] = before ++ .start "s" :: after from hcalls]
      exact List.mem_append_right _ (List.mem_cons_self ..)
    exact absurd hmem (by decide)
  · intro h
    exact absurd (h _ rfl).1 Bool.false_ne_true

end ReleaseBackup

end Sahabino
