import Sahabino.MetabaseSettled

/-!
# Planning, and applying twice

A plan reads: it issues no request but `GET` and changes neither the state
object nor the file, whatever the server replies (`plan_only_reads`). An
apply run that completed leaves every item settled, so a second one, which
wants the same, reads what the first run saw last and has nothing to send
(`runJobs_again`).

The second part needs of the hash only that it tells the contents apart
that the two runs read.
-/

namespace Sahabino

open Py (JsonVal)
open Conc (Prog Steps Runs Proto)
open MetabaseSync

variable {ctx : Context} {seen : JsonVal → Prop}

/-! ## Planning -/

/-- A command that changes nothing: a read of the server, or of the state object. -/
def SyncCommand.reads : SyncCommand → Prop
  | .api method _ _ => method = .get
  | .lookup _ => True
  | .store _ _ | .writeState => False

theorem only_lift {α : Type} {P : SyncCommand → Prop} (x : Sync α) : (lift x).Only P := by
  cases x with
  | ok a => trivial
  | error e => trivial

theorem only_get (path : ApiPath) : (api .get path none).Only SyncCommand.reads :=
  Prog.Only.cmd (c := SyncCommand.api .get path none) rfl

theorem only_lookup (name : String) : (lookup name).Only SyncCommand.reads :=
  Prog.Only.cmd (c := SyncCommand.lookup name) trivial

theorem only_pure {α : Type} {P : SyncCommand → Prop} (a : α) : (pure a : SyncProg α).Only P :=
  trivial

theorem inventory_reads (v : Vars) : (inventory v).Only SyncCommand.reads := by
  unfold inventory
  refine .seq (only_get _) fun _ => .seq (only_lift _) fun _ => ?_
  refine .seq (only_get _) fun _ => .seq (only_lift _) fun _ => ?_
  refine .seq (only_get _) fun _ => .seq (only_lift _) fun _ => ?_
  exact only_pure _

theorem reconcileTracked_reads (kind : Kind) (key : String) (record_ : JsonVal)
    (found : List JsonVal) (want : JsonVal) (v : Vars) :
    (reconcileTracked ctx false kind key record_ found want v).Only SyncCommand.reads := by
  unfold reconcileTracked
  refine .seq (only_lift _) fun id => .seq (only_get _) fun remote => .seq (only_lift _) fun _ => ?_
  split
  · trivial
  · refine .seq (only_lift _) fun _ => ?_
    split
    · trivial
    · refine .seq (only_lift _) fun actual => .seq (only_lift _) fun _ => ?_
      split
      · refine .seq (only_lift _) fun _ => ?_
        split
        · exact only_pure _
        · trivial
      · split
        · trivial
        · refine .seq (only_lift _) fun _ => ?_
          split
          · trivial
          · split
            · exact only_pure _
            · exact only_pure _

theorem reconcile_reads (kind : Kind) (item : Fields) (want parent : JsonVal) (v : Vars) :
    (reconcile ctx false kind item want parent v).Only SyncCommand.reads := by
  unfold reconcile
  refine .seq (only_lift _) fun key => .seq (only_lookup _) fun record_ => ?_
  refine .seq (only_lift _) fun _ => .seq (only_lift _) fun _ => .seq (only_lift _) fun found => ?_
  simp only
  split
  · exact reconcileTracked_reads ..
  · unfold reconcileUntracked
    refine .seq (only_lift _) fun _ => ?_
    split
    · trivial
    · exact only_pure _

theorem runJob_reads (m : Manifest) (v : Vars) (job : Job) :
    (runJob ctx m false v job).Only SyncCommand.reads := by
  have hskip : ∀ (action : String) (kind : Kind) (item : Fields),
      (skip v action kind item).Only SyncCommand.reads :=
    fun _ _ _ => .seq (only_lift _) fun _ => only_pure _
  cases job with
  | collection c => exact .seq (only_lift _) fun _ => reconcile_reads ..
  | question q =>
      refine .seq (only_lift _) fun _ => ?_
      split
      · exact .seq (only_lift _) fun _ => reconcile_reads ..
      · exact hskip ..
  | dashboard d =>
      refine .seq (only_lift _) fun _ => .seq (only_lift _) fun _ => .seq ?_ fun _ => ?_
      · unfold isPreserved
        split
        · exact .seq (only_lift _) fun _ => .seq (only_lookup _) fun _ => only_pure _
        · exact only_pure _
      · split
        · exact hskip ..
        · refine .seq (only_lift _) fun _ => ?_
          split
          · exact hskip ..
          · exact .seq (only_lift _) fun _ => reconcile_reads ..

theorem runJobs_reads (m : Manifest) (jobs : List Job) (v : Vars) :
    (runJobs ctx m false jobs v).Only SyncCommand.reads := by
  induction jobs generalizing v with
  | nil => exact only_pure _
  | cons job rest ih => exact .seq (runJob_reads m v job) fun v' => ih v'

theorem plan_only_reads (m : Manifest) : (run ctx m false).Only SyncCommand.reads :=
  .seq (inventory_reads _) fun v => runJobs_reads m (jobs m) v

/-- What has only reads ahead changes no state on its way. -/
theorem steps_of_reads {allow : SyncCommand → SyncChoice → SyncState → Prop} {α : Type}
    {p p' : SyncProg α} {s s' : SyncState} (h : Steps syncExec allow 0 p s p' s')
    (hp : p.Only SyncCommand.reads) :
    p'.Only SyncCommand.reads ∧ s'.memory = s.memory ∧ s'.file = s.file := by
  induction h with
  | refl p s => exact ⟨hp, rfl, rfl⟩
  | @call c k e v p' s s₁ s'' _ hx _ ih =>
      obtain ⟨hc, hk⟩ := hp
      obtain ⟨hp', hmemory, hfile⟩ := ih (hk v)
      cases c with
      | api method path payload =>
          obtain ⟨-, rfl⟩ := Prod.mk.inj (Option.some.inj hx)
          exact ⟨hp', hmemory, hfile⟩
      | lookup name =>
          obtain ⟨-, rfl⟩ := Prod.mk.inj (Option.some.inj hx)
          exact ⟨hp', hmemory, hfile⟩
      | store name record_ => cases hc
      | writeState => cases hc

/-! ## The second run -/

/-- Not a request that changes the server. -/
def SyncCommand.silent : SyncCommand → Prop
  | .api method _ _ => method = .get
  | _ => True

/-- A run that sends nothing. -/
abbrev again (ctx : Context) (seen : JsonVal → Prop) :=
  syncProto (fun _ => True) (fun c _ => c.silent) (Normalizes ctx seen)

/-- An item with its checkpoint is skipped, or its checkpoint is written again. -/
theorem reconcileTracked_again {kind : Kind} {key : String} {record_ id want : JsonVal}
    {found : List JsonVal} {v : Vars} {s : SyncState} (hdistinct : Distinguishes ctx.hashValue seen)
    {actual : JsonVal} (hid : record_.index "id" = .ok id)
    (hhash : record_.get "remote_hash" = .ok (.str (ctx.hashValue actual)))
    (hequal : actual.Equal want) (hactual : seen actual) :
    Ends (again ctx seen) (reconcileTracked ctx true kind key record_ found want v)
      (fun v' t => v'.ids = (setId v kind key id).ids ∧ KeepsBut (· = keyId kind key) s t) s := by
  unfold reconcileTracked
  refine ends_seq (ends_lift fun id' hid' => ?_)
  obtain rfl : id' = id := Except.ok.inj ((py_eq_ok hid').symm.trans hid)
  refine ends_seq (ends_api (fun _ => rfl) fun e remote _ hallow hreply _ => ?_)
  refine ends_seq (ends_lift fun own _ => ?_)
  split
  · exact ends_raise
  · refine ends_seq (ends_lift fun _ _ => ?_)
    split
    · exact ends_raise
    · refine ends_seq (ends_lift fun now hnow => ?_)
      have hseen : seen now := hallow _ _ _ _ _ _ rfl hreply hnow
      refine ends_seq (ends_lift fun recorded hrecorded => ?_)
      obtain rfl := Except.ok.inj ((py_eq_ok hrecorded).symm.trans hhash)
      split
      · refine ends_seq (ends_lift fun repairable _ => ?_)
        split
        · refine ends_seq (ends_save (fun _ _ => trivial) (fun _ => trivial) ?_)
          rintro _ rfl
          exact ends_ret ⟨rfl, (keepsBut_save _ _ _).after⟩
        · exact ends_raise
      · rename_i hsame
        -- the content is the one of the checkpoint, which is what is wanted
        have hcontent : now.Same actual :=
          hdistinct now actual hseen hactual (JsonVal.str.inj (equal_str (not_not.mp hsame))).symm
        have hwant : now.Equal want := ⟨hcontent.trans hequal.1, fun h => hequal.2 (hcontent ▸ h)⟩
        split
        · exact ends_raise
        · refine ends_seq (ends_lift fun _ _ => ?_)
          split
          · exact ends_raise
          · exact ends_ret ⟨rfl, (KeepsBut.refl _).after⟩

theorem reconcile_again {kind : Kind} {item : Fields} {key : String} {id want parent : JsonVal}
    {v : Vars} {s : SyncState} (hdistinct : Distinguishes ctx.hashValue seen)
    (hkey : keyOf item = .ok key) (h : ItemSettled ctx seen s.memory kind key id want) :
    Ends (again ctx seen) (reconcile ctx true kind item want parent v)
      (fun v' t => v'.ids = (setId v kind key id).ids ∧ KeepsBut (· = keyId kind key) s t) s := by
  obtain ⟨r, actual, hr, htruthy, hid, hhash, hequal, hseen⟩ := h
  unfold reconcile
  refine ends_seq (ends_lift fun key' hkey' => ?_)
  obtain rfl := Except.ok.inj (hkey'.symm.trans hkey)
  refine ends_seq (ends_lookup trivial fun _ => ?_)
  refine ends_seq (ends_lift fun _ _ => ends_seq (ends_lift fun _ _ => ?_))
  refine ends_seq (ends_lift fun found _ => ?_)
  simp only [hr, Option.getD_some, htruthy, if_true]
  exact reconcileTracked_again hdistinct hid hhash hequal hseen

theorem inventory_ends {inv : SyncState → Prop} {pre : SyncCommand → SyncState → Prop}
    {allow : SyncCommand → SyncChoice → SyncState → Prop} {v : Vars} {s : SyncState}
    (own : String → Prop) (hpre : ∀ path s, pre (.api .get path none) s) :
    Ends (syncProto inv pre allow) (inventory v)
      (fun v' t => v'.ids = v.ids ∧ KeepsBut own s t) s := by
  unfold inventory
  refine ends_seq (ends_api (fun _ => hpre _ _) fun _ _ _ _ _ _ => ?_)
  refine ends_seq (ends_lift fun _ _ => ?_)
  refine ends_seq (ends_api (fun _ => hpre _ _) fun _ _ _ _ _ _ => ?_)
  refine ends_seq (ends_lift fun _ _ => ?_)
  refine ends_seq (ends_api (fun _ => hpre _ _) fun _ _ _ _ _ _ => ?_)
  refine ends_seq (ends_lift fun _ _ => ?_)
  exact ends_ret ⟨rfl, (KeepsBut.refl _).after.after.after⟩

theorem runJob_again {m : Manifest} {v : Vars} {job : Job} {s : SyncState} {ids ids' : Kind → Ids}
    (hdistinct : Distinguishes ctx.hashValue seen)
    (h : JobSettled ctx seen m s.memory ids ids' job) (hids : SameIds v.ids ids) :
    Ends (again ctx seen) (runJob ctx m true v job)
      (fun v' t => SameIds v'.ids ids' ∧ KeepsBut job.Owns s t) s := by
  obtain ⟨hcollections, hquestions⟩ := hids
  cases job with
  | collection c =>
      obtain ⟨want, parent, key, id, hwant, hkey, hsettled, hids⟩ := h
      refine ends_seq (ends_lift fun ⟨want', parent'⟩ hwant' => ?_)
      rw [wantCollection, hcollections, ← wantCollection, hwant] at hwant'
      obtain ⟨rfl, rfl⟩ := Prod.mk.inj (Except.ok.inj hwant')
      refine (reconcile_again hdistinct hkey hsettled).mono fun v' t h => ?_
      obtain ⟨hset, hkept⟩ := h
      refine ⟨⟨?_, ?_⟩, hkept.own (.collection c) hkey⟩
      · rw [hset, hids.1, ← hcollections]
        rfl
      · rw [hset, hids.2, ← hquestions]
        rfl
  | question q =>
      refine ends_seq (ends_lift fun enabled henabled => ?_)
      rcases h with ⟨hdisabled, hids⟩ | ⟨htrue, want, key, id, hwant, hkey, hsettled, hids⟩
      · obtain rfl := Except.ok.inj (henabled.symm.trans hdisabled)
        refine skip_ends.mono fun v' t h => ?_
        rw [h.1, h.2]
        exact ⟨⟨hcollections.trans hids.1.symm, hquestions.trans hids.2.symm⟩, KeepsBut.refl _⟩
      · obtain rfl := Except.ok.inj (henabled.symm.trans htrue)
        refine ends_seq (ends_lift fun want' hwant' => ?_)
        rw [wantQuestion, hcollections, ← wantQuestion, hwant] at hwant'
        obtain rfl := Except.ok.inj hwant'
        refine (reconcile_again hdistinct hkey hsettled).mono fun v' t h => ?_
        obtain ⟨hset, hkept⟩ := h
        refine ⟨⟨?_, ?_⟩, hkept.own (.question q) hkey⟩
        · rw [hset, hids.1, ← hcollections]
          rfl
        · rw [hset, hids.2, ← hquestions]
          rfl
  | dashboard d =>
      obtain ⟨hids, enabled, disabled, henabled, hdisabled, hcases⟩ := h
      have hsame : SameIds v.ids ids' :=
        ⟨hcollections.trans hids.1.symm, hquestions.trans hids.2.symm⟩
      refine ends_seq (ends_lift fun enabled' henabled' => ?_)
      obtain rfl := Except.ok.inj (henabled'.symm.trans henabled)
      refine ends_seq (ends_lift fun disabled' hdisabled' => ?_)
      obtain rfl := Except.ok.inj (hdisabled'.symm.trans hdisabled)
      refine ends_seq ((isPreserved_ends fun _ _ => trivial).mono fun known t ht => ?_)
      obtain ⟨rfl, hknown⟩ := ht
      split
      · refine skip_ends.mono fun v' t h => ?_
        rw [h.1, h.2]
        exact ⟨hsame, KeepsBut.refl _⟩
      · rename_i hnot
        refine ends_seq (ends_lift fun cards hcards => ?_)
        split
        · refine skip_ends.mono fun v' t h => ?_
          rw [h.1, h.2]
          exact ⟨hsame, KeepsBut.refl _⟩
        · rename_i hne
          -- it has its turn again, so it was reconciled
          rcases hcases with hpreserved | hnone | ⟨want, key, id, hwant, hkey, hsettled⟩
          · exact absurd (hknown.mpr hpreserved) hnot
          · exact absurd (Except.ok.inj (hcards.symm.trans hnone)) hne
          · refine ends_seq (ends_lift fun want' hwant' => ?_)
            rw [wantDashboard, hcollections, hquestions, ← wantDashboard, hwant] at hwant'
            obtain rfl := Except.ok.inj hwant'
            refine (reconcile_again hdistinct hkey hsettled).mono fun v' t h => ?_
            obtain ⟨hset, hkept⟩ := h
            refine ⟨⟨?_, ?_⟩, hkept.own (.dashboard d) hkey⟩
            · rw [hset, ← hsame.1]
              rfl
            · rw [hset, ← hsame.2]
              rfl

theorem runJobs_again {m : Manifest} (hdistinct : Distinguishes ctx.hashValue seen) :
    ∀ {jobs : List Job} {ids : Kind → Ids} {v : Vars} {s : SyncState}, JobsDistinct jobs →
      AllSettled ctx seen m s.memory jobs ids → SameIds v.ids ids →
      Ends (again ctx seen) (runJobs ctx m true jobs v) (fun _ _ => True) s
  | [], _, _, _, _, _, _ => ends_ret trivial
  | job :: rest, ids, v, s, hjobs, ⟨ids', hjob, hrest⟩, hids => by
      obtain ⟨hhead, htail⟩ := List.pairwise_cons.mp hjobs
      refine ends_seq ((runJob_again hdistinct hjob hids).mono fun v' t h => ?_)
      obtain ⟨hids', hkept⟩ := h
      refine runJobs_again hdistinct htail (hrest.congr fun j hj name hname => ?_) hids'
      exact hkept.others name fun hown => hhead j hj name hown hname

/-! ## Runs -/

theorem run_ends {m : Manifest} (hjobs : JobsDistinct (jobs m)) (s : SyncState) :
    Ends (followed ctx seen) (run ctx m true) (fun _ t =>
      AllSettled ctx seen m t.memory (jobs m) (fun _ => []) ∧ t.memory = t.file) s.begin := by
  refine ends_seq ((inventory_ends (fun _ => False) fun _ _ => trivial).mono fun v t h => ?_)
  obtain ⟨hids, hread⟩ := h
  refine (runJobs_ends m (jobs m) v t hjobs).mono fun _ u hu => ?_
  rw [hids] at hu
  exact ⟨hu.1, hu.2.saved (hread.saved rfl)⟩

theorem run_again {m : Manifest} (hdistinct : Distinguishes ctx.hashValue seen)
    (hjobs : JobsDistinct (jobs m)) {s : SyncState}
    (hsettled : AllSettled ctx seen m s.memory (jobs m) fun _ => []) :
    Ends (again ctx seen) (run ctx m true) (fun _ _ => True) s := by
  refine ends_seq ((inventory_ends (fun _ => False) fun _ _ => rfl).mono fun v t h => ?_)
  obtain ⟨hids, hread⟩ := h
  refine runJobs_again hdistinct hjobs (hsettled.congr fun _ _ name _ => ?_) ?_
  · exact hread.others name id
  · rw [hids]
    exact ⟨rfl, rfl⟩

/-- The next request of a process. -/
def Requests (p : SyncProg Vars) (method : Method) : Prop :=
  ∃ path payload k, p = .call (.api method path payload) k

/-- For every accepted manifest: a plan requests nothing but reads and changes neither the state
object nor the file, whatever the server has and replies; and when an apply run has completed, a
second one from the state that it left requests nothing but reads. The hash has no collision among
the contents that the two runs read. -/
theorem plan_reads_and_apply_settles {checkSql : Fields → Sync Unit} {payload : JsonVal} {m : Manifest}
    (hm : loadManifest checkSql payload = .ok m) (ctx : Context) :
    (∀ allow s p s', Steps syncExec allow 0 (run ctx m false) s p s' →
      s'.memory = s.memory ∧ s'.file = s.file ∧ ∀ method, Requests p method → method = .get) ∧
    ∀ seen, Distinguishes ctx.hashValue seen → ∀ (s t u : SyncState) (v : Vars) (p : SyncProg Vars),
      Runs syncExec (Normalizes ctx seen) 0 (run ctx m true) s.begin (.ok v) t →
      Steps syncExec (Normalizes ctx seen) 0 (run ctx m true) t.begin p u →
      ∀ method, Requests p method → method = .get := by
  refine ⟨fun allow s p s' hsteps => ?_, fun seen hdistinct s t u v p hrun hsteps => ?_⟩
  · obtain ⟨honly, hmemory, hfile⟩ := steps_of_reads hsteps (plan_only_reads m)
    refine ⟨hmemory, hfile, ?_⟩
    rintro method ⟨path, body, k, rfl⟩
    exact honly.1
  · have hjobs := jobsDistinct hm
    have hended := (Runs.wp (P := followed ctx seen) (J := fun _ => True) (fun _ => rfl)
      (fun _ _ _ _ => trivial) (fun _ _ _ _ _ => trivial) hrun trivial trivial
      (run_ends hjobs s)).2.2.1 v rfl
    have hsettled : AllSettled ctx seen m t.begin.memory (jobs m) fun _ => [] := by
      rw [SyncState.begin, ← hended.2]
      exact hended.1
    have hleft := (Steps.wp (P := again ctx seen) (fun _ => rfl) (fun _ _ _ _ => trivial) hsteps
      trivial (run_again hdistinct hjobs hsettled)).2
    rintro method ⟨path, body, k, rfl⟩
    exact (hleft u rfl trivial).1

/-! ### A server that stores what it is sent -/

namespace StoringServer

def objectsOf (server : Objects) (kind : Kind) : List JsonVal :=
  (List.range 9).filterMap fun n => server kind (toString (n + 1))

def put (server : Objects) (kind : Kind) (id : String) (j : JsonVal) : Objects := fun kind' id' =>
  if (kind', id') = (kind, id) then some j else server kind' id'

/-- The ids of a kind are 1, 2, …; an update replaces the rest of an object. -/
def respond (c : SyncCommand) (s : SyncState) : SyncChoice :=
  match c with
  | .api .get (.listing kind) _ => ⟨s.server, .ok (.arr (objectsOf s.server kind)), .written⟩
  | .api .get (.object kind id _) _ =>
      ⟨s.server, (s.server kind id).elim (refuse "404") .ok, .written⟩
  | .api .post (.listing kind) (some (.obj fields)) =>
      match (List.range 9).find? fun n => (s.server kind (toString (n + 1))).isNone with
      | some n =>
          let id := JsonVal.int (n + 1)
          ⟨put s.server kind (toString (n + 1)) (.obj (("id", id) :: fields)),
            .ok (.obj [("id", id)]), .written⟩
      | none => ⟨s.server, refuse "507", .written⟩
  | .api .put (.object kind id _) (some (.obj fields)) =>
      match s.server kind id with
      | some (.obj old) =>
          let j := JsonVal.obj (("id", JsonVal.getD old "id") :: fields)
          ⟨put s.server kind id j, .ok j, .written⟩
      | _ => ⟨s.server, refuse "404", .written⟩
  | _ => ⟨s.server, refuse "400", .written⟩

def lib : Stdlib :=
  ⟨fun _ => none, fun _ => none, fun _ => none, fun _ _ => Fin.last 15, id, fun _ => ""⟩

def context (hashValue : JsonVal → String) : Context where
  lib := lib
  hashValue := hashValue
  title := id
  readSql _ := .ok "SELECT 1".toList
  experiment := ⟨"experiment", "none", [], [], [], false⟩
  release := ⟨"release", "none", [], [], [], false⟩
  database := .int 2
  capabilities := ⟨some .dataAvailable, some .notSupplied, some .verifiedAvailable,
    some .dataAvailable, some .annotationsUnavailable⟩

def empty : SyncState := ⟨fun _ _ => none, [], [], []⟩

def collection : JsonVal := .obj [("key", .str "main"), ("name", .str "Sahabino"),
  ("description", .str "Reports"), ("parent", .null)]

def question (key name description : String) : JsonVal := .obj [("key", .str key), ("name", .str name),
  ("description", .str description), ("collection", .str "main"), ("capability", .str "base"),
  ("sql", .str "questions/apps.sql"), ("parameters", .obj []), ("display", .str "table"),
  ("visualization_settings", .obj [])]

def dashboard : JsonVal := .obj [("key", .str "overview"), ("name", .str "Overview"),
  ("description", .str "At a glance"), ("collection", .str "main"), ("capability", .str "base"),
  ("cards", .arr [.obj [("question", .str "apps"), ("row", .int 0), ("col", .int 0),
    ("size_x", .int 12), ("size_y", .int 6)]]), ("filters", .arr [])]

def payload (questions dashboards : List JsonVal) : JsonVal := .obj [("schema_version", .int 1),
  ("metabase_version", .str "v0.63.18"), ("database_name", .str "Sahabino"),
  ("collections", .arr [collection]), ("questions", .arr questions),
  ("dashboards", .arr dashboards)]

def storedManifest : JsonVal :=
  payload [question "apps" "Applications" "All of them"] [dashboard]

def overview (cards : List JsonVal) : JsonVal := .obj [("name", .str "Overview"),
  ("description", .str "At a glance\n\n[sahabino-bi:dashboard:overview]"),
  ("collection_id", .int 1), ("parameters", .arr []), ("dashcards", .arr cards)]

/-- What is read of the objects, with its hashes. -/
def contents : List (JsonVal × String) := [
  (.obj [("name", .str "Sahabino"),
      ("description", .str "Reports\n\n[sahabino-bi:collection:main]"), ("parent_id", .null)],
    "79f4baa97c882bb0e8828aad3486da960713c3136a6bb5810deecb686a71cca9"),
  (.obj [("name", .str "Applications"),
      ("description", .str "All of them\n\n[sahabino-bi:question:apps]"),
      ("collection_id", .int 1), ("display", .str "table"), ("visualization_settings", .obj []),
      ("dataset_query", .obj [("database", .int 2), ("type", .str "native"),
        ("native", .obj [("query", .str "SELECT 1"), ("template-tags", .obj [])])])],
    "8b813afee5d090df96c04a38bc7839818ad92915a10df8d6fb3e8879552a29bd"),
  (overview [], "bc95fd0f2524c26822223e304adcfe8c561549d69e44ebed19dd8c259f24de0e"),
  (overview [.obj [("card_id", .int 1), ("row", .int 0), ("col", .int 0), ("size_x", .int 12),
      ("size_y", .int 6), ("parameter_mappings", .arr [])]],
    "0c2f80f0486cefb63e24a6195552a6e87db5c3187f5375a509154d4603011f7b")]

def hashValue (j : JsonVal) : String := (contents.lookup j).getD ""

def Seen (j : JsonVal) : Prop := j ∈ contents.map Prod.fst

def check (c : SyncCommand) (e : SyncChoice) (_ : SyncState) : Bool :=
  match c, e.reply with
  | .api .get (.object kind _ _) _, .ok j =>
      match normal lib kind j with
      | .ok a => a ∈ contents.map Prod.fst
      | .error _ => true
  | _, _ => true

theorem normalizes_of_check {c : SyncCommand} {e : SyncChoice} {s : SyncState}
    (h : check c e s = true) : Normalizes (context hashValue) Seen c e s := by
  rintro kind id legacy payload j a rfl hreply ha
  simp only [check, hreply] at h
  rw [show normal lib kind j = .ok a from ha] at h
  have hmem : a ∈ contents.map Prod.fst := of_decide_eq_true h
  exact hmem

/-- A run on the empty server, until nothing is left to do. -/
def firstRun : Sync (Option (SyncProg Vars × SyncState)) := do
  let m ← loadManifest (fun _ => .ok ()) storedManifest
  pure (Conc.follow syncExec 0 check respond 100 (run (context hashValue) m true) empty.begin)

/-- The actions of the run, if it completed. -/
def actionsOf : Sync (Option (SyncProg Vars × SyncState)) → Option (List (String × String))
  | .ok (some (.ret v, _)) => some v.actions
  | _ => none

end StoringServer

/-- A collection, a question and a dashboard are created; a second run finds them. -/
theorem plan_reads_and_apply_settles_stored : ∃ m v t,
    loadManifest (fun _ => .ok ()) StoringServer.storedManifest = .ok m ∧
      v.actions = [("CREATE", "collection:main"), ("CREATE", "question:apps"),
        ("CREATE", "dashboard:overview"), ("ASSEMBLE", "dashboard:overview")] ∧
      Runs syncExec (Normalizes (StoringServer.context StoringServer.hashValue)
        StoringServer.Seen) 0
        (run (StoringServer.context StoringServer.hashValue) m true) StoringServer.empty.begin
        (.ok v) t ∧
      ∀ p u, Steps syncExec
          (Normalizes (StoringServer.context StoringServer.hashValue) StoringServer.Seen) 0
          (run (StoringServer.context StoringServer.hashValue) m true) t.begin p u →
        ∀ method, Requests p method → method = .get := by
  have hactions : StoringServer.actionsOf StoringServer.firstRun =
      some [("CREATE", "collection:main"), ("CREATE", "question:apps"),
        ("CREATE", "dashboard:overview"), ("ASSEMBLE", "dashboard:overview")] := by
    decide +kernel
  have hdistinct : Distinguishes (StoringServer.context StoringServer.hashValue).hashValue
      StoringServer.Seen := by
    have hall : ∀ a ∈ StoringServer.contents.map Prod.fst,
        ∀ b ∈ StoringServer.contents.map Prod.fst,
          StoringServer.hashValue a = StoringServer.hashValue b → a.Same b := by
      decide +kernel
    exact fun a b ha hb => hall a ha b hb
  cases hfirst : StoringServer.firstRun with
  | error e =>
      rw [hfirst] at hactions
      cases hactions
  | ok r =>
      obtain ⟨m, hm, hrun⟩ := Rel.bind_eq_ok hfirst
      rw [hfirst] at hactions
      match r, hrun, hactions with
      | some (.ret v, t), hrun, hactions =>
          have hruns := (Steps.of_follow (fun _ => True)
            (fun _ _ _ hcheck => ⟨StoringServer.normalizes_of_check hcheck, fun _ _ _ => trivial⟩)
            trivial (Except.ok.inj hrun)).runs rfl
          exact ⟨m, v, t, hm, Option.some.inj hactions, hruns, fun p u hsteps =>
            (plan_reads_and_apply_settles hm _).2 _ hdistinct _ t u v p hruns hsteps⟩

end Sahabino
