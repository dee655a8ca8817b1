import Sahabino.Lib.Prog
import Sahabino.SyncContent

/-!
# The Metabase synchronizer

`Sync.run`: every item of a manifest is found on the server again by the
identity that the state file has for it, or created. The commands are the
requests, the accesses to the state object in memory, and the replacement
of the state file.

What a request does to the server, and what it replies, is for the
environment to choose (`Choice`); what is assumed of it is said where it
is needed.
-/

namespace Sahabino

open Py (JsonVal)
open Conc (Prog)

inductive Method where
  | get
  | post
  | put
deriving DecidableEq

/-- The paths of the requests: the list of a kind, or one object by the text of its id, perhaps
with `?legacy-mbql=true`. -/
inductive ApiPath where
  | listing (kind : Kind)
  | object (kind : Kind) (id : String) (legacy : Bool)
deriving DecidableEq

/-- The text of the endpoint of a kind. -/
def Kind.endpoint : Kind → String
  | .collection => "/api/collection"
  | .question => "/api/card"
  | .dashboard => "/api/dashboard"

def ApiPath.text : ApiPath → String
  | listing kind => kind.endpoint
  | object kind id legacy =>
        kind.endpoint ++ "/" ++ id ++ (if legacy then "?legacy-mbql=true" else "")

inductive SyncCommand where
  /-- `self.api.call(method, path, payload)` -/
  | api (method : Method) (path : ApiPath) (payload : Option JsonVal)
  /-- look up a name in `self.state["objects"]` -/
  | lookup (name : String)
  /-- `self.state["objects"][name] = record` -/
  | store (name : String) (record : JsonVal)
  /-- `write_state(self.path, self.state)` -/
  | writeState

def SyncReply : SyncCommand → Type
  | .api _ _ _ => JsonVal
  | .lookup _ => Option JsonVal
  | .store _ _ => Unit
  | .writeState => Unit

abbrev SyncProg (α : Type) := Prog SyncCommand SyncReply SyncRaise α

/-! ## Programs -/

structure Vars where
  ids : Kind → Ids
  actions : List (String × String)
  /-- the inventory -/
  lists : Kind → List JsonVal

namespace MetabaseSync

def lift {α : Type} : Sync α → SyncProg α
  | .ok a => .ret a
  | .error e => .raise e

def api (method : Method) (path : ApiPath) (payload : Option JsonVal) : SyncProg JsonVal :=
  Prog.cmd (SyncCommand.api method path payload)

def lookup (name : String) : SyncProg (Option JsonVal) := Prog.cmd (SyncCommand.lookup name)

def store (name : String) (record : JsonVal) : SyncProg Unit :=
  Prog.cmd (SyncCommand.store name record)

def writeState : SyncProg Unit := Prog.cmd SyncCommand.writeState

/-- `inventory` -/
def inventory (v : Vars) : SyncProg Vars := do
  let collections ← lift (asItems (← api .get (.listing .collection) none))
  let questions ← lift (asItems (← api .get (.listing .question) none))
  let dashboards ← lift (asItems (← api .get (.listing .dashboard) none))
  let lists : Kind → List JsonVal
    | .collection => collections
    | .question => questions
    | .dashboard => dashboards
  pure { v with lists := lists }

def act (v : Vars) (action name : String) : Vars :=
  { v with actions := v.actions ++ [(action, name)] }

/-- `self.ids[kind][key] = id` -/
def setId (v : Vars) (kind : Kind) (key : String) (id : JsonVal) : Vars :=
  { v with ids := fun k => if k = kind then (key, id) :: v.ids k else v.ids k }

/-- `remote.get("id") != rid or marker(kind, key) not in (remote.get("description") or "")` -/
def isOwn (kind : Kind) (key : String) (id remote : JsonVal) : Sync Bool := do
  let remoteId ← py (remote.get "id")
  if remoteId.Equal id then hasMarker kind key remote else pure false

/-- `candidates`: the objects of the same name, in the same collection. -/
def candidates (kind : Kind) (name collection : JsonVal) (objects : List JsonVal) : Sync (List JsonVal) :=
  keep (fun o => do
    let oName ← py (o.get "name")
    if ¬oName.Equal name then pure false
    else if kind = .collection then pure true
    else pure (decide ((← py (o.get "collection_id")).Equal collection))) objects

/-- `any(c["id"] != rid for c in candidates)` -/
def othersAmong (id : JsonVal) : List JsonVal → Sync Bool :=
  anyOf fun c => do pure (decide ¬(← py (c.index "id")).Equal id)

/-- The dashboard cards on the server by their card; the last one counts. -/
def cardsByCard : List JsonVal → Sync (List (JsonVal × JsonVal))
  | [] => .ok []
  | c :: rest => do
      let id ← cardId c
      let others ← cardsByCard rest
      if ¬id.hashable then .error (.python .typeError)
      else if others.any fun entry => entry.1.Same id then pure others else pure ((id, c) :: others)

/-- A card of an update, with the id its predecessor has on the server. -/
def updateCard (old : List (JsonVal × JsonVal)) (entry : Nat × JsonVal) : Sync JsonVal := do
  let fields ← dictOf entry.2
  let card ← py (entry.2.index "card_id")
  let previous := ((old.find? fun e => e.1.Same card).map Prod.snd).getD (.obj [])
  let id ← py (previous.getOr "id" (.int (-1 - (entry.1 : ℤ))))
  pure (.obj (JsonVal.set "id" id fields))

def enumerated {α : Type} (items : List α) : List (Nat × α) := (List.range items.length).zip items

/-- The payload of an update of a dashboard. -/
def dashboardUpdate (k : String) (want remote : JsonVal) : Sync JsonVal := do
  let old ← cardsByCard (← py (← py (remote.getOr "dashcards" (.arr []))).elements)
  let wanted ← py (← py (want.index "dashcards")).elements
  let cards ← (enumerated wanted).mapM (updateCard old)
  let ids ← cards.mapM fun c => py (c.index "id")
  if ids.any fun id => !id.hashable then .error (.python .typeError)
  else if ¬ids.Pairwise fun a b => ¬a.Same b then
    refuse ("Duplicate dashboard-card IDs; refusing unsafe update for " ++ k)
  else if wanted.length < old.length then refuse "Unmanaged dashcard present; refusing to delete"
  else
    let fields ← dictOf want
    pure (.obj (JsonVal.set "dashcards" (.arr cards) fields))

/-- Cards without an id of their own get different negative ones. -/
def unsavedCards (want : JsonVal) : Sync (List JsonVal) := do
  let wanted ← py (← py (want.index "dashcards")).elements
  (enumerated wanted).mapM fun entry => do
    pure (.obj (JsonVal.set "id" (.int (-1 - (entry.1 : ℤ))) (← dictOf entry.2)))

/-- `{x: want[x] for x in ("name", "description", "collection_id", "parameters")}` -/
def shellFields (want : JsonVal) : Sync Fields :=
  ["name", "description", "collection_id", "parameters"].mapM fun name => do
    pure (name, ← py (want.index name))

variable (ctx : Context)

/-- The path that an object is read by. -/
def readPath (kind : Kind) (id : JsonVal) : ApiPath :=
  .object kind (ctx.lib.str id) (kind = .question)

/-- `path` itself, for changes. -/
def writePath (kind : Kind) (id : JsonVal) : ApiPath := .object kind (ctx.lib.str id) false

/-- A checkpoint, in memory and in the file. -/
def save (kind : Kind) (key : String) (id actual : JsonVal) : SyncProg Unit := do
  store (keyId kind key) (checkpoint ctx.hashValue id actual)
  writeState

/-- `record` -/
def record (kind : Kind) (key : String) (id : JsonVal) (want : Option JsonVal) : SyncProg Unit := do
  let k := keyId kind key
  let obj ← api .get (readPath ctx kind id) none
  if !(← lift (isOwn kind key id obj)) then
    .raise (.syncError ("Created/updated " ++ k ++
      " but cannot verify marker: partial completion, manual recovery"))
  else
    let actual ← lift (normal ctx.lib kind obj)
    save ctx kind key id actual
    if ∃ w ∈ want, ¬actual.Equal w then
      .raise (.syncError ("Remote payload differs from expected for " ++ k ++
        "; state checkpointed; no silent overwrite"))
    else pure ()

/-- A checkpoint that the old normal form wrote may be written again. -/
def isRepairable (kind : Kind) (record_ actual want : JsonVal) : Sync Bool :=
  if kind = .question then isLegacyReadCheckpoint ctx.hashValue record_ actual want else .ok false

/-- The update of an object that was read as `remote`. -/
def update (kind : Kind) (key : String) (id want remote : JsonVal) : SyncProg Unit := do
  let payload ←
    lift (if kind = .dashboard then dashboardUpdate (keyId kind key) want remote else .ok want)
  let _ ← api .put (writePath ctx kind id) (some payload)
  record ctx kind key id (some want)

/-- `reconcile` for an item that the state has a record of. -/
def reconcileTracked (apply : Bool) (kind : Kind) (key : String) (record_ : JsonVal)
    (candidates : List JsonVal) (want : JsonVal) (v : Vars) : SyncProg Vars := do
  let k := keyId kind key
  let id ← lift (py (record_.index "id"))
  let remote ← api .get (readPath ctx kind id) none
  if !(← lift (isOwn kind key id remote)) then
    .raise (.syncError ("Ownership marker/ID mismatch for " ++ k ++ "; manual recovery required"))
  else if (← lift (py (remote.get "archived"))) = .bool true then
    .raise (.syncError ("Managed object manually archived: " ++ k ++
      "; refusing silent unarchive or replacement"))
  else
    let actual ← lift (normal ctx.lib kind remote)
    if ¬(JsonVal.str (ctx.hashValue actual)).Equal (← lift (py (record_.get "remote_hash"))) then
      if ← lift (isRepairable ctx kind record_ actual want) then
        if apply then save ctx kind key id actual
        pure (setId (act v "REPAIR_CHECKPOINT" k) kind key id)
      else
        .raise (.syncError ("Manual edit, incompatible prior checkpoint, or differing live SQL for " ++
          k ++ "; refusing overwrite"))
    else if 1 < candidates.length then
      .raise (.syncError ("Ambiguous duplicate managed name for " ++ k))
    else if ← lift (othersAmong id candidates) then
      .raise (.syncError ("Ambiguous duplicate managed name for " ++ k))
    else if actual.Equal want then pure (setId (act v "SKIP" k) kind key id)
    else
      if apply then update ctx kind key id want remote
      pure (setId (act v "UPDATE" k) kind key id)

/-- `type(rid) is not int or rid < 1` -/
def isNewId : JsonVal → Bool
  | .int n => 1 ≤ n
  | _ => false

/-- The payload that creates an object; a dashboard is created without cards. -/
def creation (kind : Kind) (item : Fields) (want parent : JsonVal) : Sync JsonVal :=
  match kind with
  | .collection => do
      let name ← itemAt item "name"
      let description ← py (want.index "description")
      pure (.obj [("name", name), ("description", description), ("parent_id", parent)])
  | .question => .ok want
  | .dashboard => do pure (.obj (← shellFields want))

/-- The second stage of a new dashboard: its cards. -/
def assemble (key : String) (id want : JsonVal) : SyncProg Unit := do
  let _ ← api .get (writePath ctx .dashboard id) none
  let cards ← lift (unsavedCards want)
  let fields ← lift (shellFields want)
  let _ ← api .put (writePath ctx .dashboard id)
    (some (.obj (fields ++ [("dashcards", .arr cards)])))
  record ctx .dashboard key id (some want)

/-- What the inventory would have shown of a new object. -/
def newEntry (item : Fields) (id collection want : JsonVal) : Sync JsonVal := do
  let name ← itemAt item "name"
  let description ← py (want.index "description")
  pure (.obj [("id", id), ("name", name), ("collection_id", collection),
    ("description", description)])

def addEntry (v : Vars) (kind : Kind) (entry : JsonVal) : Vars :=
  { v with lists := fun k => if k = kind then v.lists k ++ [entry] else v.lists k }

/-- `reconcile` for an item without a record. -/
def reconcileUntracked (apply : Bool) (kind : Kind) (key : String) (item : Fields)
    (collection : JsonVal) (candidates : List JsonVal) (want parent : JsonVal) (v : Vars) :
    SyncProg Vars := do
  let k := keyId kind key
  let marked ← lift (anyOf (hasMarker kind key) (v.lists kind))
  if candidates ≠ [] ∨ marked then
    .raise (.syncError ("Untracked same-name/marked object " ++ k ++
      "; never adopt or overwrite without ownership recovery"))
  else
    let v := act v "CREATE" k
    if !apply then
      -- a virtual id
      pure (setId v kind key (.int (-1 - (v.actions.length : ℤ))))
    else
      let payload ← lift (creation kind item want parent)
      let result ← api .post (.listing kind) (some payload)
      let id ← lift (py (result.get "id"))
      if !isNewId id then
        .raise (.syncError ("POST " ++ k ++
          " returned no numeric ID; inspect remote marker before retry"))
      else
        record ctx kind key id (if kind = .dashboard then none else some want)
        let entry ← lift (newEntry item id collection want)
        let v := addEntry (setId v kind key id) kind entry
        if kind = .dashboard then
          assemble ctx key id want
          pure (act v "ASSEMBLE" k)
        else pure v

/-- `reconcile` -/
def reconcile (apply : Bool) (kind : Kind) (item : Fields) (want parent : JsonVal) (v : Vars) :
    SyncProg Vars := do
  let key ← lift (keyOf item)
  let record_ ← lookup (keyId kind key)
  let collection ← lift (if kind = .collection then pure parent else py (want.get "collection_id"))
  let name ← lift (itemAt item "name")
  let found ← lift (candidates kind name collection (v.lists kind))
  let record_ := record_.getD .null
  if record_.truthy then reconcileTracked ctx apply kind key record_ found want v
  else reconcileUntracked ctx apply kind key item collection found want parent v

/-! ## A run -/

/-- One turn of one of the three loops of `run`. -/
inductive Job where
  | collection (c : Fields)
  | question (q : Fields)
  | dashboard (d : Fields)

def jobs (m : Manifest) : List Job :=
  m.collections.map .collection ++ m.questions.map .question ++ m.dashboards.map .dashboard

def isEnabled (q : Fields) : Sync Bool := do
  capabilityEnabled ctx.capabilities (← itemAt q "capability")

def enabledQuestions (m : Manifest) : Sync (List JsonVal) := do
  (← keep (isEnabled ctx) m.questions).mapM (itemAt · "key")

/-- `d["cards"]` whose question is among the enabled ones, or not. -/
def cardsWhere (enabled : List JsonVal) (among : Bool) (d : Fields) : Sync (List Fields) := do
  keep (fun card => do pure ((← inSet (← itemAt card "question") enabled) = among))
    (← itemsAt d "cards")

def wantCollection (ids : Kind → Ids) (c : Fields) : Sync (JsonVal × JsonVal) := do
  let parent ← parentOf (ids .collection) c
  pure (← desiredCollection c parent, parent)

def wantQuestion (ids : Kind → Ids) (q : Fields) : Sync JsonVal := do
  desiredQuestion ctx q (← idAt (ids .collection) (← itemAt q "collection"))

def wantDashboard (ids : Kind → Ids) (enabled : List JsonVal) (d : Fields) : Sync JsonVal := do
  desiredDashboard ctx.lib d (← idAt (ids .collection) (← itemAt d "collection")) (ids .question)
    enabled

/-- A dashboard is left as it is when it is known and lost some of its cards. -/
def isPreserved (d : Fields) (disabledCards : List Fields) : SyncProg Bool :=
  if disabledCards ≠ [] then do
    let key ← lift (keyOf d)
    let record_ ← lookup (keyId .dashboard key)
    pure record_.isSome
  else pure false

/-- An item whose turn it is not. -/
def skip (v : Vars) (action : String) (kind : Kind) (item : Fields) : SyncProg Vars := do
  let key ← lift (keyOf item)
  pure (act v action (keyId kind key))

def runJob (m : Manifest) (apply : Bool) (v : Vars) : Job → SyncProg Vars
  | .collection c => do
      let (want, parent) ← lift (wantCollection v.ids c)
      reconcile ctx apply .collection c want parent v
  | .question q => do
      if ← lift (isEnabled ctx q) then
        let want ← lift (wantQuestion ctx v.ids q)
        reconcile ctx apply .question q want .null v
      else skip v "SKIP_CAPABILITY" .question q
  | .dashboard d => do
      let enabled ← lift (enabledQuestions ctx m)
      let disabledCards ← lift (cardsWhere enabled false d)
      if ← isPreserved d disabledCards then skip v "SKIP_CAPABILITY_PRESERVE" .dashboard d
      else if (← lift (cardsWhere enabled true d)) = [] then skip v "SKIP_CAPABILITY" .dashboard d
      else
        let want ← lift (wantDashboard ctx v.ids enabled d)
        reconcile ctx apply .dashboard d want .null v

def runJobs (m : Manifest) (apply : Bool) : List Job → Vars → SyncProg Vars
  | [], v => pure v
  | job :: rest, v => do
      let v ← runJob ctx m apply v job
      runJobs m apply rest v

/-- `run` -/
def run (m : Manifest) (apply : Bool) : SyncProg Vars := do
  let v ← inventory ⟨fun _ => [], [], fun _ => []⟩
  runJobs ctx m apply (jobs m) v

end MetabaseSync

/-! ## Execution -/

/-- The objects of a server, by kind and by the text of the id: what reading one replies. -/
abbrev Objects := Kind → String → Option JsonVal

structure ApiCall where
  method : Method
  path : ApiPath
  reply : Sync JsonVal

structure SyncState where
  server : Objects
  /-- `self.state["objects"]` -/
  memory : Fields
  /-- the objects that the state file has -/
  file : Fields
  /-- the requests of this run, the last one first -/
  calls : List ApiCall

/-- `read_state`, with which a run begins. -/
def SyncState.begin (s : SyncState) : SyncState := { s with memory := s.file, calls := [] }

inductive WriteFate where
  | written
  | failed
  /-- raises after the file was replaced -/
  | failedWritten
deriving DecidableEq

structure SyncChoice where
  /-- the objects after a request: whatever others did before it, and what it did -/
  after : Objects
  reply : Sync JsonVal
  write : WriteFate

/-- A state after a request. -/
def SyncState.afterApi (s : SyncState) (method : Method) (path : ApiPath) (e : SyncChoice) :
    SyncState :=
  { s with server := e.after, calls := ⟨method, path, e.reply⟩ :: s.calls }

def syncExec : Conc.Exec SyncState SyncCommand SyncChoice SyncRaise SyncReply :=
  fun _ e c s =>
    match c with
    | .api method path _ => some (e.reply, s.afterApi method path e)
    | .lookup name => some (.ok (JsonVal.field s.memory name), s)
    | .store name record => some (.ok (), { s with memory := JsonVal.set name record s.memory })
    | .writeState =>
        match e.write with
        | .written => some (.ok (), { s with file := s.memory })
        | .failed => some (.error .osError, s)
        | .failedWritten => some (.error .osError, { s with file := s.memory })

/-! ## Reasoning -/

open Conc (Proto)

/-- A discipline for one run: between its commands nothing moves, what others do is a part of
the choices. -/
def syncProto (inv : SyncState → Prop) (pre : SyncCommand → SyncState → Prop)
    (allow : SyncCommand → SyncChoice → SyncState → Prop) :
    Proto SyncState SyncCommand SyncChoice where
  inv := inv
  rely _ s s' := s' = s
  pre _ := pre
  allow _ := allow

/-- `p` keeps the discipline from `s` on, and ends with `Q` if it does not raise. -/
def Ends (P : Proto SyncState SyncCommand SyncChoice) {α : Type} (p : SyncProg α)
    (Q : α → SyncState → Prop) (s : SyncState) : Prop := P.wp syncExec 0 p Q (fun _ _ => True) s

section

variable {inv : SyncState → Prop} {pre : SyncCommand → SyncState → Prop}
  {allow : SyncCommand → SyncChoice → SyncState → Prop} {α β : Type} {s : SyncState}

theorem ends_ret {a : α} {Q : α → SyncState → Prop} (h : Q a s) :
    Ends (syncProto inv pre allow) (pure a) Q s := h

theorem ends_raise {e : SyncRaise} {Q : α → SyncState → Prop} :
    Ends (syncProto inv pre allow) (.raise e) Q s := trivial

theorem ends_seq {p : SyncProg α} {f : α → SyncProg β} {Q : β → SyncState → Prop}
    (h : Ends (syncProto inv pre allow) p (fun a t => Ends (syncProto inv pre allow) (f a) Q t) s) :
    Ends (syncProto inv pre allow) (p >>= f) Q s := Proto.wp_seq h

theorem Ends.mono {p : SyncProg α} {Q Q' : α → SyncState → Prop}
    (h : Ends (syncProto inv pre allow) p Q s) (hQ : ∀ a t, Q a t → Q' a t) :
    Ends (syncProto inv pre allow) p Q' s := Proto.wp_mono hQ (fun _ _ h => h) h

theorem ends_lift {x : Sync α} {Q : α → SyncState → Prop} (h : ∀ a, x = .ok a → Q a s) :
    Ends (syncProto inv pre allow) (MetabaseSync.lift x) Q s := by
  cases x with
  | ok a => exact h a rfl
  | error e => trivial

theorem ends_api {method : Method} {path : ApiPath} {payload : Option JsonVal}
    {Q : JsonVal → SyncState → Prop} (hpre : inv s → pre (.api method path payload) s)
    (h : ∀ e j, inv s → allow (.api method path payload) e s → e.reply = .ok j →
      inv (s.afterApi method path e) → Q j (s.afterApi method path e)) :
    Ends (syncProto inv pre allow) (MetabaseSync.api method path payload) Q s := by
  refine Proto.wp_cmd.mpr fun t ht hi => ?_
  cases ht
  refine ⟨hpre hi, fun e v t' ha hx hi' => ?_⟩
  obtain ⟨rfl, rfl⟩ := Prod.mk.inj (Option.some.inj hx)
  exact ⟨fun j hj => h e j hi ha hj hi', fun _ _ => trivial⟩

theorem ends_lookup {name : String} {Q : Option JsonVal → SyncState → Prop}
    (hpre : pre (.lookup name) s) (h : inv s → Q (JsonVal.field s.memory name) s) :
    Ends (syncProto inv pre allow) (MetabaseSync.lookup name) Q s := by
  refine Proto.wp_cmd.mpr fun t ht hi => ?_
  cases ht
  refine ⟨hpre, fun e v t' ha hx hi' => ?_⟩
  obtain ⟨rfl, rfl⟩ := Prod.mk.inj (Option.some.inj hx)
  exact ⟨fun r hr => Except.ok.inj hr ▸ h hi, fun _ _ => trivial⟩

theorem ends_save {ctx : Context} {kind : Kind} {key : String} {id actual : JsonVal}
    {Q : Unit → SyncState → Prop} (hstore : ∀ record s, pre (.store (keyId kind key) record) s)
    (hwrite : ∀ s, pre .writeState s)
    (h : ∀ memory, memory = JsonVal.set (keyId kind key) (checkpoint ctx.hashValue id actual)
        s.memory →
      Q () { s with memory := memory, file := memory }) :
    Ends (syncProto inv pre allow) (MetabaseSync.save ctx kind key id actual) Q s := by
  refine Proto.wp_seq (Proto.wp_cmd.mpr fun t ht _ => ?_)
  cases ht
  refine ⟨hstore _ _, fun e v t' _ hx _ => ?_⟩
  obtain ⟨rfl, rfl⟩ := Prod.mk.inj (Option.some.inj hx)
  refine ⟨fun _ _ => Proto.wp_cmd.mpr fun t ht _ => ?_, fun _ _ => trivial⟩
  cases ht
  refine ⟨hwrite _, fun e v t' _ hx _ => ?_⟩
  simp only [syncExec] at hx
  split at hx
  · obtain ⟨rfl, rfl⟩ := Prod.mk.inj (Option.some.inj hx)
    exact ⟨fun _ _ => h _ rfl, fun _ _ => trivial⟩
  · obtain ⟨rfl, rfl⟩ := Prod.mk.inj (Option.some.inj hx)
    exact ⟨fun _ hv => (by cases hv), fun _ _ => trivial⟩
  · obtain ⟨rfl, rfl⟩ := Prod.mk.inj (Option.some.inj hx)
    exact ⟨fun _ hv => (by cases hv), fun _ _ => trivial⟩

end

end Sahabino
