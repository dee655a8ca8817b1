import Sahabino.Lib.Table
import Sahabino.MetabaseSync

/-!
# What an apply run leaves behind

After an apply run that completes, every item that was reconciled has a
checkpoint whose hash is that of what the run wanted (`ItemSettled`), whatever
the server replied; all other checkpoints are as they were (`KeepsBut`),
so the items settled earlier stay settled (`runJobs_ends`).
-/

namespace Sahabino

open Py (JsonVal)
open MetabaseSync

variable {ctx : Context}

/-! ## Keys -/

theorem Kind.text_append_inj {kind kind' : Kind} {s t : String}
    (h : kind.text ++ ":" ++ s = kind'.text ++ ":" ++ t) : kind = kind' ∧ s = t := by
  have hlists := congrArg String.toList h
  simp only [String.toList_append] at hlists
  cases kind <;> cases kind' <;> simp [Kind.text, ← String.toList_inj] at hlists ⊢ <;> exact hlists

theorem keyId_inj {kind kind' : Kind} {key key' : String} (h : keyId kind key = keyId kind' key') :
    kind = kind' ∧ key = key' := Kind.text_append_inj h

theorem equal_str {a : JsonVal} {s : String} (h : (JsonVal.str s).Equal a) : a = .str s :=
  JsonVal.same_str h.1.symm

theorem keyOf_eq_ok {item : Fields} {key : String} (h : keyOf item = .ok key) :
    JsonVal.getD item "key" = .str key := by
  obtain ⟨value, hvalue, htext⟩ := Rel.bind_eq_ok h
  have hstr : value = .str key := by
    cases value <;> first | exact congrArg JsonVal.str (Except.ok.inj htext) | cases htext
  have hindex := py_eq_ok hvalue
  rw [hstr, JsonVal.index] at hindex
  rw [JsonVal.getD]
  cases hfield : JsonVal.field item "key" with
  | none => simp [hfield] at hindex
  | some v => simpa [hfield] using hindex

theorem checkKeys_distinct : ∀ {items : List Fields} {known keys : List JsonVal},
    checkKeys known items = .ok keys →
    (∀ item ∈ items, ∀ key, keyOf item = .ok key → ∀ k ∈ known, ¬k.Same (.str key)) ∧
      items.Pairwise fun a b => ∀ key, keyOf a = .ok key → keyOf b ≠ .ok key
  | [], _, _, _ => ⟨fun _ h => (by cases h), List.Pairwise.nil⟩
  | item :: rest, known, keys, h => by
      rw [checkKeys] at h
      split at h
      · cases h
      · obtain ⟨among, hamong, h⟩ := Rel.bind_eq_ok h
        split at h
        · cases h
        · rename_i hnew
          obtain ⟨hknown, hrest⟩ := checkKeys_distinct h
          have hfresh : ∀ k ∈ known, ¬k.Same (JsonVal.getD item "key") := by
            intro k hk hsame
            unfold inSet at hamong
            split at hamong
            · rw [← Except.ok.inj hamong] at hnew
              exact hnew (List.any_eq_true.mpr ⟨k, hk, decide_eq_true hsame⟩)
            · cases hamong
          refine ⟨fun i hi key hkey k hk => ?_,
            List.pairwise_cons.mpr ⟨fun b hb key ha hkey => ?_, hrest⟩⟩
          · rcases List.mem_cons.mp hi with rfl | hi
            · rw [← keyOf_eq_ok hkey]
              exact hfresh k hk
            · exact hknown i hi key hkey k (List.mem_cons_of_mem _ hk)
          · refine hknown b hb key hkey _ (List.mem_cons_self ..) ?_
            rw [keyOf_eq_ok ha]
            exact JsonVal.Same.refl _

theorem loadManifest_keys {checkSql : Fields → Sync Unit} {payload : JsonVal} {m : Manifest}
    (h : loadManifest checkSql payload = .ok m) : ∃ collections questions dashboards,
      checkKeys [] m.collections = .ok collections ∧ checkKeys [] m.questions = .ok questions ∧
        checkKeys [] m.dashboards = .ok dashboards := by
  obtain ⟨fields, _, h⟩ := Rel.bind_eq_ok h
  split at h
  · cases h
  · obtain ⟨collections, _, h⟩ := Rel.bind_eq_ok h
    obtain ⟨questions, _, h⟩ := Rel.bind_eq_ok h
    obtain ⟨dashboards, _, h⟩ := Rel.bind_eq_ok h
    obtain ⟨collectionKeys, hcollections, h⟩ := Rel.bind_eq_ok h
    obtain ⟨questionKeys, hquestions, h⟩ := Rel.bind_eq_ok h
    obtain ⟨dashboardKeys, hdashboards, h⟩ := Rel.bind_eq_ok h
    obtain ⟨_, _, h⟩ := Rel.bind_eq_ok h
    obtain ⟨_, _, h⟩ := Rel.bind_eq_ok h
    obtain ⟨_, _, h⟩ := Rel.bind_eq_ok h
    obtain rfl := Except.ok.inj h
    exact ⟨collectionKeys, questionKeys, dashboardKeys, hcollections, hquestions, hdashboards⟩

theorem isRepairable_equal {kind : Kind} {record_ actual want : JsonVal}
    (h : isRepairable ctx kind record_ actual want = .ok true) : actual.Equal want := by
  unfold isRepairable at h
  split at h
  · unfold isLegacyReadCheckpoint at h
    obtain ⟨remote, _, h⟩ := Rel.bind_eq_ok h
    split at h
    · obtain ⟨_, _, h⟩ := Rel.bind_eq_ok h
      split at h
      · rename_i hconditions
        exact hconditions.2.2
      · cases h
    · cases h
  · cases h

/-! ## Items that are up to date -/

/-- Values that the hash tells apart. -/
def Distinguishes (hashValue : JsonVal → String) (seen : JsonVal → Prop) : Prop :=
  ∀ a b, seen a → seen b → hashValue a = hashValue b → a.Same b

/-- Every reply to the read of an object has its normal form among these values. -/
def Normalizes (ctx : Context) (seen : JsonVal → Prop) (c : SyncCommand) (e : SyncChoice)
    (_ : SyncState) : Prop :=
  ∀ kind id legacy payload j a, c = .api .get (.object kind id legacy) payload → e.reply = .ok j →
    normal ctx.lib kind j = .ok a → seen a

/-- The state has a checkpoint of what is wanted. -/
def ItemSettled (ctx : Context) (seen : JsonVal → Prop) (memory : Fields) (kind : Kind) (key : String)
    (id want : JsonVal) : Prop :=
  ∃ r actual, JsonVal.field memory (keyId kind key) = some r ∧ r.truthy = true ∧
    r.index "id" = .ok id ∧ r.get "remote_hash" = .ok (.str (ctx.hashValue actual)) ∧
    actual.Equal want ∧ seen actual

/-- All but some checkpoints are as they were, and the file still agrees with the memory. -/
structure KeepsBut (own : String → Prop) (s t : SyncState) : Prop where
  others : ∀ name, ¬own name → JsonVal.field t.memory name = JsonVal.field s.memory name
  saved : s.memory = s.file → t.memory = t.file

namespace KeepsBut

variable {own own' : String → Prop} {s t u : SyncState}

theorem refl (s : SyncState) : KeepsBut own s s := ⟨fun _ _ => rfl, id⟩

theorem trans (h : KeepsBut own s t) (h' : KeepsBut own t u) : KeepsBut own s u where
  others name hname := (h'.others name hname).trans (h.others name hname)
  saved hs := h'.saved (h.saved hs)

theorem mono (h : KeepsBut own s t) (hown : ∀ name, own name → own' name) : KeepsBut own' s t where
  others name hname := h.others name fun ho => hname (hown name ho)
  saved := h.saved

/-- A request changes neither the memory nor the file. -/
theorem after {method : Method} {path : ApiPath} {e : SyncChoice}
    (h : KeepsBut own (s.afterApi method path e) t) : KeepsBut own s t := ⟨h.others, h.saved⟩

end KeepsBut

variable {seen : JsonVal → Prop}

theorem settled_checkpoint {memory : Fields} {kind : Kind} {key : String} {id actual want : JsonVal}
    (hequal : actual.Equal want) (hseen : seen actual) :
    ItemSettled ctx seen (JsonVal.set (keyId kind key) (checkpoint ctx.hashValue id actual) memory)
      kind
      key id want :=
  ⟨checkpoint ctx.hashValue id actual, actual, JsonVal.field_set_self .., rfl, rfl, rfl, hequal, hseen⟩

theorem keepsBut_save (name : String) (value : JsonVal) (s : SyncState) :
    KeepsBut (· = name) s
      { s with memory := JsonVal.set name value s.memory, file := JsonVal.set name value s.memory } :=
  ⟨fun _ hother => JsonVal.field_set_of_ne hother _ _, fun _ => rfl⟩

/-! ## The first run -/

/-- A run of which only the replies are followed. -/
abbrev followed (ctx : Context) (seen : JsonVal → Prop) :=
  syncProto (fun _ => True) (fun _ _ => True) (Normalizes ctx seen)

theorem record_ends (kind : Kind) (key : String) (id : JsonVal) (want : Option JsonVal) (s : SyncState) :
    Ends (followed ctx seen) (record ctx kind key id want)
      (fun _ t => (∀ w ∈ want, ItemSettled ctx seen t.memory kind key id w) ∧
        KeepsBut (· = keyId kind key) s t) s := by
  unfold record
  refine ends_seq (ends_api (fun _ => trivial) fun e obj _ hallow hreply _ => ?_)
  refine ends_seq (ends_lift fun own _ => ?_)
  split
  · exact ends_raise
  · refine ends_seq (ends_lift fun actual hactual => ?_)
    have hseen : seen actual := hallow _ _ _ _ _ _ rfl hreply hactual
    refine ends_seq (ends_save (fun _ _ => trivial) (fun _ => trivial) ?_)
    rintro _ rfl
    split
    · exact ends_raise
    · rename_i hwant
      refine ends_ret ⟨fun w hw => ?_, (keepsBut_save _ _ _).after⟩
      have hequal : actual.Equal w := by
        by_contra hne
        exact hwant ⟨w, hw, hne⟩
      exact settled_checkpoint hequal hseen

theorem update_ends (kind : Kind) (key : String) (id want remote : JsonVal) (s : SyncState) :
    Ends (followed ctx seen) (update ctx kind key id want remote)
      (fun _ t => ItemSettled ctx seen t.memory kind key id want ∧
        KeepsBut (· = keyId kind key) s t)
      s := by
  unfold update
  refine ends_seq (ends_lift fun payload _ => ?_)
  refine ends_seq (ends_api (fun _ => trivial) fun e _ _ _ _ _ => ?_)
  exact (record_ends kind key id (some want) _).mono fun _ t h => ⟨h.1 want rfl, h.2.after⟩

theorem assemble_ends (key : String) (id want : JsonVal) (s : SyncState) :
    Ends (followed ctx seen) (assemble ctx key id want)
      (fun _ t => ItemSettled ctx seen t.memory .dashboard key id want ∧
        KeepsBut (· = keyId .dashboard key) s t) s := by
  unfold assemble
  refine ends_seq (ends_api (fun _ => trivial) fun e _ _ _ _ _ => ?_)
  refine ends_seq (ends_lift fun _ _ => ends_seq (ends_lift fun _ _ => ?_))
  refine ends_seq (ends_api (fun _ => trivial) fun e _ _ _ _ _ => ?_)
  exact (record_ends .dashboard key id (some want) _).mono fun _ t h =>
    ⟨h.1 want rfl, h.2.after.after⟩

/-- The ids after an item, and its checkpoint. -/
def ItemReconciled (ctx : Context) (seen : JsonVal → Prop) (s : SyncState) (v : Vars) (kind : Kind)
    (key : String) (want : JsonVal) (v' : Vars) (t : SyncState) : Prop :=
  ∃ id, ItemSettled ctx seen t.memory kind key id want ∧ v'.ids = (setId v kind key id).ids ∧
    KeepsBut (· = keyId kind key) s t

theorem reconcileTracked_ends {kind : Kind} {key : String} {record_ : JsonVal} {found : List JsonVal}
    {want : JsonVal} {v : Vars} {s : SyncState} (htruthy : record_.truthy = true)
    (hrecord : JsonVal.field s.memory (keyId kind key) = some record_) :
    Ends (followed ctx seen) (reconcileTracked ctx true kind key record_ found want v)
      (ItemReconciled ctx seen s v kind key want) s := by
  unfold reconcileTracked
  refine ends_seq (ends_lift fun id hid => ?_)
  refine ends_seq (ends_api (fun _ => trivial) fun e remote _ hallow hreply _ => ?_)
  refine ends_seq (ends_lift fun own _ => ?_)
  split
  · exact ends_raise
  · refine ends_seq (ends_lift fun _ _ => ?_)
    split
    · exact ends_raise
    · refine ends_seq (ends_lift fun actual hactual => ?_)
      have hseen : seen actual := hallow _ _ _ _ _ _ rfl hreply hactual
      refine ends_seq (ends_lift fun recorded hrecorded => ?_)
      split
      · refine ends_seq (ends_lift fun repairable hrepairable => ?_)
        split
        · rename_i htrue
          rw [htrue] at hrepairable
          refine ends_seq (ends_save (fun _ _ => trivial) (fun _ => trivial) ?_)
          rintro _ rfl
          exact ends_ret ⟨id, settled_checkpoint (isRepairable_equal hrepairable) hseen, rfl,
            (keepsBut_save _ _ _).after⟩
        · exact ends_raise
      · rename_i hhash
        split
        · exact ends_raise
        · refine ends_seq (ends_lift fun _ _ => ?_)
          split
          · exact ends_raise
          · split
            · rename_i hequal
              -- nothing is sent: the record is already that of the content
              rw [equal_str (not_not.mp hhash)] at hrecorded
              refine ends_ret ⟨id, ⟨record_, actual, hrecord, htruthy, py_eq_ok hid,
                py_eq_ok hrecorded, hequal, hseen⟩, rfl, (KeepsBut.refl _).after⟩
            · refine ends_seq ((update_ends kind key id want remote _).mono fun _ t h => ?_)
              exact ends_ret ⟨id, h.1, rfl, h.2.after⟩

theorem reconcileUntracked_ends {kind : Kind} {key : String} {item : Fields} {collection : JsonVal}
    {found : List JsonVal} {want parent : JsonVal} {v : Vars} {s : SyncState} :
    Ends (followed ctx seen)
      (reconcileUntracked ctx true kind key item collection found want parent v)
      (ItemReconciled ctx seen s v kind key want) s := by
  unfold reconcileUntracked
  refine ends_seq (ends_lift fun marked _ => ?_)
  split
  · exact ends_raise
  · refine ends_seq (ends_lift fun payload _ => ?_)
    refine ends_seq (ends_api (fun _ => trivial) fun e result _ _ _ _ => ?_)
    refine ends_seq (ends_lift fun id _ => ?_)
    split
    · exact ends_raise
    · refine ends_seq ((record_ends kind key id _ _).mono fun _ t ht => ?_)
      refine ends_seq (ends_lift fun entry _ => ?_)
      split
      · rename_i hkind
        subst hkind
        refine ends_seq ((assemble_ends key id want t).mono fun _ u hu => ?_)
        exact ends_ret ⟨id, hu.1, rfl, (ht.2.trans hu.2).after⟩
      · rename_i hkind
        rw [if_neg hkind] at ht
        exact ends_ret ⟨id, ht.1 want rfl, rfl, ht.2.after⟩

theorem reconcile_ends {kind : Kind} {item : Fields} {want parent : JsonVal} {v : Vars}
    {s : SyncState} :
    Ends (followed ctx seen) (reconcile ctx true kind item want parent v)
      (fun v' t => ∃ key, keyOf item = .ok key ∧
        ItemReconciled ctx seen s v kind key want v' t) s := by
  unfold reconcile
  refine ends_seq (ends_lift fun key hkey => ?_)
  refine ends_seq (ends_lookup trivial fun _ => ?_)
  refine ends_seq (ends_lift fun _ _ => ends_seq (ends_lift fun _ _ => ?_))
  refine ends_seq (ends_lift fun found _ => ?_)
  simp only
  split
  · rename_i htruthy
    cases hrecord : JsonVal.field s.memory (keyId kind key) with
    | none =>
        rw [hrecord] at htruthy
        cases htruthy
    | some r =>
        rw [hrecord] at htruthy
        exact (reconcileTracked_ends htruthy hrecord).mono fun _ _ h => ⟨key, hkey, h⟩
  · exact reconcileUntracked_ends.mono fun _ _ h => ⟨key, hkey, h⟩

/-! ## Jobs -/

def MetabaseSync.Job.kind : Job → Kind
  | .collection _ => .collection
  | .question _ => .question
  | .dashboard _ => .dashboard

def MetabaseSync.Job.item : Job → Fields
  | .collection c => c
  | .question q => q
  | .dashboard d => d

/-- The name of the checkpoint of a job. -/
def MetabaseSync.Job.Owns (job : Job) (name : String) : Prop :=
  ∃ key, keyOf job.item = .ok key ∧ name = keyId job.kind key

/-- No two jobs have a checkpoint in common. -/
def JobsDistinct (jobs : List Job) : Prop :=
  jobs.Pairwise fun a b => ∀ name, a.Owns name → ¬b.Owns name

/-- The items of one kind. -/
theorem jobsDistinct_map {items : List Fields} {keys : List JsonVal} (job : Fields → Job) (kind : Kind)
    (hitem : ∀ item, (job item).item = item) (hkind : ∀ item, (job item).kind = kind)
    (h : checkKeys [] items = .ok keys) : JobsDistinct (items.map job) := by
  refine List.pairwise_map.mpr ((checkKeys_distinct h).2.imp fun {a b} hab => ?_)
  rintro name ⟨key, hkey, hname⟩ ⟨key', hkey', hname'⟩
  rw [hitem] at hkey hkey'
  rw [hkind] at hname hname'
  obtain ⟨-, rfl⟩ := keyId_inj (hname.symm.trans hname')
  exact hab key hkey hkey'

theorem not_owns_of_kind {a b : Job} (h : a.kind ≠ b.kind) (name : String) (ha : a.Owns name) :
    ¬b.Owns name := by
  obtain ⟨_, _, rfl⟩ := ha
  rintro ⟨_, _, hname⟩
  exact h (keyId_inj hname).1

theorem jobsDistinct {checkSql : Fields → Sync Unit} {payload : JsonVal} {m : Manifest}
    (h : loadManifest checkSql payload = .ok m) : JobsDistinct (jobs m) := by
  obtain ⟨_, _, _, hcollections, hquestions, hdashboards⟩ := loadManifest_keys h
  have hc := jobsDistinct_map .collection .collection (fun _ => rfl) (fun _ => rfl) hcollections
  have hq := jobsDistinct_map .question .question (fun _ => rfl) (fun _ => rfl) hquestions
  have hd := jobsDistinct_map .dashboard .dashboard (fun _ => rfl) (fun _ => rfl) hdashboards
  refine List.pairwise_append.mpr ⟨List.pairwise_append.mpr ⟨hc, hq, ?_⟩, hd, ?_⟩
  · intro a ha b hb
    obtain ⟨c, _, rfl⟩ := List.mem_map.mp ha
    obtain ⟨q, _, rfl⟩ := List.mem_map.mp hb
    exact not_owns_of_kind (fun h => by cases h)
  · intro a ha b hb
    obtain ⟨d, _, rfl⟩ := List.mem_map.mp hb
    rcases List.mem_append.mp ha with ha | ha
    · obtain ⟨c, _, rfl⟩ := List.mem_map.mp ha
      exact not_owns_of_kind (fun h => by cases h)
    · obtain ⟨q, _, rfl⟩ := List.mem_map.mp ha
      exact not_owns_of_kind (fun h => by cases h)

/-- What the wants of later items are made of. -/
def SameIds (ids ids' : Kind → Ids) : Prop :=
  ids .collection = ids' .collection ∧ ids .question = ids' .question

/-- After a job: its item is up to date, or it has no turn in a run like this. -/
def JobSettled (ctx : Context) (seen : JsonVal → Prop) (m : Manifest) (memory : Fields)
    (ids ids' : Kind → Ids) : Job → Prop
  | .collection c => ∃ want parent key id, wantCollection ids c = .ok (want, parent) ∧
      keyOf c = .ok key ∧ ItemSettled ctx seen memory .collection key id want ∧
      ids' .collection = (key, id) :: ids .collection ∧ ids' .question = ids .question
  | .question q => (isEnabled ctx q = .ok false ∧ SameIds ids' ids) ∨
      (isEnabled ctx q = .ok true ∧ ∃ want key id, wantQuestion ctx ids q = .ok want ∧
        keyOf q = .ok key ∧ ItemSettled ctx seen memory .question key id want ∧
        ids' .collection = ids .collection ∧ ids' .question = (key, id) :: ids .question)
  | .dashboard d => SameIds ids' ids ∧ ∃ enabled disabled,
      enabledQuestions ctx m = .ok enabled ∧ cardsWhere enabled false d = .ok disabled ∧
      ((disabled ≠ [] ∧ ∃ key r, keyOf d = .ok key ∧
          JsonVal.field memory (keyId .dashboard key) = some r) ∨
        cardsWhere enabled true d = .ok [] ∨
        ∃ want key id, wantDashboard ctx ids enabled d = .ok want ∧ keyOf d = .ok key ∧
          ItemSettled ctx seen memory .dashboard key id want)

/-- Every job of a list, one after the other. -/
def AllSettled (ctx : Context) (seen : JsonVal → Prop) (m : Manifest) (memory : Fields) :
    List Job → (Kind → Ids) → Prop
  | [], _ => True
  | job :: rest, ids => ∃ ids', JobSettled ctx seen m memory ids ids' job ∧
      AllSettled ctx seen m memory rest ids'

theorem ItemSettled.congr {memory memory' : Fields} {kind : Kind} {key : String} {id want : JsonVal}
    (h : ItemSettled ctx seen memory kind key id want)
    (hm : JsonVal.field memory' (keyId kind key) = JsonVal.field memory (keyId kind key)) :
    ItemSettled ctx seen memory' kind key id want := by
  obtain ⟨r, actual, hr, hrest⟩ := h
  exact ⟨r, actual, hm.trans hr, hrest⟩

theorem JobSettled.congr {m : Manifest} {memory memory' : Fields} {ids ids' : Kind → Ids}
    {job : Job}
    (h : JobSettled ctx seen m memory ids ids' job)
    (hm : ∀ name, job.Owns name → JsonVal.field memory' name = JsonVal.field memory name) :
    JobSettled ctx seen m memory' ids ids' job := by
  cases job with
  | collection c =>
      obtain ⟨want, parent, key, id, hwant, hkey, hsettled, hids⟩ := h
      exact ⟨want, parent, key, id, hwant, hkey, hsettled.congr (hm _ ⟨key, hkey, rfl⟩), hids⟩
  | question q =>
      rcases h with h | ⟨henabled, want, key, id, hwant, hkey, hsettled, hids⟩
      · exact Or.inl h
      · exact Or.inr ⟨henabled, want, key, id, hwant, hkey,
          hsettled.congr (hm _ ⟨key, hkey, rfl⟩), hids⟩
  | dashboard d =>
      obtain ⟨hids, enabled, disabled, henabled, hdisabled, hcases⟩ := h
      refine ⟨hids, enabled, disabled, henabled, hdisabled, ?_⟩
      rcases hcases with ⟨hne, key, r, hkey, hr⟩ | hnone | ⟨want, key, id, hwant, hkey, hsettled⟩
      · exact Or.inl ⟨hne, key, r, hkey, (hm _ ⟨key, hkey, rfl⟩).trans hr⟩
      · exact Or.inr (Or.inl hnone)
      · exact Or.inr (Or.inr ⟨want, key, id, hwant, hkey,
          hsettled.congr (hm _ ⟨key, hkey, rfl⟩)⟩)

theorem AllSettled.congr {m : Manifest} {memory memory' : Fields} :
    ∀ {jobs : List Job} {ids : Kind → Ids}, AllSettled ctx seen m memory jobs ids →
      (∀ job ∈ jobs, ∀ name, job.Owns name → JsonVal.field memory' name = JsonVal.field memory name) →
      AllSettled ctx seen m memory' jobs ids
  | [], _, _, _ => trivial
  | job :: _, _, ⟨ids', hjob, hrest⟩, hm =>
      ⟨ids', hjob.congr (hm job (List.mem_cons_self ..)),
        AllSettled.congr hrest fun j hj => hm j (List.mem_cons_of_mem _ hj)⟩

theorem KeepsBut.own (job : Job) {key : String} {s t : SyncState}
    (h : KeepsBut (· = keyId job.kind key) s t) (hkey : keyOf job.item = .ok key) :
    KeepsBut job.Owns s t := h.mono fun _ hname => ⟨key, hkey, hname⟩

theorem skip_ends {inv : SyncState → Prop} {pre : SyncCommand → SyncState → Prop}
    {allow : SyncCommand → SyncChoice → SyncState → Prop} {v : Vars} {action : String} {kind : Kind}
    {item : Fields} {s : SyncState} :
    Ends (syncProto inv pre allow) (skip v action kind item) (fun v' t => v'.ids = v.ids ∧ t = s)
      s := ends_seq (ends_lift fun _ _ => ends_ret ⟨rfl, rfl⟩)

/-- Whether a dashboard is left as it is. -/
theorem isPreserved_ends {inv : SyncState → Prop} {pre : SyncCommand → SyncState → Prop}
    {allow : SyncCommand → SyncChoice → SyncState → Prop} {d : Fields} {disabled : List Fields}
    {s : SyncState} (hpre : ∀ name s, pre (.lookup name) s) :
    Ends (syncProto inv pre allow) (isPreserved d disabled) (fun known t => t = s ∧
      (known = true ↔ disabled ≠ [] ∧ ∃ key r, keyOf d = .ok key ∧
        JsonVal.field s.memory (keyId .dashboard key) = some r)) s := by
  unfold isPreserved
  split
  · rename_i hne
    refine ends_seq (ends_lift fun key hkey => ends_seq (ends_lookup (hpre _ _) fun _ => ?_))
    refine ends_ret ⟨rfl, ?_⟩
    rw [Option.isSome_iff_exists]
    constructor
    · rintro ⟨r, hr⟩
      exact ⟨hne, key, r, hkey, hr⟩
    · rintro ⟨-, key', r, hkey', hr⟩
      rw [Except.ok.inj (hkey.symm.trans hkey')]
      exact ⟨r, hr⟩
  · rename_i hnil
    exact ends_ret ⟨rfl, ⟨fun h => (by cases h), fun h => absurd h.1 hnil⟩⟩

theorem runJob_ends (m : Manifest) (v : Vars) (job : Job) (s : SyncState) :
    Ends (followed ctx seen) (runJob ctx m true v job)
      (fun v' t => JobSettled ctx seen m t.memory v.ids v'.ids job ∧
        KeepsBut job.Owns s t) s := by
  cases job with
  | collection c =>
      refine ends_seq (ends_lift fun ⟨want, parent⟩ hwant => ?_)
      refine reconcile_ends.mono fun v' t h => ?_
      obtain ⟨key, hkey, id, hsettled, hids, honly⟩ := h
      refine ⟨⟨want, parent, key, id, hwant, hkey, hsettled, ?_, ?_⟩,
        honly.own (.collection c) hkey⟩
      · rw [hids]
        rfl
      · rw [hids]
        rfl
  | question q =>
      refine ends_seq (ends_lift fun enabled henabled => ?_)
      split
      · rename_i htrue
        rw [htrue] at henabled
        refine ends_seq (ends_lift fun want hwant => ?_)
        refine reconcile_ends.mono fun v' t h => ?_
        obtain ⟨key, hkey, id, hsettled, hids, honly⟩ := h
        refine ⟨Or.inr ⟨henabled, want, key, id, hwant, hkey, hsettled, ?_, ?_⟩,
          honly.own (.question q) hkey⟩
        · rw [hids]
          rfl
        · rw [hids]
          rfl
      · rename_i hfalse
        rw [Bool.not_eq_true] at hfalse
        rw [hfalse] at henabled
        refine skip_ends.mono fun v' t h => ?_
        rw [h.1, h.2]
        exact ⟨Or.inl ⟨henabled, rfl, rfl⟩, KeepsBut.refl _⟩
  | dashboard d =>
      refine ends_seq (ends_lift fun enabled henabled => ?_)
      refine ends_seq (ends_lift fun disabled hdisabled => ?_)
      refine ends_seq ((isPreserved_ends fun _ _ => trivial).mono fun known t ht => ?_)
      obtain ⟨rfl, hknown⟩ := ht
      split
      · rename_i htrue
        refine skip_ends.mono fun v' t h => ?_
        rw [h.1, h.2]
        exact ⟨⟨⟨rfl, rfl⟩, enabled, disabled, henabled, hdisabled, Or.inl (hknown.mp htrue)⟩,
          KeepsBut.refl _⟩
      · refine ends_seq (ends_lift fun cards hcards => ?_)
        split
        · rename_i hnil
          rw [hnil] at hcards
          refine skip_ends.mono fun v' t h => ?_
          rw [h.1, h.2]
          exact ⟨⟨⟨rfl, rfl⟩, enabled, disabled, henabled, hdisabled, Or.inr (Or.inl hcards)⟩,
            KeepsBut.refl _⟩
        · refine ends_seq (ends_lift fun want hwant => ?_)
          refine reconcile_ends.mono fun v' t h => ?_
          obtain ⟨key, hkey, id, hsettled, hids, honly⟩ := h
          refine ⟨⟨⟨?_, ?_⟩, enabled, disabled, henabled, hdisabled,
            Or.inr (Or.inr ⟨want, key, id, hwant, hkey, hsettled⟩)⟩,
            honly.own (.dashboard d) hkey⟩
          · rw [hids]
            rfl
          · rw [hids]
            rfl

theorem runJobs_ends (m : Manifest) : ∀ (jobs : List Job) (v : Vars) (s : SyncState),
    JobsDistinct jobs → Ends (followed ctx seen) (runJobs ctx m true jobs v)
      (fun _ t => AllSettled ctx seen m t.memory jobs v.ids ∧
        KeepsBut (fun name => ∃ job ∈ jobs, job.Owns name) s t) s
  | [], _, _, _ => ends_ret ⟨trivial, KeepsBut.refl _⟩
  | job :: rest, v, s, hdistinct => by
      obtain ⟨hhead, hrest⟩ := List.pairwise_cons.mp hdistinct
      refine ends_seq ((runJob_ends m v job s).mono fun v' t h => ?_)
      obtain ⟨hjob, honly⟩ := h
      refine (runJobs_ends m rest v' t hrest).mono fun _ u hu => ?_
      obtain ⟨hsettled, hothers⟩ := hu
      have hkept : ∀ name, job.Owns name →
          JsonVal.field u.memory name = JsonVal.field t.memory name := by
        intro name hname
        refine hothers.others name ?_
        rintro ⟨j, hj, hown⟩
        exact hhead j hj name hname hown
      refine ⟨⟨v'.ids, hjob.congr hkept, hsettled⟩, ?_⟩
      exact (honly.mono fun name hname => ⟨job, List.mem_cons_self .., hname⟩).trans
        (hothers.mono fun name ⟨j, hj, hown⟩ => ⟨j, List.mem_cons_of_mem _ hj, hown⟩)

end Sahabino
