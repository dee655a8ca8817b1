import Sahabino.Lib.Holders
import Sahabino.MetabaseMarkers
import Sahabino.MetabasePlan

/-!
# Ownership of the objects of a server

Every object of the synchronizer carries in its description the marker of
its logical key. An object is only created when a complete listing shows
no object with the marker, and only changed when the state file has its id
and it was read with the marker and the recorded content, so no marker
ever gets to a second object (`Owned`), wherever a run is cut off.

The environment (`Serves`) is a server whose listings are complete and
which others edit, as long as they put no marker on an object that did not
have it; any request may fail, with or without its effect.
-/

namespace Sahabino

open Py (JsonVal)
open Conc (Prog Steps Runs Proto)
open MetabaseSync
open Own (GainsOnly HeldOnlyAt Listed OneHolder)

variable {ctx : Context}

/-! ## Owners -/

/-- An object of the server: its kind, and the text of its id. -/
abbrev Place := Kind × String

/-- Which objects carry which of these keys. -/
def holding (K : Mark → Prop) (server : Objects) (place : Place) (mark : Mark) : Prop :=
  K mark ∧ ∃ j, server place.1 place.2 = some j ∧ CarriesMark mark j

/-- A key is on one object at most, which is one of its kind. -/
structure Owned (K : Mark → Prop) (server : Objects) : Prop where
  one : OneHolder (holding K server)
  home : ∀ place mark, holding K server place mark → place.1 = mark.1

/-! ## The environment -/

/-- Others changed, archived or removed objects: no object has a marker that it did not have. -/
def Edited (K : Mark → Prop) (before after : Objects) : Prop :=
  GainsOnly (fun _ => False) (holding K before) (holding K after)

/-- A payload arrived: an object has its description, after whatever others did. -/
def Arrived (K : Mark → Prop) (place : Place) (payload : JsonVal) (before after : Objects) : Prop :=
  ∃ edited j, Edited K before edited ∧ j.get "description" = payload.get "description" ∧
    after = fun kind id => if (kind, id) = place then some j else edited kind id

/-- The server and its other users. Listings are complete, a read shows the object, and a `POST`
or a `PUT` writes one object or has no effect, whatever its reply is. -/
def Serves (K : Mark → Prop) (c : SyncCommand) (e : SyncChoice) (s : SyncState) : Prop :=
  match c with
  | .api .get (.listing kind) _ => Edited K s.server e.after ∧
      ∀ data items, e.reply = .ok data → asItems data = .ok items → ∀ id j,
        e.after kind id = some j → ∃ item ∈ items, item.get "description" = j.get "description"
  | .api .get (.object kind id _) _ => Edited K s.server e.after ∧
      ∀ j, e.reply = .ok j → e.after kind id = some j
  | .api .post (.listing kind) (some payload) => Edited K s.server e.after ∨
      ∃ id, Arrived K (kind, id) payload s.server e.after
  | .api .put (.object kind id _) (some payload) => Edited K s.server e.after ∨
      Arrived K (kind, id) payload s.server e.after
  | .api _ _ _ => Edited K s.server e.after
  | _ => True

/-! ## What is owed for a request -/

/-- The file has a checkpoint of a key: with this id, and with the content of this reply, which has
the id and the marker. -/
def Verified (ctx : Context) (file : Fields) (mark : Mark) (id j : JsonVal) : Prop :=
  ∃ r actual, JsonVal.field file (keyId mark.1 mark.2) = some r ∧ r.index "id" = .ok id ∧
    isOwn mark.1 mark.2 id j = .ok true ∧ normal ctx.lib mark.1 j = .ok actual ∧
    r.get "remote_hash" = .ok (.str (ctx.hashValue actual))

/-- The last request read the object, which the server had like this. -/
def JustRead (ctx : Context) (kind : Kind) (id j : JsonVal) (s : SyncState) : Prop :=
  s.server kind (ctx.lib.str id) = some j ∧
    ∃ rest, s.calls = ⟨.get, readPath ctx kind id, .ok j⟩ :: rest

/-- The object is a new dashboard: it was created, and read twice since, first as `j`. -/
def JustCreated (ctx : Context) (kind : Kind) (id j : JsonVal) (s : SyncState) : Prop :=
  kind = .dashboard ∧ ∃ shell created rest, created.get "id" = .ok id ∧
    s.calls = ⟨.get, readPath ctx kind id, .ok shell⟩ :: ⟨.get, readPath ctx kind id, .ok j⟩ ::
      ⟨.post, .listing .dashboard, .ok created⟩ :: rest

/-- A `PUT` goes to the object of the key that the payload is marked with: recorded in the file,
and as it was read last, or before the cards of a new dashboard are set. -/
def PutOk (ctx : Context) (K : Mark → Prop) (path : ApiPath) (payload : JsonVal) (s : SyncState) :
    Prop :=
  ∃ mark id j, K mark ∧ path = writePath ctx mark.1 id ∧ CarriesMark mark payload ∧
    Verified ctx s.file mark id j ∧
    (JustRead ctx mark.1 id j s ∨ JustCreated ctx mark.1 id j s)

/-- The payload has no marker but this one. -/
def OnlyMarked (K : Mark → Prop) (mark : Mark) (payload : JsonVal) : Prop :=
  ∀ mark', K mark' → CarriesMark mark' payload → mark' = mark

/-- What a run owes for a command: a marker is only sent where no object has it, or to the only
object that has it. -/
def Owed (ctx : Context) (K : Mark → Prop) (c : SyncCommand) (s : SyncState) : Prop :=
  match c with
  | .api .get _ _ => True
  | .api .post (.listing kind) (some payload) => ∃ key, OnlyMarked K (kind, key) payload ∧
      ∀ place, ¬holding K s.server place (kind, key)
  | .api .put (.object kind id legacy) (some payload) => (∃ key, OnlyMarked K (kind, key) payload ∧
      HeldOnlyAt (holding K s.server) (kind, key) (kind, id)) ∧
      PutOk ctx K (.object kind id legacy) payload s
  | .api _ _ _ => False
  | _ => True

/-- The discipline of an apply run. -/
abbrev owning (ctx : Context) (K : Mark → Prop) :=
  syncProto (fun s => Owned K s.server) (Owed ctx K) (Serves K)

variable {K : Mark → Prop}

theorem Owned.after {before after : Objects} (h : Owned K before) (he : Edited K before after) :
    Owned K after :=
  ⟨h.one.after he, fun place mark hp => h.home place mark (he mark id place hp)⟩

theorem CarriesMark.congr {mark : Mark} {a b : JsonVal} (h : a.get "description" = b.get "description") :
    CarriesMark mark a ↔ CarriesMark mark b := by
  rw [CarriesMark, CarriesMark, hasMarker_congr h]

/-- Only the place of an arrival gains a marker, one of the payload. -/
theorem Arrived.holding_or {place q : Place} {mark : Mark} {payload : JsonVal}
    {before after : Objects} (h : Arrived K place payload before after)
    (hq : holding K after q mark) :
    (q = place ∧ CarriesMark mark payload) ∨ holding K before q mark := by
  obtain ⟨edited, j, hedited, hj, rfl⟩ := h
  obtain ⟨hK, j', hj', hcarries⟩ := hq
  by_cases hplace : q = place
  · simp only [show (q.1, q.2) = place from hplace, if_true] at hj'
    rw [← Option.some.inj hj', CarriesMark.congr hj] at hcarries
    exact Or.inl ⟨hplace, hcarries⟩
  · simp only [show ¬(q.1, q.2) = place from hplace, if_false] at hj'
    exact Or.inr (hedited mark id q ⟨hK, j', hj', hcarries⟩)

theorem Arrived.gains {place : Place} {mark : Mark} {payload : JsonVal} {before after : Objects}
    (h : Arrived K place payload before after) (hpayload : OnlyMarked K mark payload) :
    GainsOnly (· = mark) (holding K before) (holding K after) := by
  intro mark' hne q hq
  rcases h.holding_or hq with ⟨-, hcarries⟩ | hheld
  · exact absurd (hpayload mark' hq.1 hcarries) hne
  · exact hheld

/-- A marker arrives at the only place that may have it. -/
theorem Owned.arrive {place : Place} {mark : Mark} {payload : JsonVal} {before after : Objects}
    (h : Owned K before) (harrived : Arrived K place payload before after)
    (hpayload : OnlyMarked K mark payload) (hplace : place.1 = mark.1)
    (hheld : HeldOnlyAt (holding K before) mark place) : Owned K after := by
  have hgains := harrived.gains hpayload
  have hat : HeldOnlyAt (holding K after) mark place := by
    intro q hq
    rcases harrived.holding_or hq with ⟨hq, -⟩ | hq
    · exact hq
    · exact hheld q hq
  refine ⟨h.one.give hgains hat, fun q mark' hq => ?_⟩
  by_cases hmark : mark' = mark
  · subst hmark
    rw [hat q hq, hplace]
  · exact h.home q mark' (hgains mark' hmark q hq)

theorem owning_step {c : SyncCommand} {e : SyncChoice} {v : Except SyncRaise (SyncReply c)}
    {s s' : SyncState} (h : Owned K s.server) (howed : Owed ctx K c s) (hserves : Serves K c e s)
    (hexec : syncExec 0 e c s = some (v, s')) : Owned K s'.server := by
  cases c with
  | api method path payload =>
      obtain ⟨-, rfl⟩ := Prod.mk.inj (Option.some.inj hexec)
      show Owned K e.after
      match method, path, payload, howed, hserves with
      | .get, .listing kind, _, _, hserves => exact h.after hserves.1
      | .get, .object kind id _, _, _, hserves => exact h.after hserves.1
      | .post, .listing kind, some payload, ⟨key, hpayload, hfree⟩, hserves =>
          rcases hserves with hedited | ⟨id, harrived⟩
          · exact h.after hedited
          · exact h.arrive harrived hpayload rfl fun q hq => absurd hq (hfree q)
      | .put, .object kind id _, some payload, ⟨⟨key, hpayload, hheld⟩, _⟩, hserves =>
          rcases hserves with hedited | harrived
          · exact h.after hedited
          · exact h.arrive harrived hpayload rfl hheld
  | lookup name =>
      obtain ⟨-, rfl⟩ := Prod.mk.inj (Option.some.inj hexec)
      exact h
  | store name record_ =>
      obtain ⟨-, rfl⟩ := Prod.mk.inj (Option.some.inj hexec)
      exact h
  | writeState =>
      simp only [syncExec] at hexec
      split at hexec
      · obtain ⟨-, rfl⟩ := Prod.mk.inj (Option.some.inj hexec)
        exact h
      · obtain ⟨-, rfl⟩ := Prod.mk.inj (Option.some.inj hexec)
        exact h
      · obtain ⟨-, rfl⟩ := Prod.mk.inj (Option.some.inj hexec)
        exact h

/-! ## What a run knows -/

/-- The inventory has an object with the marker. -/
def shown (lists : Kind → List JsonVal) (mark : Mark) : Prop := ∃ o ∈ lists mark.1, CarriesMark mark o

/-- Between two items: the inventory shows every marker there is, and the state is saved. -/
structure Ready (K : Mark → Prop) (lists : Kind → List JsonVal) (s : SyncState) : Prop where
  listed : Listed (shown lists) (holding K s.server)
  saved : s.memory = s.file

/-- The description of an item has the marker of its key, and that of no other key. -/
def CleanItem (K : Mark → Prop) (kind : Kind) (item : Fields) : Prop :=
  ∀ key text, keyOf item = .ok key → describedOf kind item = .ok text →
    K (kind, key) ∧ ∀ mark, K mark → MarkedText mark text → mark = (kind, key)

/-- What is known of the text that is sent for an item. -/
structure OwnText (K : Mark → Prop) (mark : Mark) (text : String) : Prop where
  known : K mark
  marked : MarkedText mark text
  only : ∀ mark', K mark' → MarkedText mark' text → mark' = mark

variable {mark : Mark} {text : String} {s : SyncState} {v : Vars}

theorem OwnText.onlyMarked {payload : JsonVal} (h : OwnText K mark text)
    (hpayload : Described text payload) : OnlyMarked K mark payload :=
  fun mark' hK hcarries => h.only mark' hK ((carries_iff hpayload).mp hcarries)

theorem OwnText.carries {payload : JsonVal} (h : OwnText K mark text)
    (hpayload : Described text payload) : CarriesMark mark payload :=
  (carries_iff hpayload).mpr h.marked

theorem Ready.gains {lists lists' : Kind → List JsonVal} {t : SyncState} (h : Ready K lists s)
    (hg : GainsOnly (· = mark) (holding K s.server) (holding K t.server))
    (hsaved : t.memory = t.file)
    (hlists : ∀ mark, shown lists mark → shown lists' mark) (hmark : shown lists' mark) :
    Ready K lists' t :=
  ⟨h.listed.after hg hlists fun _ hown => hown ▸ hmark, hsaved⟩

theorem Ready.edited {lists : Kind → List JsonVal} {t : SyncState} (h : Ready K lists s)
    (he : Edited K s.server t.server) (hsaved : t.memory = t.file) : Ready K lists t :=
  ⟨h.listed.after he (fun _ hshown => hshown) fun _ hfalse => hfalse.elim, hsaved⟩

theorem isOwn_carries {kind : Kind} {key : String} {id j : JsonVal}
    (h : isOwn kind key id j = .ok true) : CarriesMark (kind, key) j := by
  obtain ⟨remoteId, _, h⟩ := Rel.bind_eq_ok h
  split at h
  · exact h
  · cases h

theorem anyOf_eq_false {α : Type} {check : α → Sync Bool} :
    ∀ {items : List α}, anyOf check items = .ok false → ∀ x ∈ items, check x = .ok false
  | [], _, _, hx => by cases hx
  | y :: rest, h, x, hx => by
      obtain ⟨among, hamong, h⟩ := Rel.bind_eq_ok h
      split at h
      · cases h
      · rename_i hfalse
        rw [Bool.not_eq_true] at hfalse
        rw [hfalse] at hamong
        rcases List.mem_cons.mp hx with rfl | hx
        · exact hamong
        · exact anyOf_eq_false h x hx

/-! ## The inventory -/

/-- These items show all markers of objects of the kind. -/
def ListsKind (K : Mark → Prop) (kind : Kind) (items : List JsonVal) (server : Objects) : Prop :=
  ∀ place mark, mark.1 = kind → holding K server place mark → ∃ o ∈ items, CarriesMark mark o

theorem listing_owned (kind : Kind) (s : SyncState) :
    Ends (owning ctx K) (api .get (.listing kind) none) (fun data t => Edited K s.server t.server ∧
      (s.memory = s.file → t.memory = t.file) ∧
      ∀ items, asItems data = .ok items → ListsKind K kind items t.server) s := by
  refine ends_api (fun _ => trivial) fun e data _ hserves hreply hinv => ?_
  refine ⟨hserves.1, id, fun items hitems place mark hkind hheld => ?_⟩
  have hhome : place.1 = kind := (hinv.home place mark hheld).trans hkind
  obtain ⟨_, j, hj, hcarries⟩ := hheld
  rw [hhome] at hj
  obtain ⟨item, hitem, hdescription⟩ := hserves.2 data items hreply hitems _ j hj
  exact ⟨item, hitem, (CarriesMark.congr hdescription).mpr hcarries⟩

theorem ListsKind.edited {kind : Kind} {items : List JsonVal} {before after : Objects}
    (h : ListsKind K kind items before) (he : Edited K before after) :
    ListsKind K kind items after :=
  fun place mark hkind hheld => h place mark hkind (he mark id place hheld)

theorem inventory_owned (v : Vars) (hsaved : s.memory = s.file) :
    Ends (owning ctx K) (inventory v) (fun v' t => Ready K v'.lists t) s := by
  unfold inventory
  refine ends_seq ((listing_owned .collection s).mono fun data t ht => ?_)
  refine ends_seq (ends_lift fun collections hcollections => ?_)
  refine ends_seq ((listing_owned .question t).mono fun data u hu => ?_)
  refine ends_seq (ends_lift fun questions hquestions => ?_)
  refine ends_seq ((listing_owned .dashboard u).mono fun data w hw => ?_)
  refine ends_seq (ends_lift fun dashboards hdashboards => ends_ret ⟨?_, ?_⟩)
  · intro mark place hheld
    obtain ⟨kind, key⟩ := mark
    cases kind with
    | collection =>
        exact (((ht.2.2 collections hcollections).edited hu.1).edited hw.1) place _ rfl hheld
    | question => exact ((hu.2.2 questions hquestions).edited hw.1) place _ rfl hheld
    | dashboard => exact hw.2.2 dashboards hdashboards place _ rfl hheld
  · exact hw.2.1 (hu.2.1 (ht.2.1 hsaved))

/-! ## One object -/

/-- After an object was read with its marker: no other object has it. -/
theorem record_owned {kind : Kind} {key : String} {id : JsonVal} {want : Option JsonVal}
    (hK : K (kind, key)) :
    Ends (owning ctx K) (record ctx kind key id want) (fun _ t => Edited K s.server t.server ∧
      t.memory = t.file ∧ HeldOnlyAt (holding K t.server) (kind, key) (kind, ctx.lib.str id) ∧
      ∃ j, Verified ctx t.file (kind, key) id j ∧
        t.calls = ⟨.get, readPath ctx kind id, .ok j⟩ :: s.calls) s := by
  unfold record
  refine ends_seq (ends_api (fun _ => trivial) fun e j _ hserves hreply hinv => ?_)
  refine ends_seq (ends_lift fun own hown => ?_)
  split
  · exact ends_raise
  · rename_i htrue
    rw [Bool.not_eq_true', Bool.not_eq_false] at htrue
    rw [htrue] at hown
    have hheld : holding K e.after (kind, ctx.lib.str id) (kind, key) :=
      ⟨hK, j, hserves.2 j hreply, isOwn_carries hown⟩
    refine ends_seq (ends_lift fun actual hactual => ?_)
    refine ends_seq (ends_save (fun _ _ => trivial) (fun _ => trivial) ?_)
    rintro _ rfl
    split
    · exact ends_raise
    · refine ends_ret ⟨hserves.1, rfl, hinv.one.heldOnlyAt hheld, j, ?_, ?_⟩
      · exact ⟨_, actual, JsonVal.field_set_self .., rfl, hown, hactual, rfl⟩
      · rw [← hreply]
        rfl

/-- The marker of an object is sent to it, and the object is read. -/
theorem put_owned {kind : Kind} {key : String} {id j want payload : JsonVal}
    (htext : OwnText K (kind, key) text) (hpayload : Described text payload)
    (hheld : HeldOnlyAt (holding K s.server) (kind, key) (kind, ctx.lib.str id))
    (hverified : Verified ctx s.file (kind, key) id j)
    (hcalls : JustRead ctx kind id j s ∨ JustCreated ctx kind id j s) :
    Ends (owning ctx K) (do
        let _ ← api .put (writePath ctx kind id) (some payload)
        record ctx kind key id (some want))
      (fun _ t => GainsOnly (· = (kind, key)) (holding K s.server) (holding K t.server) ∧
        t.memory = t.file) s := by
  have howed : Owed ctx K (.api .put (writePath ctx kind id) (some payload)) s :=
    ⟨⟨key, htext.onlyMarked hpayload, hheld⟩, (kind, key), id, j, htext.known, rfl,
      htext.carries hpayload, hverified, hcalls⟩
  refine ends_seq (ends_api (fun _ => howed) fun e _ _ hserves _ _ => ?_)
  have hgains : GainsOnly (· = (kind, key)) (holding K s.server) (holding K e.after) := by
    rcases hserves with hedited | harrived
    · exact hedited.mono fun _ hfalse => hfalse.elim
    · exact harrived.gains (htext.onlyMarked hpayload)
  refine (record_owned htext.known).mono fun _ t ht => ?_
  exact ⟨hgains.trans (ht.1.mono fun _ hfalse => hfalse.elim), ht.2.1⟩

theorem update_owned {kind : Kind} {key : String} {id want remote : JsonVal}
    (htext : OwnText K (kind, key) text) (hwant : want.index "description" = .ok (.str text))
    (hheld : HeldOnlyAt (holding K s.server) (kind, key) (kind, ctx.lib.str id))
    (hverified : Verified ctx s.file (kind, key) id remote)
    (hread : JustRead ctx kind id remote s) :
    Ends (owning ctx K) (update ctx kind key id want remote)
      (fun _ t => GainsOnly (· = (kind, key)) (holding K s.server) (holding K t.server) ∧
        t.memory = t.file) s := by
  unfold update
  refine ends_seq (ends_lift fun payload hpayload => ?_)
  have hdescribed : Described text payload := by
    split at hpayload
    · exact dashboardUpdate_described hwant _ _ payload hpayload
    · rw [← Except.ok.inj hpayload]
      exact get_of_index hwant
  exact put_owned htext hdescribed hheld hverified (Or.inl hread)

theorem assemble_owned {key : String} {id want j created : JsonVal} {rest : List ApiCall}
    (htext : OwnText K (.dashboard, key) text)
    (hwant : want.index "description" = .ok (.str text))
    (hheld : HeldOnlyAt (holding K s.server) (.dashboard, key) (.dashboard, ctx.lib.str id))
    (hverified : Verified ctx s.file (.dashboard, key) id j)
    (hcreated : created.get "id" = .ok id)
    (hcalls : s.calls = ⟨.get, readPath ctx .dashboard id, .ok j⟩ ::
      ⟨.post, .listing .dashboard, .ok created⟩ :: rest) :
    Ends (owning ctx K) (assemble ctx key id want)
      (fun _ t => GainsOnly (· = (.dashboard, key)) (holding K s.server) (holding K t.server) ∧
        t.memory = t.file) s := by
  unfold assemble
  refine ends_seq (ends_api (fun _ => trivial) fun e shell _ hserves hreply _ => ?_)
  refine ends_seq (ends_lift fun cards _ => ends_seq (ends_lift fun fields hfields => ?_))
  have hdescribed : Described text (.obj (fields ++ [("dashcards", .arr cards)])) := by
    rw [Described, JsonVal.get, JsonVal.getD, JsonVal.field, List.lookup_append,
      ← JsonVal.field, shellFields_described hwant fields hfields]
    rfl
  have hlast : JustCreated ctx .dashboard id j
      (s.afterApi .get (writePath ctx .dashboard id) e) := by
    refine ⟨rfl, shell, created, rest, hcreated, ?_⟩
    rw [SyncState.afterApi, hreply, hcalls]
    rfl
  have hafter : HeldOnlyAt (holding K e.after) (.dashboard, key) (.dashboard, ctx.lib.str id) :=
    hheld.after hserves.1 not_false
  refine (put_owned (s := s.afterApi .get (writePath ctx .dashboard id) e) htext hdescribed hafter
    hverified (Or.inr hlast)).mono fun _ t ht => ?_
  exact ⟨(hserves.1.mono fun _ hfalse => hfalse.elim).trans ht.1, ht.2⟩

/-! ## One item -/

theorem reconcileTracked_owned {kind : Kind} {key : String} {record_ want : JsonVal}
    {found : List JsonVal} (htext : OwnText K (kind, key) text)
    (hwant : want.index "description" = .ok (.str text)) (hready : Ready K v.lists s)
    (hrecord : JsonVal.field s.memory (keyId kind key) = some record_) :
    Ends (owning ctx K) (reconcileTracked ctx true kind key record_ found want v)
      (fun v' t => Ready K v'.lists t) s := by
  unfold reconcileTracked
  refine ends_seq (ends_lift fun id hid => ?_)
  refine ends_seq (ends_api (fun _ => trivial) fun e remote _ hserves hreply hinv => ?_)
  have hafter : Ready K v.lists (s.afterApi .get (readPath ctx kind id) e) :=
    hready.edited hserves.1 hready.saved
  refine ends_seq (ends_lift fun own hown => ?_)
  split
  · exact ends_raise
  · rename_i htrue
    rw [Bool.not_eq_true', Bool.not_eq_false] at htrue
    rw [htrue] at hown
    have hheld : holding K e.after (kind, ctx.lib.str id) (kind, key) :=
      ⟨htext.known, remote, hserves.2 remote hreply, isOwn_carries hown⟩
    refine ends_seq (ends_lift fun _ _ => ?_)
    split
    · exact ends_raise
    · refine ends_seq (ends_lift fun actual hactual => ?_)
      refine ends_seq (ends_lift fun recorded hrecorded => ?_)
      split
      · refine ends_seq (ends_lift fun repairable _ => ?_)
        split
        · refine ends_seq (ends_save (fun _ _ => trivial) (fun _ => trivial) ?_)
          rintro _ rfl
          exact ends_ret ⟨hafter.listed, rfl⟩
        · exact ends_raise
      · rename_i hhash
        split
        · exact ends_raise
        · refine ends_seq (ends_lift fun _ _ => ?_)
          split
          · exact ends_raise
          · split
            · exact ends_ret hafter
            · -- the update: the checkpoint in the file is that of what was read
              rw [equal_str (not_not.mp hhash)] at hrecorded
              have hfile : JsonVal.field s.file (keyId kind key) = some record_ := by
                rw [← hready.saved, hrecord]
              have hverified : Verified ctx s.file (kind, key) id remote :=
                ⟨record_, actual, hfile, py_eq_ok hid, hown, hactual, py_eq_ok hrecorded⟩
              have hread : JustRead ctx kind id remote
                  (s.afterApi .get (readPath ctx kind id) e) := by
                refine ⟨hserves.2 remote hreply, s.calls, ?_⟩
                rw [← hreply]
                rfl
              refine ends_seq ((update_owned htext hwant (hinv.one.heldOnlyAt hheld) hverified
                hread).mono fun _ t ht => ends_ret ?_)
              exact hafter.gains ht.1 ht.2 (fun _ hshown => hshown) (hafter.listed _ _ hheld)

/-- The inventory after a new object. -/
theorem shown_addEntry {kind : Kind} {entry : JsonVal} {mark' : Mark}
    (h : shown v.lists mark') : shown (addEntry v kind entry).lists mark' := by
  obtain ⟨o, ho, hcarries⟩ := h
  refine ⟨o, ?_, hcarries⟩
  simp only [addEntry]
  split
  · exact List.mem_append_left _ ho
  · exact ho

theorem reconcileUntracked_owned {kind : Kind} {key : String} {item : Fields}
    {collection want parent : JsonVal} {found : List JsonVal} (htext : OwnText K (kind, key) text)
    (hwant : want.index "description" = .ok (.str text)) (hready : Ready K v.lists s) :
    Ends (owning ctx K) (reconcileUntracked ctx true kind key item collection found want parent v)
      (fun v' t => Ready K v'.lists t) s := by
  unfold reconcileUntracked
  refine ends_seq (ends_lift fun marked hmarked => ?_)
  split
  · exact ends_raise
  · rename_i hnot
    -- no object of the inventory has the marker, so none of the server has it
    have hfalse : marked = false := Bool.not_eq_true _ ▸ fun h => hnot (Or.inr h)
    rw [hfalse] at hmarked
    have hfree : ∀ place, ¬holding K s.server place (kind, key) := by
      refine hready.listed.not_held ?_
      rintro ⟨o, ho, hcarries⟩
      have hno := anyOf_eq_false hmarked o ho
      rw [CarriesMark, hno] at hcarries
      cases hcarries
    refine ends_seq (ends_lift fun payload hpayload => ?_)
    have hdescribed := creation_described hwant kind item parent payload hpayload
    have honly := htext.onlyMarked hdescribed
    refine ends_seq (ends_api (fun _ => ⟨key, honly, hfree⟩) fun e created _ hserves hreply _ => ?_)
    have hgains : GainsOnly (· = (kind, key)) (holding K s.server) (holding K e.after) := by
      rcases hserves with hedited | ⟨id, harrived⟩
      · exact hedited.mono fun _ hfalse => hfalse.elim
      · exact harrived.gains honly
    refine ends_seq (ends_lift fun id hid => ?_)
    split
    · exact ends_raise
    · refine ends_seq ((record_owned htext.known).mono fun _ t ht => ?_)
      obtain ⟨hedited, hsaved, hheld, j, hverified, hcalls⟩ := ht
      refine ends_seq (ends_lift fun entry hentry => ?_)
      have hshown : shown (addEntry (setId (act v "CREATE" (keyId kind key)) kind key id) kind
          entry).lists (kind, key) := by
        refine ⟨entry, ?_, htext.carries (newEntry_described hwant item id collection entry hentry)⟩
        simp [addEntry]
      have hcreated := hgains.trans (hedited.mono fun _ hfalse => hfalse.elim)
      split
      · rename_i hkind
        subst hkind
        rw [SyncState.afterApi, hreply] at hcalls
        refine ends_seq ((assemble_owned htext hwant hheld hverified (py_eq_ok hid)
          hcalls).mono fun _ u hu => ends_ret ?_)
        exact hready.gains (hcreated.trans hu.1) hu.2 (fun _ => shown_addEntry) hshown
      · exact ends_ret (hready.gains hcreated hsaved (fun _ => shown_addEntry) hshown)

theorem reconcile_owned {kind : Kind} {item : Fields} {want parent : JsonVal}
    (hclean : CleanItem K kind item) (hwant : IsWant kind item want) (hready : Ready K v.lists s) :
    Ends (owning ctx K) (reconcile ctx true kind item want parent v)
      (fun v' t => Ready K v'.lists t) s := by
  obtain ⟨text, htext, hwant⟩ := hwant
  unfold reconcile
  refine ends_seq (ends_lift fun key hkey => ?_)
  obtain ⟨hknown, honly⟩ := hclean key text hkey htext
  have hown : OwnText K (kind, key) text := ⟨hknown, describedOf_marked hkey text htext, honly⟩
  refine ends_seq (ends_lookup trivial fun _ => ?_)
  refine ends_seq (ends_lift fun _ _ => ends_seq (ends_lift fun _ _ => ?_))
  refine ends_seq (ends_lift fun found _ => ?_)
  simp only
  split
  · rename_i htruthy
    cases hrecord : JsonVal.field s.memory (keyId kind key) with
    | none =>
        rw [hrecord] at htruthy
        cases htruthy
    | some r => exact reconcileTracked_owned hown hwant hready hrecord
  · exact reconcileUntracked_owned hown hwant hready

/-! ## A run -/

theorem runJob_owned {m : Manifest} {job : Job} (hclean : CleanItem K job.kind job.item)
    (hready : Ready K v.lists s) :
    Ends (owning ctx K) (runJob ctx m true v job) (fun v' t => Ready K v'.lists t) s := by
  have hskip : ∀ (action : String) (kind : Kind) (item : Fields) (t : SyncState), t = s →
      Ends (owning ctx K) (skip v action kind item) (fun v' t => Ready K v'.lists t) t := by
    rintro action kind item t rfl
    exact ends_seq (ends_lift fun _ _ => ends_ret hready)
  cases job with
  | collection c =>
      refine ends_seq (ends_lift fun ⟨want, parent⟩ hwant => ?_)
      exact reconcile_owned hclean (wantCollection_isWant _ _ _ hwant) hready
  | question q =>
      refine ends_seq (ends_lift fun enabled _ => ?_)
      split
      · refine ends_seq (ends_lift fun want hwant => ?_)
        exact reconcile_owned hclean (wantQuestion_isWant _ _ _ hwant) hready
      · exact hskip _ _ _ _ rfl
  | dashboard d =>
      refine ends_seq (ends_lift fun enabled _ => ends_seq (ends_lift fun disabled _ => ?_))
      refine ends_seq ((isPreserved_ends fun _ _ => trivial).mono fun known t ht => ?_)
      obtain ⟨rfl, -⟩ := ht
      split
      · exact hskip _ _ _ _ rfl
      · refine ends_seq (ends_lift fun cards _ => ?_)
        split
        · exact hskip _ _ _ _ rfl
        · refine ends_seq (ends_lift fun want hwant => ?_)
          exact reconcile_owned hclean (wantDashboard_isWant _ _ _ _ hwant) hready

theorem runJobs_owned (m : Manifest) : ∀ (jobs : List Job) (v : Vars) (s : SyncState),
    (∀ job ∈ jobs, CleanItem K job.kind job.item) → Ready K v.lists s →
    Ends (owning ctx K) (runJobs ctx m true jobs v) (fun v' t => Ready K v'.lists t) s
  | [], _, _, _, hready => ends_ret hready
  | job :: rest, _, _, hclean, hready =>
      ends_seq ((runJob_owned (hclean job (List.mem_cons_self ..)) hready).mono fun v' t ht =>
        runJobs_owned m rest v' t (fun j hj => hclean j (List.mem_cons_of_mem _ hj)) ht)

theorem run_owned {m : Manifest} (hclean : ∀ job ∈ jobs m, CleanItem K job.kind job.item)
    (s : SyncState) :
    Ends (owning ctx K) (run ctx m true) (fun v t => Ready K v.lists t) s.begin :=
  ends_seq ((inventory_owned _ rfl).mono fun v t ht => runJobs_owned m (jobs m) v t hclean ht)

/-! ## Runs after runs -/

/-- What can come of a server where every key is on one object at most: others edit it, and apply
runs are made, of whatever manifests and with whatever metadata, each up to some point. -/
inductive Campaign (K : Mark → Prop) : SyncState → Prop
  | start (s : SyncState) : Owned K s.server → Campaign K s
  | edit {s : SyncState} {after : Objects} : Campaign K s → Edited K s.server after →
      Campaign K { s with server := after }
  | run {s s' : SyncState} {ctx : Context} {m : Manifest} {p : SyncProg Vars} : Campaign K s →
      (∀ job ∈ jobs m, CleanItem K job.kind job.item) →
      Steps syncExec (Serves K) 0 (MetabaseSync.run ctx m true) s.begin p s' → Campaign K s'

theorem owned_of_steps {m : Manifest} {p : SyncProg Vars} {s s' : SyncState}
    (h : Owned K s.server) (hclean : ∀ job ∈ jobs m, CleanItem K job.kind job.item)
    (hsteps : Steps syncExec (Serves K) 0 (run ctx m true) s.begin p s') :
    Owned K s'.server ∧ Ends (owning ctx K) p (fun v t => Ready K v.lists t) s' :=
  Steps.wp (P := owning ctx K) (fun _ => rfl) owning_step hsteps h (run_owned hclean s)

theorem owned_of_campaign {s : SyncState} (h : Campaign K s) : Owned K s.server := by
  induction h with
  | start s h => exact h
  | edit _ hedited ih => exact ih.after hedited
  | run _ hclean hsteps ih => exact (owned_of_steps ih hclean hsteps).1

/-- However many runs are made and wherever they end: no two objects carry the marker of a key, and
whenever a run is about to send a `PUT`, it goes to the object that the file has for the key, with
the content that the object was read with last (or, for the cards of a new dashboard, right after
it was created). -/
theorem one_object_and_verified_puts (K : Mark → Prop) :
    (∀ s, Campaign K s → OneHolder (holding K s.server)) ∧
      ∀ (ctx : Context) (m : Manifest) (s s' : SyncState) (p : SyncProg Vars), Campaign K s →
        (∀ job ∈ jobs m, CleanItem K job.kind job.item) →
        Steps syncExec (Serves K) 0 (run ctx m true) s.begin p s' →
        ∀ path body k, p = .call (.api .put path body) k →
          ∃ payload, body = some payload ∧ PutOk ctx K path payload s' := by
  refine ⟨fun s h => (owned_of_campaign h).one, fun ctx m s s' p h hclean hsteps => ?_⟩
  rintro path body k rfl
  obtain ⟨howned, hleft⟩ := owned_of_steps (owned_of_campaign h) hclean hsteps
  have howed := (hleft s' rfl howned).1
  match path, body, howed with
  | .object kind id legacy, some payload, howed => exact ⟨payload, rfl, howed.2⟩

/-! ### The storing server -/

namespace StoringServer

/-- Only ids that the listings go through. -/
def Small (s : SyncState) : Prop :=
  ∀ kind id j, s.server kind id = some j → ∃ n < 9, id = toString (n + 1)

theorem edited_refl (K : Mark → Prop) (server : Objects) : Edited K server server :=
  GainsOnly.refl _ _

theorem arrived_put (server : Objects) {kind : Kind} {id : String} {j payload : JsonVal}
    (h : j.get "description" = payload.get "description") :
    Arrived K (kind, id) payload server (put server kind id j) :=
  ⟨server, j, edited_refl K server, h, rfl⟩

theorem small_put {s : SyncState} (hs : Small s) {kind : Kind} {id : String} {j : JsonVal}
    (hid : ∃ n < 9, id = toString (n + 1)) : Small { s with server := put s.server kind id j } := by
  intro kind' id' j' hj'
  simp only [put] at hj'
  split at hj'
  · rename_i hplace
    rw [(Prod.mk.inj hplace).2]
    exact hid
  · exact hs kind' id' j' hj'

/-- The object without its id is as it was sent. -/
theorem get_stored (id : JsonVal) (fields : Fields) :
    (JsonVal.obj (("id", id) :: fields)).get "description" = (JsonVal.obj fields).get "description" := rfl

theorem serves_refused (c : SyncCommand) (s : SyncState) (text : String) :
    Serves K c ⟨s.server, refuse text, .written⟩ s := by
  have hedited := edited_refl K s.server
  unfold Serves
  split
  · exact ⟨hedited, fun _ _ h => (by cases h)⟩
  · exact ⟨hedited, fun _ h => (by cases h)⟩
  · exact Or.inl hedited
  · exact Or.inl hedited
  · exact hedited
  · trivial

theorem respond_serves (c : SyncCommand) {s : SyncState} (hs : Small s) :
    Serves K c (respond c s) s ∧ Small { s with server := (respond c s).after } := by
  unfold respond
  split
  · rename_i kind payload
    refine ⟨⟨edited_refl K _, fun data items hdata hitems id j hj => ?_⟩, hs⟩
    obtain rfl := Except.ok.inj hdata
    obtain rfl := Except.ok.inj hitems
    obtain ⟨n, hn, rfl⟩ := hs kind id j hj
    exact ⟨j, List.mem_filterMap.mpr ⟨n, List.mem_range.mpr hn, hj⟩, rfl⟩
  · rename_i kind id legacy payload
    refine ⟨⟨edited_refl K _, fun j hj => ?_⟩, hs⟩
    cases hobject : s.server kind id with
    | none =>
        rw [hobject] at hj
        cases hj
    | some j' =>
        rw [hobject] at hj
        obtain rfl := Except.ok.inj hj
        exact hobject
  · rename_i kind fields
    split
    · rename_i n hn
      exact ⟨Or.inr ⟨_, arrived_put s.server (get_stored _ fields)⟩,
        small_put hs ⟨n, List.mem_range.mp (List.mem_of_find?_eq_some hn), rfl⟩⟩
    · exact ⟨serves_refused _ s "507", hs⟩
  · rename_i kind id legacy fields
    split
    · rename_i old hold
      exact ⟨Or.inr (arrived_put s.server (get_stored _ fields)), small_put hs (hs kind id _ hold)⟩
    · exact ⟨serves_refused _ s "404", hs⟩
  · exact ⟨serves_refused c s "400", hs⟩
theorem small_exec {c : SyncCommand} {e : SyncChoice} {v : Except SyncRaise (SyncReply c)}
    {s s' : SyncState} (hs : Small s) (hafter : Small { s with server := e.after })
    (h : syncExec 0 e c s = some (v, s')) : Small s' := by
  cases c with
  | api method path payload =>
      obtain ⟨-, rfl⟩ := Prod.mk.inj (Option.some.inj h)
      exact hafter
  | lookup name =>
      obtain ⟨-, rfl⟩ := Prod.mk.inj (Option.some.inj h)
      exact hs
  | store name record_ =>
      obtain ⟨-, rfl⟩ := Prod.mk.inj (Option.some.inj h)
      exact hs
  | writeState =>
      simp only [syncExec] at h
      split at h
      · obtain ⟨-, rfl⟩ := Prod.mk.inj (Option.some.inj h)
        exact hs
      · obtain ⟨-, rfl⟩ := Prod.mk.inj (Option.some.inj h)
        exact hs
      · obtain ⟨-, rfl⟩ := Prod.mk.inj (Option.some.inj h)
        exact hs

/-- Steps with a server like this, whoever else edits it. -/
theorem steps_of_follow {answer : SyncCommand → SyncState → SyncChoice} {α : Type} {n : Nat}
    {p p' : SyncProg α} {s s' : SyncState}
    (hanswer : ∀ c s, Small s → Serves K c (answer c s) s ∧
      Small { s with server := (answer c s).after }) (hs : Small s)
    (h : Conc.follow syncExec 0 (fun _ _ _ => true) answer n p s = some (p', s')) :
    Steps syncExec (Serves K) 0 p s p' s' :=
  Steps.of_follow Small (fun c s hs _ => ⟨(hanswer c s hs).1, fun _ _ hexec =>
    small_exec hs (hanswer c s hs).2 hexec⟩) hs h

theorem owned_empty (K : Mark → Prop) : Owned K empty.server := by
  have hnone : ∀ place mark, ¬holding K empty.server place mark := by
    rintro _ _ ⟨-, j, hj, -⟩
    cases hj
  exact ⟨fun mark place _ h => absurd h (hnone place mark),
    fun place mark h => absurd h (hnone place mark)⟩

theorem small_empty : Small empty.begin := fun _ _ _ h => by cases h

def keys : List Mark := [(.collection, "main"), (.question, "apps"), (.question, "ratings"),
  (.dashboard, "overview")]

def isClean (kind : Kind) (item : Fields) : Bool :=
  match keyOf item, describedOf kind item with
  | .ok key, .ok text => keys.contains (kind, key) && keys.all fun mark =>
      !(Py.find (marker mark.1 mark.2).toList text.toList).isSome || mark = (kind, key)
  | _, _ => true

theorem clean_of_isClean {kind : Kind} {item : Fields} (h : isClean kind item = true) :
    CleanItem (· ∈ keys) kind item := by
  intro key text hkey htext
  rw [isClean, hkey, htext, Bool.and_eq_true, List.contains_iff_mem] at h
  refine ⟨h.1, fun mark hmark hmarked => ?_⟩
  have hall := List.all_eq_true.mp h.2 mark hmark
  have hfound : (Py.find (marker mark.1 mark.2).toList text.toList).isSome = true := by
    rw [Option.isSome_iff_ne_none, ne_eq, Py.find_eq_none_iff, not_not]
    exact hmarked
  rw [hfound] at hall
  exact of_decide_eq_true hall

/-- The run of the manifest, up to `n` commands, if all its items are clean. -/
def upTo (n : Nat) : Sync (Option (SyncProg Vars × SyncState)) := do
  let m ← loadManifest (fun _ => .ok ()) storedManifest
  if (jobs m).all fun job => isClean job.kind job.item then
    pure (Conc.follow syncExec 0 (fun _ _ _ => true) respond n (run (context hashValue) m true)
      empty.begin)
  else pure none

def isPut : Sync (Option (SyncProg Vars × SyncState)) → Bool
  | .ok (some (.call (.api .put _ _) _, _)) => true
  | _ => false

end StoringServer

/-- The `PUT` with the cards of a new dashboard. -/
theorem one_object_and_verified_puts_stored : ∃ m path payload k s',
    loadManifest (fun _ => .ok ()) StoringServer.storedManifest = .ok m ∧
      Steps syncExec (Serves (· ∈ StoringServer.keys)) 0
        (run (StoringServer.context StoringServer.hashValue) m true) StoringServer.empty.begin
        (.call (.api .put path (some payload)) k) s' ∧
      OneHolder (holding (· ∈ StoringServer.keys) s'.server) ∧
      PutOk (StoringServer.context StoringServer.hashValue) (· ∈ StoringServer.keys) path payload
        s' := by
  have hput : StoringServer.isPut (StoringServer.upTo 19) = true := by
    decide +kernel
  cases hupTo : StoringServer.upTo 19 with
  | error e =>
      rw [hupTo] at hput
      cases hput
  | ok r =>
      obtain ⟨m, hm, hrun⟩ := Rel.bind_eq_ok hupTo
      rw [hupTo] at hput
      split at hrun
      · rename_i hclean
        have hjobs : ∀ job ∈ jobs m, CleanItem (· ∈ StoringServer.keys) job.kind job.item :=
          fun job hjob => StoringServer.clean_of_isClean (List.all_eq_true.mp hclean job hjob)
        have hstart : Campaign (· ∈ StoringServer.keys) StoringServer.empty :=
          .start _ (StoringServer.owned_empty _)
        match r, hrun, hput with
        | some (.call (.api .put path body) k, s'), hrun, _ =>
            have hsteps := StoringServer.steps_of_follow (K := (· ∈ StoringServer.keys))
              (fun c _ => StoringServer.respond_serves c) StoringServer.small_empty
              (Except.ok.inj hrun)
            obtain ⟨payload, rfl, hok⟩ := (one_object_and_verified_puts _).2 _ m _ s' _ hstart hjobs
              hsteps path body k rfl
            exact ⟨m, path, payload, k, s', hm, hsteps,
              (one_object_and_verified_puts _).1 s' (.run hstart hjobs hsteps), hok⟩
      · rw [← Except.ok.inj hrun] at hput
        cases hput

/-! ### A description with the marker of another key -/

namespace CrossedMarkers

open StoringServer

/-- The second question mentions the first one by its marker. -/
def crossed : JsonVal :=
  payload [question "ratings" "Ratings" "Per day",
    question "apps" "Applications" "See [sahabino-bi:question:ratings]"]
    [dashboard]

def questionRead (name description : String) : JsonVal := .obj [("name", .str name),
  ("description", .str description), ("collection_id", .int 1), ("display", .str "table"),
  ("visualization_settings", .obj []), ("dataset_query", .obj [("database", .int 2),
    ("type", .str "native"), ("native", .obj [("query", .str "SELECT 1"),
      ("template-tags", .obj [])])])]

def hashes : List (JsonVal × String) := contents ++ [
  (questionRead "Ratings" "Per day\n\n[sahabino-bi:question:ratings]",
    "aa112e89877ec0fb37cbc486cd0549a9faef130f351f28f0b9fc012786424e3a"),
  (questionRead "Applications"
      "See [sahabino-bi:question:ratings]\n\n[sahabino-bi:question:apps]",
    "6ac4a7b0555d80d37c1eb9703d1d50dec4f8e7b661ce8cd0539a6e22a6c87f65")]

def hashValue (j : JsonVal) : String := (hashes.lookup j).getD ""

def theirs : JsonVal := .obj [("id", .int 1), ("name", .str "Mine"), ("description", .str "My own")]

/-- Somebody makes a dashboard their own right after it was read. -/
def answer (c : SyncCommand) (s : SyncState) : SyncChoice :=
  match c, s.calls with
  | .api .get (.object .dashboard id _) _, ⟨.get, .object .dashboard _ _, _⟩ :: _ =>
      match s.server .dashboard id with
      | some _ => ⟨put s.server .dashboard id theirs, .ok theirs, .written⟩
      | none => respond c s
  | _, _ => respond c s

theorem theirs_carries {mark : Mark} (h : mark ∈ keys) : ¬CarriesMark mark theirs := by
  have hall : ∀ mark ∈ keys, Py.find (marker mark.1 mark.2).toList "My own".toList = none := by
    decide +kernel
  have hdescription : theirs.get "description" = .ok (.str "My own") := rfl
  rw [carries_iff hdescription, MarkedText, ← Py.find_eq_none_iff]
  exact hall mark h

theorem edited_put (server : Objects) (kind : Kind) (id : String) :
    Edited (· ∈ keys) server (put server kind id theirs) := by
  intro mark _ place hheld
  obtain ⟨hK, j, hj, hcarries⟩ := hheld
  simp only [put] at hj
  split at hj
  · rw [← Option.some.inj hj] at hcarries
    exact absurd hcarries (theirs_carries hK)
  · exact ⟨hK, j, hj, hcarries⟩

theorem answer_serves (c : SyncCommand) (s : SyncState) (hs : Small s) :
    Serves (· ∈ keys) c (answer c s) s ∧ Small { s with server := (answer c s).after } := by
  unfold answer
  split
  · rename_i id legacy body _ _ _ _ _
    split
    · rename_i j hj
      refine ⟨⟨edited_put _ _ _, fun j hreply => ?_⟩, small_put hs (hs _ _ _ hj)⟩
      rw [← Except.ok.inj hreply]
      simp [put]
    · exact respond_serves _ hs
  · exact respond_serves _ hs

/-- The whole run. -/
def whole : Sync (Option (SyncProg Vars × SyncState)) := do
  let m ← loadManifest (fun _ => .ok ()) crossed
  pure (Conc.follow syncExec 0 (fun _ _ _ => true) answer 100 (run (context hashValue) m true)
    empty.begin)

def isMarked (mark : Mark) (j : JsonVal) : Bool :=
  match hasMarker mark.1 mark.2 j with
  | .ok b => b
  | .error _ => false

theorem isMarked_iff {mark : Mark} {j : JsonVal} : isMarked mark j = true ↔ CarriesMark mark j := by
  unfold isMarked CarriesMark
  cases hasMarker mark.1 mark.2 j with
  | ok b => simp
  | error e => simp

/-- Both questions have the marker of the first one. -/
def isDouble (server : Objects) : Bool :=
  match server .question "1", server .question "2" with
  | some j, some j' => isMarked (.question, "ratings") j && isMarked (.question, "ratings") j'
  | _, _ => false

theorem not_oneHolder_of_isDouble {server : Objects} (h : isDouble server = true) :
    ¬OneHolder (holding (· ∈ keys) server) := by
  intro hone
  unfold isDouble at h
  split at h
  · rename_i j j' hj hj'
    rw [Bool.and_eq_true, isMarked_iff, isMarked_iff] at h
    have hkey : ((.question, "ratings") : Mark) ∈ keys := by decide
    have hsame : ((.question, "1") : Place) = (.question, "2") :=
      hone (.question, "ratings") _ _ ⟨hkey, j, hj, h.1⟩ ⟨hkey, j', hj', h.2⟩
    exact absurd hsame (by decide)
  · cases h

/-- Before the last read: a `PUT` to a dashboard whose last read had no marker. -/
def Overwrites (calls : List ApiCall) : Prop :=
  ∃ check id reply shell earlier, calls = check :: ⟨.put, .object .dashboard id false, reply⟩ ::
    ⟨.get, .object .dashboard id false, .ok shell⟩ :: earlier ∧
      ¬CarriesMark (.dashboard, "overview") shell

def overwrites : List ApiCall → Bool
  | _ :: ⟨.put, .object .dashboard id false, _⟩ ::
      ⟨.get, .object .dashboard id' false, .ok shell⟩ :: _ =>
      id' = id && !isMarked (.dashboard, "overview") shell
  | _ => false

theorem overwrites_of_check {calls : List ApiCall} (h : overwrites calls = true) :
    Overwrites calls := by
  unfold overwrites at h
  split at h
  · rename_i check id reply id' shell earlier
    rw [Bool.and_eq_true, decide_eq_true_eq, Bool.not_eq_true'] at h
    obtain ⟨rfl, hmarked⟩ := h
    refine ⟨check, id', reply, shell, earlier, rfl, fun hcarries => ?_⟩
    rw [isMarked_iff.mpr hcarries] at hmarked
    cases hmarked
  · cases h

def goesWrong : Sync (Option (SyncProg Vars × SyncState)) → Bool
  | .ok (some (.ret _, s)) => isDouble s.server && overwrites s.calls
  | _ => false

end CrossedMarkers

/-- One run of an accepted manifest on the empty server: two questions carry the marker of one key,
and a dashboard that somebody changed after it was created is overwritten. -/
theorem crossed_markers_and_overwritten_dashboard : ∃ m v s',
    loadManifest (fun _ => .ok ()) CrossedMarkers.crossed = .ok m ∧
      Runs syncExec (Serves (· ∈ StoringServer.keys)) 0
        (run (StoringServer.context CrossedMarkers.hashValue) m true) StoringServer.empty.begin
        (.ok v) s' ∧
      ¬OneHolder (holding (· ∈ StoringServer.keys) s'.server) ∧
      CrossedMarkers.Overwrites s'.calls := by
  have hwrong : CrossedMarkers.goesWrong CrossedMarkers.whole = true := by
    decide +kernel
  cases hwhole : CrossedMarkers.whole with
  | error e =>
      rw [hwhole] at hwrong
      cases hwrong
  | ok r =>
      obtain ⟨m, hm, hrun⟩ := Rel.bind_eq_ok hwhole
      rw [hwhole] at hwrong
      match r, hrun, hwrong with
      | some (.ret v, s'), hrun, hwrong =>
          have hruns := (StoringServer.steps_of_follow (K := (· ∈ StoringServer.keys))
            CrossedMarkers.answer_serves StoringServer.small_empty (Except.ok.inj hrun)).runs rfl
          rw [CrossedMarkers.goesWrong, Bool.and_eq_true] at hwrong
          exact ⟨m, v, s', hm, hruns, CrossedMarkers.not_oneHolder_of_isDouble hwrong.1,
            CrossedMarkers.overwrites_of_check hwrong.2⟩

end Sahabino
