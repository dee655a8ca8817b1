import Sahabino.Lib.Table
import Sahabino.MetabaseSync

/-!
# Markers in descriptions

The marker of an item's key is in the description that is sent for it
(`describedOf_marked`): stripping does not cut it. Every payload that the
synchronizer makes of a want, be it to create, to update or to set the
cards of a dashboard, has the description of the want.
-/

namespace Sahabino

open Py (JsonVal)
open MetabaseSync

variable {ctx : Context}

/-! ## Markers -/

/-- A logical key. -/
abbrev Mark := Kind × String

def CarriesMark (mark : Mark) (j : JsonVal) : Prop := hasMarker mark.1 mark.2 j = .ok true

def MarkedText (mark : Mark) (text : String) : Prop :=
  (marker mark.1 mark.2).toList <:+: text.toList

theorem hasMarker_congr {kind : Kind} {key : String} {a b : JsonVal}
    (h : a.get "description" = b.get "description") :
    hasMarker kind key a = hasMarker kind key b := by
  unfold hasMarker
  rw [h]

theorem carries_iff {mark : Mark} {j : JsonVal} {text : String}
    (h : j.get "description" = .ok (.str text)) : CarriesMark mark j ↔ MarkedText mark text := by
  have hor : (JsonVal.str text).orElse (.str "") = .str text := by
    unfold JsonVal.orElse JsonVal.truthy
    by_cases htext : text = ""
    · rw [htext]
      rfl
    · rw [if_pos (decide_eq_true htext)]
  have hmarker : hasMarker mark.1 mark.2 j =
      .ok (Py.find (marker mark.1 mark.2).toList text.toList).isSome := by
    unfold hasMarker
    rw [h]
    show py ((JsonVal.orElse (.str text) (.str "")).textIn _) = _
    rw [hor]
    rfl
  rw [CarriesMark, hmarker, MarkedText, Except.ok.injEq, ← not_iff_not, ← Py.find_eq_none_iff,
    Option.isSome_iff_ne_none, not_not]

theorem marked_described (description : String) (kind : Kind) (key : String) :
    MarkedText (kind, key) (described description kind key) := by
  unfold MarkedText described
  rw [stripText, String.toList_ofList]
  refine Py.infix_trim (fun c hc => ?_) (fun c hc => ?_) ?_
  · have hhead : (marker kind key).toList.head? = some '[' := by
      simp [marker]
    rw [hhead] at hc
    cases hc
    decide
  · have hlast : (marker kind key).toList.getLast? = some ']' := by
      rw [marker, String.toList_append]
      exact List.getLast?_concat
    rw [hlast] at hc
    cases hc
    decide
  · rw [String.toList_append]
    exact List.suffix_append _ _ |>.isInfix

/-! ## What is wanted of an item -/

/-- What is sent for an item is described like the item. -/
def IsWant (kind : Kind) (item : Fields) (want : JsonVal) : Prop :=
  ∃ text, describedOf kind item = .ok text ∧ want.index "description" = .ok (.str text)

theorem get_of_index {j v : JsonVal} {name : String} (h : j.index name = .ok v) :
    j.get name = .ok v := by
  cases j with
  | obj fields =>
      rw [JsonVal.index] at h
      rw [JsonVal.get, JsonVal.getD]
      cases hfield : JsonVal.field fields name with
      | none => simp [hfield] at h
      | some w => simpa [hfield] using h
  | _ => cases h

/-- What holds of the value if there is one. -/
def Gives {α : Type} (P : α → Prop) (x : Sync α) : Prop := ∀ a, x = .ok a → P a

theorem Gives.bind {α β : Type} {P : β → Prop} {x : Sync α} {f : α → Sync β}
    (h : ∀ a, x = .ok a → Gives P (f a)) : Gives P (x >>= f) := by
  intro b hb
  obtain ⟨a, ha, hfb⟩ := Rel.bind_eq_ok hb
  exact h a ha b hfb

theorem Gives.pure {α : Type} {P : α → Prop} {a : α} (h : P a) : Gives P (pure a) := by
  intro b hb
  rwa [← Except.ok.inj hb]

theorem desiredCollection_isWant (c : Fields) (parent : JsonVal) :
    Gives (IsWant .collection c) (desiredCollection c parent) :=
  .bind fun _ _ => .bind fun text htext => .pure ⟨text, htext, rfl⟩

theorem wantCollection_isWant (ids : Kind → Ids) (c : Fields) :
    Gives (fun want => IsWant .collection c want.1) (wantCollection ids c) :=
  .bind fun parent _ => .bind fun want hwant =>
    .pure (desiredCollection_isWant c parent want hwant)

theorem wantQuestion_isWant (ids : Kind → Ids) (q : Fields) :
    Gives (IsWant .question q) (wantQuestion ctx ids q) := by
  refine .bind fun _ _ => .bind fun _ _ => .bind fun _ _ => .bind fun _ _ => .bind fun _ _ => ?_
  refine .bind fun _ _ => .bind fun _ _ => .bind fun _ _ => .bind fun _ _ => ?_
  refine .bind fun text htext => .bind fun _ _ => .bind fun _ _ => ?_
  exact .pure ⟨text, htext, rfl⟩

theorem wantDashboard_isWant (ids : Kind → Ids) (enabled : List JsonVal) (d : Fields) :
    Gives (IsWant .dashboard d) (wantDashboard ctx ids enabled d) := by
  refine .bind fun _ _ => .bind fun _ _ => .bind fun _ _ => .bind fun _ _ => .bind fun _ _ => ?_
  refine .bind fun _ _ => .bind fun _ _ => .bind fun _ _ => .bind fun _ _ => ?_
  refine .bind fun text htext => .bind fun _ _ => .bind fun _ _ => ?_
  exact .pure ⟨text, htext, rfl⟩

theorem describedOf_marked {kind : Kind} {item : Fields} {key : String}
    (hkey : keyOf item = .ok key) : Gives (MarkedText (kind, key)) (describedOf kind item) := by
  refine .bind fun description _ => ?_
  cases description with
  | str s =>
      refine .bind fun key' hkey' => .pure ?_
      obtain rfl := Except.ok.inj (hkey'.symm.trans hkey)
      exact marked_described s kind key'
  | _ => exact fun _ h => (by cases h)

/-- A payload has this description. -/
def Described (text : String) (payload : JsonVal) : Prop :=
  payload.get "description" = .ok (.str text)

section

variable {want : JsonVal} {text : String} (hwant : want.index "description" = .ok (.str text))

include hwant

theorem shellFields_described :
    Gives (fun fields => JsonVal.field fields "description" = some (.str text))
      (shellFields want) := by
  unfold shellFields
  simp only [List.mapM_cons, List.mapM_nil]
  refine .bind fun name hname => .bind fun rest hrest => .pure ?_
  obtain ⟨value, _, hname⟩ := Rel.bind_eq_ok hname
  obtain ⟨description, hdescription, hrest⟩ := Rel.bind_eq_ok hrest
  obtain ⟨value', hvalue', hdescription⟩ := Rel.bind_eq_ok hdescription
  obtain ⟨_, _, hrest⟩ := Rel.bind_eq_ok hrest
  obtain rfl := Except.ok.inj hname
  obtain rfl := Except.ok.inj hdescription
  obtain rfl := Except.ok.inj hrest
  obtain rfl := Except.ok.inj ((py_eq_ok hvalue').symm.trans hwant)
  rfl

theorem creation_described (kind : Kind) (item : Fields) (parent : JsonVal) :
    Gives (Described text) (creation kind item want parent) := by
  cases kind with
  | collection =>
      refine .bind fun _ _ => .bind fun description hdescription => .pure ?_
      rw [Except.ok.inj ((py_eq_ok hdescription).symm.trans hwant)]
      rfl
  | question => exact .pure (get_of_index hwant)
  | dashboard =>
      refine .bind fun fields hfields => .pure ?_
      rw [Described, JsonVal.get, JsonVal.getD, shellFields_described hwant fields hfields]
      rfl

theorem dashboardUpdate_described (k : String) (remote : JsonVal) :
    Gives (Described text) (dashboardUpdate k want remote) := by
  refine .bind fun _ _ => .bind fun _ _ => .bind fun old _ => .bind fun _ _ => ?_
  refine .bind fun wanted _ => .bind fun cards _ => .bind fun ids _ => ?_
  split
  · exact fun _ h => (by cases h)
  · split
    · exact fun _ h => (by cases h)
    · split
      · exact fun _ h => (by cases h)
      · refine .bind fun fields hfields => .pure ?_
        have hdict : want = .obj fields := by
          cases want <;> first | exact congrArg JsonVal.obj (Except.ok.inj hfields) | cases hfields
        have hget := get_of_index hwant
        rw [hdict] at hget
        rw [Described, JsonVal.get, JsonVal.getD, JsonVal.field_set_of_ne (by decide)]
        exact hget

theorem newEntry_described (item : Fields) (id collection : JsonVal) :
    Gives (Described text) (newEntry item id collection want) := by
  refine .bind fun _ _ => .bind fun description hdescription => .pure ?_
  rw [Except.ok.inj ((py_eq_ok hdescription).symm.trans hwant)]
  rfl

end

end Sahabino
