import Mathlib.Data.String.Basic
import Sahabino.Events

/-!
# The application registry

`ApplicationRegistryService`: creating, updating and deactivating
applications. Each call is one transaction (`session.begin()`), so it is
a function from the stored applications to the stored applications or to
the exception it raises; on an exception nothing is stored.

What the rest of the development needs is the frame: the only call that
can change the package name of a stored application is `updateApplication`
with a `packageName` (`updateApplication_packageName`), and no call removes
an application.
-/

namespace Sahabino

structure Application where
  id : Uuid
  name : NonBlankString
  packageName : NonBlankString
  languageCode : Option String
  countryCode : Option String
  isActive : Bool
  deactivatedAt : Option Timestamp
  updatedAt : Timestamp
  /-- Category code and whether it is the primary one, sorted by code. -/
  categoryAssignments : List (NonBlankString × Bool)

/-- The primary key and `uq_applications_package_name`. -/
def ApplicationClash (a b : Application) : Prop :=
  a.id = b.id ∨ a.packageName = b.packageName

instance : DecidableRel ApplicationClash := fun a b => by
  unfold ApplicationClash
  infer_instance

theorem ApplicationClash.symm {a b : Application} (h : ApplicationClash a b) :
    ApplicationClash b a := by
  rcases h with h | h
  · exact Or.inl h.symm
  · exact Or.inr h.symm

abbrev ApplicationTable := Rel.Table Application ApplicationClash

namespace ApplicationTable

def find (t : ApplicationTable) (id : Uuid) : Option Application :=
  t.rows.find? fun a => a.id = id

/-- `application_package_name`. -/
def packageName (t : ApplicationTable) (id : Uuid) : Option NonBlankString :=
  (t.find id).map (·.packageName)

theorem find_eq_some {t : ApplicationTable} {id : Uuid} {a : Application} :
    t.find id = some a ↔ a ∈ t.rows ∧ a.id = id := by
  constructor
  · intro h
    exact ⟨List.mem_of_find?_eq_some h, by simpa using List.find?_some h⟩
  · rintro ⟨ha, rfl⟩
    cases hf : t.find a.id with
    | none =>
        have := List.find?_eq_none.mp hf a ha
        simp at this
    | some b =>
        have hb := List.mem_of_find?_eq_some hf
        have hid : b.id = a.id := by simpa using List.find?_some hf
        rw [t.eq_of_clash ApplicationClash.symm hb ha (Or.inl hid)]

end ApplicationTable

/-! ## Requests -/

structure ApplicationCreate where
  name : NonBlankString
  packageName : NonBlankString
  languageCode : Option String
  countryCode : Option String
  categoryCodes : List NonBlankString
  primaryCategoryCode : NonBlankString

/-- A patch: the outer `Option`s say which fields were sent. The locale fields
are sent together and may be null; the category fields are sent together. -/
structure ApplicationUpdate where
  name : Option NonBlankString
  packageName : Option NonBlankString
  locale : Option (Option String × Option String)
  categories : Option (List NonBlankString × NonBlankString)

inductive RegistryError where
  | applicationNotFound (id : Uuid)
  | duplicatePackageName (packageName : NonBlankString)
  | invalidCategoryAssignment (message : String)
  | integrityError
deriving DecidableEq

/-! ## The service -/

def validateCategoryAssignment (categoryCodes : List NonBlankString)
    (primaryCategoryCode : NonBlankString) : Except RegistryError Unit :=
  if categoryCodes = [] then
    .error (.invalidCategoryAssignment "category_codes must contain at least one category")
  else if ¬categoryCodes.Nodup then
    .error (.invalidCategoryAssignment "category_codes must not contain duplicates")
  else if primaryCategoryCode ∉ categoryCodes then
    .error (.invalidCategoryAssignment "primary_category_code must be included in category_codes")
  else .ok ()

/-- `sorted` on strings compares code points. -/
def sortCodes (codes : List NonBlankString) : List NonBlankString :=
  codes.mergeSort fun a b => decide (a.text.toList ≤ b.text.toList)

/-- `_resolve_categories`: the known codes, or the names of the unknown ones. -/
def resolveCategories (known categoryCodes : List NonBlankString) :
    Except RegistryError (List NonBlankString) :=
  match sortCodes (categoryCodes.dedup.filter fun c => c ∉ known) with
  | [] => .ok (sortCodes (known.filter fun c => c ∈ categoryCodes))
  | missing => .error (.invalidCategoryAssignment
      ("Unknown category codes: " ++ String.intercalate ", " (missing.map (·.text))))

def assignments (categories : List NonBlankString) (primaryCategoryCode : NonBlankString) :
    List (NonBlankString × Bool) :=
  categories.map fun c => (c, decide (c = primaryCategoryCode))

/-- `create_application`; `id` is the drawn `uuid4`. A clash on the package name
is reported as such, any other integrity error is passed on. -/
def createApplication (known : List NonBlankString) (data : ApplicationCreate) (id : Uuid)
    (now : Timestamp) (t : ApplicationTable) : Except RegistryError ApplicationTable := do
  validateCategoryAssignment data.categoryCodes data.primaryCategoryCode
  let categories ← resolveCategories known data.categoryCodes
  let application : Application :=
    { id := id, name := data.name, packageName := data.packageName,
      languageCode := data.languageCode, countryCode := data.countryCode,
      isActive := true, deactivatedAt := none, updatedAt := now,
      categoryAssignments := assignments categories data.primaryCategoryCode }
  match t.insert application with
  | some t' => .ok t'
  | none =>
      if t.rows.any fun a => a.packageName = data.packageName then
        .error (.duplicatePackageName data.packageName)
      else .error .integrityError

/-- The field assignments of `update_application`, in order. -/
def applyUpdate (known : List NonBlankString) (data : ApplicationUpdate) (now : Timestamp)
    (application : Application) : Except RegistryError Application := do
  let application := match data.name with
    | some name => { application with name := name }
    | none => application
  let application := match data.packageName with
    | some packageName => { application with packageName := packageName }
    | none => application
  let application := match data.locale with
    | some (languageCode, countryCode) =>
        { application with languageCode := languageCode, countryCode := countryCode }
    | none => application
  match data.categories with
  | some (categoryCodes, primaryCategoryCode) =>
      validateCategoryAssignment categoryCodes primaryCategoryCode
      let categories ← resolveCategories known categoryCodes
      pure { application with
        categoryAssignments := assignments categories primaryCategoryCode, updatedAt := now }
  | none => pure { application with updatedAt := now }

/-- Store `updated` in place of the row with its id. The flush fails when the
package name is taken by another application. -/
def ApplicationTable.replace (t : ApplicationTable) (updated : Application) :
    Option ApplicationTable :=
  if h : (t.rows.map fun a => if a.id = updated.id then updated else a).Pairwise
      fun a b => ¬ApplicationClash a b then
    some ⟨_, h⟩
  else none

/-- A patch that sends no field changes nothing. -/
def ApplicationUpdate.isEmpty (data : ApplicationUpdate) : Bool :=
  data.name.isNone && data.packageName.isNone && data.locale.isNone && data.categories.isNone

def updateApplication (known : List NonBlankString) (applicationId : Uuid)
    (data : ApplicationUpdate) (now : Timestamp) (t : ApplicationTable) :
    Except RegistryError ApplicationTable :=
  match t.find applicationId with
  | none => .error (.applicationNotFound applicationId)
  | some application =>
      if data.isEmpty then .ok t
      else
        match applyUpdate known data now application with
        | .error e => .error e
        | .ok updated =>
            match t.replace updated with
            | some t' => .ok t'
            | none => .error (.duplicatePackageName updated.packageName)

def deactivateApplication (applicationId : Uuid) (now : Timestamp) (t : ApplicationTable) :
    Except RegistryError ApplicationTable :=
  match t.find applicationId with
  | none => .error (.applicationNotFound applicationId)
  | some application =>
      if application.isActive then
        match t.replace
            { application with isActive := false, deactivatedAt := some now, updatedAt := now } with
        | some t' => .ok t'
        | none => .error .integrityError
      else .ok t

/-! ## Package names

No call removes an application, and only a patch that sends a package name
can change one. -/

theorem ApplicationTable.packageName_eq_some {t : ApplicationTable} {id : Uuid}
    {p : NonBlankString} :
    t.packageName id = some p ↔ ∃ a ∈ t.rows, a.id = id ∧ a.packageName = p := by
  simp only [ApplicationTable.packageName, Option.map_eq_some_iff, find_eq_some, and_assoc]

theorem ApplicationTable.packageName_replace {t t' : ApplicationTable} {updated : Application}
    (h : t.replace updated = some t') {id : Uuid} {p : NonBlankString}
    (hp : t.packageName id = some p) (hkeep : updated.id = id → updated.packageName = p) :
    t'.packageName id = some p := by
  unfold ApplicationTable.replace at h
  split at h
  · obtain rfl := Option.some.inj h
    obtain ⟨a, ha, hid, hname⟩ := packageName_eq_some.mp hp
    refine packageName_eq_some.mpr ⟨_, List.mem_map_of_mem ha, ?_⟩
    split
    · rename_i hsame
      have hupd : updated.id = id := hsame.symm.trans hid
      exact ⟨hupd, hkeep hupd⟩
    · exact ⟨hid, hname⟩
  · cases h

theorem ApplicationTable.named_replace {t t' : ApplicationTable} {updated : Application}
    (h : t.replace updated = some t') {id : Uuid} (hp : ∃ p, t.packageName id = some p) :
    ∃ p, t'.packageName id = some p := by
  obtain ⟨p, hp⟩ := hp
  by_cases hid : updated.id = id
  · unfold ApplicationTable.replace at h
    split at h
    · obtain rfl := Option.some.inj h
      obtain ⟨a, ha, haid, -⟩ := packageName_eq_some.mp hp
      refine ⟨updated.packageName, packageName_eq_some.mpr ⟨_, List.mem_map_of_mem ha, ?_⟩⟩
      rw [if_pos (haid.trans hid.symm)]
      exact ⟨hid, rfl⟩
    · cases h
  · exact ⟨p, packageName_replace h hp fun hsame => absurd hsame hid⟩

theorem applyUpdate_ok {known : List NonBlankString} {data : ApplicationUpdate}
    {now : Timestamp} {application updated : Application}
    (h : applyUpdate known data now application = .ok updated) :
    updated.id = application.id ∧
      updated.packageName = data.packageName.getD application.packageName := by
  simp only [applyUpdate, bind, Except.bind, pure, Except.pure] at h
  split at h
  · split at h
    · cases h
    · split at h
      · cases h
      · rw [← Except.ok.inj h]
        cases data.name <;> cases data.packageName <;> cases data.locale <;> exact ⟨rfl, rfl⟩
  · rw [← Except.ok.inj h]
    cases data.name <;> cases data.packageName <;> cases data.locale <;> exact ⟨rfl, rfl⟩

theorem updateApplication_packageName {known : List NonBlankString} {applicationId id : Uuid}
    {data : ApplicationUpdate} {now : Timestamp} {t t' : ApplicationTable} {p : NonBlankString}
    (h : updateApplication known applicationId data now t = .ok t')
    (hp : t.packageName id = some p)
    (hkeep : applicationId = id → ∀ q, data.packageName = some q → q = p) :
    t'.packageName id = some p := by
  unfold updateApplication at h
  split at h
  · cases h
  · rename_i application hfind
    obtain ⟨hmem, hid⟩ := ApplicationTable.find_eq_some.mp hfind
    split at h
    · rw [← Except.ok.inj h]
      exact hp
    · split at h
      · cases h
      · rename_i updated hupd
        obtain ⟨hid', hname⟩ := applyUpdate_ok hupd
        split at h
        · rename_i t₁ hrep
          rw [← Except.ok.inj h]
          refine ApplicationTable.packageName_replace hrep hp fun hsame => ?_
          have hold : application.packageName = p := by
            obtain ⟨a, ha, haid, haname⟩ := ApplicationTable.packageName_eq_some.mp hp
            have heq : a.id = application.id := haid.trans (hsame.symm.trans hid')
            rw [← t.eq_of_clash ApplicationClash.symm ha hmem (Or.inl heq)]
            exact haname
          rw [hname]
          cases hq : data.packageName with
          | none => exact hold
          | some q => exact hkeep (hid.symm.trans (hid'.symm.trans hsame)) q hq
        · cases h

theorem updateApplication_named {known : List NonBlankString} {applicationId id : Uuid}
    {data : ApplicationUpdate} {now : Timestamp} {t t' : ApplicationTable}
    (h : updateApplication known applicationId data now t = .ok t')
    (hp : ∃ p, t.packageName id = some p) : ∃ p, t'.packageName id = some p := by
  unfold updateApplication at h
  split at h
  · cases h
  · split at h
    · rw [← Except.ok.inj h]
      exact hp
    · split at h
      · cases h
      · split at h
        · rename_i hrep
          rw [← Except.ok.inj h]
          exact ApplicationTable.named_replace hrep hp
        · cases h

theorem createApplication_packageName {known : List NonBlankString} {data : ApplicationCreate}
    {newId id : Uuid} {now : Timestamp} {t t' : ApplicationTable} {p : NonBlankString}
    (h : createApplication known data newId now t = .ok t') (hp : t.packageName id = some p) :
    t'.packageName id = some p := by
  simp only [createApplication, bind, Except.bind] at h
  split at h
  · cases h
  · split at h
    · cases h
    · split at h
      · rename_i hins
        rw [← Except.ok.inj h]
        obtain ⟨a, ha, hrest⟩ := ApplicationTable.packageName_eq_some.mp hp
        exact ApplicationTable.packageName_eq_some.mpr
          ⟨a, (Rel.Table.mem_insert hins).mpr (Or.inl ha), hrest⟩
      · split at h
        · cases h
        · cases h

theorem deactivateApplication_packageName {applicationId id : Uuid} {now : Timestamp}
    {t t' : ApplicationTable} {p : NonBlankString}
    (h : deactivateApplication applicationId now t = .ok t') (hp : t.packageName id = some p) :
    t'.packageName id = some p := by
  unfold deactivateApplication at h
  split at h
  · cases h
  · rename_i application hfind
    obtain ⟨hmem, -⟩ := ApplicationTable.find_eq_some.mp hfind
    split at h
    · split at h
      · rename_i t₁ hrep
        rw [← Except.ok.inj h]
        refine ApplicationTable.packageName_replace hrep hp fun hsame => ?_
        obtain ⟨a, ha, haid, haname⟩ := ApplicationTable.packageName_eq_some.mp hp
        have heq : a.id = application.id := haid.trans hsame.symm
        rw [← t.eq_of_clash ApplicationClash.symm ha hmem (Or.inl heq)]
        exact haname
      · cases h
    · rw [← Except.ok.inj h]
      exact hp

end Sahabino
