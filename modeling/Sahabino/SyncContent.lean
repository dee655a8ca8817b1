import Sahabino.RenderSql

/-!
# Contents of a BI manifest, and of a Metabase server

`metabase_sync.py` without its requests: what a manifest has to look like
(`loadManifest`), the objects it describes (`desired*`), and the forms in
which a reply of the server is compared with them (`normal*`).

Items of a manifest and replies are JSON of any shape; an access that
fails raises what Python raises.
-/

namespace Sahabino

open Py (JsonVal)

inductive SyncRaise where
  | syncError (text : String)
  | python (e : Py.Exc)
  | osError
  | metadata (e : MetadataRaise)
deriving DecidableEq

abbrev Sync (α : Type) := Except SyncRaise α

def py {α : Type} (x : Except Py.Exc α) : Sync α := x.mapError .python

def refuse {α : Type} (text : String) : Sync α := .error (.syncError text)

/-- `for x in items: check(x)` -/
def forAll {α : Type} (items : List α) (check : α → Sync Unit) : Sync Unit :=
  match items with
  | [] => .ok ()
  | x :: rest => do
      check x
      forAll rest check

/-- `any(check(x) for x in items)` -/
def anyOf {α : Type} (check : α → Sync Bool) : List α → Sync Bool
  | [] => .ok false
  | x :: rest => do if ← check x then pure true else anyOf check rest

/-- `[x for x in items if check(x)]` -/
def keep {α : Type} (check : α → Sync Bool) : List α → Sync (List α)
  | [] => .ok []
  | x :: rest => do
      let kept ← check x
      let others ← keep check rest
      pure (if kept then x :: others else others)

/-! ## Order -/

def insertBy {α : Type} (less : α → α → Sync Bool) (x : α) : List α → Sync (List α)
  | [] => .ok [x]
  | y :: ys => do
      if ← less y x then
        let rest ← insertBy less x ys
        pure (y :: rest)
      else pure (x :: y :: ys)

/-- `sorted(items)`, which is stable. -/
def sortBy {α : Type} (less : α → α → Sync Bool) : List α → Sync (List α)
  | [] => .ok []
  | x :: xs => do
      let sorted ← sortBy less xs
      insertBy less x sorted

/-- `key=lambda x: x[name]` -/
def lessAt (name : String) (a b : JsonVal) : Sync Bool := do
  let v ← py (a.index name)
  let w ← py (b.index name)
  py (JsonVal.less v w)

/-- `key=lambda x: (str(x["card_id"]), x["row"] or 0)` -/
def lessCard (lib : Stdlib) (a b : JsonVal) : Sync Bool := do
  let s := lib.str (← py (a.index "card_id"))
  let t := lib.str (← py (b.index "card_id"))
  let v := (← py (a.index "row")).orElse (.int 0)
  let w := (← py (b.index "row")).orElse (.int 0)
  if s = t then (if v.Same w then pure false else py (JsonVal.less v w)) else pure (s < t)

/-! ## Kinds and markers -/

inductive Kind where
  | collection
  | question
  | dashboard
deriving DecidableEq

namespace Kind

def text : Kind → String
  | collection => "collection"
  | question => "question"
  | dashboard => "dashboard"

end Kind

/-- A text where the code puts texts together; anything else does not go with one. -/
def asText : JsonVal → Sync String
  | .str s => .ok s
  | _ => .error (.python .typeError)

def marker (kind : Kind) (key : String) : String :=
  "[" ++ "sahabino-bi:" ++ kind.text ++ ":" ++ key ++ "]"

/-- `key_id` -/
def keyId (kind : Kind) (key : String) : String := kind.text ++ ":" ++ key

def stripText (s : String) : String := String.ofList (Py.strip s.toList)

def described (description : String) (kind : Kind) (key : String) : String :=
  stripText (stripText description ++ "\n\n" ++ marker kind key)

/-- `item["key"]`, put into a text. -/
def keyOf (item : Fields) : Sync String := do asText (← py ((JsonVal.obj item).index "key"))

/-- `described(item["description"], kind, item["key"])` -/
def describedOf (kind : Kind) (item : Fields) : Sync String := do
  match ← py ((JsonVal.obj item).index "description") with
  | .str description =>
      let key ← keyOf item
      pure (described description kind key)
  | _ => .error (.python .attributeError)

/-- `marker(kind, key) in (o.get("description") or "")` -/
def hasMarker (kind : Kind) (key : String) (o : JsonVal) : Sync Bool := do
  let description ← py (o.get "description")
  py ((description.orElse (.str "")).textIn (marker kind key))

/-! ## Replies in normal form -/

def stripSlashes (s : List Char) : List Char := Py.trim (fun c => c = '/') s

def normalCollection (r : JsonVal) : Sync JsonVal := do
  let location ← py (r.get "location")
  let parent ←
    if location.truthy then
      match location with
      | .str s =>
          let parts := (stripSlashes s.toList).splitOn '/'
          if stripSlashes s.toList = [] then pure JsonVal.null
          else JsonVal.int <$> py (JsonVal.str (String.ofList (parts.getLastD []))).toInt
      | _ => .error (.python .attributeError)
    else pure JsonVal.null
  pure (.obj [("name", ← py (r.get "name")), ("description", ← py (r.get "description")),
    ("parent_id", ← py (r.getOr "parent_id" parent))])

def normalQuestion (r : JsonVal) : Sync JsonVal := do
  let query := (← py (r.get "dataset_query")).orElse (.obj [])
  let native := (← py (query.get "native")).orElse (.obj [])
  pure (.obj [("name", ← py (r.get "name")), ("description", ← py (r.get "description")),
    ("collection_id", ← py (r.get "collection_id")), ("display", ← py (r.get "display")),
    ("visualization_settings", (← py (r.get "visualization_settings")).orElse (.obj [])),
    ("dataset_query", .obj [("database", ← py (query.get "database")),
      ("type", ← py (query.get "type")),
      ("native", .obj [("query", ← py (native.get "query")),
        ("template-tags", (← py (native.get "template-tags")).orElse (.obj []))])])])

/-- `{k: x.get(k) for k in names}` -/
def pick (names : List String) (x : JsonVal) : Sync JsonVal := do
  let fields ← names.mapM fun name => do pure (name, ← py (x.get name))
  pure (.obj fields)

/-- `c.get("card_id") or (c.get("card") or {}).get("id")` -/
def cardId (c : JsonVal) : Sync JsonVal := do
  let id ← py (c.get "card_id")
  if id.truthy then pure id
  else py (((← py (c.get "card")).orElse (.obj [])).get "id")

def normalCard (c : JsonVal) : Sync JsonVal := do
  let id ← cardId c
  let mappings ← py (← py (c.getOr "parameter_mappings" (.arr []))).elements
  let mapping ← mappings.mapM (pick ["parameter_id", "card_id", "target"])
  pure (.obj [("card_id", id), ("row", ← py (c.get "row")), ("col", ← py (c.get "col")),
    ("size_x", ← py (c.get "size_x")), ("size_y", ← py (c.get "size_y")),
    ("parameter_mappings", .arr (← sortBy (lessAt "parameter_id") mapping))])

def normalDashboard (lib : Stdlib) (r : JsonVal) : Sync JsonVal := do
  let parameters ← py (← py (r.getOr "parameters" (.arr []))).elements
  let params ← parameters.mapM (pick ["id", "name", "slug", "type"])
  let dashcards ← py (← py (r.getOr "dashcards" (.arr []))).elements
  let cards ← dashcards.mapM normalCard
  pure (.obj [("name", ← py (r.get "name")), ("description", ← py (r.get "description")),
    ("collection_id", ← py (r.get "collection_id")),
    ("parameters", .arr (← sortBy (lessAt "id") params)),
    ("dashcards", .arr (← sortBy (lessCard lib) cards))])

def normal (lib : Stdlib) : Kind → JsonVal → Sync JsonVal
  | .collection => normalCollection
  | .question => normalQuestion
  | .dashboard => normalDashboard lib

/-- `as_items`: a list that is the whole of it. -/
def asItems (data : JsonVal) : Sync (List JsonVal) :=
  match data with
  | .arr items => .ok items
  | .obj fields =>
      match JsonVal.getD fields "data" with
      | .arr items => do
          let total := (JsonVal.field fields "total").getD (.int items.length)
          if ← py (JsonVal.less (.int items.length) total) then
            refuse "API list is paginated; refusing incomplete identity search"
          else pure items
      | _ => refuse "Unrecognized API list response; refuse potentially ambiguous ownership"
  | _ => refuse "Unrecognized API list response; refuse potentially ambiguous ownership"

/-! ## Manifests -/

structure Manifest where
  collections : List Fields
  questions : List Fields
  dashboards : List Fields

/-- `item[name]` -/
def itemAt (item : Fields) (name : String) : Sync JsonVal := py ((JsonVal.obj item).index name)

/-- `value in names` for a set of names. -/
def inSet (value : JsonVal) (names : List JsonVal) : Sync Bool :=
  if value.hashable then pure (names.any fun name => name.Same value)
  else .error (.python .typeError)

def dictOf : JsonVal → Sync Fields
  | .obj fields => .ok fields
  | _ => .error (.python .attributeError)

/-- `m[name]`, a list of dicts. -/
def itemsAt (m : Fields) (name : String) : Sync (List Fields) := do
  (← py (← itemAt m name).elements).mapM dictOf

/-- The keys of one kind of item, which are all different. -/
def checkKeys : List JsonVal → List Fields → Sync (List JsonVal)
  | seen, [] => .ok seen
  | seen, item :: rest => do
      let key := JsonVal.getD item "key"
      if !key.truthy || !(JsonVal.getD item "name").truthy then
        refuse "Duplicate or missing manifest logical key/name"
      else if ← inSet key seen then refuse "Duplicate or missing manifest logical key/name"
      else checkKeys (key :: seen) rest

def capabilityNames : List String :=
  ["base", "sentiment", "network_readiness", "network", "cross_domain", "release_readiness",
    "release_base", "release_network"]

/-- `collection` and `capability` of a question or a dashboard. -/
def checkPlace (collections : List JsonVal) (text : String) (item : Fields) : Sync Unit := do
  let known ← inSet (← itemAt item "collection") collections
  if !known then refuse text
  else if !(isOneOf capabilityNames (← itemAt item "capability")) then refuse text
  else pure ()

/-- An `int` that is not a `bool`. -/
def layoutNumber (card : Fields) (name : String) : Sync ℤ := do
  match ← itemAt card name with
  | .int n => pure n
  | _ => refuse "Invalid dashboard layout"

structure Layout where
  row : ℤ
  col : ℤ
  sizeX : ℤ
  sizeY : ℤ

def checkLayout (card : Fields) : Sync Layout := do
  let row ← layoutNumber card "row"
  let col ← layoutNumber card "col"
  let sizeX ← layoutNumber card "size_x"
  let sizeY ← layoutNumber card "size_y"
  if row < 0 ∨ col < 0 ∨ sizeX < 1 ∨ sizeY < 1 ∨ 12 < col + sizeX then
    refuse "Invalid dashboard layout"
  else pure ⟨row, col, sizeX, sizeY⟩

def Layout.meets (a b : Layout) : Prop :=
  a.row < b.row + b.sizeY ∧ b.row < a.row + a.sizeY ∧ a.col < b.col + b.sizeX ∧
    b.col < a.col + a.sizeX

instance (a b : Layout) : Decidable (a.meets b) := by
  unfold Layout.meets
  infer_instance

def checkOverlaps : List Layout → Sync Unit
  | [] => .ok ()
  | a :: rest => do
      if rest.any fun b => a.meets b then refuse "Dashboard cards overlap"
      else checkOverlaps rest

def checkMapping (questions : List Fields) (ids : List JsonVal) (filter mapping : Fields) :
    Sync Unit := do
  let wanted ← itemAt mapping "question"
  match questions.find? fun q => (JsonVal.getD q "key").Equal wanted with
  | none => refuse "Invalid filter mapping"
  | some question =>
      let tag ← itemAt mapping "tag"
      let parameters ← itemAt question "parameters"
      let known ← match parameters, tag with
        | .obj fields, .str s => pure (JsonVal.field fields s)
        | _, _ => .error (.python .typeError)
      match known with
      | none => refuse "Invalid filter mapping"
      | some type =>
          if !(ids.any fun id => id.Same wanted) || !(tag.Equal (← itemAt filter "key")) then
            refuse "Invalid filter mapping"
          else
            let filterType ← asText (← itemAt filter "type")
            let isDate := (Py.find "date/".toList filterType.toList).isSome
            if isDate ≠ (decide (type.Equal (.str "date"))) then refuse "Filter/tag type mismatch"
            else pure ()

def checkFilters (questions : List Fields) (ids : List JsonVal) : List JsonVal → List Fields → Sync Unit
  | _, [] => .ok ()
  | seen, filter :: rest => do
      let key ← itemAt filter "key"
      if seen.any fun k => k.Same key then refuse "Duplicate/unknown dashboard filter"
      else if !(isOneOf ["string/=", "date/single"] (← itemAt filter "type")) then
        refuse "Duplicate/unknown dashboard filter"
      else
        forAll (← itemsAt filter "mappings") (checkMapping questions ids filter)
        checkFilters questions ids (key :: seen) rest

def checkDashboard (collections : List JsonVal) (questions : List Fields) (d : Fields) :
    Sync Unit := do
  checkPlace collections "Invalid dashboard collection/capability" d
  let cards ← itemsAt d "cards"
  let ids ← cards.mapM (itemAt · "question")
  if ids.any fun id => !id.hashable then .error (.python .typeError)
  else if ¬(ids.Pairwise fun a b => ¬a.Same b) ∨
      (ids.any fun id => !(questions.any fun q => (JsonVal.getD q "key").Same id)) then
    refuse "Unknown/duplicate dashboard card"
  else
    checkOverlaps (← cards.mapM checkLayout)
    checkFilters questions ids [] (← itemsAt d "filters")

/-- `load_manifest`. What is asked of a question's SQL (its path, its shape, its tags) is a
parameter. -/
def loadManifest (checkSql : Fields → Sync Unit) (payload : JsonVal) : Sync Manifest := do
  let m ← dictOf payload
  if ¬(JsonVal.getD m "schema_version").Equal (.int 1) ∨
      ¬(JsonVal.getD m "metabase_version").Equal (.str "v0.63.18") ∨
      (JsonVal.getD m "database_name").truthy = false then
    refuse "Manifest version/database mismatch"
  else
    let collections ← itemsAt m "collections"
    let questions ← itemsAt m "questions"
    let dashboards ← itemsAt m "dashboards"
    let collectionKeys ← checkKeys [] collections
    let _ ← checkKeys [] questions
    let _ ← checkKeys [] dashboards
    forAll collections fun c => do
      let parent ← itemAt c "parent"
      if parent = .null then pure ()
      else if ← inSet parent collectionKeys then pure ()
      else refuse "Missing parent collection"
    forAll questions fun q => do
      checkPlace collectionKeys "Invalid question collection/capability" q
      checkSql q
    forAll dashboards (checkDashboard collectionKeys questions)
    pure ⟨collections, questions, dashboards⟩

/-! ## What a manifest describes -/

/-- What a run knows besides the manifest. -/
structure Context where
  lib : Stdlib
  /-- `hash_value` -/
  hashValue : JsonVal → String
  /-- `text.replace("_", " ").title()` -/
  title : String → String
  /-- `(ROOT / path).read_text()` -/
  readSql : JsonVal → Sync (List Char)
  experiment : ValidationReport
  release : ValidationReport
  database : JsonVal
  capabilities : Capabilities

/-- `self.ids[kind]` -/
abbrev Ids := List (String × JsonVal)

/-- `ids[key]` -/
def idAt (ids : Ids) (key : JsonVal) : Sync JsonVal :=
  match key with
  | .str s =>
      match ids.lookup s with
      | some id => .ok id
      | none => .error (.python .keyError)
  | .arr _ | .obj _ => .error (.python .typeError)
  | _ => .error (.python .keyError)

/-- `ids.get(c["parent"]) if c["parent"] else None` -/
def parentOf (ids : Ids) (c : Fields) : Sync JsonVal := do
  match ← itemAt c "parent" with
  | .str s => pure (if s = "" then .null else (ids.lookup s).getD .null)
  | parent => if parent.truthy && !parent.hashable then .error (.python .typeError) else pure .null

def desiredCollection (c : Fields) (parent : JsonVal) : Sync JsonVal := do
  let name ← itemAt c "name"
  let description ← describedOf .collection c
  pure (.obj [("name", name), ("description", .str description), ("parent_id", parent)])

def capabilityEnabled (capabilities : Capabilities) (capability : JsonVal) : Sync Bool :=
  match capability with
  | .str s =>
      if s ∈ ["base", "network_readiness", "release_readiness", "release_base"] then .ok true
      else if s = "sentiment" then .ok capabilities.sentimentReady
      else if s ∈ ["network", "cross_domain", "release_network"] then .ok capabilities.networkReady
      else .error (.python .keyError)
  | .arr _ | .obj _ => .error (.python .typeError)
  | _ => .error (.python .keyError)

def desiredQuestion (ctx : Context) (q : Fields) (collectionId : JsonVal) : Sync JsonVal := do
  let text ← ctx.readSql (← itemAt q "sql")
  let sql ← (renderSql ctx.lib text ctx.experiment ctx.release ctx.capabilities).mapError .metadata
  let tags ← (← dictOf (← itemAt q "parameters")).mapM fun entry =>
    pure (entry.1, JsonVal.obj [("id", .str entry.1), ("name", .str entry.1),
      ("display-name", .str (ctx.title entry.1)), ("type", entry.2)])
  let name ← itemAt q "name"
  let description ← describedOf .question q
  pure (.obj [("name", name), ("description", .str description), ("collection_id", collectionId),
    ("display", ← itemAt q "display"),
    ("visualization_settings", ← itemAt q "visualization_settings"),
    ("dataset_query", .obj [("database", ctx.database), ("type", .str "native"),
      ("native", .obj [("query", .str (String.ofList sql)), ("template-tags", .obj tags)])])])

/-- `"sahabino_" + d["key"] + "_" + f["key"]` -/
def parameterId (d f : Fields) : Sync JsonVal := do
  let key ← keyOf d
  let filterKey ← keyOf f
  pure (.str ("sahabino_" ++ key ++ "_" ++ filterKey))

def desiredFilter (d f : Fields) : Sync JsonVal := do
  let id ← parameterId d f
  pure (.obj [("id", id), ("name", ← itemAt f "name"), ("slug", ← itemAt f "key"),
    ("type", ← itemAt f "type")])

/-- The mappings of one filter for one card. -/
def desiredMappings (d : Fields) (question cardId : JsonVal) (f : Fields) : Sync (List JsonVal) := do
  let mappings ← keep (fun m => do pure ((← itemAt m "question").Equal question))
    (← itemsAt f "mappings")
  mappings.mapM fun m => do
    let id ← parameterId d f
    pure (.obj [("parameter_id", id), ("card_id", cardId),
      ("target", .arr [.str "variable", .arr [.str "template-tag", ← itemAt m "tag"]])])

def desiredCard (d : Fields) (questionIds : Ids) (card : Fields) : Sync JsonVal := do
  let question ← itemAt card "question"
  let id ← idAt questionIds question
  let mappings ← (← itemsAt d "filters").mapM (desiredMappings d question id)
  let row ← itemAt card "row"
  let col ← itemAt card "col"
  let sizeX ← itemAt card "size_x"
  let sizeY ← itemAt card "size_y"
  pure (.obj [("card_id", id), ("row", row), ("col", col), ("size_x", sizeX), ("size_y", sizeY),
    ("parameter_mappings", .arr (← sortBy (lessAt "parameter_id") mappings.flatten))])

/-- `key=lambda x: (str(x["card_id"]), x["row"])` -/
def lessDesiredCard (lib : Stdlib) (a b : JsonVal) : Sync Bool := do
  let s := lib.str (← py (a.index "card_id"))
  let t := lib.str (← py (b.index "card_id"))
  let v ← py (a.index "row")
  let w ← py (b.index "row")
  if s = t then (if v.Same w then pure false else py (JsonVal.less v w)) else pure (s < t)

def desiredDashboard (lib : Stdlib) (d : Fields) (collectionId : JsonVal) (questionIds : Ids)
    (enabled : List JsonVal) : Sync JsonVal := do
  let actual ← keep (fun c => do inSet (← itemAt c "question") enabled) (← itemsAt d "cards")
  let filters ← keep (fun f => do
    anyOf (fun m => do inSet (← itemAt m "question") enabled) (← itemsAt f "mappings"))
    (← itemsAt d "filters")
  let parameters ← filters.mapM (desiredFilter d)
  let cards ← actual.mapM (desiredCard d questionIds)
  let name ← itemAt d "name"
  let description ← describedOf .dashboard d
  pure (.obj [("name", name), ("description", .str description), ("collection_id", collectionId),
    ("parameters", .arr (← sortBy (lessAt "id") parameters)),
    ("dashcards", .arr (← sortBy (lessDesiredCard lib) cards))])

/-! ## Checkpoints -/

/-- What is kept for an object in the state. -/
def checkpoint (hashValue : JsonVal → String) (id actual : JsonVal) : JsonVal :=
  .obj [("id", id), ("remote_hash", .str (hashValue actual)), ("remote", actual)]

/-- `set(d) == {...}` for the names of a dict. -/
def sameNames (fields : Fields) (names : List String) : Bool :=
  (fields.all fun entry => names.contains entry.1) &&
    names.all fun name => (JsonVal.field fields name).isSome

/-- The native query of a question as the old normal form had it. -/
def isLegacyQuery (legacy : JsonVal) : Bool :=
  match legacy with
  | .obj query =>
      match JsonVal.getD query "native" with
      | .obj native =>
          sameNames query ["database", "type", "native"] &&
            sameNames native ["query", "template-tags"] &&
            JsonVal.getD query "type" = .null &&
            (JsonVal.obj native).Equal (.obj [("query", .null), ("template-tags", .obj [])])
      | _ => false
  | _ => false

/-- The rest of an old checkpoint is that of the content now. -/
def legacyMatches (old : Fields) (actual : JsonVal) : Sync Bool := do
  let query ← py (actual.index "dataset_query")
  let database ← py ((JsonVal.getD old "dataset_query").get "database")
  if ¬database.Equal (← py (query.index "database")) then pure false
  else
    let fields ← dictOf actual
    pure ((fields.all fun entry => entry.1 = "dataset_query" ||
      decide ((JsonVal.getD old entry.1).Equal entry.2)) && sameNames old (fields.map Prod.fst))

/-- `is_legacy_read_checkpoint` -/
def isLegacyReadCheckpoint (hashValue : JsonVal → String) (record actual want : JsonVal) : Sync Bool := do
  match ← py (record.get "remote") with
  | .obj old =>
      let recorded ← py (record.get "remote_hash")
      if (JsonVal.str (hashValue (.obj old))).Equal recorded ∧
          isLegacyQuery (JsonVal.getD old "dataset_query") ∧ actual.Equal want then
        legacyMatches old actual
      else pure false
  | _ => pure false

/-- What can be told of a call that gave a value. -/
theorem py_eq_ok {α : Type} {x : Except Py.Exc α} {a : α} (h : py x = .ok a) : x = .ok a := by
  cases x with
  | error e => cases h
  | ok b => rw [show b = a from Except.ok.inj h]

end Sahabino
