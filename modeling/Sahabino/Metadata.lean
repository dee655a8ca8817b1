import Sahabino.Lib.Calendar
import Sahabino.Lib.Json
import Sahabino.Lib.Noted
import Sahabino.Lib.Substring

/-!
# Private metadata manifests

`metadata.py` up to its reports: what `validate_experiment` and
`validate_release` make of a manifest, with every error they note. A row
of a report is the entry of the manifest, in front of which the checked
values are written.

The parsers of the standard library and its digest are parameters
(`Stdlib`): nothing below depends on what they accept.
-/

namespace Sahabino

open Py (JsonVal Date DateTime)
open Noted (note noteIf)

/-! ## Fields -/

def experimentFields : List String :=
  ["capture_id", "experiment_id", "session_id", "trial_number", "pair_id", "application_package",
    "scenario", "capture_started_at_utc", "capture_finished_at_utc", "transfer_completed",
    "test_file_sha256", "test_file_size_bytes", "app_version", "device_model", "android_version",
    "network_type", "network_profile", "capture_tool", "capture_tool_version",
    "capture_isolation_confirmed", "cache_cleared_or_download_verified", "protocol_notes",
    "validation_notes", "experiment_phase"]

def experimentReportFields : List String :=
  ["capture_id", "experiment_id", "session_id", "trial_number", "pair_id", "comparison_cohort_id",
    "file_cohort_id", "application_package", "scenario", "capture_started_at_utc",
    "capture_finished_at_utc", "transfer_completed", "test_file_size_bytes", "app_version",
    "device_model", "android_version", "network_type", "network_profile", "capture_tool",
    "capture_tool_version", "capture_isolation_confirmed", "cache_cleared_or_download_verified",
    "experiment_phase"]

def releaseFields : List String :=
  ["release_event_id", "application_package", "previous_version", "new_version", "release_date",
    "release_date_precision", "release_date_source", "release_evidence_reference",
    "release_date_verified", "baseline_start", "baseline_end", "followup_start", "followup_end",
    "transition_period_start", "transition_period_end", "experiment_id_before",
    "experiment_id_after", "notes"]

def releaseReportFields : List String :=
  ["release_event_id", "application_package", "previous_version", "new_version", "release_date",
    "release_date_precision", "release_date_verified", "baseline_start", "baseline_end",
    "followup_start", "followup_end", "transition_period_start", "transition_period_end",
    "experiment_id_before", "experiment_id_after"]

def expMarkers : String × String :=
  ("/*__EXPERIMENT_ROWS_START__*/", "/*__EXPERIMENT_ROWS_END__*/")

def relMarkers : String × String := ("/*__RELEASE_ROWS_START__*/", "/*__RELEASE_ROWS_END__*/")

def capMarkers : String × String :=
  ("/*__CAPABILITY_ROWS_START__*/", "/*__CAPABILITY_ROWS_END__*/")

def sentMarkers : String × String :=
  ("/*__SENTIMENT_COLUMNS_START__*/", "/*__SENTIMENT_COLUMNS_END__*/")

def optionalNetworkMarkers : String × String :=
  ("/*__OPTIONAL_NETWORK_START__*/", "/*__OPTIONAL_NETWORK_END__*/")

/-- The texts that `_reject_template_controls` looks for. -/
def forbidden : List String :=
  ["\x00", "\x7b\x7b", "\x7d\x7d", "[[", "]]", expMarkers.1, expMarkers.2, relMarkers.1,
    relMarkers.2, capMarkers.1, capMarkers.2, sentMarkers.1, sentMarkers.2,
    optionalNetworkMarkers.1, optionalNetworkMarkers.2]

/-! ## Values -/

inductive MetadataRaise where
  | metadataError (text : String)
  | python (e : Py.Exc)
deriving DecidableEq

/-- The digits of a `uuid.UUID`. -/
structure UuidDigits where
  digits : Fin 32 → Fin 16

def hexDigit (d : Fin 16) : Char := Nat.digitChar d

/-- `str(u)`. -/
def UuidDigits.text (u : UuidDigits) : List Char :=
  (List.finRange 32).flatMap fun i =>
    if i.val = 8 ∨ i.val = 12 ∨ i.val = 16 ∨ i.val = 20 then ['-', hexDigit (u.digits i)]
    else [hexDigit (u.digits i)]

/-- The functions of the standard library that are not spelt out. -/
structure Stdlib where
  /-- `uuid.UUID(text)` -/
  uuid : String → Option UuidDigits
  /-- `datetime.fromisoformat(text)`: the time on the clock, and its offset from UTC -/
  datetime : String → Option (DateTime × Option ℤ)
  /-- `date.fromisoformat(text)` -/
  date : String → Option Date
  /-- `hashlib.sha256(text.encode()).hexdigest()` -/
  sha256 : String → Fin 64 → Fin 16
  /-- `text.lower()` -/
  lower : String → String
  /-- `str(value)` of a list or a dict -/
  repr : JsonVal → String

def Stdlib.str (lib : Stdlib) (value : JsonVal) : String := value.toText lib.repr

/-- What a row of a report holds. -/
inductive Cell where
  | json (j : JsonVal)
  | date (d : Date)
  | datetime (t : DateTime)
deriving DecidableEq

namespace Cell

def Same : Cell → Cell → Prop
  | json a, json b => JsonVal.Same a b
  | v, w => v = w

instance : ∀ v w : Cell, Decidable (Same v w)
  | json a, json b => inferInstanceAs (Decidable (JsonVal.Same a b))
  | json a, date d => inferInstanceAs (Decidable (json a = date d))
  | json a, datetime t => inferInstanceAs (Decidable (json a = datetime t))
  | date d, w => inferInstanceAs (Decidable (date d = w))
  | datetime t, w => inferInstanceAs (Decidable (datetime t = w))

/-- `v == w` -/
def Equal : Cell → Cell → Prop
  | json a, json b => JsonVal.Equal a b
  | v, w => v = w

instance : ∀ v w : Cell, Decidable (Equal v w)
  | json a, json b => inferInstanceAs (Decidable (JsonVal.Equal a b))
  | json a, date d => inferInstanceAs (Decidable (json a = date d))
  | json a, datetime t => inferInstanceAs (Decidable (json a = datetime t))
  | date d, w => inferInstanceAs (Decidable (date d = w))
  | datetime t, w => inferInstanceAs (Decidable (datetime t = w))

def hashable : Cell → Bool
  | json j => j.hashable
  | _ => true

def truthy : Cell → Bool
  | json j => j.truthy
  | _ => true

def null : Cell := json .null

def ofDate : Option Date → Cell
  | some d => date d
  | none => null

def ofDateTime : Option DateTime → Cell
  | some t => datetime t
  | none => null

end Cell

abbrev Fields := List (String × JsonVal)

abbrev ReportRow := List (String × Cell)

namespace ReportRow

/-- `row.get(name)` -/
def get (row : ReportRow) (name : String) : Cell := (row.lookup name).getD .null

def set (row : ReportRow) (name : String) (value : Cell) : ReportRow := (name, value) :: row

def getDate (row : ReportRow) (name : String) : Option Date :=
  match row.get name with
  | .date d => some d
  | _ => none

end ReportRow

/-- `dict(raw)` -/
def rowOf (raw : Fields) : ReportRow := raw.map fun entry => (entry.1, .json entry.2)

structure ValidationReport where
  kind : String
  source : String
  records : List ReportRow
  errors : List String
  warnings : List String
  dbChecksRun : Bool

def ValidationReport.valid (report : ValidationReport) : Prop := report.errors = []

instance (report : ValidationReport) : Decidable report.valid :=
  inferInstanceAs (Decidable (report.errors = []))

/-! ## Checks of one value -/

abbrev Checked := Noted MetadataRaise

/-- A file that a path names. -/
inductive ManifestFile where
  /-- a symbolic link, or not a regular file -/
  | irregular
  /-- `OSError` or `JSONDecodeError` -/
  | unreadable
  /-- reading it raises something else -/
  | failing (e : Py.Exc)
  | content (name : String) (payload : JsonVal)

/-- `_load` -/
def load (file : Option ManifestFile) (kind : String) :
    Except MetadataRaise (Option Fields × String) :=
  match file with
  | none => .ok (none, kind ++ ":not-supplied")
  | some .irregular => .error (.metadataError (kind ++ " manifest must be a regular non-symlink file"))
  | some .unreadable => .error (.metadataError (kind ++ " manifest is not readable valid JSON"))
  | some (.failing e) => .error (.python e)
  | some (.content name (.obj payload)) =>
      if (JsonVal.getD payload "schema_version").Equal (.int 1) then .ok (some payload, name)
      else .error (.metadataError (kind ++ " manifest schema_version must be 1"))
  | some (.content _ _) => .error (.metadataError (kind ++ " manifest schema_version must be 1"))

/-- `value in (None, "")` -/
def isAbsent (value : JsonVal) : Bool := value = .null || value = .str ""

/-- `_uuid` -/
def uuidField (lib : Stdlib) (value : JsonVal) (label : String) (required : Bool) : Checked JsonVal :=
  if isAbsent value ∧ ¬required then pure .null
  else
    match lib.uuid (lib.str value) with
    | some u => pure (.str (String.ofList u.text))
    | none => do
        note (label ++ ": invalid UUID")
        pure .null

/-- `_utc` -/
def utcTime (lib : Stdlib) (value : JsonVal) (label : String) : Checked (Option DateTime) :=
  let text := Py.replace ['Z'] "+00:00".toList (lib.str value).toList
  match lib.datetime (String.ofList text) with
  | some (t, some 0) => pure (some t)
  | _ => do
      note (label ++ ": timestamp must be ISO-8601 UTC")
      pure none

/-- `_date` -/
def date (lib : Stdlib) (value : JsonVal) (label : String) (required : Bool) : Checked (Option Date) :=
  if isAbsent value ∧ ¬required then pure none
  else
    match lib.date (lib.str value) with
    | some d => pure (some d)
    | none => do
        note (label ++ ": invalid ISO date")
        pure none

/-- `_boolean` -/
def boolean (value : JsonVal) (label : String) : Checked Bool :=
  match value with
  | .bool b => pure b
  | _ => do
      note (label ++ ": must be JSON true or false")
      pure false

/-- `try: int(value)`, which has to be at least one. -/
def positive (value : JsonVal) (text : String) : Checked JsonVal :=
  match value.toInt with
  | .ok n =>
      if n < 1 then do
        note text
        pure .null
      else pure (.int n)
  | .error .overflowError => Noted.raise (.python .overflowError)
  | .error _ => do
      note text
      pure .null

/-- `any(token in value for token in forbidden)` -/
def hasForbidden (s : List Char) : Bool :=
  forbidden.any fun token => (Py.find token.toList s).isSome

/-- `_reject_template_controls` -/
def rejectTemplateControls (raw : Fields) (place : String) : Checked Unit :=
  raw.forM fun entry =>
    match entry.2 with
    | .str value =>
        noteIf (hasForbidden value.toList)
          (place ++ "." ++ entry.1 ++ ": contains reserved SQL/template control text")
    | _ => pure ()

/-- `_opaque_id` -/
def opaqueId (lib : Stdlib) (kind : String) (values : List String) : String :=
  let digest := lib.sha256 ("\x1f".intercalate values)
  kind ++ "_" ++ String.ofList (((List.finRange 64).take 20).map fun i => hexDigit (digest i))

def isPackageChar (c : Char) : Bool := c.isAlphanum || c = '_'

/-- `PACKAGE.fullmatch(s)`: words with dots between them, at least two. -/
def isPackage (s : List Char) : Bool :=
  let parts := s.splitOn '.'
  2 ≤ parts.length && parts.all fun part => part ≠ [] && part.all isPackageChar

def isHexChar (c : Char) : Bool := c.isDigit || ('a' ≤ c && c ≤ 'f') || ('A' ≤ c && c ≤ 'F')

/-- `HEX64.fullmatch(s)` -/
def isHex64 (s : List Char) : Bool := s.length = 64 && s.all isHexChar

/-- `isinstance(value, str) and value.strip()` -/
def isFilled : JsonVal → Bool
  | .str s => Py.strip s.toList ≠ []
  | _ => false

/-- The non-empty texts of an array that has nothing else. -/
def textArray : JsonVal → Option (List String)
  | .arr [] => none
  | .arr items => items.mapM fun item =>
      match item with
      | .str s => if s ≠ "" then some s else none
      | _ => none
  | _ => none

def allowed (value : JsonVal) (text : String) : Checked (List String) :=
  match textArray value with
  | some texts => pure texts
  | none => do
      note text
      pure []

/-- `raw[name] not in names` for texts. -/
def isOneOf (names : List String) : JsonVal → Bool
  | .str s => names.contains s
  | _ => false

def numbered {α : Type} (items : List α) : List (Nat × α) := (List.range' 1 items.length).zip items

/-! ## Experiments -/

abbrev Cohort := String × String

/-- `tuple(sorted(cohort))` -/
def sortedCohort (p q : String) : Cohort := if q < p then (q, p) else (p, q)

def cohortStep (cohorts : List Cohort) (entry : Nat × JsonVal) : Checked (List Cohort) :=
  let place := "allowed_comparison_cohorts[" ++ toString entry.1 ++ "]"
  let refuse : Checked (List Cohort) := do
    note (place ++ ": expected two distinct package identifiers")
    pure cohorts
  match entry.2 with
  | .arr [.str p, .str q] =>
      if p ≠ q ∧ isPackage p.toList ∧ isPackage q.toList then do
        noteIf (sortedCohort p q ∈ cohorts) (place ++ ": duplicate cohort")
        pure (sortedCohort p q :: cohorts)
      else refuse
  | .arr [a, b] =>
      -- `set(cohort)`
      if a.hashable ∧ b.hashable then refuse else Noted.raise (.python .typeError)
  | _ => refuse

def allowedCohorts (value : JsonVal) : Checked (List Cohort) :=
  match value with
  | .arr (item :: items) => (numbered (item :: items)).foldlM cohortStep []
  | _ => do
      note "allowed_comparison_cohorts must be a non-empty array of two-package arrays"
      pure []

/-- The texts that a capture has to give. -/
def captureTexts : List String :=
  ["application_package", "scenario", "app_version", "device_model", "android_version",
    "network_type", "network_profile", "capture_tool", "capture_tool_version", "protocol_notes",
    "validation_notes"]

/-- The checks of one capture that do not depend on the others. -/
def captureRow (lib : Stdlib) (devices profiles : List String) (place : String) (raw : Fields) :
    Checked ReportRow := do
  let field := JsonVal.getD raw
  rejectTemplateControls raw place
  let captureId ← uuidField lib (field "capture_id") (place ++ ".capture_id") true
  let experimentId ← uuidField lib (field "experiment_id") (place ++ ".experiment_id") true
  let sessionId ← uuidField lib (field "session_id") (place ++ ".session_id") true
  let pairId ← uuidField lib (field "pair_id") (place ++ ".pair_id") false
  let trialNumber ←
    positive (field "trial_number") (place ++ ".trial_number: must be a positive integer")
  let size ← positive (field "test_file_size_bytes") (place ++ ".test_file_size_bytes: must be positive")
  let started ← utcTime lib (field "capture_started_at_utc") (place ++ ".capture_started_at_utc")
  let finished ← utcTime lib (field "capture_finished_at_utc") (place ++ ".capture_finished_at_utc")
  noteIf (∃ s ∈ started, ∃ f ∈ finished, f ≤ s) (place ++ ": capture finish must be after start")
  let completed ← boolean (field "transfer_completed") (place ++ ".transfer_completed")
  let isolated ←
    boolean (field "capture_isolation_confirmed") (place ++ ".capture_isolation_confirmed")
  let verified ← boolean (field "cache_cleared_or_download_verified")
    (place ++ ".cache_cleared_or_download_verified")
  noteIf (field "transfer_completed" = .bool false)
    (place ++ ".transfer_completed: incomplete transfers are excluded")
  noteIf (field "capture_isolation_confirmed" = .bool false)
    (place ++ ".capture_isolation_confirmed: required provenance is unconfirmed")
  noteIf (field "cache_cleared_or_download_verified" = .bool false)
    (place ++ ".cache_cleared_or_download_verified: required transfer provenance is unconfirmed")
  noteIf (¬isOneOf ["upload", "download"] (field "scenario"))
    (place ++ ".scenario: unsupported action; expected upload or download")
  noteIf (¬isOneOf ["baseline", "followup", "ordinary"] (field "experiment_phase"))
    (place ++ ".experiment_phase: unsupported phase")
  noteIf (¬isPackage (lib.str (field "application_package")).toList)
    (place ++ ".application_package: invalid package identifier")
  noteIf (field "application_package" = .str "ir.rightel.myrightel")
    (place ++ ".application_package: deliberate MyRightel fixture is excluded")
  noteIf (¬isHex64 (lib.str (field "test_file_sha256")).toList)
    (place ++ ".test_file_sha256: expected 64 hexadecimal characters")
  let fileCohortId :=
    opaqueId lib "file" [lib.lower (lib.str (field "test_file_sha256")), lib.str size]
  noteIf (¬isOneOf devices (field "device_model"))
    (place ++ ".device_model: not in allowed_device_models")
  noteIf (¬isOneOf profiles (field "network_profile"))
    (place ++ ".network_profile: not in allowed_network_profiles")
  captureTexts.forM fun name =>
    noteIf (¬isFilled (field name)) (place ++ "." ++ name ++ ": required non-empty string")
  pure ([("file_cohort_id", .json (.str fileCohortId)),
    ("cache_cleared_or_download_verified", .json (.bool verified)),
    ("capture_isolation_confirmed", .json (.bool isolated)),
    ("transfer_completed", .json (.bool completed)),
    ("capture_finished_at_utc", .ofDateTime finished),
    ("capture_started_at_utc", .ofDateTime started),
    ("test_file_size_bytes", .json size),
    ("trial_number", .json trialNumber),
    ("pair_id", .json pairId),
    ("session_id", .json sessionId),
    ("experiment_id", .json experimentId),
    ("capture_id", .json captureId),
    ("comparison_cohort_id", .null)] ++ rowOf raw)

structure CaptureState where
  seenCapture : List Cell
  seenTrial : List (List Cell)
  /-- for every pair its captures, as positions among the rows -/
  pairs : List (String × List Nat)
  normalized : List ReportRow

/-- What makes a comparison condition. -/
def trialFields : List String :=
  ["experiment_id", "session_id", "application_package", "scenario", "file_cohort_id",
    "device_model", "android_version", "network_type", "network_profile", "app_version",
    "trial_number"]

/-- `pairs.setdefault(pair_id, []).append(...)` -/
def addToPair (id : String) (i : Nat) : List (String × List Nat) → List (String × List Nat)
  | [] => [(id, [i])]
  | (id', members) :: pairs =>
      if id' = id then (id', members ++ [i]) :: pairs else (id', members) :: addToPair id i pairs

/-- `hash(key)` -/
def hashKey (key : List Cell) : Checked Unit :=
  if key.all Cell.hashable then pure () else Noted.raise (.python .typeError)

def captureStep (lib : Stdlib) (devices profiles : List String) (st : CaptureState)
    (entry : Nat × JsonVal) : Checked CaptureState :=
  let place := "capture[" ++ toString entry.1 ++ "]"
  match entry.2 with
  | .obj raw =>
      let missing := experimentFields.filter fun name => (JsonVal.field raw name).isNone
      if missing ≠ [] then do
        note (place ++ ": missing fields " ++ ",".intercalate missing)
        pure st
      else do
        let row ← captureRow lib devices profiles place raw
        noteIf (∃ id ∈ st.seenCapture, id.Same (row.get "capture_id"))
          (place ++ ".capture_id: duplicate")
        let trialKey := trialFields.map row.get
        hashKey trialKey
        noteIf (∃ key ∈ st.seenTrial, List.Forall₂ Cell.Same key trialKey)
          (place ++ ": duplicate trial within the exact comparison condition")
        let pairs :=
          match row.get "pair_id" with
          | .json (.str id) => if id ≠ "" then addToPair id st.normalized.length st.pairs else st.pairs
          | _ => st.pairs
        pure ⟨row.get "capture_id" :: st.seenCapture, trialKey :: st.seenTrial, pairs,
          st.normalized ++ [row]⟩
  | _ => do
      note (place ++ ": must be an object")
      pure st

def equalFields : List String :=
  ["experiment_id", "trial_number", "scenario", "test_file_sha256", "test_file_size_bytes",
    "device_model", "android_version", "network_type", "network_profile", "session_id",
    "capture_tool", "capture_tool_version", "experiment_phase"]

/-- `sorted((a, b))` of two packages, which have been hashed before. -/
def sortedPackages : Cell → Cell → Except Py.Exc (Cell × Cell)
  | .json a, .json b => (JsonVal.less b a).map fun swap => if swap then (.json b, .json a) else (.json a, .json b)
  | _, _ => .error .typeError

def pairStep (lib : Stdlib) (cohorts : List Cohort) (rows : List ReportRow) (pair : String × List Nat) :
    Checked (List ReportRow) :=
  let place := "pair " ++ pair.1
  match pair.2 with
  | [i, j] => do
      let a := rows.getD i []
      let b := rows.getD j []
      noteIf (∃ name ∈ equalFields, ¬(a.get name).Equal (b.get name))
        (place ++ ": comparison conditions differ")
      let cohort ← Noted.lift ((sortedPackages (a.get "application_package")
        (b.get "application_package")).mapError .python)
      if (a.get "application_package").Equal (b.get "application_package") then do
        note (place ++ ": paired applications must differ")
        pure rows
      else
        match cohort with
        | (.json (.str p), .json (.str q)) =>
            if (p, q) ∈ cohorts then
              let cohortId := Cell.json (.str (opaqueId lib "cohort" [p, q]))
              let mark := fun row : ReportRow => row.set "comparison_cohort_id" cohortId
              pure ((rows.modify i mark).modify j mark)
            else do
              note (place ++ ": applications are not an allowed comparison cohort")
              pure rows
        | _ => do
            note (place ++ ": applications are not an allowed comparison cohort")
            pure rows
  | _ => do
      note (place ++ ": must contain exactly two captures")
      pure rows

/-- `by_id.get(...)`: the last record with this id. -/
def recordOf (lib : Stdlib) (records : List Fields) : Cell → Fields
  | .json (.str id) =>
      (records.reverse.find? fun x => lib.str (JsonVal.getD x "capture_id") = id).getD []
  | _ => []

def dbStep (lib : Stdlib) (records : List Fields) (entry : Nat × ReportRow) : Checked Unit :=
  let place := "capture[" ++ toString entry.1 ++ "]"
  let row := entry.2
  let db := recordOf lib records (row.get "capture_id")
  let field := fun name => Cell.json (JsonVal.getD db name)
  if db = [] then note (place ++ ": capture_id absent from database")
  else do
    noteIf (¬(field "package_name").Equal (row.get "application_package"))
      (place ++ ": database application attribution mismatch")
    noteIf (¬(field "scenario").Equal (row.get "scenario")) (place ++ ": database scenario mismatch")
    let stored := JsonVal.getD db "transfer_file_size_bytes"
    let size ← Noted.lift (((if stored.truthy then stored else .int (-1)).toInt).mapError .python)
    noteIf (¬(Cell.json (.int size)).Equal (row.get "test_file_size_bytes"))
      (place ++ ": capture/manifest transfer size mismatch")
    noteIf (¬(field "status").Equal (.json (.str "analyzed")) ∨ ¬(row.get "transfer_completed").truthy)
      (place ++ ": transfer or analysis is incomplete")

/-- What a check of a manifest gives besides errors. -/
structure ReportOutcome where
  records : List ReportRow
  warnings : List String
  dbChecksRun : Bool

def experimentOutcome (lib : Stdlib) (payload : Fields) (dbRecords : Option (List Fields)) :
    Checked ReportOutcome :=
  match JsonVal.getD payload "captures" with
  | .arr captures => do
      let devices ← allowed (JsonVal.getD payload "allowed_device_models")
        "allowed_device_models must be a non-empty string array"
      let profiles ← allowed (JsonVal.getD payload "allowed_network_profiles")
        "allowed_network_profiles must be a non-empty string array"
      let cohorts ← allowedCohorts (JsonVal.getD payload "allowed_comparison_cohorts")
      let st ← (numbered captures).foldlM (captureStep lib devices profiles) ⟨[], [], [], []⟩
      let rows ← st.pairs.foldlM (pairStep lib cohorts) st.normalized
      match dbRecords with
      | some records => do
          (numbered rows).forM (dbStep lib records)
          pure ⟨rows, [], true⟩
      | none => pure ⟨rows, ["database-aware capture checks were NOT run"], false⟩
  | _ => do
      note "captures must be an array"
      pure ⟨[], [], false⟩

def makeReport (kind source : String) (outcome : Checked ReportOutcome) :
    Except MetadataRaise ValidationReport :=
  match outcome with
  | .ok (o, errors) => .ok ⟨kind, source, o.records, errors, o.warnings, o.dbChecksRun⟩
  | .error e => .error e

def validateExperiment (lib : Stdlib) (file : Option ManifestFile)
    (dbRecords : Option (List Fields)) : Except MetadataRaise ValidationReport :=
  match load file "experiment" with
  | .error e => .error e
  | .ok (none, source) =>
      makeReport "experiment" source (pure ⟨[],
        ["experiment manifest not supplied; typed empty relation will be used"], false⟩)
  | .ok (some payload, source) =>
      makeReport "experiment" source (experimentOutcome lib payload dbRecords)

/-! ## Releases -/

/-- The windows of a release event. -/
structure Windows where
  baselineStart : Option Date
  baselineEnd : Option Date
  followupStart : Option Date
  followupEnd : Option Date
  transitionStart : Option Date
  transitionEnd : Option Date

/-- `d or e`, where `e` may overflow. -/
def orDate (d e : Option Date) : Checked (Option Date) :=
  match d, e with
  | some d, _ => pure (some d)
  | none, some e => pure (some e)
  | none, none => Noted.raise (.python .overflowError)

/-- The windows of an event whose day is known, where the manifest does not give them. -/
def Windows.fill (w : Windows) (release : Date) : Checked Windows := do
  let baselineStart ← orDate w.baselineStart (release.subDays 14)
  let baselineEnd ← orDate w.baselineEnd (release.subDays 1)
  let followupStart ← orDate w.followupStart (release.addDays 1)
  let followupEnd ← orDate w.followupEnd (release.addDays 14)
  let transitionStart ← orDate w.transitionStart (some release)
  let transitionEnd ← orDate w.transitionEnd (some release)
  pure ⟨baselineStart, baselineEnd, followupStart, followupEnd, transitionStart, transitionEnd⟩

def Windows.resolve (w : Windows) (release : Option Date) (verified : Bool) (precision : JsonVal) :
    Checked Windows :=
  match release with
  | some day => if verified ∧ precision = .str "day" then w.fill day else pure w
  | none => pure w

def Windows.check (w : Windows) (release : Option Date) (place : String) : Checked Unit := do
  noteIf (∃ s ∈ w.baselineStart, ∃ e ∈ w.baselineEnd, e < s) (place ++ ": baseline window is reversed")
  noteIf (∃ s ∈ w.followupStart, ∃ e ∈ w.followupEnd, e < s) (place ++ ": followup window is reversed")
  noteIf (∃ r ∈ release, ∃ e ∈ w.baselineEnd, r ≤ e)
    (place ++ ": baseline must end before release date")
  noteIf (∃ r ∈ release, ∃ s ∈ w.followupStart, s ≤ r)
    (place ++ ": followup must start after release date")
  noteIf (∃ s ∈ w.transitionStart, ∃ e ∈ w.transitionEnd, e < s)
    (place ++ ": transition period is reversed")
  noteIf (∃ e ∈ w.baselineEnd, ∃ s ∈ w.transitionStart, s ≤ e)
    (place ++ ": baseline overlaps transition period")
  noteIf (∃ s ∈ w.followupStart, ∃ e ∈ w.transitionEnd, s ≤ e)
    (place ++ ": followup overlaps transition period")

def releaseTexts : List String :=
  ["previous_version", "new_version", "release_date_source", "release_evidence_reference"]

def releaseRow (lib : Stdlib) (seen : List JsonVal) (place : String) (raw : Fields) : Checked ReportRow := do
  let field := JsonVal.getD raw
  rejectTemplateControls raw place
  let eventId ← uuidField lib (field "release_event_id") (place ++ ".release_event_id") true
  noteIf (eventId ∈ seen) (place ++ ".release_event_id: duplicate")
  let before ← uuidField lib (field "experiment_id_before") (place ++ ".experiment_id_before") false
  let after ← uuidField lib (field "experiment_id_after") (place ++ ".experiment_id_after") false
  let release ← date lib (field "release_date") (place ++ ".release_date") true
  let verified ← boolean (field "release_date_verified") (place ++ ".release_date_verified")
  noteIf (¬isOneOf ["day", "month", "unknown"] (field "release_date_precision"))
    (place ++ ".release_date_precision: expected day, month, or unknown")
  noteIf (¬isPackage (lib.str (field "application_package")).toList)
    (place ++ ".application_package: invalid package identifier")
  noteIf (field "application_package" = .str "ir.rightel.myrightel")
    (place ++ ".application_package: deliberate MyRightel fixture is excluded")
  releaseTexts.forM fun name =>
    noteIf (¬isFilled (field name)) (place ++ "." ++ name ++ ": required non-empty string")
  noteIf ((field "previous_version").Equal (field "new_version"))
    (place ++ ": previous_version and new_version must differ")
  let window := fun name => date lib (field name) (place ++ "." ++ name) false
  let baselineStart ← window "baseline_start"
  let baselineEnd ← window "baseline_end"
  let followupStart ← window "followup_start"
  let followupEnd ← window "followup_end"
  let transitionStart ← window "transition_period_start"
  let transitionEnd ← window "transition_period_end"
  let dates : Windows :=
    ⟨baselineStart, baselineEnd, followupStart, followupEnd, transitionStart, transitionEnd⟩
  let windows ← dates.resolve release verified (field "release_date_precision")
  windows.check release place
  pure ([("transition_period_end", .ofDate windows.transitionEnd),
    ("transition_period_start", .ofDate windows.transitionStart),
    ("followup_end", .ofDate windows.followupEnd),
    ("followup_start", .ofDate windows.followupStart),
    ("baseline_end", .ofDate windows.baselineEnd),
    ("baseline_start", .ofDate windows.baselineStart),
    ("release_date_verified", .json (.bool verified)),
    ("release_date", .ofDate release),
    ("experiment_id_after", .json after),
    ("experiment_id_before", .json before),
    ("release_event_id", .json eventId)] ++ rowOf raw)

structure ReleaseState where
  seen : List JsonVal
  normalized : List ReportRow

def releaseStep (lib : Stdlib) (st : ReleaseState) (entry : Nat × JsonVal) : Checked ReleaseState :=
  let place := "release_event[" ++ toString entry.1 ++ "]"
  match entry.2 with
  | .obj raw =>
      let missing := releaseFields.filter fun name => (JsonVal.field raw name).isNone
      if missing ≠ [] then do
        note (place ++ ": missing fields " ++ ",".intercalate missing)
        pure st
      else do
        let row ← releaseRow lib st.seen place raw
        match row.get "release_event_id" with
        | .json id => pure ⟨id :: st.seen, st.normalized ++ [row]⟩
        | _ => pure ⟨st.seen, st.normalized ++ [row]⟩
  | _ => do
      note (place ++ ": must be an object")
      pure st

/-- The analysis windows of two events have a day in common. -/
def overlaps (left right : ReportRow) : Prop :=
  ∃ s ∈ left.getDate "baseline_start", ∃ e ∈ left.getDate "followup_end",
    ∃ s' ∈ right.getDate "baseline_start", ∃ e' ∈ right.getDate "followup_end", s ≤ e' ∧ s' ≤ e

instance (left right : ReportRow) : Decidable (overlaps left right) := by
  unfold overlaps
  infer_instance

def overlapCheck : List ReportRow → Checked Unit
  | [] => pure ()
  | left :: rest => do
      rest.forM fun right =>
        noteIf ((left.get "application_package").Equal (right.get "application_package") ∧
          overlaps left right) "release events for one application have overlapping analysis windows"
      overlapCheck rest

def releaseOutcome (lib : Stdlib) (payload : Fields) : Checked ReportOutcome :=
  match JsonVal.getD payload "release_events" with
  | .arr events => do
      let st ← (numbered events).foldlM (releaseStep lib) ⟨[], []⟩
      overlapCheck st.normalized
      pure ⟨st.normalized, [], false⟩
  | _ => do
      note "release_events must be an array"
      pure ⟨[], [], false⟩

def validateRelease (lib : Stdlib) (file : Option ManifestFile) :
    Except MetadataRaise ValidationReport :=
  match load file "release" with
  | .error e => .error e
  | .ok (none, source) =>
      makeReport "release" source (pure ⟨[],
        ["release manifest not supplied; typed empty relation will be used"], false⟩)
  | .ok (some payload, source) => makeReport "release" source (releaseOutcome lib payload)

end Sahabino
