import Sahabino.Lib.SqlTokens
import Sahabino.Metadata

/-!
# Compiled SQL

`metadata.py` from the checked reports to SQL: literals, relations of
constants, and the five substitutions that put them into a template
between its markers. Every row of a relation is read by SQL as the words
and the constants it is written with (`reads_rowSelect`).

Texts are lists of characters.
-/

namespace Sahabino

open Py (JsonVal)
open Sql (Token Reads isWord isBreak)

/-! ## Types -/

inductive SqlCast where
  | text
  | uuid
  | integer
  | bigint
  | boolean
  | timestamptz
  | date
deriving DecidableEq

def SqlCast.name : SqlCast → List Char
  | text => "text".toList
  | uuid => "uuid".toList
  | integer => "integer".toList
  | bigint => "bigint".toList
  | boolean => "boolean".toList
  | timestamptz => "timestamptz".toList
  | date => "date".toList

def expTypes (name : String) : SqlCast :=
  if name ∈ ["capture_id", "experiment_id", "session_id", "pair_id"] then .uuid
  else if name = "trial_number" then .integer
  else if name ∈ ["capture_started_at_utc", "capture_finished_at_utc"] then .timestamptz
  else if name = "test_file_size_bytes" then .bigint
  else if name ∈ ["transfer_completed", "capture_isolation_confirmed",
    "cache_cleared_or_download_verified"] then .boolean
  else .text

def relTypes (name : String) : SqlCast :=
  if name ∈ ["release_event_id", "experiment_id_before", "experiment_id_after"] then .uuid
  else if name ∈ ["release_date", "baseline_start", "baseline_end", "followup_start",
    "followup_end", "transition_period_start", "transition_period_end"] then .date
  else if name = "release_date_verified" then .boolean
  else .text

/-! ## Relations of constants -/

/-- `"::" + cast` -/
def castTo (type : SqlCast) : List Char := ':' :: ':' :: type.name

/-- `int(value)` -/
def intOf : Cell → Except MetadataRaise ℤ
  | .json j => j.toInt.mapError .python
  | _ => .error (.python .typeError)

/-- The text of a value that is quoted. -/
def textOf (lib : Stdlib) : Cell → List Char
  | .json j => (lib.str j).toList
  | .date d => Py.replace "+00:00".toList "Z".toList d.isoformat
  | .datetime t => Py.replace "+00:00".toList "Z".toList t.isoformat

/-- `_literal` -/
def literal (lib : Stdlib) (value : Cell) (cast : SqlCast) : Except MetadataRaise (List Char) :=
  if value = .null then .ok ("NULL".toList ++ castTo cast)
  else
    match cast with
    | .bigint | .integer => (intOf value).map fun n => (toString n).toList ++ castTo cast
    | .boolean => .ok ((if value.truthy then "true" else "false").toList ++ castTo cast)
    | _ => .ok ("'".toList ++ Py.replace "'".toList "''".toList (textOf lib value) ++ "'".toList ++
        castTo cast)

/-- `", ".join(items)` and the like. -/
def join (separator : String) (items : List (List Char)) : List Char :=
  separator.toList.intercalate items

def column (literal : List Char) (name : String) : List Char :=
  literal ++ " AS ".toList ++ name.toList

def rowSelect (lib : Stdlib) (fields : List String) (types : String → SqlCast) (row : ReportRow) :
    Except MetadataRaise (List Char) :=
  (fields.mapM fun name => (literal lib (row.get name) (types name)).map (column · name)).map
    fun columns => "SELECT ".toList ++ join ", " columns

def typedSelect (lib : Stdlib) (records : List ReportRow) (fields : List String)
    (types : String → SqlCast) : Except MetadataRaise (List Char) :=
  if records = [] then
    let columns := fields.map fun name => column ("NULL".toList ++ castTo (types name)) name
    .ok ("SELECT ".toList ++ join ", " columns ++ " WHERE false".toList)
  else (records.mapM (rowSelect lib fields types)).map (join "\nUNION ALL\n")

/-! ## Capabilities -/

inductive NetworkState where
  | schemaMissing
  | grantsMissing
  | schemaReady
  | empty
  | dataAvailable
  | comparisonInsufficient
  | comparisonReady
deriving DecidableEq

def NetworkState.text : NetworkState → String
  | schemaMissing => "NETWORK_SCHEMA_MISSING"
  | grantsMissing => "NETWORK_GRANTS_MISSING"
  | schemaReady => "NETWORK_SCHEMA_READY"
  | empty => "NETWORK_EMPTY"
  | dataAvailable => "NETWORK_DATA_AVAILABLE"
  | comparisonInsufficient => "NETWORK_COMPARISON_INSUFFICIENT"
  | comparisonReady => "NETWORK_COMPARISON_READY"

inductive ExperimentState where
  | verifiedAvailable
  | notSupplied
  | networkNotReady
deriving DecidableEq

def ExperimentState.text : ExperimentState → String
  | verifiedAvailable => "VERIFIED_EXPERIMENT_AVAILABLE"
  | notSupplied => "MANIFEST_NOT_SUPPLIED"
  | networkNotReady => "NETWORK_NOT_READY"

inductive ReleaseMetadataState where
  | verifiedAvailable
  | unverified
  | notSupplied
deriving DecidableEq

def ReleaseMetadataState.text : ReleaseMetadataState → String
  | verifiedAvailable => "VERIFIED_RELEASE_METADATA_AVAILABLE"
  | unverified => "RELEASE_METADATA_UNVERIFIED"
  | notSupplied => "MANIFEST_NOT_SUPPLIED"

inductive SentimentState where
  | dataAvailable
  | unavailable
deriving DecidableEq

def SentimentState.text : SentimentState → String
  | dataAvailable => "SENTIMENT_DATA_AVAILABLE"
  | unavailable => "SENTIMENT_UNAVAILABLE"

inductive TopicState where
  | annotationsUnavailable
deriving DecidableEq

def TopicState.text : TopicState → String
  | annotationsUnavailable => "ANNOTATIONS_UNAVAILABLE"

/-- The states that `check_source` and `Sync.run` give; none of them is set in `{}`. -/
structure Capabilities where
  network : Option NetworkState
  experiment : Option ExperimentState
  release : Option ReleaseMetadataState
  sentiment : Option SentimentState
  topic : Option TopicState
deriving DecidableEq

namespace Capabilities

/-- `capabilities.get("network_state") in {...}` -/
def networkReady (c : Capabilities) : Bool :=
  match c.network with
  | some .schemaReady | some .empty | some .dataAvailable | some .comparisonInsufficient
  | some .comparisonReady => true
  | _ => false

def sentimentReady (c : Capabilities) : Bool := c.sentiment = some .dataAvailable

end Capabilities

def capabilityFields : List String :=
  ["network_state", "experiment_state", "release_state", "sentiment_state", "topic_state"]

def stateText {σ : Type} (text : σ → String) (state : Option σ) : Cell :=
  .json (.str ((state.map text).getD "NOT_CHECKED"))

def capabilityRow (c : Capabilities) : ReportRow :=
  [("network_state", stateText NetworkState.text c.network),
    ("experiment_state", stateText ExperimentState.text c.experiment),
    ("release_state", stateText ReleaseMetadataState.text c.release),
    ("sentiment_state", stateText SentimentState.text c.sentiment),
    ("topic_state", stateText TopicState.text c.topic)]

def capabilitySelect (lib : Stdlib) (c : Capabilities) : Except MetadataRaise (List Char) :=
  typedSelect lib [capabilityRow c] capabilityFields fun _ => .text

/-! ## Substitutions -/

/-- The two markers of a pair as they stand in a text: what is before and after the first
occurrence of each, or nothing where neither occurs. -/
def locate (text : List Char) (markers : String × String) :
    Except MetadataRaise (Option ((List Char × List Char) × (List Char × List Char))) :=
  let start := markers.1.toList
  let stop := markers.2.toList
  match Py.find start text, Py.find stop text with
  | none, none => .ok none
  | some atStart, some atStop =>
      if Py.count start text ≠ 1 ∨ Py.count stop text ≠ 1 ∨ atStop.1.length < atStart.1.length then
        .error (.metadataError "SQL compilation markers must be unique and ordered")
      else .ok (some (atStart, atStop))
  | _, _ => .error (.metadataError "unbalanced SQL compilation markers")

/-- `_replace` -/
def replace (text : List Char) (markers : String × String) (replacement : List Char) :
    Except MetadataRaise (List Char) :=
  (locate text markers).map fun found =>
    match found with
    | none => text
    | some ((before, _), (_, after)) =>
        before ++ markers.1.toList ++ '\n' :: replacement ++ '\n' :: markers.2.toList ++ after

/-- `_optional_block` -/
def optionalBlock (text : List Char) (markers : String × String) (enabled : Bool)
    (disabledReplacement : List Char) : Except MetadataRaise (List Char) :=
  (locate text markers).map fun found =>
    match found with
    | none => text
    | some ((before, _), (beforeStop, after)) =>
        let body := (text.take beforeStop.length).drop (before.length + markers.1.toList.length)
        before ++ (if enabled then body else '\n' :: disabledReplacement ++ ['\n']) ++ after

def emptyNetwork : List Char :=
  join "\n" (["network AS (",
    " SELECT NULL::uuid release_event_id,NULL::text application_package,NULL::text scenario,",
    "  NULL::text file_cohort_id,NULL::bigint test_file_size_bytes,NULL::text device_model,",
    "  NULL::text android_version,NULL::text network_type,NULL::text network_profile,",
    "  NULL::text capture_tool,NULL::text capture_tool_version,",
    "  NULL::bigint network_before_manifest_n,NULL::bigint network_after_manifest_n,",
    "  NULL::bigint network_before_observed_n,NULL::bigint network_after_observed_n,",
    "  NULL::bigint network_before_analyzed_n,NULL::bigint network_after_analyzed_n,",
    "  NULL::bigint before_throughput_eligible_n,NULL::bigint after_throughput_eligible_n,",
    "  NULL::bigint before_amplification_eligible_n,NULL::bigint after_amplification_eligible_n,",
    "  NULL::bigint before_recovery_eligible_n,NULL::bigint after_recovery_eligible_n,",
    "  NULL::timestamptz network_latest_source_at WHERE false",
    ")"].map String.toList)

def sentimentColumns (ready : Bool) : List Char :=
  join ", " ((if ready then
      ["ro.sentiment_status::text AS sentiment_status",
        "ro.sentiment_label::text AS sentiment_label",
        "true::boolean AS sentiment_capability_available"]
    else
      ["NULL::text AS sentiment_status", "NULL::text AS sentiment_label",
        "false::boolean AS sentiment_capability_available"]).map String.toList)

def renderSql (lib : Stdlib) (text : List Char) (experiment release : ValidationReport)
    (c : Capabilities) : Except MetadataRaise (List Char) := do
  if ¬experiment.valid ∨ ¬release.valid then
    throw (.metadataError "invalid private metadata cannot be compiled")
  let experimentRows ← typedSelect lib experiment.records experimentReportFields expTypes
  let rendered ← replace text expMarkers experimentRows
  let releaseRows ← typedSelect lib release.records releaseReportFields relTypes
  let rendered ← replace rendered relMarkers releaseRows
  let capabilityRows ← capabilitySelect lib c
  let rendered ← replace rendered capMarkers capabilityRows
  let rendered ← optionalBlock rendered optionalNetworkMarkers c.networkReady emptyNetwork
  replace rendered sentMarkers (sentimentColumns c.sentimentReady)

/-! ## What SQL reads -/

/-- The constant that is written for a value. -/
def literalToken (lib : Stdlib) (value : Cell) (cast : SqlCast) : Token :=
  if value = .null then .word "NULL".toList
  else
    match cast with
    | .bigint | .integer =>
        match intOf value with
        | .ok n => .number (Nat.toDigits 10 n.toNat)
        | .error _ => .symbol '?'
    | .boolean => .word (if value.truthy then "true" else "false").toList
    | _ => .text (textOf lib value)

def columnTokens (lib : Stdlib) (types : String → SqlCast) (row : ReportRow) (name : String) :
    List Token :=
  [literalToken lib (row.get name) (types name), .cast, .word (types name).name, .word "AS".toList,
    .word name.toList]

def rowTokens (lib : Stdlib) (fields : List String) (types : String → SqlCast) (row : ReportRow) :
    List Token :=
  .word "SELECT".toList :: [Token.symbol ','].intercalate (fields.map (columnTokens lib types row))

/-- The tokens of a relation with these rows. -/
def selectTokens (lib : Stdlib) (records : List ReportRow) (fields : List String)
    (types : String → SqlCast) : List Token :=
  if records = [] then rowTokens lib fields types [] ++ [.word "WHERE".toList, .word "false".toList]
  else
    [Token.word "UNION".toList, .word "ALL".toList].intercalate
      (records.map (rowTokens lib fields types))

end Sahabino
