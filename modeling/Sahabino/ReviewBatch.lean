import Mathlib.Data.List.ReduceOption
import Mathlib.Data.String.Basic
import Sahabino.ProxyPool

/-!
# Normalising a batch of reviews

`normalize_review_batch`, and what the two adapters hand to it. An adapter
turns each item of its source into a dict of the fields it needs, or into
a marker if a field cannot be extracted; the batch numbers the records,
normalises each of them on its own, and gives up when too many fail.

The loop keeps two lists and the records it has seen end up in one of
them. What it computes is said without the loop (`normalisations`): one
optional review per record considered, by its position.
-/

namespace Sahabino

/-! ## Records -/

/-- A marker for one source item that could not be extracted. -/
structure InvalidReviewRecord where
  fieldNames : List String
  errorTypes : List String
deriving DecidableEq

/-- What is in a list of records: dicts, markers, and anything else. -/
inductive ReviewRecord (ρ : Type) where
  | dict (raw : ρ)
  | invalid (marker : InvalidReviewRecord)
  | other

structure ReviewIssue where
  sourcePosition : Nat
  fieldNames : List String
  errorTypes : List String
  schemaFailure : Option CrawlerError
deriving DecidableEq

/-- An entry of `ValidationError.errors()`, with its location as texts. -/
structure ValidationDetail where
  loc : List String
  type : Option String

/-- What a normaliser raises: pydantic's `ValidationError`, a `SchemaFailure`, a
`ValueError`, `OverflowError` or `OSError` by its class name, or anything else. -/
inductive NormalizeError where
  | validation (details : List ValidationDetail)
  | schemaFailure (message : String) (retryAfterSeconds : Option ℚ)
  | badValue (className : String)
  | other (error : PyError)

/-- `ReviewNormalizer`; reviews are whatever it makes of a dict. -/
abbrev ReviewNormalizer (ρ δ : Type) := ρ → Nat → Timestamp → Except NormalizeError δ

def maxInvalidReviewPercent : Nat := 5

/-- `_SAFE_REVIEW_FIELDS`. -/
def safeReviewFields : List String :=
  ["record", "external_review_id", "source_at", "author_name", "thumbs_up_count", "score",
    "content", "position", "observed_at", "source_adapter"]

/-- `_SAFE_DIAGNOSTIC_TOKEN`, matched in full. -/
def isSafeDiagnosticToken (s : String) : Bool :=
  s.toList ≠ [] && s.toList.all fun c => c.isAlphanum || c = '_' || c = '.' || c = '-'

def safeFieldName (fieldName : String) : String :=
  if fieldName ∈ safeReviewFields then fieldName else "record"

def safeErrorType (errorType : String) : String :=
  if isSafeDiagnosticToken errorType then errorType else "validation_error"

/-- `invalid_review_record` of an exception of this class. -/
def invalidReviewRecord (fieldName className : String) : InvalidReviewRecord :=
  ⟨[safeFieldName fieldName], [safeErrorType className]⟩

/-- `sorted` of a set of texts. -/
def sortedSet (texts : List String) : List String :=
  texts.dedup.mergeSort fun a b => decide (a.toList ≤ b.toList)

/-- `fields or (default,)`. -/
def orDefault (default : String) : List String → List String
  | [] => [default]
  | fields => fields

def issueFromValidationError (position : Nat) (details : List ValidationDetail) : ReviewIssue where
  sourcePosition := position
  fieldNames := orDefault "record"
    (sortedSet (details.map fun d => safeFieldName (d.loc.headD "record")))
  errorTypes := orDefault "validation_error"
    (sortedSet (details.map fun d => safeErrorType (d.type.getD "validation_error")))
  schemaFailure := none

/-! ## The batch -/

section

variable {ρ δ : Type} (normalize : ReviewNormalizer ρ δ) (observedAt : Timestamp)

/-- The body of the loop: a review or an issue, unless the normaliser raises something
that is not caught. -/
def normalizeRecord (position : Nat) : ReviewRecord ρ → Except PyError (Except ReviewIssue δ)
  | .invalid marker => .ok (.error ⟨position, marker.fieldNames, marker.errorTypes, none⟩)
  | .other => .ok (.error ⟨position, ["record"], ["invalid_record_type"], none⟩)
  | .dict raw =>
      match normalize raw position observedAt with
      | .ok review => .ok (.ok review)
      | .error (.validation details) => .ok (.error (issueFromValidationError position details))
      | .error (.schemaFailure message retryAfterSeconds) =>
          .ok (.error ⟨position, ["source_at"], ["SchemaFailure"],
            some ⟨.schemaFailure, message, false, retryAfterSeconds⟩⟩)
      | .error (.badValue className) => .ok (.error ⟨position, ["source_at"], [className], none⟩)
      | .error (.other error) => .error error

def normalizeRecords : Nat → List (ReviewRecord ρ) → List δ → List ReviewIssue →
    Except PyError (List δ × List ReviewIssue)
  | _, [], accepted, issues => .ok (accepted, issues)
  | position, record :: records, accepted, issues =>
      match normalizeRecord normalize observedAt position record with
      | .ok (.ok review) => normalizeRecords (position + 1) records (accepted ++ [review]) issues
      | .ok (.error issue) => normalizeRecords (position + 1) records accepted (issues ++ [issue])
      | .error error => .error error

def corruptionThresholdExceeded : PyError :=
  .crawler ⟨.schemaFailure, "review batch exceeded the safe corruption threshold", false, none⟩

/-- The failure that a rejected batch raises. -/
def rejection : List ReviewIssue → PyError
  | [⟨_, _, _, some failure⟩] => .crawler failure
  | _ => corruptionThresholdExceeded

/-- `ReviewsDTO(reviews=...)` takes at most this many. -/
def maxReviews : Nat := 1000

/-- `normalize_review_batch`, and the issues it logs. -/
def normalizeReviewBatch (records : List (ReviewRecord ρ)) (effectiveLimit : Nat) :
    Except PyError (List δ) × List ReviewIssue :=
  let considered := records.take effectiveLimit
  match normalizeRecords normalize observedAt 1 considered [] [] with
  | .error error => (.error error, [])
  | .ok (accepted, issues) =>
      if 0 < considered.length ∧ (accepted.length = 0 ∨
          considered.length * maxInvalidReviewPercent < issues.length * 100) then
        (.error (rejection issues), issues)
      else if maxReviews < accepted.length then
        (.error (.other "ValidationError" "reviews: tuple should have at most 1000 items"), issues)
      else (.ok accepted, issues)

/-! ## What it computes -/

/-- What becomes of the record at this position. -/
def normalisation (position : Nat) : ReviewRecord ρ → Option δ
  | .dict raw => (normalize raw position observedAt).toOption
  | _ => none

/-- One entry for each record, numbered from `position` on. -/
def normalisations (position : Nat) (records : List (ReviewRecord ρ)) : List (Option δ) :=
  (records.zipIdx position).map fun r => normalisation normalize observedAt r.2 r.1

/-- The exceptions that skip a record. -/
def NormalizeError.Skips : NormalizeError → Prop
  | .other _ => False
  | _ => True

variable {normalize observedAt}

theorem normalisations_cons {position : Nat} {record : ReviewRecord ρ}
    {records : List (ReviewRecord ρ)} :
    normalisations normalize observedAt position (record :: records) =
      normalisation normalize observedAt position record ::
        normalisations normalize observedAt (position + 1) records := rfl

/-- A record is normalised or gives an issue. -/
theorem normalizeRecord_cases
    (hskips : ∀ raw position error, normalize raw position observedAt = .error error →
      error.Skips) (position : Nat) (record : ReviewRecord ρ) :
    (∃ review, normalizeRecord normalize observedAt position record = .ok (.ok review) ∧
      normalisation normalize observedAt position record = some review) ∨
    ∃ issue, normalizeRecord normalize observedAt position record = .ok (.error issue) ∧
      normalisation normalize observedAt position record = none ∧
      ∀ failure, issue.schemaFailure = some failure → failure.cls = .schemaFailure := by
  cases record with
  | invalid marker => exact Or.inr ⟨_, rfl, rfl, nofun⟩
  | other => exact Or.inr ⟨_, rfl, rfl, nofun⟩
  | dict raw =>
      simp only [normalizeRecord, normalisation]
      cases hresult : normalize raw position observedAt with
      | ok review => exact Or.inl ⟨review, rfl, rfl⟩
      | error error =>
          cases error with
          | validation details => exact Or.inr ⟨_, rfl, rfl, nofun⟩
          | schemaFailure message retryAfterSeconds =>
              refine Or.inr ⟨_, rfl, rfl, fun failure hfailure => ?_⟩
              obtain rfl := Option.some.inj hfailure
              rfl
          | badValue className => exact Or.inr ⟨_, rfl, rfl, nofun⟩
          | other error => exact (hskips raw position _ hresult).elim

/-- The loop adds the reviews of the records in their order, and an issue for each of
the others. -/
theorem normalizeRecords_spec
    (hskips : ∀ raw position error, normalize raw position observedAt = .error error →
      error.Skips) (records : List (ReviewRecord ρ)) :
    ∀ (position : Nat) (accepted : List δ) (issues : List ReviewIssue), ∃ issues',
      normalizeRecords normalize observedAt position records accepted issues =
        .ok (accepted ++ (normalisations normalize observedAt position records).reduceOption,
          issues ++ issues') ∧
      issues'.length =
        (normalisations normalize observedAt position records).countP Option.isNone ∧
      ∀ issue ∈ issues', ∀ failure, issue.schemaFailure = some failure →
        failure.cls = .schemaFailure := by
  induction records with
  | nil =>
      intro position accepted issues
      refine ⟨[], ?_, rfl, nofun⟩
      simp [normalizeRecords, normalisations]
  | cons record records ih =>
      intro position accepted issues
      rcases normalizeRecord_cases hskips position record with ⟨review, hrecord, hnormal⟩ |
        ⟨issue, hrecord, hnormal, hschema⟩
      · obtain ⟨issues', hloop, hlength, hall⟩ := ih (position + 1) (accepted ++ [review]) issues
        refine ⟨issues', ?_, ?_, hall⟩
        · rw [normalizeRecords, hrecord, normalisations_cons, hnormal]
          simp only [hloop, List.reduceOption_cons_of_some, List.append_assoc,
            List.singleton_append]
        · rw [hlength, normalisations_cons, hnormal, List.countP_cons_of_neg (by simp)]
      · obtain ⟨issues', hloop, hlength, hall⟩ := ih (position + 1) accepted (issues ++ [issue])
        refine ⟨issue :: issues', ?_, ?_, fun i hi => ?_⟩
        · rw [normalizeRecords, hrecord, normalisations_cons, hnormal]
          simp only [hloop, List.reduceOption_cons_of_none, List.append_assoc,
            List.singleton_append]
        · rw [List.length_cons, hlength, normalisations_cons, hnormal,
            List.countP_cons_of_pos (by simp)]
        · rcases List.mem_cons.mp hi with rfl | hi
          · exact hschema
          · exact hall i hi

theorem rejection_schemaFailure {issues : List ReviewIssue}
    (hall : ∀ issue ∈ issues, ∀ failure, issue.schemaFailure = some failure →
      failure.cls = .schemaFailure) :
    ∃ failure, rejection issues = .crawler failure ∧ failure.cls = .schemaFailure := by
  unfold rejection
  split
  · rename_i failure
    exact ⟨failure, rfl, hall _ (List.mem_singleton_self _) failure rfl⟩
  · exact ⟨_, rfl, rfl⟩

theorem length_reduceOption_add_countP {α : Type} (xs : List (Option α)) :
    xs.reduceOption.length + xs.countP Option.isNone = xs.length := by
  induction xs with
  | nil => rfl
  | cons x xs ih =>
      cases x with
      | none =>
          rw [List.reduceOption_cons_of_none, List.countP_cons_of_pos rfl, List.length_cons, ← ih,
            Nat.add_assoc]
      | some x =>
          rw [List.reduceOption_cons_of_some, List.countP_cons_of_neg Bool.false_ne_true,
            List.length_cons, List.length_cons, ← ih]
          omega

@[simp] theorem length_normalisations {position : Nat} {records : List (ReviewRecord ρ)} :
    (normalisations normalize observedAt position records).length = records.length := by
  simp [normalisations]

/-- The batch without its loop. -/
theorem normalizeReviewBatch_eq
    (hskips : ∀ raw position error, normalize raw position observedAt = .error error →
      error.Skips)
    {effectiveLimit : Nat} (hlimit : effectiveLimit ≤ 1000) (records : List (ReviewRecord ρ))
    {n s : Nat} (hn : n = (records.take effectiveLimit).length)
    (hs : s = (normalisations normalize observedAt 1 (records.take effectiveLimit)).countP
      Option.isNone) :
    ∃ issues : List ReviewIssue, (∀ issue ∈ issues, ∀ failure,
        issue.schemaFailure = some failure → failure.cls = .schemaFailure) ∧
      normalizeReviewBatch normalize observedAt records effectiveLimit =
        if 0 < n ∧ (s = n ∨ 5 * n < 100 * s) then (.error (rejection issues), issues)
        else (.ok (normalisations normalize observedAt 1
          (records.take effectiveLimit)).reduceOption, issues) := by
  obtain ⟨issues, hloop, hlength, hall⟩ :=
    normalizeRecords_spec hskips (records.take effectiveLimit) 1 [] []
  have hcount := length_reduceOption_add_countP
    (normalisations normalize observedAt 1 (records.take effectiveLimit))
  rw [length_normalisations, ← hs, ← hn] at hcount
  have hle : n ≤ effectiveLimit := hn ▸ List.length_take_le _ _
  rw [← hs] at hlength
  refine ⟨issues, hall, ?_⟩
  unfold normalizeReviewBatch
  simp only [hloop, List.nil_append, hlength, ← hn, maxInvalidReviewPercent]
  by_cases hreject : 0 < n ∧ (s = n ∨ 5 * n < 100 * s)
  · rw [if_pos hreject, if_pos (by omega)]
  · rw [if_neg hreject, if_neg (by omega), if_neg (by rw [maxReviews]; omega)]

/-- With `s` of `n` considered records that cannot be normalised, a batch is rejected when
there are records and all of them or more than five percent of them are bad; otherwise it
gives the reviews of the others, in order, each made at its own position. -/
theorem normalizeReviewBatch_spec (normalize : ReviewNormalizer ρ δ) (observedAt : Timestamp)
    (hskips : ∀ raw position error, normalize raw position observedAt = .error error →
      error.Skips)
    {effectiveLimit : Nat} (hlimit : 1 ≤ effectiveLimit ∧ effectiveLimit ≤ 1000)
    (records : List (ReviewRecord ρ)) (n s : Nat)
    (hn : n = (records.take effectiveLimit).length)
    (hs : s = (normalisations normalize observedAt 1 (records.take effectiveLimit)).countP
      Option.isNone) :
    ((∃ failure, failure.cls = .schemaFailure ∧
        (normalizeReviewBatch normalize observedAt records effectiveLimit).1 =
          .error (.crawler failure)) ↔ 0 < n ∧ (s = n ∨ 5 * n < 100 * s)) ∧
      (¬(0 < n ∧ (s = n ∨ 5 * n < 100 * s)) →
        (normalizeReviewBatch normalize observedAt records effectiveLimit).1 =
          .ok (normalisations normalize observedAt 1
            (records.take effectiveLimit)).reduceOption) ∧
      (normalisations normalize observedAt 1
        (records.take effectiveLimit)).reduceOption.length ≤ effectiveLimit := by
  obtain ⟨issues, hall, hbatch⟩ := normalizeReviewBatch_eq hskips hlimit.2 records hn hs
  rw [hbatch]
  refine ⟨?_, fun haccept => by rw [if_neg haccept], ?_⟩
  · split
    · rename_i hreject
      obtain ⟨failure, hraised, hcls⟩ := rejection_schemaFailure hall
      exact ⟨fun _ => hreject, fun _ => ⟨failure, hcls, by rw [hraised]⟩⟩
    · rename_i haccept
      refine ⟨fun ⟨_, _, hraised⟩ => ?_, fun hreject => absurd hreject haccept⟩
      cases hraised
  · refine (List.reduceOption_length_le _).trans ?_
    rw [length_normalisations]
    exact List.length_take_le _ _

end

namespace Sample

/-- A dict that says whether its timestamp can be read, normalised to its position. -/
def normalizeSample : ReviewNormalizer Bool Nat := fun raw position _ =>
  if raw then .ok position else .error (.badValue "ValueError")

/-- One bad record in twenty-one, in the second place. -/
def oneBadRecord : List (ReviewRecord Bool) :=
  .dict true :: .dict false :: List.replicate 19 (.dict true)

theorem normalizeSample_skips (raw : Bool) (position : Nat) (error : NormalizeError)
    (h : normalizeSample raw position 0 = .error error) : error.Skips := by
  cases raw with
  | true => cases h
  | false =>
      obtain rfl := Except.error.inj h
      trivial

end Sample

open Sample in
theorem normalizeReviewBatch_spec_one_bad :
    (normalizeReviewBatch normalizeSample 0 oneBadRecord 1000).1 =
      .ok (1 :: List.range' 3 19) ∧
    (¬∃ failure, failure.cls = .schemaFailure ∧
      (normalizeReviewBatch normalizeSample 0 oneBadRecord 1000).1 =
        .error (.crawler failure)) := by
  obtain ⟨hraises, hreturns, -⟩ := normalizeReviewBatch_spec normalizeSample 0
    normalizeSample_skips (by decide : 1 ≤ 1000 ∧ 1000 ≤ 1000) oneBadRecord 21 1 (by rfl) (by rfl)
  have haccept : ¬(0 < 21 ∧ (1 = 21 ∨ 5 * 21 < 100 * 1)) := by decide
  exact ⟨(hreturns haccept).trans (by rfl), fun h => haccept (hraises.mp h)⟩

/-! ## The adapters -/

/-- `PACKAGE_PATTERN`, matched in full: at least two segments of ASCII word characters
between dots, the first of which starts with a letter. -/
def isPackageName (s : String) : Bool :=
  let segments := s.toList.splitOn '.'
  2 ≤ segments.length &&
    (segments.all fun segment => segment ≠ [] && segment.all fun c => c.isAlphanum || c = '_') &&
    (segments.headD []).head?.any Char.isAlpha

def validatePackage (packageName : String) : Except PyError Unit :=
  if isPackageName packageName then .ok ()
  else .error (.crawler ⟨.invalidPackage, "package name is invalid", false, none⟩)

/-- `min(limit, 1000)`, which must be positive. -/
def effectiveLimitOf (limit : Int) : Except PyError Nat :=
  if min limit 1000 < 1 then .error (.other "ValueError" "review limit must be positive")
  else .ok (min limit 1000).toNat

/-- `except classes`: the name of the exception's class, if it is one of these. -/
def PyError.among (classes : List String) : PyError → Option String
  | .crawler _ => none
  | .other name _ => if classes.contains name then some name else none

/-- A field of the parser's table: its key, and what it reads from an item. -/
structure ElementSpec (ι ν : Type) where
  key : String
  extractContent : ι → Except PyError ν

/-- `_NORMALIZED_FIELD_NAMES`; the fields without a name are not in `_REVIEW_FIELDS`. -/
def normalizedFieldName : String → Option String
  | "reviewId" => some "external_review_id"
  | "userName" => some "author_name"
  | "score" => some "score"
  | "content" => some "content"
  | "thumbsUpCount" => some "thumbs_up_count"
  | _ => none

section

variable {ι ν ρ δ : Type}

/-- The fields of `_extract_review_item`, and then its timestamp. -/
def extractReviewItem (sourceAt : ι → Except PyError ν) (item : ι) :
    List (ElementSpec ι ν) → List (String × ν) → Except PyError (ReviewRecord (List (String × ν)))
  | [], raw =>
      match sourceAt item with
      | .ok timestamp => .ok (.dict (raw ++ [("at", timestamp)]))
      | .error error =>
          match error.among ["IndexError", "KeyError", "TypeError", "ValueError", "OverflowError",
            "OSError"] with
          | some className => .ok (.invalid (invalidReviewRecord "source_at" className))
          | none => .error error
  | spec :: specs, raw =>
      match normalizedFieldName spec.key with
      | none => extractReviewItem sourceAt item specs raw
      | some fieldName =>
          match spec.extractContent item with
          | .ok value => extractReviewItem sourceAt item specs (raw ++ [(spec.key, value)])
          | .error error =>
              match error.among ["AttributeError", "IndexError", "KeyError", "TypeError",
                "ValueError"] with
              | some className => .ok (.invalid (invalidReviewRecord fieldName className))
              | none => .error error

/-- What both `get_reviews` do around their ways of getting records. -/
def getReviewsBy (fetch : Nat → Except PyError (List (ReviewRecord ρ)))
    (normalize : ReviewNormalizer ρ δ) (now : Timestamp) (packageName : String) (limit : Int) :
    Except PyError (List δ) := do
  validatePackage packageName
  let effectiveLimit ← effectiveLimitOf limit
  let records ← fetch effectiveLimit
  (normalizeReviewBatch normalize now records effectiveLimit).1

namespace GPlayScraperAdapter

/-- The items of one response, as long as there is room. -/
def extractItems (effectiveLimit : Nat) (extract : ι → Except PyError (ReviewRecord ρ)) :
    List ι → List (ReviewRecord ρ) → Except PyError (List (ReviewRecord ρ))
  | [], parsed => .ok parsed
  | item :: items, parsed =>
      if effectiveLimit ≤ parsed.length then .ok parsed
      else do
        let record ← extract item
        extractItems effectiveLimit extract items (parsed ++ [record])

/-- The loop over the responses; `decode` is `decode_gplay_review_response`. -/
def extractResponses (effectiveLimit : Nat) (decode : String → Except PyError (List ι))
    (extract : ι → Except PyError (ReviewRecord ρ)) :
    List String → List (ReviewRecord ρ) → Except PyError (List (ReviewRecord ρ))
  | [], parsed => .ok parsed
  | response :: responses, parsed => do
      let items ← decode response
      let parsed ← extractItems effectiveLimit extract items parsed
      if effectiveLimit ≤ parsed.length then .ok parsed
      else extractResponses effectiveLimit decode extract responses parsed

/-- `get_reviews`; `scrape` gives the responses, or no list of them. -/
def getReviews (scrape : Nat → Except PyError (Option (List String)))
    (decode : String → Except PyError (List ι)) (specs : List (ElementSpec ι ν))
    (sourceAt : ι → Except PyError ν) :
    ReviewNormalizer (List (String × ν)) δ → Timestamp → String → Int →
      Except PyError (List δ) :=
  getReviewsBy fun effectiveLimit => do
    match ← scrape effectiveLimit with
    | none => .error (.crawler ⟨.parseFailure,
        "gplay reviews parser returned an invalid response set", false, none⟩)
    | some responses =>
        extractResponses effectiveLimit decode
          (fun item => extractReviewItem sourceAt item specs []) responses []

theorem extractItems_length {effectiveLimit : Nat}
    {extract : ι → Except PyError (ReviewRecord ρ)} {items : List ι} :
    ∀ {parsed parsed' : List (ReviewRecord ρ)}, parsed.length ≤ effectiveLimit →
      extractItems effectiveLimit extract items parsed = .ok parsed' →
      parsed'.length ≤ effectiveLimit := by
  induction items with
  | nil =>
      intro parsed parsed' hle h
      obtain rfl := Except.ok.inj h
      exact hle
  | cons item items ih =>
      intro parsed parsed' hle h
      rw [extractItems] at h
      split at h
      · obtain rfl := Except.ok.inj h
        exact hle
      · rename_i hroom
        cases hrecord : extract item with
        | error error =>
            rw [hrecord] at h
            cases h
        | ok record =>
            rw [hrecord] at h
            refine ih ?_ h
            rw [List.length_append, List.length_singleton]
            omega

/-- No more records are extracted than are wanted. -/
theorem extractResponses_length {effectiveLimit : Nat}
    {decode : String → Except PyError (List ι)} {extract : ι → Except PyError (ReviewRecord ρ)}
    {responses : List String} : ∀ {parsed parsed' : List (ReviewRecord ρ)},
      parsed.length ≤ effectiveLimit →
      extractResponses effectiveLimit decode extract responses parsed = .ok parsed' →
      parsed'.length ≤ effectiveLimit := by
  induction responses with
  | nil =>
      intro parsed parsed' hle h
      obtain rfl := Except.ok.inj h
      exact hle
  | cons response responses ih =>
      intro parsed parsed' hle h
      rw [extractResponses] at h
      cases hdecode : decode response with
      | error error =>
          rw [hdecode] at h
          cases h
      | ok items =>
          rw [hdecode] at h
          change (extractItems effectiveLimit extract items parsed >>= _) = _ at h
          cases hitems : extractItems effectiveLimit extract items parsed with
          | error error =>
              rw [hitems] at h
              cases h
          | ok parsed₁ =>
              rw [hitems] at h
              change (if effectiveLimit ≤ parsed₁.length then _ else _) = _ at h
              have hle₁ := extractItems_length hle hitems
              split at h
              · obtain rfl := Except.ok.inj h
                exact hle₁
              · exact ih hle₁ h

end GPlayScraperAdapter

namespace GooglePlayScraperAdapter

/-- `get_reviews`; `reviewFetcher` gives the records, or no list of them. -/
def getReviews (reviewFetcher : Nat → Except PyError (Option (List (ReviewRecord ρ)))) :
    ReviewNormalizer ρ δ → Timestamp → String → Int → Except PyError (List δ) :=
  getReviewsBy fun effectiveLimit => do
    match ← reviewFetcher effectiveLimit with
    | none => .error (.crawler ⟨.parseFailure,
        "secondary reviews parser returned an invalid response set", false, none⟩)
    | some records => .ok records

end GooglePlayScraperAdapter

theorem effectiveLimitOf_range {limit : Int} {effectiveLimit : Nat}
    (h : effectiveLimitOf limit = .ok effectiveLimit) :
    1 ≤ effectiveLimit ∧ effectiveLimit ≤ 1000 := by
  unfold effectiveLimitOf at h
  split at h
  · cases h
  · obtain rfl := Except.ok.inj h
    omega

theorem except_bind_ok {ε α β : Type} {x : Except ε α} {f : α → Except ε β} {b : β}
    (h : x >>= f = .ok b) : ∃ a, x = .ok a ∧ f a = .ok b := by
  cases x with
  | error e => cases h
  | ok a => exact ⟨a, rfl, h⟩

/-- What `get_reviews` returns are the reviews of a batch within the limit. -/
theorem getReviewsBy_ok {fetch : Nat → Except PyError (List (ReviewRecord ρ))}
    {normalize : ReviewNormalizer ρ δ} {now : Timestamp} {packageName : String} {limit : Int}
    {reviews : List δ}
    (hskips : ∀ raw position error, normalize raw position now = .error error → error.Skips)
    (h : getReviewsBy fetch normalize now packageName limit = .ok reviews) :
    ∃ effectiveLimit records, effectiveLimitOf limit = .ok effectiveLimit ∧
      fetch effectiveLimit = .ok records ∧
      reviews =
        (normalisations normalize now 1 (records.take effectiveLimit)).reduceOption := by
  obtain ⟨-, -, h⟩ := except_bind_ok h
  obtain ⟨effectiveLimit, hlimit, h⟩ := except_bind_ok h
  obtain ⟨records, hfetch, h⟩ := except_bind_ok h
  refine ⟨effectiveLimit, records, hlimit, hfetch, ?_⟩
  obtain ⟨issues, -, hbatch⟩ := normalizeReviewBatch_eq hskips (effectiveLimitOf_range hlimit).2
    records rfl rfl
  rw [hbatch] at h
  split at h
  · cases h
  · exact (Except.ok.inj h).symm

/-- The records of the first adapter are within the limit already. -/
theorem GPlayScraperAdapter.getReviews_ok {scrape : Nat → Except PyError (Option (List String))}
    {decode : String → Except PyError (List ι)} {specs : List (ElementSpec ι ν)}
    {sourceAt : ι → Except PyError ν} {normalize : ReviewNormalizer (List (String × ν)) δ}
    {now : Timestamp} {packageName : String} {limit : Int} {reviews : List δ}
    (hskips : ∀ raw position error, normalize raw position now = .error error → error.Skips)
    (h : getReviews scrape decode specs sourceAt normalize now packageName limit = .ok reviews) :
    ∃ effectiveLimit responses records, scrape effectiveLimit = .ok (some responses) ∧
      extractResponses effectiveLimit decode
        (fun item => extractReviewItem sourceAt item specs []) responses [] = .ok records ∧
      reviews = (normalisations normalize now 1 records).reduceOption := by
  obtain ⟨effectiveLimit, records, -, hfetch, heq⟩ := getReviewsBy_ok hskips h
  obtain ⟨responses, hscrape, hextract⟩ := except_bind_ok hfetch
  cases responses with
  | none => cases hextract
  | some responses =>
      have hlength := extractResponses_length (Nat.zero_le effectiveLimit) hextract
      rw [List.take_of_length_le hlength] at heq
      exact ⟨effectiveLimit, responses, records, hscrape, hextract, heq⟩

end

end Sahabino
