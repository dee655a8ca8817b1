import Sahabino.IngestionWorker

/-!
# Decoding of any record

`decode_message` and `decode_capture_ready` on arbitrary bytes. What is
left to the libraries is `json.loads` and the core of pydantic: which
fields of a JSON text it can read at all, and which datetimes it reads.
The validators that run on those datetimes are the repository's, and
they are not harmless: a wall clock close to the first or last year and
an offset that leads out of it make `astimezone` raise `OverflowError`.

Pydantic turns a validator's `ValueError` into an error of that field,
goes on to the next field, and reports them all together in the end; any
other exception of a validator passes through at once. So a record
escapes the decoders' error handling whenever one of its datetimes
overflows, no matter how invalid the rest of it is.
-/

namespace Sahabino

/-! ## Datetimes -/

/-- 0001-01-01T00:00:00 and 9999-12-31T23:59:59.999999, from the epoch. -/
def minDatetime : Int := -62135596800000000

def maxDatetime : Int := 253402300799999999

/-- A `datetime`: its wall clock and, if it is aware, its offset from UTC, both in
microseconds. -/
structure PyDatetime where
  wall : Int
  utcoffset : Option Int
  wall_range : minDatetime ≤ wall ∧ wall ≤ maxDatetime

inductive ValidatorError where
  | valueError (message : String)
  | overflowError

/-- `value.astimezone(UTC)` of an aware datetime. -/
def astimezone (value : PyDatetime) (offset : Int) : Except ValidatorError Timestamp :=
  if minDatetime ≤ value.wall - offset ∧ value.wall - offset ≤ maxDatetime then
    .ok (value.wall - offset)
  else .error .overflowError

/-- The four timestamp validators, which differ in their message. -/
def aware (message : String) (value : PyDatetime) : Except ValidatorError Timestamp :=
  match value.utcoffset with
  | none => .error (.valueError message)
  | some offset => astimezone value offset

/-- `_utc` of `playstore_events.py` and of `network_events.py`. -/
def utc (value : PyDatetime) : Except ValidatorError Timestamp :=
  aware "event timestamps must be timezone-aware" value

def occurredAtMustBeTimezoneAware (value : PyDatetime) : Except ValidatorError Timestamp :=
  aware "occurred_at must be timezone-aware" value

/-- The datetime has no place in UTC. -/
def PyDatetime.Overflows (value : PyDatetime) : Prop :=
  ∃ offset, value.utcoffset = some offset ∧
    ¬(minDatetime ≤ value.wall - offset ∧ value.wall - offset ≤ maxDatetime)

/-! ## Models

What the core makes of a JSON text for a model with validators on its
datetimes: `none` for a datetime that is missing or unreadable, and for
`rest` if any other field is, or if there is a field too many. -/

structure CoreAppStats where
  rest : Option (Timestamp → AppStatsCollectedV1)
  collectedAt : Option PyDatetime

structure CoreReviewObserved where
  rest : Option (Timestamp → Timestamp → ReviewObservedV1)
  observedAt : Option PyDatetime
  sourceAt : Option PyDatetime

structure CoreNetworkAnalysis where
  rest : Option (Timestamp → NetworkAnalysisCollectedV1)
  analyzedAt : Option PyDatetime

structure CoreCaptureReady where
  rest : Option (Timestamp → NetworkCaptureReadyV1)
  uploadedAt : Option PyDatetime

/-- The payload is `none` if it is missing or no object. -/
structure CoreEnvelope (ρ : Type) where
  rest : Option Uuid
  occurredAt : Option PyDatetime
  payload : Option ρ

/-- The libraries under both decoders; `none` if the bytes are no JSON object. -/
structure PydanticCore where
  loads : List UInt8 → Except CodecError Json
  appStats : List UInt8 → Option (CoreEnvelope CoreAppStats)
  reviewObserved : List UInt8 → Option (CoreEnvelope CoreReviewObserved)
  networkAnalysis : List UInt8 → Option (CoreEnvelope CoreNetworkAnalysis)
  captureReady : List UInt8 → Option (CoreEnvelope CoreCaptureReady)

/-- A field with a validator: `none` is an error of this field, and an exception
is one that pydantic does not handle. -/
def validated (validator : PyDatetime → Except ValidatorError Timestamp) :
    Option PyDatetime → Except Unit (Option Timestamp)
  | none => .ok none
  | some value =>
      match validator value with
      | .ok t => .ok (some t)
      | .error (.valueError _) => .ok none
      | .error .overflowError => .error ()

def CoreAppStats.validate (p : CoreAppStats) : Except Unit (Option AppStatsCollectedV1) := do
  let collectedAt ← validated utc p.collectedAt
  pure (p.rest.bind fun f => collectedAt.map f)

def CoreReviewObserved.validate (p : CoreReviewObserved) :
    Except Unit (Option ReviewObservedV1) := do
  let observedAt ← validated utc p.observedAt
  let sourceAt ← validated utc p.sourceAt
  pure (p.rest.bind fun f => observedAt.bind fun t => sourceAt.map (f t))

def CoreNetworkAnalysis.validate (p : CoreNetworkAnalysis) :
    Except Unit (Option NetworkAnalysisCollectedV1) := do
  let analyzedAt ← validated utc p.analyzedAt
  pure (p.rest.bind fun f => analyzedAt.map f)

def CoreCaptureReady.validate (p : CoreCaptureReady) :
    Except Unit (Option NetworkCaptureReadyV1) := do
  let uploadedAt ← validated utc p.uploadedAt
  pure (p.rest.bind fun f => uploadedAt.map f)

/-- `EventEnvelope[PayloadT]`: the payload comes after `occurred_at`. -/
def CoreEnvelope.validate {ρ π : Type} (validatePayload : ρ → Except Unit (Option π))
    (e : CoreEnvelope ρ) : Except Unit (Option (EventEnvelope π)) := do
  let occurredAt ← validated occurredAtMustBeTimezoneAware e.occurredAt
  let payload ← e.payload.elim (.ok none) validatePayload
  pure (e.rest.bind fun eventId => occurredAt.bind fun t => payload.map fun p => ⟨eventId, t, p⟩)

/-- `deserialize_event`: a `ValidationError` becomes `EventDeserializationError`. -/
def deserializeEvent {ρ π : Type} (validatePayload : ρ → Except Unit (Option π))
    (core : Option (CoreEnvelope ρ)) : Except CodecError (EventEnvelope π) :=
  match core with
  | none => .error .refused
  | some e =>
      match e.validate validatePayload with
      | .ok (some event) => .ok event
      | .ok none => .error .refused
      | .error () => .error .other

def PydanticCore.codec (core : PydanticCore) : Codec where
  loads := core.loads
  appStats := fun value => deserializeEvent CoreAppStats.validate (core.appStats value)
  reviewObserved := fun value =>
    deserializeEvent CoreReviewObserved.validate (core.reviewObserved value)
  networkAnalysis := fun value =>
    deserializeEvent CoreNetworkAnalysis.validate (core.networkAnalysis value)

/-! ## The analyzer's decoder -/

/-- `escaped` is any exception other than `InvalidAnalyzerMessage`. -/
inductive AnalyzerDecodeError where
  | invalid (reason : String)
  | escaped

def orInvalidReason {α : Type} (x : Except CodecError α) (reason : String) :
    Except AnalyzerDecodeError α :=
  match x with
  | .ok a => .ok a
  | .error .refused => .error (.invalid reason)
  | .error .other => .error .escaped

/-- `value == 1`, which `True` and `1.0` are too. -/
def equalsOne : Json → Bool
  | .int n => n = 1
  | .bool b => b
  | .float bits => bits = 0x3FF0000000000000#64
  | _ => false

/-- `value == text`. -/
def equalsText (text : String) : Json → Bool
  | .str s => s = pyStr text
  | _ => false

def checkReadyKey (key : Option (List UInt8)) (event : EventEnvelope NetworkCaptureReadyV1) :
    Except AnalyzerDecodeError (EventEnvelope NetworkCaptureReadyV1) :=
  match key with
  | none => .error (.invalid "missing_or_invalid_key")
  | some bytes =>
      match String.fromUTF8? ⟨bytes.toArray⟩ with
      | none => .error (.invalid "invalid_utf8_key")
      | some decodedKey =>
          if decodedKey = event.payload.applicationId.text then .ok event
          else .error (.invalid "application_key_mismatch")

def decodeCaptureReady (core : PydanticCore) (topic : String) (record : KafkaRecord) :
    Except AnalyzerDecodeError (EventEnvelope NetworkCaptureReadyV1) :=
  match record.value with
  | none => .error (.invalid "missing_or_invalid_value")
  | some value => do
      match ← orInvalidReason (core.loads value) "invalid_json" with
      | .dict fields =>
          if !hasEnvelopeFields fields then .error (.invalid "invalid_envelope")
          else if !equalsText "network.capture.ready" (jsonField fields "event_type") then
            .error (.invalid "unsupported_event_type")
          else if !equalsOne (jsonField fields "schema_version") then
            .error (.invalid "unsupported_schema_version")
          else if topic ≠ "network.capture-ready.v1" then
            .error (.invalid "topic_event_mismatch")
          else do
            let event ← orInvalidReason
              (deserializeEvent CoreCaptureReady.validate (core.captureReady value))
              "invalid_envelope_or_payload"
            checkReadyKey record.key event
      | _ => .error (.invalid "invalid_envelope")

/-! ## When a validator escapes -/

def CoreAppStats.datetimes (p : CoreAppStats) : List PyDatetime := p.collectedAt.toList

def CoreReviewObserved.datetimes (p : CoreReviewObserved) : List PyDatetime :=
  p.observedAt.toList ++ p.sourceAt.toList

def CoreNetworkAnalysis.datetimes (p : CoreNetworkAnalysis) : List PyDatetime :=
  p.analyzedAt.toList

def CoreCaptureReady.datetimes (p : CoreCaptureReady) : List PyDatetime := p.uploadedAt.toList

/-- The datetimes validators run on. -/
def CoreEnvelope.datetimes {ρ : Type} (payloadDatetimes : ρ → List PyDatetime)
    (e : CoreEnvelope ρ) : List PyDatetime :=
  e.occurredAt.toList ++ e.payload.elim [] payloadDatetimes

theorem validated_escapes_iff (message : String) (value : Option PyDatetime) :
    validated (aware message) value = .error () ↔ ∃ d ∈ value.toList, d.Overflows := by
  cases value with
  | none => simp [validated]
  | some d =>
      simp only [validated, aware, Option.toList_some, List.mem_singleton, exists_eq_left,
        PyDatetime.Overflows]
      cases hoffset : d.utcoffset with
      | none => simp
      | some offset =>
          simp only [astimezone, Option.some.injEq, exists_eq_left']
          by_cases hrange : minDatetime ≤ d.wall - offset ∧ d.wall - offset ≤ maxDatetime
          · simp [hrange]
          · simp only [if_neg hrange]
            exact ⟨fun _ => hrange, fun _ => trivial⟩

/-- Fields are validated one after the other, whatever their errors are; so a
sequence escapes if any of its parts does. -/
theorem escapes_bind_iff {α β : Type} {x : Except Unit α} {f : α → Except Unit β} {p q : Prop}
    (hx : x = .error () ↔ p) (hf : ∀ a, f a = .error () ↔ q) :
    (x >>= f) = .error () ↔ p ∨ q := by
  rw [← hx]
  cases x with
  | ok a =>
      simp only [reduceCtorEq, false_or]
      exact hf a
  | error e => exact ⟨fun _ => Or.inl rfl, fun _ => rfl⟩

/-- The last step builds the model and escapes never. -/
theorem pure_escapes_iff {α : Type} (a : α) : (pure a : Except Unit α) = .error () ↔ False :=
  ⟨fun h => (by cases h), False.elim⟩

theorem validated_last_escapes_iff {α : Type} (message : String) (value : Option PyDatetime)
    (f : Option Timestamp → α) : (validated (aware message) value >>= fun d => pure (f d)) =
      .error () ↔ ∃ d ∈ value.toList, d.Overflows := by
  rw [escapes_bind_iff (validated_escapes_iff message value) fun d => pure_escapes_iff (f d),
    or_false]

theorem CoreAppStats.validate_escapes_iff (p : CoreAppStats) :
    p.validate = .error () ↔ ∃ d ∈ p.datetimes, d.Overflows := by
  unfold datetimes
  exact validated_last_escapes_iff ..

theorem CoreReviewObserved.validate_escapes_iff (p : CoreReviewObserved) :
    p.validate = .error () ↔ ∃ d ∈ p.datetimes, d.Overflows := by
  refine (escapes_bind_iff (validated_escapes_iff _ _) fun _ => escapes_bind_iff
    (validated_escapes_iff _ _) fun _ => pure_escapes_iff _).trans ?_
  simp only [datetimes, List.mem_append, or_and_right, exists_or, or_false]

theorem CoreNetworkAnalysis.validate_escapes_iff (p : CoreNetworkAnalysis) :
    p.validate = .error () ↔ ∃ d ∈ p.datetimes, d.Overflows := by
  unfold datetimes
  exact validated_last_escapes_iff ..

theorem CoreCaptureReady.validate_escapes_iff (p : CoreCaptureReady) :
    p.validate = .error () ↔ ∃ d ∈ p.datetimes, d.Overflows := by
  unfold datetimes
  exact validated_last_escapes_iff ..

theorem CoreEnvelope.validate_escapes_iff {ρ π : Type}
    {validatePayload : ρ → Except Unit (Option π)} {payloadDatetimes : ρ → List PyDatetime}
    (hpayload : ∀ p, validatePayload p = .error () ↔ ∃ d ∈ payloadDatetimes p, d.Overflows)
    (e : CoreEnvelope ρ) :
    e.validate validatePayload = .error () ↔ ∃ d ∈ e.datetimes payloadDatetimes, d.Overflows := by
  have hnested : e.payload.elim (.ok none) validatePayload = .error () ↔
      ∃ d ∈ e.payload.elim [] payloadDatetimes, d.Overflows := by
    cases e.payload with
    | none => simp
    | some p => exact hpayload p
  refine (escapes_bind_iff (validated_escapes_iff _ _) fun _ => escapes_bind_iff hnested
    fun _ => pure_escapes_iff _).trans ?_
  simp only [datetimes, List.mem_append, or_and_right, exists_or, or_false]

/-- A payload type with its validators: what escapes is an overflow. -/
theorem deserializeEvent_escapes_iff {ρ π : Type}
    {validatePayload : ρ → Except Unit (Option π)} {payloadDatetimes : ρ → List PyDatetime}
    (hpayload : ∀ p, validatePayload p = .error () ↔ ∃ d ∈ payloadDatetimes p, d.Overflows)
    (core : Option (CoreEnvelope ρ)) :
    deserializeEvent validatePayload core = .error .other ↔
      ∃ d ∈ core.elim [] (·.datetimes payloadDatetimes), d.Overflows := by
  cases core with
  | none => simp [deserializeEvent]
  | some e =>
      rw [Option.elim_some, ← CoreEnvelope.validate_escapes_iff hpayload e]
      simp only [deserializeEvent]
      cases e.validate validatePayload with
      | error x => exact ⟨fun _ => rfl, fun _ => rfl⟩
      | ok o => cases o <;> simp

/-! ## The records that are decoded or refused -/

/-- The datetimes the validators of an envelope type see in a text. -/
def PydanticCore.datetimes (core : PydanticCore) (value : List UInt8) : EventKind → List PyDatetime
  | .appStats => (core.appStats value).elim [] (·.datetimes CoreAppStats.datetimes)
  | .reviewObserved =>
      (core.reviewObserved value).elim [] (·.datetimes CoreReviewObserved.datetimes)
  | .networkAnalysis =>
      (core.networkAnalysis value).elim [] (·.datetimes CoreNetworkAnalysis.datetimes)

def PydanticCore.readyDatetimes (core : PydanticCore) (value : List UInt8) : List PyDatetime :=
  (core.captureReady value).elim [] (·.datetimes CoreCaptureReady.datetimes)

/-- The text is an envelope of this kind, and on its topic. -/
def Routed (core : PydanticCore) (topic : String) (value : List UInt8) (kind : EventKind) : Prop :=
  ∃ fields, core.loads value = .ok (.dict fields) ∧ hasEnvelopeFields fields = true ∧
    jsonField fields "event_type" = .str (pyStr kind.eventType) ∧
    jsonField fields "schema_version" = .int kind.schemaVersion ∧ topic = kind.topic

def RoutedReady (core : PydanticCore) (topic : String) (value : List UInt8) : Prop :=
  ∃ fields, core.loads value = .ok (.dict fields) ∧ hasEnvelopeFields fields = true ∧
    equalsText "network.capture.ready" (jsonField fields "event_type") = true ∧
    equalsOne (jsonField fields "schema_version") = true ∧ topic = "network.capture-ready.v1"

theorem deserialize_escapes_iff (core : PydanticCore) (value : List UInt8) (kind : EventKind) :
    kind.deserialize core.codec value = .error .other ↔
      ∃ d ∈ core.datetimes value kind, d.Overflows := by
  have hmap : ∀ {π : Type} (x : Except CodecError π) (f : π → SupportedEvent),
      x.map f = .error .other ↔ x = .error .other := by
    intro π x f
    cases x with
    | ok a => simp [Except.map]
    | error e => simp [Except.map]
  cases kind with
  | appStats =>
      exact (hmap _ _).trans (deserializeEvent_escapes_iff CoreAppStats.validate_escapes_iff _)
  | reviewObserved =>
      exact (hmap _ _).trans
        (deserializeEvent_escapes_iff CoreReviewObserved.validate_escapes_iff _)
  | networkAnalysis =>
      exact (hmap _ _).trans
        (deserializeEvent_escapes_iff CoreNetworkAnalysis.validate_escapes_iff _)

theorem ofEventType_eq_some_iff {s : PyStr} {kind : EventKind} :
    EventKind.ofEventType s = some kind ↔ s = pyStr kind.eventType := by
  refine ⟨fun h => ?_, fun h => ?_⟩
  · have hkind := List.find?_some (show List.find? _ _ = some kind from h)
    exact (of_decide_eq_true hkind).symm
  · subst h
    cases kind <;> decide

/-- A key never makes a decoder escape. -/
theorem checkKey_ne_escaped (key : Option (List UInt8)) (event : SupportedEvent)
    (context : List (String × Json)) : checkKey key event context ≠ .error .escaped := by
  unfold checkKey invalid
  split
  · nofun
  · split
    · nofun
    · split <;> nofun

theorem orInvalid_bind_escapes_iff {α β : Type} {x : Except CodecError α}
    {reason context} {f : α → Except DecodeError β} :
    (orInvalid x (invalid reason context) >>= f) = .error .escaped ↔
      x = .error .other ∨ ∃ a, x = .ok a ∧ f a = .error .escaped := by
  cases x with
  | ok a => simp [orInvalid, bind, Except.bind]
  | error e =>
      cases e with
      | refused => simp [orInvalid, invalid, bind, Except.bind]
      | other => simp [orInvalid, bind, Except.bind]

theorem decodeEnvelope_escapes_iff (core : PydanticCore) (topic : String) (record : KafkaRecord)
    (value : List UInt8) (fields : List (PyStr × Json)) :
    decodeEnvelope core.codec topic record value fields = .error .escaped ↔
      ∃ kind : EventKind, jsonField fields "event_type" = .str (pyStr kind.eventType) ∧
        jsonField fields "schema_version" = .int kind.schemaVersion ∧ topic = kind.topic ∧
        ∃ d ∈ core.datetimes value kind, d.Overflows := by
  refine ⟨fun h => ?_, fun h => ?_⟩
  · unfold decodeEnvelope at h
    split at h
    case h_2 => cases h
    rename_i c cs htype
    split at h
    · cases h
    rename_i kind hkind
    simp only at h
    split at h
    case h_2 => cases h
    rename_i n hversion
    split at h
    · cases h
    rename_i hn
    split at h
    · cases h
    rename_i htopic
    rw [ofEventType_eq_some_iff.mp hkind] at htype
    rw [not_not.mp hn] at hversion
    refine ⟨kind, htype, hversion, not_not.mp htopic, ?_⟩
    rcases orInvalid_bind_escapes_iff.mp h with hother | ⟨event, -, hkey⟩
    · exact (deserialize_escapes_iff core value kind).mp hother
    · exact absurd hkey (checkKey_ne_escaped _ _ _)
  · obtain ⟨kind, htype, hversion, htopic, hoverflows⟩ := h
    obtain ⟨c, cs, hcons⟩ : ∃ c cs, pyStr kind.eventType = c :: cs := by
      cases kind <;> exact ⟨_, _, rfl⟩
    have hkind : EventKind.ofEventType (c :: cs) = some kind :=
      ofEventType_eq_some_iff.mpr hcons.symm
    rw [hcons] at htype
    simp only [decodeEnvelope, htype, hkind, hversion, htopic, ne_eq, not_true_eq_false, if_false]
    exact orInvalid_bind_escapes_iff.mpr
      (Or.inl ((deserialize_escapes_iff core value kind).mpr hoverflows))

theorem decodeMessage_escapes_iff (core : PydanticCore) (topic : String) (record : KafkaRecord) :
    decodeMessage core.codec topic record = .error .escaped ↔
      ∃ value, record.value = some value ∧ (core.loads value = .error .other ∨
        ∃ kind, Routed core topic value kind ∧ ∃ d ∈ core.datetimes value kind, d.Overflows) := by
  unfold decodeMessage
  cases record.value with
  | none => simp [invalid]
  | some value =>
      simp only [Option.some.injEq, exists_eq_left']
      refine orInvalid_bind_escapes_iff.trans (or_congr Iff.rfl ?_)
      refine ⟨?_, ?_⟩
      · rintro ⟨json, hloads, h⟩
        split at h
        · rename_i fields
          split at h
          · rename_i hfields
            obtain ⟨kind, htype, hversion, htopic, hoverflows⟩ :=
              (decodeEnvelope_escapes_iff core topic record value fields).mp h
            exact ⟨kind, ⟨fields, hloads, hfields, htype, hversion, htopic⟩, hoverflows⟩
          · cases h
        · cases h
      · rintro ⟨kind, ⟨fields, hloads, hfields, htype, hversion, htopic⟩, hoverflows⟩
        refine ⟨.dict fields, hloads, ?_⟩
        simp only [hfields, if_true]
        exact (decodeEnvelope_escapes_iff core topic record value fields).mpr
          ⟨kind, htype, hversion, htopic, hoverflows⟩

theorem checkReadyKey_ne_escaped (key : Option (List UInt8))
    (event : EventEnvelope NetworkCaptureReadyV1) : checkReadyKey key event ≠ .error .escaped := by
  unfold checkReadyKey
  split
  · nofun
  · split
    · nofun
    · split <;> nofun

theorem orInvalidReason_bind_escapes_iff {α β : Type} {x : Except CodecError α} {reason : String}
    {f : α → Except AnalyzerDecodeError β} :
    (orInvalidReason x reason >>= f) = .error .escaped ↔
      x = .error .other ∨ ∃ a, x = .ok a ∧ f a = .error .escaped := by
  cases x with
  | ok a => simp [orInvalidReason, bind, Except.bind]
  | error e =>
      cases e with
      | refused => simp [orInvalidReason, bind, Except.bind]
      | other => simp [orInvalidReason, bind, Except.bind]

theorem decodeCaptureReady_escapes_iff (core : PydanticCore) (topic : String)
    (record : KafkaRecord) :
    decodeCaptureReady core topic record = .error .escaped ↔
      ∃ value, record.value = some value ∧ (core.loads value = .error .other ∨
        RoutedReady core topic value ∧ ∃ d ∈ core.readyDatetimes value, d.Overflows) := by
  have hready := fun value => deserializeEvent_escapes_iff CoreCaptureReady.validate_escapes_iff
    (core.captureReady value)
  unfold decodeCaptureReady
  cases record.value with
  | none => simp
  | some value =>
      simp only [Option.some.injEq, exists_eq_left']
      refine orInvalidReason_bind_escapes_iff.trans (or_congr Iff.rfl ?_)
      refine ⟨?_, ?_⟩
      · rintro ⟨json, hloads, h⟩
        split at h
        case h_2 => cases h
        rename_i fields
        split at h
        · cases h
        rename_i hfields
        split at h
        · cases h
        rename_i htype
        split at h
        · cases h
        rename_i hversion
        split at h
        · cases h
        rename_i htopic
        simp only [Bool.not_eq_true', Bool.not_eq_false] at hfields htype hversion
        refine ⟨⟨fields, hloads, hfields, htype, hversion, not_not.mp htopic⟩, ?_⟩
        rcases orInvalidReason_bind_escapes_iff.mp h with hother | ⟨event, -, hkey⟩
        · exact (hready value).mp hother
        · exact absurd hkey (checkReadyKey_ne_escaped _ _)
      · rintro ⟨⟨fields, hloads, hfields, htype, hversion, htopic⟩, hoverflows⟩
        refine ⟨.dict fields, hloads, ?_⟩
        simp only [hfields, htype, hversion, htopic, Bool.not_true, ne_eq, not_true_eq_false,
          Bool.false_eq_true, if_false]
        exact orInvalidReason_bind_escapes_iff.mpr (Or.inl ((hready value).mpr hoverflows))

/-- Returns, or raises `InvalidIngestionMessage`. -/
def Decides (r : Except DecodeError SupportedEvent) : Prop :=
  (∃ event, r = .ok event) ∨ ∃ error, r = .error (.invalid error)

theorem decides_iff {r : Except DecodeError SupportedEvent} : Decides r ↔ r ≠ .error .escaped := by
  cases r with
  | ok event => simp [Decides]
  | error e =>
      cases e with
      | invalid error => simp [Decides]
      | escaped => simp [Decides]

/-- Returns, or raises `InvalidAnalyzerMessage`. -/
def DecidesReady (r : Except AnalyzerDecodeError (EventEnvelope NetworkCaptureReadyV1)) : Prop :=
  (∃ event, r = .ok event) ∨ ∃ reason, r = .error (.invalid reason)

theorem decidesReady_iff {r : Except AnalyzerDecodeError (EventEnvelope NetworkCaptureReadyV1)} :
    DecidesReady r ↔ r ≠ .error .escaped := by
  cases r with
  | ok event => simp [DecidesReady]
  | error e =>
      cases e with
      | invalid error => simp [DecidesReady]
      | escaped => simp [DecidesReady]

/-- A record is decoded or refused unless `json.loads` gives up on it with an
exception of its own, or it is routed to an envelope type one of whose
datetimes overflows. -/
theorem decoders_total_iff (core : PydanticCore) (topic : String) (record : KafkaRecord) :
    (Decides (decodeMessage core.codec topic record) ↔
      ∀ value, record.value = some value → core.loads value ≠ .error .other ∧
        ∀ kind, Routed core topic value kind → ∀ d ∈ core.datetimes value kind, ¬d.Overflows) ∧
    (DecidesReady (decodeCaptureReady core topic record) ↔
      ∀ value, record.value = some value → core.loads value ≠ .error .other ∧
        (RoutedReady core topic value → ∀ d ∈ core.readyDatetimes value, ¬d.Overflows)) := by
  rw [decides_iff, decidesReady_iff, Ne, Ne, decodeMessage_escapes_iff,
    decodeCaptureReady_escapes_iff]
  refine ⟨?_, ?_⟩
  · simp only [not_exists, not_and, not_or]
  · simp only [not_exists, not_and, not_or]

namespace Sample

/-- 0001-01-01T00:00:00+01:00. -/
def firstHour : PyDatetime := ⟨minDatetime, some 3600000000, by decide⟩

/-- An event that says so in `occurred_at` and has no payload worth the name. -/
def firstHourJson : List UInt8 :=
  ("\x7b\"event_id\":1,\"event_type\":\"playstore.app_stats.collected\",\"schema_version\":1," ++
    "\"occurred_at\":\"0001-01-01T00:00:00+01:00\",\"payload\":null\x7d").toList.map
      fun c => c.toNat.toUInt8

def firstHourDict : Json :=
  .dict [(pyStr "event_id", .int 1),
    (pyStr "event_type", .str (pyStr "playstore.app_stats.collected")),
    (pyStr "schema_version", .int 1),
    (pyStr "occurred_at", .str (pyStr "0001-01-01T00:00:00+01:00")), (pyStr "payload", .null)]

/-- The libraries on that text. -/
def firstHourCore : PydanticCore where
  loads := fun value => if value = firstHourJson then .ok firstHourDict else .error .refused
  appStats := fun value =>
    if value = firstHourJson then some ⟨none, some firstHour, none⟩ else none
  reviewObserved := fun _ => none
  networkAnalysis := fun _ => none
  captureReady := fun _ => none

end Sample

open Sample in
theorem decoder_escapes_first_hour :
    ¬∀ (core : PydanticCore) (topic : String) (record : KafkaRecord),
      Decides (decodeMessage core.codec topic record) ∧
        DecidesReady (decodeCaptureReady core topic record) := by
  intro hclaim
  have hdecides := (hclaim firstHourCore "playstore.app-stats.v1" ⟨some firstHourJson, none⟩).1
  have hloads : firstHourCore.loads firstHourJson = .ok firstHourDict := by
    simp [firstHourCore]
  have hrouted : Routed firstHourCore "playstore.app-stats.v1" firstHourJson .appStats :=
    ⟨_, hloads, by decide +kernel, rfl, rfl, rfl⟩
  have hdatetimes : firstHourCore.datetimes firstHourJson .appStats = [firstHour] := by
    simp [PydanticCore.datetimes, firstHourCore, CoreEnvelope.datetimes]
  have hoverflows : firstHour.Overflows := ⟨3600000000, rfl, by decide⟩
  refine decides_iff.mp hdecides ((decodeMessage_escapes_iff _ _ _).mpr
    ⟨firstHourJson, rfl, Or.inr ⟨.appStats, hrouted, firstHour, ?_, hoverflows⟩⟩)
  rw [hdatetimes]
  exact List.mem_singleton_self firstHour

end Sahabino
