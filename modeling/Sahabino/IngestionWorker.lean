import Mathlib.Data.Nat.Digits.Defs
import Sahabino.Ingestion
import Sahabino.Lib.Pool

/-!
# The ingestion worker

`decode_message`, `IngestionWorker.process_next` and `run_forever`, and
the two systems they stand between: the Kafka consumer group and the
database.

A worker is a process over the commands `poll`, `transact`, `commit` and
`close`. The transaction of one event is a single command: it commits and
returns, or it raises and leaves no trace. A worker that dies right after
its transaction committed, with the answer on the way, is a kill between
two commands.

The log of a partition is fixed; a partition is assigned to a run at the
committed offset, and from there on the run's consumer hands out one
record after the other. Assignments are numbered: a run that lost the
partition may still work on what it fetched before, and the group
coordinator refuses its commits. Auto-commit and auto-offset-store are
off (`consumer_config`), so `commit` is the only command that moves an
offset.
-/

namespace Sahabino

open Conc

/-! ## Records -/

/-- A Python string by its code points: JSON escapes can produce lone
surrogates, which are no characters. -/
abbrev PyStr := List Nat

def pyStr (s : String) : PyStr := s.toList.map Char.toNat

/-- What `json.loads` returns. -/
inductive Json where
  | null
  | bool (b : Bool)
  | int (n : Int)
  | float (bits : BitVec 64)
  | str (s : PyStr)
  | list (items : List Json)
  | dict (fields : List (PyStr × Json))

structure KafkaRecord where
  value : Option (List UInt8)
  key : Option (List UInt8)
deriving DecidableEq

/-- A polled record; `generation` is the assignment it was fetched under. -/
structure Message where
  source : TopicPartition
  offset : Nat
  record : KafkaRecord
  generation : Nat
deriving DecidableEq

/-! ## Decoding -/

structure InvalidIngestionMessage where
  reason : String
  context : List (String × Json)

inductive DecodeError where
  | invalid (error : InvalidIngestionMessage)
  | escaped

/-- How a library call fails: with the exceptions `decode_message` turns into
`InvalidIngestionMessage`, or with another one. -/
inductive CodecError where
  | refused
  | other

/-- The library calls of `decode_message`: `json.loads`, and `deserialize_event`
at the three envelope types. -/
structure Codec where
  loads : List UInt8 → Except CodecError Json
  appStats : List UInt8 → Except CodecError (EventEnvelope AppStatsCollectedV1)
  reviewObserved : List UInt8 → Except CodecError (EventEnvelope ReviewObservedV1)
  networkAnalysis : List UInt8 → Except CodecError (EventEnvelope NetworkAnalysisCollectedV1)

def safeMetadata : Json → Bool
  | .str s => decide (s.length ≤ 100)
  | .int _ => true
  | _ => false

def invalid (reason : String) (context : List (String × Json) := []) : DecodeError :=
  .invalid ⟨reason, context.filter fun entry => safeMetadata entry.2⟩

/-- An `except` clause that turns the expected exceptions into `error`. -/
def orInvalid {α : Type} (x : Except CodecError α) (error : DecodeError) :
    Except DecodeError α :=
  match x with
  | .ok a => .ok a
  | .error .refused => .error error
  | .error .other => .error .escaped

inductive EventKind where
  | appStats
  | reviewObserved
  | networkAnalysis
deriving DecidableEq

namespace EventKind

def eventType : EventKind → String
  | appStats => "playstore.app_stats.collected"
  | reviewObserved => "playstore.review.observed"
  | networkAnalysis => "network.analysis.collected"

/-- `PLAYSTORE_SCHEMA_VERSION` and `NETWORK_SCHEMA_VERSION`. -/
def schemaVersion : EventKind → Int
  | appStats | reviewObserved => 1
  | networkAnalysis => 1

def topic : EventKind → String
  | appStats => "playstore.app-stats.v1"
  | reviewObserved => "playstore.review-observed.v1"
  | networkAnalysis => "network.analysis-collected.v1"

def ofEventType (eventType : PyStr) : Option EventKind :=
  [appStats, reviewObserved, networkAnalysis].find? fun kind => pyStr kind.eventType = eventType

def deserialize (codec : Codec) (value : List UInt8) : EventKind →
    Except CodecError SupportedEvent
  | appStats => (codec.appStats value).map .appStats
  | reviewObserved => (codec.reviewObserved value).map .reviewObserved
  | networkAnalysis => (codec.networkAnalysis value).map .networkAnalysis

end EventKind

def envelopeFields : List String :=
  ["event_id", "event_type", "schema_version", "occurred_at", "payload"]

/-- `set(raw) == ENVELOPE_FIELDS`. -/
def hasEnvelopeFields (fields : List (PyStr × Json)) : Bool :=
  (fields.all fun f => (envelopeFields.map pyStr).contains f.1)
    && envelopeFields.all fun name => fields.any fun f => f.1 = pyStr name

def jsonField (fields : List (PyStr × Json)) (name : String) : Json :=
  ((fields.find? fun f => f.1 = pyStr name).map (·.2)).getD .null

def SupportedEvent.applicationId : SupportedEvent → Uuid
  | .appStats e => e.payload.applicationId
  | .reviewObserved e => e.payload.applicationId
  | .networkAnalysis e => e.payload.applicationId

/-- The key is the UTF-8 text of the payload's application. -/
def checkKey (key : Option (List UInt8)) (event : SupportedEvent)
    (context : List (String × Json)) : Except DecodeError SupportedEvent :=
  match key with
  | none => .error (invalid "missing_key" context)
  | some bytes =>
      match String.fromUTF8? ⟨bytes.toArray⟩ with
      | none => .error (invalid "invalid_utf8_key" context)
      | some decodedKey =>
          if decodedKey = event.applicationId.text then .ok event
          else .error (invalid "application_key_mismatch" context)

/-- `decode_message` once the envelope's own fields are known to be there. -/
def decodeEnvelope (codec : Codec) (topic : String) (record : KafkaRecord)
    (value : List UInt8) (fields : List (PyStr × Json)) : Except DecodeError SupportedEvent :=
  match jsonField fields "event_type" with
  | .str (c :: cs) =>
      match EventKind.ofEventType (c :: cs) with
      | none => .error (invalid "unsupported_event_type" [("event_type", .str (c :: cs))])
      | some kind =>
          let schemaVersion := jsonField fields "schema_version"
          let context := [("event_type", .str (c :: cs)), ("schema_version", schemaVersion)]
          match schemaVersion with
          | .int n =>
              if n ≠ kind.schemaVersion then
                .error (invalid "unsupported_schema_version" context)
              else if topic ≠ kind.topic then .error (invalid "topic_event_mismatch" context)
              else do
                let event ← orInvalid (kind.deserialize codec value)
                  (invalid "invalid_envelope_or_payload" context)
                checkKey record.key event context
          | _ => .error (invalid "unsupported_schema_version" context)
  | _ => .error (invalid "invalid_envelope")

def decodeMessage (codec : Codec) (topic : String) (record : KafkaRecord) :
    Except DecodeError SupportedEvent :=
  match record.value with
  | none => .error (invalid "missing_value")
  | some value => do
      match ← orInvalid (codec.loads value) (invalid "invalid_json") with
      | .dict fields =>
          if hasEnvelopeFields fields then decodeEnvelope codec topic record value fields
          else .error (invalid "invalid_envelope")
      | _ => .error (invalid "invalid_envelope")

/-! ## The two systems -/

/-- A transaction that committed: whether it claimed its event or found it
claimed. -/
structure CommittedTx where
  event : SupportedEvent
  source : TopicPartition
  offset : Nat
  refs : Refs
  env : TxEnv

/-- An assignment of a partition to a run's consumer: its number, and the
offset the next record is handed out from. -/
structure Assignment where
  generation : Nat
  position : Nat
deriving DecidableEq

/-- The last three fields are not stored anywhere: they list, in order, the
transactions that committed, the positions whose transaction raised, and the
offsets the coordinator accepted, the latter two with the run they belong to. -/
structure IngestionState where
  tables : IngestTables
  committed : TopicPartition → Nat
  generation : TopicPartition → Nat
  owner : TopicPartition → Option Nat
  assigned : Nat → TopicPartition → Option Assignment
  transactions : List CommittedTx
  raised : List (Nat × TopicPartition × Nat)
  commits : List (Nat × TopicPartition × Nat)

namespace IngestionState

/-- Empty tables, and every partition at its start. -/
def initial : IngestionState where
  tables := IngestTables.empty
  committed := fun _ => 0
  generation := fun _ => 0
  owner := fun _ => none
  assigned := fun _ _ => none
  transactions := []
  raised := []
  commits := []

/-- The consumer of run `i` continues at `a` in `source`. -/
def withAssignment (i : Nat) (source : TopicPartition) (a : Assignment)
    (s : IngestionState) : IngestionState :=
  { s with assigned := fun j p => if j = i ∧ p = source then some a else s.assigned j p }

/-- A rebalance: run `i` gets the partition and resumes from the committed
offset. -/
def assign (i : Nat) (source : TopicPartition) (s : IngestionState) : IngestionState :=
  { s.withAssignment i source ⟨s.generation source + 1, s.committed source⟩ with
    generation := fun p => if p = source then s.generation source + 1 else s.generation p
    owner := fun p => if p = source then some i else s.owner p }

/-- The transaction of `message` raised: nothing is left of it. -/
def rollback (i : Nat) (message : Message) (s : IngestionState) : IngestionState :=
  { s with raised := s.raised ++ [(i, message.source, message.offset)] }

/-- The coordinator takes the offset after `message`. -/
def commitOffset (i : Nat) (message : Message) (s : IngestionState) : IngestionState :=
  { s with
    committed := fun p => if p = message.source then message.offset + 1 else s.committed p
    commits := s.commits ++ [(i, message.source, message.offset + 1)] }

end IngestionState

/-! ## Commands -/

inductive WorkerCmd where
  | poll
  | transact (message : Message) (event : SupportedEvent)
  | commit (message : Message)
  | close

def WorkerCmd.Answer : WorkerCmd → Type
  | poll => Option Message
  | transact _ _ => Bool
  | _ => Unit

inductive WorkerError where
  | consumerMessage
  | decode
  | database (error : Option IngestError)
  | consumerCommit
  | consumerClose

/-- Where a call fails: before it took effect, or after, with the answer lost. -/
inductive CallFault where
  | none
  | before
  | after
deriving DecidableEq

/-- What the environment decides in one step: whether and where the call fails,
which partition a poll hands a record out from (none when it times out), and
what the transaction reads. -/
structure WorkerEnv where
  fault : CallFault
  source : Option TopicPartition
  refs : Refs
  tx : TxEnv

section Exec

variable (log : TopicPartition → List KafkaRecord)

/-- `KafkaConsumer.poll`: the next record of an assigned partition. -/
def pollMessage (i : Nat) (source : TopicPartition) (s : IngestionState) :
    Option (Message × IngestionState) := do
  let a ← s.assigned i source
  let record ← (log source)[a.position]?
  pure (⟨source, a.position, record, a.generation⟩,
    s.withAssignment i source { a with position := a.position + 1 })

/-- The broker, the coordinator and the database. -/
def workerExec : Exec IngestionState WorkerCmd WorkerEnv WorkerError WorkerCmd.Answer
  | i, e, .poll, s =>
      if e.fault ≠ .none then some (.error .consumerMessage, s)
      else
        match e.source with
        | none => some (.ok none, s)
        | some source => (pollMessage log i source s).map fun p => (.ok (some p.1), p.2)
  | i, e, .transact message event, s =>
      if e.fault ≠ .none then some (.error (.database none), s.rollback i message)
      else
        match ingestTransaction e.refs event message.source message.offset e.tx s.tables with
        | .error x => some (.error (.database (some x)), s.rollback i message)
        | .ok (claimed, tables) =>
            some (.ok claimed, { s with
              tables := tables
              transactions := s.transactions ++
                [⟨event, message.source, message.offset, e.refs, e.tx⟩] })
  | i, e, .commit message, s =>
      if e.fault = .before ∨ s.owner message.source ≠ some i
          ∨ s.generation message.source ≠ message.generation then
        some (.error .consumerCommit, s)
      else if e.fault = .after then some (.error .consumerCommit, s.commitOffset i message)
      else some (.ok (), s.commitOffset i message)
  | _, e, .close, s =>
      if e.fault ≠ .none then some (.error .consumerClose, s) else some (.ok (), s)

end Exec

/-! ## The worker -/

abbrev WorkerProcess := Prog WorkerCmd WorkerCmd.Answer WorkerError

namespace IngestionWorker

def call (c : WorkerCmd) : WorkerProcess c.Answer := Prog.cmd c

def processNext (codec : Codec) : WorkerProcess Bool := do
  match ← call .poll with
  | none => pure false
  | some message =>
      match decodeMessage codec message.source.topic message.record with
      | .error (.invalid _) => do
          call (.commit message)
          pure true
      | .error .escaped => Prog.raise .decode
      | .ok event => do
          -- the answer decides what is logged, and nothing else
          let _claimed ← call (.transact message event)
          call (.commit message)
          pure true

/-- `while not self._stopping`: `stop` comes from a signal handler, so the loop
ends after any number of rounds. -/
def loop (codec : Codec) : Nat → WorkerProcess Unit
  | 0 => pure ()
  | rounds + 1 => do
      let _ ← processNext codec
      loop codec rounds

def runForever (codec : Codec) (rounds : Nat) : WorkerProcess Unit :=
  (loop codec rounds).ensure (call .close)

end IngestionWorker

/-- Any number of runs over one consumer group and one database; the outside
steps are the coordinator's rebalances. -/
def ingestion (codec : Codec) (log : TopicPartition → List KafkaRecord) :
    System IngestionState WorkerCmd WorkerEnv (Nat × TopicPartition) Nat WorkerError Unit
      WorkerCmd.Answer where
  exec := workerExec log
  prog := IngestionWorker.runForever codec
  crash := fun _ s => s
  ext := fun (i, source) s => some (s.assign i source)

abbrev IngestionWorld := World IngestionState WorkerCmd Nat WorkerError Unit WorkerCmd.Answer

end Sahabino
