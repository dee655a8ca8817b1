import Sahabino.CaptureService
import Sahabino.IngestionWorker

/-!
# The Kafka producer

`KafkaProducer` over librdkafka, and the network publisher on top of it.

A method of the producer holds its lock from end to end, so each of them
is one function on the producer's state. Inside it the library is the
environment: whether `produce` takes the message, and which queued
messages `poll` and `flush` report on. Callbacks run nowhere else. A
message is queued until it is reported, and it is reported once.

The methods raise, and keep what they did before; so they return the
exception beside the state.
-/

namespace Sahabino

open Conc

/-! ## Messages and their reports -/

structure ProducerMessage (ε : Type) where
  topic : String
  key : String
  event : ε
deriving DecidableEq

/-- An entry of `_delivery_errors`. The message's number is not part of the text. -/
structure DeliveryFailure where
  message : Nat
  text : String
deriving DecidableEq

inductive ProducerError where
  | closed
  | serialization
  | blankKey
  | publishFailed (topic : String)
  | queueFull (topic : String) (attempts : Nat)
  | pollFailed (topic : String)
  | callbacksFailed (topic : String)
  | flushFailed
  | undelivered (remaining : Nat)
  | delivery (failures : List DeliveryFailure)

/-- The broker's answer for a queued message; an error comes with the partition. -/
structure DeliveryReport where
  message : Nat
  error : Option (Int × String)

/-- `poll` or `flush`: the callbacks it runs, and whether it raises after them. -/
structure PollEnv where
  reports : List DeliveryReport
  raises : Bool

inductive ProduceOutcome where
  | queued
  | bufferFull
  | raised

/-- One round of the queue-full loop. -/
structure ProduceAttempt where
  outcome : ProduceOutcome
  poll : PollEnv

structure PublishEnv where
  serializes : Bool
  attempts : Nat → ProduceAttempt
  poll : PollEnv

/-- Messages are numbered in the order in which they were queued, each with the
process that did; `acknowledged` lists the ones reported without an error, and
`awaiting` the publisher calls between their `publish` and their `flush`, with
the number of their message. These three are stored nowhere. -/
structure ProducerState (ε : Type) where
  deliveryErrors : List DeliveryFailure
  closed : Bool
  queue : List Nat
  messages : List (Nat × ProducerMessage ε)
  acknowledged : List Nat
  awaiting : List (Nat × Nat)

structure ProducerConfig where
  queueFullMaxRetries : Nat

/-- `str.isspace` of one character. -/
def isPySpace (c : Char) : Bool :=
  isWhiteSpace c || [0x1C, 0x1D, 0x1E, 0x1F].contains c.toNat

namespace ProducerState

variable {ε : Type}

def initial : ProducerState ε := ⟨[], false, [], [], [], []⟩

/-- `_on_delivery`. -/
def onDelivery (report : DeliveryReport) (s : ProducerState ε) : ProducerState ε :=
  match report.error with
  | none => { s with acknowledged := s.acknowledged ++ [report.message] }
  | some (partition, error) =>
      let topic := (s.messages[report.message]?.map fun m => m.2.topic).getD ""
      { s with deliveryErrors := s.deliveryErrors ++
        [⟨report.message, topic ++ "[" ++ toString partition ++ "] delivery failed: " ++ error⟩] }

/-- The callback of a message that is still queued. -/
def report (report : DeliveryReport) (s : ProducerState ε) : ProducerState ε :=
  if report.message ∈ s.queue then
    onDelivery report { s with queue := s.queue.erase report.message }
  else s

def serve (reports : List DeliveryReport) (s : ProducerState ε) : ProducerState ε :=
  reports.foldl (fun s r => s.report r) s

end ProducerState

/-- A method's outcome: how it ended, and the state it leaves. -/
structure ProducerOutcome (ε : Type) where
  result : Except ProducerError Unit
  state : ProducerState ε

/-- The rest of a method, unless it raised. -/
def ProducerOutcome.andThen {ε : Type} (r : ProducerOutcome ε)
    (f : ProducerState ε → ProducerOutcome ε) : ProducerOutcome ε :=
  match r.result with
  | .ok () => f r.state
  | .error _ => r

namespace ProducerState

variable {ε : Type}

def raiseDeliveryErrors (s : ProducerState ε) : ProducerOutcome ε :=
  if s.deliveryErrors = [] then ⟨.ok (), s⟩
  else ⟨.error (.delivery s.deliveryErrors), { s with deliveryErrors := [] }⟩

def ensureOpen (s : ProducerState ε) : ProducerOutcome ε :=
  if s.closed then ⟨.error .closed, s⟩ else ⟨.ok (), s⟩

/-- A `poll` whose exception is turned into `x`, and `_raise_delivery_errors`. -/
def pollThenRaise (poll : PollEnv) (x : ProducerError) (s : ProducerState ε) : ProducerOutcome ε :=
  let s' := s.serve poll.reports
  if poll.raises then ⟨.error x, s'⟩ else s'.raiseDeliveryErrors

def enqueue (i : Nat) (message : ProducerMessage ε) (s : ProducerState ε) : ProducerState ε :=
  { s with
    queue := s.queue ++ [s.messages.length]
    messages := s.messages ++ [(i, message)] }

/-- The loop of `_publish` with this many retries left; `attempt` counts up. -/
def produce (i : Nat) (message : ProducerMessage ε) (attempts : Nat → ProduceAttempt) :
    Nat → Nat → ProducerState ε → ProducerOutcome ε
  | retries, attempt, s =>
      match (attempts attempt).outcome with
      | .queued => ⟨.ok (), s.enqueue i message⟩
      | .raised => ⟨.error (.publishFailed message.topic), s⟩
      | .bufferFull =>
          match retries with
          | 0 => ⟨.error (.queueFull message.topic (attempt + 1)), s⟩
          | retries + 1 =>
              (s.pollThenRaise (attempts attempt).poll (.pollFailed message.topic)).andThen
                (produce i message attempts retries (attempt + 1))

/-- `serialize_event` and `encode_message_key`. -/
def encode (message : ProducerMessage ε) (env : PublishEnv) (s : ProducerState ε) :
    ProducerOutcome ε :=
  if !env.serializes then ⟨.error .serialization, s⟩
  else if message.key.toList.all isPySpace then ⟨.error .blankKey, s⟩
  else ⟨.ok (), s⟩

/-- `_publish`. -/
def publish (cfg : ProducerConfig) (i : Nat) (message : ProducerMessage ε) (env : PublishEnv)
    (s : ProducerState ε) : ProducerOutcome ε :=
  s.ensureOpen.andThen fun s => (s.encode message env).andThen fun s =>
    (s.produce i message env.attempts cfg.queueFullMaxRetries 0).andThen fun s =>
      s.pollThenRaise env.poll (.callbacksFailed message.topic)

/-- `_flush`. -/
def flush (env : PollEnv) (s : ProducerState ε) : ProducerOutcome ε :=
  s.ensureOpen.andThen fun s =>
    let s' := s.serve env.reports
    if env.raises then ⟨.error .flushFailed, s'⟩
    else if s'.queue ≠ [] then ⟨.error (.undelivered s'.queue.length), s'⟩
    else s'.raiseDeliveryErrors

/-- `publish_batch`. -/
def publishBatch (cfg : ProducerConfig) (i : Nat) (publishes : Nat → PublishEnv) (env : PollEnv) :
    List (ProducerMessage ε) → ProducerState ε → ProducerOutcome ε
  | [], s => s.flush env
  | message :: messages, s => (s.publish cfg i message (publishes 0)).andThen
      (publishBatch cfg i (fun k => publishes (k + 1)) env messages)

def close (env : PollEnv) (s : ProducerState ε) : ProducerOutcome ε :=
  if s.closed then ⟨.ok (), s⟩
  else (s.flush env).andThen fun s => ⟨.ok (), { s with closed := true }⟩

end ProducerState

/-! ## The producer's methods as commands -/

inductive ProducerCmd (ε : Type) where
  | publish (message : ProducerMessage ε)
  | flush
  | publishBatch (messages : List (ProducerMessage ε))
  | close

structure ProducerEnv where
  publishes : Nat → PublishEnv
  flush : PollEnv

def ProducerCmd.Answer {ε : Type} (_ : ProducerCmd ε) : Type := Unit

/-- A lock-protected method of the process `i`. The first message it queues gets
the next number. -/
def producerMethod {ε : Type} (cfg : ProducerConfig) (i : Nat) (e : ProducerEnv) :
    ProducerCmd ε → ProducerState ε → ProducerOutcome ε
  | .publish message, s => (s.publish cfg i message (e.publishes 0)).andThen fun s' =>
      ⟨.ok (), { s' with awaiting := s'.awaiting ++ [(i, s.messages.length)] }⟩
  | .flush, s =>
      let r := s.flush e.flush
      { r with state := { r.state with awaiting := r.state.awaiting.filter fun a => a.1 ≠ i } }
  | .publishBatch messages, s => s.publishBatch cfg i e.publishes e.flush messages
  | .close, s => s.close e.flush

inductive PublisherError where
  | valueError (message : String)
  | captureDispatch (message : String)
  | producer (error : ProducerError)

def producerExec {ε : Type} (cfg : ProducerConfig) :
    Exec (ProducerState ε) (ProducerCmd ε) ProducerEnv PublisherError ProducerCmd.Answer :=
  fun i e c s =>
    let r := producerMethod cfg i e c s
    some (r.result.mapError .producer, r.state)

/-! ## The network publisher -/

inductive NetworkEvent where
  | captureReady (event : EventEnvelope NetworkCaptureReadyV1)
  | analysisCollected (event : EventEnvelope NetworkAnalysisCollectedV1)

/-- `NETWORK_CAPTURE_READY_TOPIC`. -/
def captureReadyTopic : String := "network.capture-ready.v1"

/-- `NETWORK_ANALYSIS_COLLECTED_TOPIC`. -/
def analysisCollectedTopic : String := "network.analysis-collected.v1"

abbrev PublisherProcess :=
  Prog (ProducerCmd NetworkEvent) ProducerCmd.Answer PublisherError Unit

namespace KafkaNetworkPublisher

/-- The `try` block of both methods. -/
def dispatch (message : ProducerMessage NetworkEvent) (failure : String) : PublisherProcess :=
  (do
    let _ ← Prog.cmd (ProducerCmd.publish message)
    let _ ← Prog.cmd ProducerCmd.flush
    pure ()).tryCatch fun _ => Prog.raise (.captureDispatch failure)

def readyMessage (capture : NetworkCapture) (packageName : NonBlankString)
    (uploadedAt : Timestamp) : ProducerMessage NetworkEvent where
  topic := captureReadyTopic
  key := capture.applicationId.text
  event := .captureReady
    (captureReadyEnvelope (readyPayload capture packageName uploadedAt) capture.readyEventId)

def analysisMessage (capture : NetworkCapture) (payload : NetworkAnalysisCollectedV1) :
    ProducerMessage NetworkEvent where
  topic := analysisCollectedTopic
  key := capture.applicationId.text
  event := .analysisCollected (analysisCollectedEnvelope payload capture.analysisEventId)

def publishReady (capture : NetworkCapture) (packageName : NonBlankString) : PublisherProcess :=
  match capture.uploadedAt with
  | none => Prog.raise (.valueError "an uploaded timestamp is required before publication")
  | some uploadedAt => dispatch (readyMessage capture packageName uploadedAt)
      "Could not publish the capture-ready event"

def publishAnalysis (capture : NetworkCapture) (payload : NetworkAnalysisCollectedV1) :
    PublisherProcess :=
  dispatch (analysisMessage capture payload) "Could not publish the analysis event"

end KafkaNetworkPublisher

/-- A call of the publisher by a thread. -/
inductive PublisherCall where
  | publishReady (capture : NetworkCapture) (packageName : NonBlankString)
  | publishAnalysis (capture : NetworkCapture) (payload : NetworkAnalysisCollectedV1)

namespace PublisherCall

/-- The message the call queues, if it comes to that. -/
def message : PublisherCall → Option (ProducerMessage NetworkEvent)
  | publishReady capture packageName =>
      capture.uploadedAt.map (KafkaNetworkPublisher.readyMessage capture packageName)
  | publishAnalysis capture payload =>
      some (KafkaNetworkPublisher.analysisMessage capture payload)

def process : PublisherCall → PublisherProcess
  | publishReady capture packageName => KafkaNetworkPublisher.publishReady capture packageName
  | publishAnalysis capture payload => KafkaNetworkPublisher.publishAnalysis capture payload

end PublisherCall

/-- Any number of threads over one publisher and one producer. -/
def networkPublisher (cfg : ProducerConfig) :
    System (ProducerState NetworkEvent) (ProducerCmd NetworkEvent) ProducerEnv Empty PublisherCall
      PublisherError Unit ProducerCmd.Answer where
  exec := producerExec cfg
  prog := PublisherCall.process
  crash := fun _ s => s
  ext := fun x _ => nomatch x

abbrev PublisherWorld := World (ProducerState NetworkEvent) (ProducerCmd NetworkEvent)
  PublisherCall PublisherError Unit ProducerCmd.Answer

end Sahabino
