import Mathlib.Data.List.Sort
import Mathlib.Logic.Function.Basic
import Sahabino.Lib.Pool
import Sahabino.Lib.PyText

/-!
# Provisioning the topics

`ensure_topics` of `messaging/admin.py`, which every crawler runs when it
starts: look at the metadata, create what is missing, and look again at
what another one was faster to create. The broker answers a creation when
it likes, may lose the answer, and shows metadata that lacks a topic for a
while; other clients create topics too.

Any number of these run at once. Whoever returns has found or made every
topic it needs with the topology it asked for, and a topic is reported as
created by one of them at most.
-/

namespace Sahabino

namespace Admin

open Conc

/-! ## Metadata -/

/-- `TopicTopology` -/
structure TopicTopology where
  partitions : Nat
  replicationFactor : Nat
  partitions_pos : 1 ≤ partitions
  replication_pos : 1 ≤ replicationFactor
deriving DecidableEq

/-- `none` for replicas that are no sequence. -/
structure PartitionMetadata where
  error : Option String
  replicas : Option (List ℤ)

/-- `none` for partitions that are no mapping. -/
structure TopicMetadata where
  error : Option String
  partitions : Option (List (ℤ × PartitionMetadata))

structure ClusterMetadata where
  topics : Option (String → Option TopicMetadata)

/-- The errors of `TopicProvisioningError`. -/
inductive ProvisioningProblem where
  | noClient
  | metadataUnread
  | metadataTimeout
  | noTopicMap
  | topicError (name error : String)
  | noPartitions (name : String)
  | partitionError (name : String) (id : ℤ) (error : String)
  | noReplicaList (name : String) (id : ℤ)
  | noReplicas (name : String) (id : ℤ)
  | inconsistent (name : String) (counts : List Nat)
  | notRequested
  | requestTimeout
  | noResult (name : String)
  | notCreated (name : String)
  | creationTimeout (name : String)
  | vanished (name : String)
deriving DecidableEq

/-- The message; `repr` is that of a text. -/
def ProvisioningProblem.message (repr : String → String) : ProvisioningProblem → String
  | noClient => "could not construct Kafka admin client"
  | metadataUnread => "could not read Kafka topic metadata"
  | metadataTimeout => "timed out reading Kafka topic metadata"
  | noTopicMap => "Kafka cluster metadata has no valid topic map"
  | topicError name error =>
      "Kafka metadata for topic " ++ repr name ++ " contains an error: " ++ error
  | noPartitions name => "Kafka metadata for topic " ++ repr name ++ " has no valid partitions"
  | partitionError name id error =>
      "Kafka metadata for topic " ++ repr name ++ " partition " ++ toString id ++
        " contains an error: " ++ error
  | noReplicaList name id =>
      "Kafka metadata for topic " ++ repr name ++ " partition " ++ toString id ++
        " has no valid replica list"
  | noReplicas name id =>
      "Kafka metadata for topic " ++ repr name ++ " partition " ++ toString id ++ " has no replicas"
  | inconsistent name counts =>
      "Kafka topic " ++ repr name ++ " has inconsistent replication factors across partitions: " ++
        ", ".intercalate (counts.map toString)
  | notRequested => "could not request Kafka topic creation"
  | requestTimeout => "timed out requesting Kafka topic creation"
  | noResult name => "Kafka did not return a creation result for topic " ++ repr name
  | notCreated name => "could not create Kafka topic " ++ repr name
  | creationTimeout name => "timed out while creating Kafka topic " ++ repr name
  | vanished name =>
      "Kafka reported topic " ++ repr name ++ " already exists, but metadata is missing"

inductive AdminRaise where
  /-- `KafkaException`, with the code of its `KafkaError` if it has one -/
  | kafka (code : Option ℤ)
  | timeout
  | valueError (message : String)
  | provisioning (problem : ProvisioningProblem)
  /-- `TopicTopologyMismatchError` -/
  | mismatch (name : String) (expected actual : TopicTopology)
  | other (name : String)
deriving DecidableEq

/-- The body of the loop over the partitions. -/
def replicaCount (name : String) (partition : ℤ × PartitionMetadata) :
    Except ProvisioningProblem { n : Nat // 1 ≤ n } :=
  match partition.2.error with
  | some error => .error (.partitionError name partition.1 error)
  | none =>
      match partition.2.replicas with
      | none => .error (.noReplicaList name partition.1)
      | some replicas =>
          if h : 1 ≤ replicas.length then .ok ⟨replicas.length, h⟩
          else .error (.noReplicas name partition.1)

def replicaCounts (name : String) :
    List (ℤ × PartitionMetadata) → Except ProvisioningProblem (List { n : Nat // 1 ≤ n })
  | [] => .ok []
  | partition :: partitions =>
      (replicaCount name partition).bind fun count =>
        (replicaCounts name partitions).map (count :: ·)

/-- `_existing_topic_topology` -/
def existingTopicTopology (name : String) (topic : TopicMetadata) :
    Except ProvisioningProblem TopicTopology :=
  match topic.error, topic.partitions with
  | some error, _ => .error (.topicError name error)
  | none, none | none, some [] => .error (.noPartitions name)
  | none, some (partition :: partitions) =>
      (replicaCount name partition).bind fun count =>
        (replicaCounts name partitions).bind fun counts =>
          if counts.all (· = count) then
            .ok ⟨partitions.length + 1, count, Nat.succ_pos _, count.2⟩
          else
            .error (.inconsistent name
              (((count :: counts).map Subtype.val).dedup.insertionSort (· ≤ ·)))

/-- `_verify_topic_topology` -/
def verifyTopicTopology (name : String) (topic : TopicMetadata) (expected : TopicTopology) :
    Except AdminRaise Unit :=
  match existingTopicTopology name topic with
  | .error problem => .error (.provisioning problem)
  | .ok actual => if actual = expected then .ok () else .error (.mismatch name expected actual)

/-! ## Commands -/

structure NewTopic where
  topic : String
  topology : TopicTopology
deriving DecidableEq

inductive AdminCommand where
  /-- `AdminClient(…)` -/
  | adminClient (bootstrapServers : String)
  | listTopics
  /-- the names that the reply has a future for -/
  | createTopics (newTopics : List NewTopic)
  /-- `future.result(…)` -/
  | result (name : String)

def AdminReply : AdminCommand → Type
  | .adminClient _ => Unit
  | .listTopics => ClusterMetadata
  | .createTopics _ => List String
  | .result _ => Unit

abbrev AdminProg (α : Type) := Prog AdminCommand AdminReply AdminRaise α

def adminClient (bootstrapServers : String) : AdminProg Unit :=
  Prog.cmd (AdminCommand.adminClient bootstrapServers)

def listTopics : AdminProg ClusterMetadata := Prog.cmd AdminCommand.listTopics

def createTopics (newTopics : List NewTopic) : AdminProg (List String) :=
  Prog.cmd (AdminCommand.createTopics newTopics)

def creationResult (name : String) : AdminProg Unit := Prog.cmd (AdminCommand.result name)

def orRaise {α : Type} : Except AdminRaise α → AdminProg α
  | .ok a => .ret a
  | .error e => .raise e

/-- `KafkaError.TOPIC_ALREADY_EXISTS` -/
def TOPIC_ALREADY_EXISTS : ℤ := 36

/-! ## `ensure_topics` -/

structure EnsureRequest where
  bootstrapServers : String
  topics : List String
  topology : TopicTopology

/-- `_validated_topic_names` -/
def validatedTopicNames (topics : List String) : Except AdminRaise (List String) :=
  if ∃ name ∈ topics, Py.strip name.toList = [] then
    .error (.valueError "Kafka topic names must not be blank")
  else if ¬topics.Nodup then .error (.valueError "Kafka topic names must be unique")
  else .ok topics

/-- `_read_metadata` -/
def readMetadata : AdminProg ClusterMetadata :=
  listTopics.tryCatch fun
    | .kafka _ => .raise (.provisioning .metadataUnread)
    | .timeout => .raise (.provisioning .metadataTimeout)
    | e => .raise e

/-- `_metadata_topics` -/
def metadataTopics (metadata : ClusterMetadata) :
    Except AdminRaise (String → Option TopicMetadata) :=
  match metadata.topics with
  | some topics => .ok topics
  | none => .error (.provisioning .noTopicMap)

/-- The first loop: the names that the metadata lacks. -/
def findMissing (known : String → Option TopicMetadata) (topology : TopicTopology) :
    List String → Except AdminRaise (List String)
  | [] => .ok []
  | name :: names =>
      match known name with
      | none => (findMissing known topology names).map (name :: ·)
      | some topic =>
          (verifyTopicTopology name topic topology).bind fun _ => findMissing known topology names

/-- Whether the creation of a topic succeeded; otherwise it already existed. -/
def awaitCreation (futures : List String) (name : String) : AdminProg Bool :=
  if name ∈ futures then
    (do creationResult name; pure true : AdminProg Bool).tryCatch fun
      | .kafka code =>
          if code = some TOPIC_ALREADY_EXISTS then pure false
          else .raise (.provisioning (.notCreated name))
      | .timeout => .raise (.provisioning (.creationTimeout name))
      | e => .raise e
  else .raise (.provisioning (.noResult name))

/-- The second loop: `created` and `raced_topics`. -/
def awaitCreations (futures : List String) : List String → AdminProg (List String × List String)
  | [] => pure ([], [])
  | name :: names => do
      let won ← awaitCreation futures name
      let (created, raced) ← awaitCreations futures names
      pure (if won then (name :: created, raced) else (created, name :: raced))

/-- The third loop. -/
def verifyRaced (known : String → Option TopicMetadata) (topology : TopicTopology) :
    List String → Except AdminRaise Unit
  | [] => .ok ()
  | name :: names =>
      match known name with
      | none => .error (.provisioning (.vanished name))
      | some topic =>
          (verifyTopicTopology name topic topology).bind fun _ => verifyRaced known topology names

/-- `ensure_topics` -/
def ensureTopics (r : EnsureRequest) : AdminProg (List String) := do
  let names ← orRaise (validatedTopicNames r.topics)
  (adminClient r.bootstrapServers).tryCatch fun
    | .kafka _ => .raise (.provisioning .noClient)
    | e => .raise e
  let metadata ← readMetadata
  let known ← orRaise (metadataTopics metadata)
  let missing ← orRaise (findMissing known r.topology names)
  if missing = [] then pure []
  else
    let futures ← (createTopics (missing.map fun name => ⟨name, r.topology⟩)).tryCatch fun
      | .kafka _ => .raise (.provisioning .notRequested)
      | .timeout => .raise (.provisioning .requestTimeout)
      | e => .raise e
    let (created, raced) ← awaitCreations futures missing
    if raced = [] then pure created
    else
      let refreshed ← readMetadata
      let refreshedTopics ← orRaise (metadataTopics refreshed)
      orRaise (verifyRaced refreshedTopics r.topology raced)
      pure created

/-! ## The cluster -/

/-- A topic: the replicas of its partitions. -/
structure Topic where
  partitions : List (ℤ × List ℤ)

def Topic.Has (topic : Topic) (topology : TopicTopology) : Prop :=
  topic.partitions.length = topology.partitions ∧
    ∀ partition ∈ topic.partitions, partition.2.length = topology.replicationFactor

instance (topic : Topic) (topology : TopicTopology) : Decidable (topic.Has topology) :=
  inferInstanceAs (Decidable (_ ∧ _))

/-- Metadata without an error shows a topic as it is. -/
def TopicMetadata.Shows (metadata : TopicMetadata) (topic : Topic) : Prop :=
  metadata.error = none → ∀ partitions, metadata.partitions = some partitions →
    (∀ partition ∈ partitions, partition.2.error = none) →
      partitions.map (fun partition => (partition.1, partition.2.replicas)) =
        topic.partitions.map fun partition => (partition.1, some partition.2)

/-- Who created a topic: a session, or a client that is none of ours. -/
inductive Creator where
  | session (i : Nat)
  | client
deriving DecidableEq

/-- The topics, who created those that were not there from the start, what each session has asked
for, and what it has been or will be told. -/
structure Cluster where
  topics : String → Option Topic
  creator : String → Option Creator
  requested : Nat → List NewTopic
  outcome : Nat → String → Option (Except (Option ℤ) Unit)

/-- What the network decides about a command. -/
structure AdminEnv where
  failure : Option AdminRaise
  metadata : ClusterMetadata
  futures : List String

def answer {α : Type} (failure : Option AdminRaise) (a : α) : Except AdminRaise α :=
  match failure with
  | some e => .error e
  | none => .ok a

def adminExec : Exec Cluster AdminCommand AdminEnv AdminRaise AdminReply := fun i e c s =>
  match c with
  | .adminClient _ => some (answer e.failure (), s)
  | .listTopics => some (answer e.failure e.metadata, s)
  | .createTopics newTopics =>
      some (answer e.failure e.futures,
        { s with requested := Function.update s.requested i (s.requested i ++ newTopics) })
  | .result name =>
      match e.failure, s.outcome i name with
      | some (.kafka _), _ => none
      | some e, _ => some (.error e, s)
      | none, some (.ok ()) => some (.ok (), s)
      | none, some (.error code) => some (.error (.kafka code), s)
      | none, none => none

/-- A new topic. -/
def Cluster.add (s : Cluster) (name : String) (topic : Topic) (creator : Creator) : Cluster :=
  { s with
    topics := Function.update s.topics name (some topic)
    creator := Function.update s.creator name (some creator) }

/-- An answer to a session. -/
def Cluster.tell (s : Cluster) (i : Nat) (name : String) (o : Except (Option ℤ) Unit) : Cluster :=
  { s with outcome := fun j x => if j = i ∧ x = name then some o else s.outcome j x }

/-- What the broker and other clients do. -/
inductive ClusterStep where
  /-- the broker creates a topic for a session, and answers, unless it has been given up -/
  | create (i : Nat) (newTopic : NewTopic) (topic : Topic) (answer : Except (Option ℤ) Unit)
  /-- no creation, or none yet, but an answer -/
  | refuse (i : Nat) (newTopic : NewTopic) (code : Option ℤ)
  /-- another client creates a topic -/
  | other (name : String) (topic : Topic)

def clusterStep : ClusterStep → Cluster → Option Cluster
  | .create i newTopic topic answer, s =>
      if newTopic ∈ s.requested i ∧ s.topics newTopic.topic = none ∧
          topic.Has newTopic.topology then
        some ((s.add newTopic.topic topic (.session i)).tell i newTopic.topic
          ((s.outcome i newTopic.topic).getD answer))
      else none
  | .refuse i newTopic code, s =>
      if newTopic ∈ s.requested i ∧ s.outcome i newTopic.topic = none ∧
          (code = some TOPIC_ALREADY_EXISTS → s.topics newTopic.topic ≠ none) then
        some (s.tell i newTopic.topic (.error code))
      else none
  | .other name topic, s =>
      if s.topics name = none then some (s.add name topic .client) else none

/-- Any number of processes that provision, over one cluster. -/
def provisioning : System Cluster AdminCommand AdminEnv ClusterStep EnsureRequest AdminRaise
    (List String) AdminReply where
  exec := adminExec
  prog := ensureTopics
  crash := fun _ s => s
  ext := clusterStep


/-! ## What a verification says -/

theorem replicaCount_ok {name : String} {partition : ℤ × PartitionMetadata}
    {count : { n : Nat // 1 ≤ n }} (h : replicaCount name partition = .ok count) :
    partition.2.error = none ∧
      ∃ replicas, partition.2.replicas = some replicas ∧ replicas.length = count := by
  unfold replicaCount at h
  split at h
  · cases h
  · rename_i herror
    split at h
    · cases h
    · rename_i replicas hreplicas
      split at h
      · obtain rfl := Except.ok.inj h
        exact ⟨herror, replicas, hreplicas, rfl⟩
      · cases h

theorem replicaCounts_ok {name : String} {partitions : List (ℤ × PartitionMetadata)}
    {counts : List { n : Nat // 1 ≤ n }} (h : replicaCounts name partitions = .ok counts)
    {count : { n : Nat // 1 ≤ n }} (hall : ∀ n ∈ counts, n = count) :
    ∀ partition ∈ partitions, replicaCount name partition = .ok count := by
  induction partitions generalizing counts with
  | nil => simp
  | cons partition partitions ih =>
      unfold replicaCounts at h
      cases hcount : replicaCount name partition with
      | error problem =>
          rw [hcount] at h
          cases h
      | ok n =>
          rw [hcount] at h
          cases hcounts : replicaCounts name partitions with
          | error problem =>
              rw [hcounts] at h
              cases h
          | ok ns =>
              rw [hcounts] at h
              obtain rfl : n :: ns = counts := Except.ok.inj h
              obtain rfl := hall n (List.mem_cons_self ..)
              have hrest := ih hcounts fun x hx => hall x (List.mem_cons_of_mem n hx)
              exact List.forall_mem_cons.mpr ⟨hcount, hrest⟩

/-- Every partition was read, and has as many replicas as the others. -/
theorem existingTopicTopology_ok {name : String} {metadata : TopicMetadata}
    {topology : TopicTopology} (h : existingTopicTopology name metadata = .ok topology) :
    metadata.error = none ∧ ∃ partitions, metadata.partitions = some partitions ∧
      partitions.length = topology.partitions ∧ ∀ partition ∈ partitions,
        partition.2.error = none ∧ ∃ replicas, partition.2.replicas = some replicas ∧
          replicas.length = topology.replicationFactor := by
  unfold existingTopicTopology at h
  split at h
  · cases h
  · cases h
  · cases h
  · rename_i partition partitions herror hpartitions
    cases hcount : replicaCount name partition with
    | error problem =>
        rw [hcount] at h
        cases h
    | ok count =>
        rw [hcount] at h
        cases hcounts : replicaCounts name partitions with
        | error problem =>
            rw [hcounts] at h
            cases h
        | ok counts =>
            rw [hcounts] at h
            dsimp only [Except.bind] at h
            split at h
            · rename_i hall
              obtain rfl := Except.ok.inj h
              have hall' : ∀ n ∈ counts, n = count := by simpa using hall
              refine ⟨herror, _, hpartitions, rfl, fun x hx => ?_⟩
              rcases List.mem_cons.mp hx with rfl | hx
              · exact replicaCount_ok hcount
              · exact replicaCount_ok (replicaCounts_ok hcounts hall' x hx)
            · cases h

/-- A topology that is read without an error is that of the topic shown. -/
theorem TopicMetadata.Shows.has {name : String} {metadata : TopicMetadata} {topic : Topic}
    {topology : TopicTopology} (hshows : metadata.Shows topic)
    (h : existingTopicTopology name metadata = .ok topology) : topic.Has topology := by
  obtain ⟨herror, partitions, hpartitions, hlength, hall⟩ := existingTopicTopology_ok h
  have hsame := hshows herror partitions hpartitions fun x hx => (hall x hx).1
  refine ⟨?_, fun partition hpartition => ?_⟩
  · have := congrArg List.length hsame
    rw [List.length_map, List.length_map] at this
    exact this.symm.trans hlength
  · have hmem : (partition.1, some partition.2) ∈
        topic.partitions.map fun partition => (partition.1, some partition.2) :=
      List.mem_map_of_mem hpartition
    rw [← hsame] at hmem
    obtain ⟨shown, hshown, heq⟩ := List.mem_map.mp hmem
    obtain ⟨-, replicas, hreplicas, hcount⟩ := hall shown hshown
    obtain ⟨-, hsecond⟩ := Prod.mk.inj heq
    obtain rfl := Option.some.inj (hreplicas.symm.trans hsecond)
    exact hcount

/-- What `metadata` shows is there. -/
def Truthful (known : String → Option TopicMetadata) (s : Cluster) : Prop :=
  ∀ name metadata, known name = some metadata →
    ∃ topic, s.topics name = some topic ∧ metadata.Shows topic

/-- The topic exists with this topology. -/
def Held (topology : TopicTopology) (name : String) (s : Cluster) : Prop :=
  ∃ topic, s.topics name = some topic ∧ topic.Has topology

section

variable {known : String → Option TopicMetadata} {topology : TopicTopology} {s s' s'' : Cluster}

theorem verifyTopicTopology_ok {name : String} {metadata : TopicMetadata} {u : Unit}
    (hs : Truthful known s) (hknown : known name = some metadata)
    (h : verifyTopicTopology name metadata topology = .ok u) : Held topology name s := by
  unfold verifyTopicTopology at h
  split at h
  · cases h
  · rename_i actual hactual
    split at h
    · rename_i heq
      subst heq
      obtain ⟨topic, htopic, hshows⟩ := hs name metadata hknown
      exact ⟨topic, htopic, hshows.has hactual⟩
    · cases h

theorem findMissing_ok {names missing : List String} (hs : Truthful known s)
    (h : findMissing known topology names = .ok missing) :
    missing.Sublist names ∧ ∀ name ∈ names, name ∈ missing ∨ Held topology name s := by
  induction names generalizing missing with
  | nil =>
      obtain rfl := Except.ok.inj h
      exact ⟨.slnil, by simp⟩
  | cons name names ih =>
      unfold findMissing at h
      split at h
      · cases hrest : findMissing known topology names with
        | error e =>
            rw [hrest] at h
            cases h
        | ok rest =>
            rw [hrest] at h
            obtain rfl : name :: rest = missing := Except.ok.inj h
            obtain ⟨hsub, hall⟩ := ih hrest
            refine ⟨hsub.cons_cons name, List.forall_mem_cons.mpr ⟨?_, fun x hx => ?_⟩⟩
            · exact Or.inl (List.mem_cons_self ..)
            · exact (hall x hx).imp_left (List.mem_cons_of_mem name)
      · rename_i metadata hknown
        cases hverify : verifyTopicTopology name metadata topology with
        | error e =>
            rw [hverify] at h
            cases h
        | ok u =>
            rw [hverify] at h
            obtain ⟨hsub, hall⟩ := ih h
            refine ⟨hsub.cons name, List.forall_mem_cons.mpr ⟨?_, hall⟩⟩
            exact Or.inr (verifyTopicTopology_ok hs hknown hverify)

theorem verifyRaced_ok {raced : List String} {u : Unit} (hs : Truthful known s)
    (h : verifyRaced known topology raced = .ok u) : ∀ name ∈ raced, Held topology name s := by
  induction raced with
  | nil => simp
  | cons name names ih =>
      unfold verifyRaced at h
      split at h
      · cases h
      · rename_i metadata hknown
        cases hverify : verifyTopicTopology name metadata topology with
        | error e =>
            rw [hverify] at h
            cases h
        | ok u =>
            rw [hverify] at h
            exact List.forall_mem_cons.mpr ⟨verifyTopicTopology_ok hs hknown hverify, ih h⟩

end

end Admin

end Sahabino
