import Mathlib.Data.List.Induction
import Mathlib.Data.List.Nodup
import Sahabino.IngestionWorker

/-!
# Exactly-once ingestion

A record can be delivered many times: to a run that died before its
offset was committed, to two runs at once around a rebalance. What makes
the effect happen once is the claim in the event's own transaction, and
what makes it happen at all is that an offset is committed only behind
records that are dealt with.

The two arguments meet in the `ingestion` discipline. The shared invariant
(`IngestionInv`) says what the tables are and what lies below a committed
offset; the part a run has to know about itself is which of its positions
it has dealt with (`Idle` between two polls, `InFlight` in between). The
position of a consumer is reset by a rebalance at any time, so `InFlight`
speaks about the position only while the assignment still stands.
-/

namespace Sahabino

open Conc

/-! ## What the tables are -/

/-- The first committed transaction of each event, in order. -/
def firstCommits (txs : List CommittedTx) : List CommittedTx :=
  txs.foldl (fun firsts tx =>
    if firsts.any fun x => x.event.eventId = tx.event.eventId then firsts
    else firsts ++ [tx]) []

/-- `handle_event` for one transaction after the other, from empty tables. -/
def handleAll (txs : List CommittedTx) : Except IngestError IngestTables :=
  txs.foldlM (fun t tx => handleEvent tx.refs tx.event tx.env t) IngestTables.empty

/-- The row `claim_event` leaves. -/
def CommittedTx.row (tx : CommittedTx) : IngestedEvent :=
  { eventId := tx.event.eventId, eventType := tx.event.eventType,
    schemaVersion := tx.event.schemaVersion, source := tx.source, offset := tx.offset,
    processedAt := tx.env.now }

/-- The database holds one row per first commit, and otherwise what
`handle_event` made of these. -/
structure Replayed (s : IngestionState) : Prop where
  events : s.tables.ingestedEvents.rows = (firstCommits s.transactions).map CommittedTx.row
  data : ∃ t, handleAll (firstCommits s.transactions) = .ok t ∧
    s.tables = { t with ingestedEvents := s.tables.ingestedEvents }

theorem firstCommits_append (txs : List CommittedTx) (tx : CommittedTx) :
    firstCommits (txs ++ [tx]) =
      if (firstCommits txs).any fun x => x.event.eventId = tx.event.eventId then firstCommits txs
      else firstCommits txs ++ [tx] := by
  rw [firstCommits, List.foldl_append]
  rfl

/-- No event is handled twice. -/
theorem firstCommits_nodup (txs : List CommittedTx) :
    ((firstCommits txs).map fun tx => tx.event.eventId).Nodup := by
  induction txs using List.reverseRecOn with
  | nil => exact List.nodup_nil
  | append_singleton txs tx ih =>
      rw [firstCommits_append]
      split
      · exact ih
      · rename_i hnew
        rw [List.map_append, List.nodup_append]
        refine ⟨ih, List.nodup_singleton _, fun a ha b hb hab => hnew ?_⟩
        obtain ⟨x, hx, rfl⟩ := List.mem_map.mp ha
        rw [List.mem_singleton.mp hb] at hab
        exact List.any_eq_true.mpr ⟨x, hx, decide_eq_true hab⟩

/-- Every event whose transaction committed is handled. -/
theorem exists_firstCommits {txs : List CommittedTx} {tx : CommittedTx} (h : tx ∈ txs) :
    ∃ x ∈ firstCommits txs, x.event.eventId = tx.event.eventId := by
  induction txs using List.reverseRecOn with
  | nil => cases h
  | append_singleton txs last ih =>
      rw [firstCommits_append]
      rcases List.mem_append.mp h with hold | hlast
      · obtain ⟨x, hx, hid⟩ := ih hold
        split
        · exact ⟨x, hx, hid⟩
        · exact ⟨x, List.mem_append_left _ hx, hid⟩
      · obtain rfl := List.mem_singleton.mp hlast
        split
        · rename_i hany
          obtain ⟨x, hx, hid⟩ := List.any_eq_true.mp hany
          exact ⟨x, hx, of_decide_eq_true hid⟩
        · exact ⟨tx, List.mem_append_right _ (List.mem_singleton_self tx), rfl⟩

/-- The handlers neither read nor write `ingested_events`. -/
theorem handleEvent_ingestedEvents (refs : Refs) (event : SupportedEvent) (env : TxEnv)
    (t : IngestTables) (claimed : Rel.Table IngestedEvent IngestedClash) :
    handleEvent refs event env { t with ingestedEvents := claimed } =
      (handleEvent refs event env t).map fun t' => { t' with ingestedEvents := claimed } := by
  cases event with
  | appStats e =>
      simp only [handleEvent, handleAppStats]
      cases validateCrawlTask refs e.payload.crawlTaskId e.payload.applicationId .appDetails with
      | error x => rfl
      | ok _ => cases insertAppSnapshot e.payload env t.appSnapshots <;> rfl
  | reviewObserved e =>
      simp only [handleEvent, handleReviewObserved]
      cases validateCrawlTask refs e.payload.crawlTaskId e.payload.applicationId .reviews with
      | error x => rfl
      | ok _ => cases upsertReview e.payload env t.reviews <;> rfl
  | networkAnalysis e =>
      simp only [handleEvent, handleNetworkAnalysis]
      cases validateNetworkAnalysis refs e.payload with
      | error x => rfl
      | ok _ => cases insertNetworkAnalysis e.payload env t.analysisResults <;> rfl

/-- What a committed transaction did: nothing, on a claimed event, or its row and
its handler's work. -/
theorem ingestTransaction_ok {tx : CommittedTx} {t t' : IngestTables} {claimed : Bool}
    (h : ingestTransaction tx.refs tx.event tx.source tx.offset tx.env t = .ok (claimed, t')) :
    (t' = t ∧ ∃ row ∈ t.ingestedEvents.rows, IngestedClash row tx.row) ∨
    (t'.ingestedEvents.rows = t.ingestedEvents.rows ++ [tx.row] ∧
      (∀ row ∈ t.ingestedEvents.rows, ¬IngestedClash row tx.row) ∧
      ∃ t₁, handleEvent tx.refs tx.event tx.env t = .ok t₁ ∧
        t' = { t₁ with ingestedEvents := t'.ingestedEvents }) := by
  unfold ingestTransaction at h
  split at h
  · rename_i hclash
    obtain ⟨-, rfl⟩ := Prod.mk.injEq .. |>.mp (Except.ok.inj h)
    exact Or.inl ⟨rfl, Rel.Table.insert_eq_none.mp hclash⟩
  · rename_i claimedRows hinsert
    rw [handleEvent_ingestedEvents] at h
    obtain ⟨t₂, hmap, hpure⟩ := Rel.bind_eq_ok h
    obtain ⟨-, rfl⟩ := Prod.mk.injEq .. |>.mp (Except.ok.inj hpure)
    cases hh : handleEvent tx.refs tx.event tx.env t with
    | error x =>
        rw [hh] at hmap
        cases hmap
    | ok t₁ =>
        rw [hh] at hmap
        obtain rfl := Except.ok.inj hmap
        exact Or.inr ⟨Rel.Table.rows_insert hinsert,
          fun row hrow => Rel.Table.not_clash_of_insert hinsert hrow, t₁, rfl, rfl⟩

/-! ## What a command does -/

section Commands

variable {log : TopicPartition → List KafkaRecord} {i : Nat} {e : WorkerEnv}
  {s s' : IngestionState}

theorem poll_cases {v : Except WorkerError (Option Message)}
    (h : workerExec log i e .poll s = some (v, s')) :
    (s' = s ∧ ((∃ x, v = .error x) ∨ v = .ok none)) ∨
    ∃ source a record, s.assigned i source = some a ∧
      (log source)[a.position]? = some record ∧
      v = .ok (some ⟨source, a.position, record, a.generation⟩) ∧
      s' = s.withAssignment i source { a with position := a.position + 1 } := by
  simp only [workerExec] at h
  split at h
  · obtain ⟨rfl, rfl⟩ := Prod.mk.injEq .. |>.mp (Option.some.inj h)
    exact Or.inl ⟨rfl, Or.inl ⟨_, rfl⟩⟩
  · split at h
    · obtain ⟨rfl, rfl⟩ := Prod.mk.injEq .. |>.mp (Option.some.inj h)
      exact Or.inl ⟨rfl, Or.inr rfl⟩
    · rename_i source _
      obtain ⟨⟨message, s₁⟩, hpoll, hv⟩ := Option.map_eq_some_iff.mp h
      obtain ⟨rfl, rfl⟩ := Prod.mk.injEq .. |>.mp hv
      obtain ⟨a, ha, hrest⟩ := Option.bind_eq_some_iff.mp hpoll
      obtain ⟨record, hrecord, hpure⟩ := Option.bind_eq_some_iff.mp hrest
      obtain ⟨rfl, rfl⟩ := Prod.mk.injEq .. |>.mp (Option.some.inj hpure)
      exact Or.inr ⟨source, a, record, ha, hrecord, rfl, rfl⟩

theorem transact_cases {message : Message} {event : SupportedEvent}
    {v : Except WorkerError Bool}
    (h : workerExec log i e (.transact message event) s = some (v, s')) :
    ((∃ x, v = .error x) ∧ s' = s.rollback i message) ∨
    ∃ claimed tables,
      ingestTransaction e.refs event message.source message.offset e.tx s.tables =
        .ok (claimed, tables) ∧
      v = .ok claimed ∧
      s' = { s with
        tables := tables
        transactions := s.transactions ++
          [⟨event, message.source, message.offset, e.refs, e.tx⟩] } := by
  simp only [workerExec] at h
  split at h
  · obtain ⟨rfl, rfl⟩ := Prod.mk.injEq .. |>.mp (Option.some.inj h)
    exact Or.inl ⟨⟨_, rfl⟩, rfl⟩
  · split at h
    · obtain ⟨rfl, rfl⟩ := Prod.mk.injEq .. |>.mp (Option.some.inj h)
      exact Or.inl ⟨⟨_, rfl⟩, rfl⟩
    · rename_i claimed tables htx
      obtain ⟨rfl, rfl⟩ := Prod.mk.injEq .. |>.mp (Option.some.inj h)
      exact Or.inr ⟨claimed, tables, htx, rfl, rfl⟩

/-- A commit that takes effect comes from the current assignment. -/
theorem commit_cases {message : Message} {v : Except WorkerError Unit}
    (h : workerExec log i e (.commit message) s = some (v, s')) :
    s' = s ∨ (s.owner message.source = some i ∧
      s.generation message.source = message.generation ∧ s' = s.commitOffset i message) := by
  simp only [workerExec] at h
  split at h
  · exact Or.inl (Prod.mk.injEq .. |>.mp (Option.some.inj h)).2.symm
  · rename_i hcurrent
    simp only [not_or, not_not] at hcurrent
    obtain ⟨-, howner, hgeneration⟩ := hcurrent
    split at h
    · exact Or.inr ⟨howner, hgeneration, (Prod.mk.injEq .. |>.mp (Option.some.inj h)).2.symm⟩
    · exact Or.inr ⟨howner, hgeneration, (Prod.mk.injEq .. |>.mp (Option.some.inj h)).2.symm⟩

theorem close_state {v : Except WorkerError Unit}
    (h : workerExec log i e .close s = some (v, s')) : s' = s := by
  simp only [workerExec] at h
  split at h
  · exact (Prod.mk.injEq .. |>.mp (Option.some.inj h)).2.symm
  · exact (Prod.mk.injEq .. |>.mp (Option.some.inj h)).2.symm

end Commands

/-! ## Records that are dealt with -/

section Invariant

variable (codec : Codec) (log : TopicPartition → List KafkaRecord)

/-- `decode_message` rejects the record, or its event has been ingested. -/
def Handled (s : IngestionState) (source : TopicPartition) (record : KafkaRecord) : Prop :=
  (∃ error, decodeMessage codec source.topic record = .error (.invalid error)) ∨
  ∃ event, decodeMessage codec source.topic record = .ok event ∧
    ∃ row ∈ s.tables.ingestedEvents.rows, row.eventId = event.eventId

def HandledBelow (s : IngestionState) (source : TopicPartition) (position : Nat) : Prop :=
  ∀ offset, offset < position →
    ∃ record, (log source)[offset]? = some record ∧ Handled codec s source record

/-- Offsets count the records of a log, so the row at a position is the row of
the record that stands there. -/
structure IngestionInv (s : IngestionState) : Prop where
  replayed : Replayed s
  origin : ∀ row ∈ s.tables.ingestedEvents.rows, ∃ record event,
    (log row.source)[row.offset]? = some record ∧
      decodeMessage codec row.source.topic record = .ok event ∧ row.eventId = event.eventId
  handled : ∀ source, HandledBelow codec log s source (s.committed source)
  current : ∀ i source a, s.assigned i source = some a →
    a.generation ≤ s.generation source ∧
      (a.generation = s.generation source → s.owner source = some i)
  ahead : ∀ i source a, s.assigned i source = some a → a.generation = s.generation source →
    s.committed source ≤ a.position
  accepted : ∀ i source n, (i, source, n) ∈ s.commits → n ≤ s.committed source
  resumed : ∀ i source a n, s.assigned i source = some a → (i, source, n) ∈ s.commits →
    n ≤ a.position
  stopped : ∀ i source offset n, (i, source, offset) ∈ s.raised → (i, source, n) ∈ s.commits →
    n ≤ offset

/-- What a run can count on between two of its commands: a new position comes
with a new assignment, and is a committed one. -/
structure IngestionRely (i : Nat) (s s' : IngestionState) : Prop where
  rows : ∀ row ∈ s.tables.ingestedEvents.rows, row ∈ s'.tables.ingestedEvents.rows
  generation : ∀ source, s.generation source ≤ s'.generation source
  assigned : ∀ source, s'.generation source = s.generation source →
    s'.assigned i source = s.assigned i source
  position : ∀ source a, s'.assigned i source = some a →
    s.assigned i source = some a ∨ HandledBelow codec log s' source a.position
  commits : ∀ source n, (i, source, n) ∈ s'.commits → (i, source, n) ∈ s.commits
  raised : ∀ source offset, (i, source, offset) ∈ s'.raised → (i, source, offset) ∈ s.raised

/-- Between two polls: everything the run's consumer is past has been dealt
with, and no transaction of the run has raised. -/
structure Idle (i : Nat) (s : IngestionState) : Prop where
  handled : ∀ source a, s.assigned i source = some a → HandledBelow codec log s source a.position
  unraised : ∀ source offset, (i, source, offset) ∉ s.raised

/-- From the poll that returned `message` to the next one. -/
structure InFlight (i : Nat) (message : Message) (s : IngestionState) : Prop where
  record : (log message.source)[message.offset]? = some message.record
  below : HandledBelow codec log s message.source message.offset
  generation : message.generation ≤ s.generation message.source
  assigned : s.generation message.source = message.generation →
    s.assigned i message.source = some ⟨message.generation, message.offset + 1⟩
  handled : ∀ source a, s.assigned i source = some a →
    HandledBelow codec log s source a.position ∨
      (source = message.source ∧ a.position = message.offset + 1)
  commits : ∀ n, (i, message.source, n) ∈ s.commits → n ≤ message.offset
  unraised : ∀ source offset, (i, source, offset) ∉ s.raised

/-- What a run owes when it issues a command. -/
def WorkerIssued (i : Nat) : WorkerCmd → IngestionState → Prop
  | .transact message event, s => InFlight codec log i message s ∧
      decodeMessage codec message.source.topic message.record = .ok event
  | .commit message, s => InFlight codec log i message s ∧
      Handled codec s message.source message.record
  | _, _ => True

def ingestionDiscipline : Discipline IngestionState WorkerCmd WorkerEnv (Nat × TopicPartition)
    Nat WorkerError Unit where
  inv := IngestionInv codec log
  rely := IngestionRely codec log
  fresh := Idle codec log
  pre := fun _ => WorkerIssued codec log
  allow := fun _ _ _ _ _ => True
  allowExt := fun _ _ => True
  post := fun _ _ _ _ => True
  xpost := fun _ _ _ _ => True

end Invariant

/-! ## Stability -/

section Stability

variable {codec : Codec} {log : TopicPartition → List KafkaRecord} {i : Nat}
  {s s' s'' : IngestionState}

theorem Handled.mono {source : TopicPartition} {record : KafkaRecord}
    (hrows : ∀ row ∈ s.tables.ingestedEvents.rows, row ∈ s'.tables.ingestedEvents.rows)
    (h : Handled codec s source record) : Handled codec s' source record := by
  rcases h with hinvalid | ⟨event, hevent, row, hrow, hid⟩
  · exact Or.inl hinvalid
  · exact Or.inr ⟨event, hevent, row, hrows row hrow, hid⟩

theorem HandledBelow.mono {source : TopicPartition} {position : Nat}
    (hrows : ∀ row ∈ s.tables.ingestedEvents.rows, row ∈ s'.tables.ingestedEvents.rows)
    (h : HandledBelow codec log s source position) :
    HandledBelow codec log s' source position := by
  intro offset hlt
  obtain ⟨record, hrecord, hhandled⟩ := h offset hlt
  exact ⟨record, hrecord, hhandled.mono hrows⟩

theorem HandledBelow.succ {source : TopicPartition} {position : Nat} {record : KafkaRecord}
    (h : HandledBelow codec log s source position)
    (hrecord : (log source)[position]? = some record) (hhandled : Handled codec s source record) :
    HandledBelow codec log s source (position + 1) := by
  intro offset hlt
  rcases Nat.lt_succ_iff_lt_or_eq.mp hlt with hbelow | rfl
  · exact h offset hbelow
  · exact ⟨record, hrecord, hhandled⟩

theorem IngestionRely.refl (i : Nat) (s : IngestionState) : IngestionRely codec log i s s :=
  ⟨fun _ h => h, fun _ => Nat.le_refl _, fun _ _ => rfl, fun _ _ h => Or.inl h,
    fun _ _ h => h, fun _ _ h => h⟩

theorem IngestionRely.trans (h₁ : IngestionRely codec log i s s')
    (h₂ : IngestionRely codec log i s' s'') : IngestionRely codec log i s s'' where
  rows := fun row hrow => h₂.rows row (h₁.rows row hrow)
  generation := fun source => (h₁.generation source).trans (h₂.generation source)
  assigned := fun source heq => by
    have hle₁ := h₁.generation source
    have hle₂ := h₂.generation source
    rw [h₂.assigned source (by omega), h₁.assigned source (by omega)]
  position := fun source a ha => by
    rcases h₂.position source a ha with hold | hnew
    · rcases h₁.position source a hold with hold | hnew
      · exact Or.inl hold
      · exact Or.inr (hnew.mono h₂.rows)
    · exact Or.inr hnew
  commits := fun source n hn => h₁.commits source n (h₂.commits source n hn)
  raised := fun source n hn => h₁.raised source n (h₂.raised source n hn)

theorem Idle.rely (h : Idle codec log i s) (hr : IngestionRely codec log i s s') :
    Idle codec log i s' where
  handled := fun source a ha => by
    rcases hr.position source a ha with hold | hnew
    · exact (h.handled source a hold).mono hr.rows
    · exact hnew
  unraised := fun source offset hmem => h.unraised source offset (hr.raised source offset hmem)

theorem InFlight.rely {message : Message} (h : InFlight codec log i message s)
    (hr : IngestionRely codec log i s s') : InFlight codec log i message s' where
  record := h.record
  below := h.below.mono hr.rows
  generation := h.generation.trans (hr.generation _)
  assigned := fun heq => by
    have hsame : s'.generation message.source = s.generation message.source :=
      Nat.le_antisymm (heq.trans_le h.generation) (hr.generation _)
    rw [hr.assigned _ hsame]
    exact h.assigned (hsame.symm.trans heq)
  handled := fun source a ha => by
    rcases hr.position source a ha with hold | hnew
    · exact (h.handled source a hold).imp_left fun hb => hb.mono hr.rows
    · exact Or.inl hnew
  commits := fun n hn => h.commits n (hr.commits _ n hn)
  unraised := fun source offset hmem => h.unraised source offset (hr.raised source offset hmem)

/-- Once its record is dealt with, a message leaves the run idle. -/
theorem InFlight.idle {message : Message} (h : InFlight codec log i message s)
    (hhandled : Handled codec s message.source message.record) : Idle codec log i s where
  handled := fun source a ha => by
    rcases h.handled source a ha with hb | ⟨rfl, hposition⟩
    · exact hb
    · rw [hposition]
      exact h.below.succ h.record hhandled
  unraised := h.unraised

end Stability

/-! ## What the commands keep -/

section Steps

variable {codec : Codec} {log : TopicPartition → List KafkaRecord} {i j : Nat}
  {s s' : IngestionState}

@[simp] theorem withAssignment_assigned (i j : Nat) (source p : TopicPartition) (a : Assignment)
    (s : IngestionState) : (s.withAssignment i source a).assigned j p =
      if j = i ∧ p = source then some a else s.assigned j p := rfl

/-- A poll moves one position of the run's own consumer forward. -/
theorem IngestionInv.polled (h : IngestionInv codec log s) {source : TopicPartition}
    {a : Assignment} (ha : s.assigned i source = some a) :
    IngestionInv codec log (s.withAssignment i source { a with position := a.position + 1 }) where
  replayed := ⟨h.replayed.events, h.replayed.data⟩
  origin := h.origin
  handled := fun p => (h.handled p).mono fun _ hrow => hrow
  current := fun j p b hb => by
    rw [withAssignment_assigned] at hb
    split at hb
    · rename_i hself
      obtain ⟨rfl, rfl⟩ := hself
      obtain rfl := Option.some.inj hb
      exact h.current j p a ha
    · exact h.current j p b hb
  ahead := fun j p b hb hgeneration => by
    rw [withAssignment_assigned] at hb
    split at hb
    · rename_i hself
      obtain ⟨rfl, rfl⟩ := hself
      obtain rfl := Option.some.inj hb
      exact (h.ahead j p a ha hgeneration).trans (Nat.le_succ _)
    · exact h.ahead j p b hb hgeneration
  accepted := h.accepted
  resumed := fun j p b n hb hn => by
    rw [withAssignment_assigned] at hb
    split at hb
    · rename_i hself
      obtain ⟨rfl, rfl⟩ := hself
      obtain rfl := Option.some.inj hb
      exact (h.resumed j p a n ha hn).trans (Nat.le_succ _)
    · exact h.resumed j p b n hb hn
  stopped := h.stopped

theorem IngestionRely.polled (hij : j ≠ i) (source : TopicPartition) (a : Assignment) :
    IngestionRely codec log j s (s.withAssignment i source a) := by
  have hsame : ∀ p, (s.withAssignment i source a).assigned j p = s.assigned j p := by
    intro p
    rw [withAssignment_assigned, if_neg fun h => hij h.1]
  exact ⟨fun _ h => h, fun _ => Nat.le_refl _, fun p _ => hsame p,
    fun p b hb => Or.inl (by rwa [hsame] at hb), fun _ _ h => h, fun _ _ h => h⟩

/-- The record the poll returned is in flight. -/
theorem Idle.polled (h : Idle codec log i s) (hinv : IngestionInv codec log s)
    {source : TopicPartition} {a : Assignment} {record : KafkaRecord}
    (ha : s.assigned i source = some a) (hrecord : (log source)[a.position]? = some record) :
    InFlight codec log i ⟨source, a.position, record, a.generation⟩
      (s.withAssignment i source { a with position := a.position + 1 }) where
  record := hrecord
  below := (h.handled source a ha).mono fun _ hrow => hrow
  generation := (hinv.current i source a ha).1
  assigned := fun _ => by
    rw [withAssignment_assigned, if_pos ⟨rfl, rfl⟩]
  handled := fun p b hb => by
    rw [withAssignment_assigned] at hb
    split at hb
    · rename_i hself
      obtain rfl := Option.some.inj hb
      exact Or.inr ⟨hself.2, rfl⟩
    · exact Or.inl ((h.handled p b hb).mono fun _ hrow => hrow)
  commits := fun n hn => hinv.resumed i source a n ha hn
  unraised := h.unraised

/-- A raised transaction leaves a mark in the run's history only, behind all it
has committed in the partition. -/
theorem IngestionInv.rolledBack (h : IngestionInv codec log s) {message : Message}
    (hm : InFlight codec log i message s) : IngestionInv codec log (s.rollback i message) where
  replayed := ⟨h.replayed.events, h.replayed.data⟩
  origin := h.origin
  handled := fun p => (h.handled p).mono fun _ hrow => hrow
  current := h.current
  ahead := h.ahead
  accepted := h.accepted
  resumed := h.resumed
  stopped := fun j p offset n hraised hn => by
    rcases List.mem_append.mp hraised with hold | hnew
    · exact h.stopped j p offset n hold hn
    · obtain ⟨rfl, hrest⟩ := Prod.mk.injEq .. |>.mp (List.mem_singleton.mp hnew)
      obtain ⟨rfl, rfl⟩ := Prod.mk.injEq .. |>.mp hrest
      exact hm.commits n hn

theorem IngestionRely.rolledBack (hij : j ≠ i) (message : Message) :
    IngestionRely codec log j s (s.rollback i message) := by
  refine ⟨fun _ h => h, fun _ => Nat.le_refl _, fun _ _ => rfl, fun _ _ h => Or.inl h,
    fun _ _ h => h, fun p offset hmem => ?_⟩
  rcases List.mem_append.mp hmem with hold | hnew
  · exact hold
  · exact absurd (Prod.mk.injEq .. |>.mp (List.mem_singleton.mp hnew)).1 hij

/-- The coordinator's offset moves to the position of the current assignment. -/
theorem IngestionInv.committedOffset (h : IngestionInv codec log s) {message : Message}
    (hm : InFlight codec log i message s)
    (hhandled : Handled codec s message.source message.record)
    (howner : s.owner message.source = some i)
    (hgeneration : s.generation message.source = message.generation) :
    IngestionInv codec log (s.commitOffset i message) := by
  have hown := hm.assigned hgeneration
  have hahead := h.ahead i message.source _ hown hgeneration.symm
  -- whoever holds the current assignment is this run, at this position
  have hposition : ∀ k a, s.assigned k message.source = some a →
      a.generation = s.generation message.source → a.position = message.offset + 1 := by
    intro k a ha hcurrent
    have hk := (h.current k message.source a ha).2 hcurrent
    rw [howner] at hk
    obtain rfl := Option.some.inj hk
    rw [hown] at ha
    obtain rfl := Option.some.inj ha
    rfl
  refine ⟨⟨h.replayed.events, h.replayed.data⟩, h.origin, fun p => ?_, h.current,
    fun k p a ha hcurrent => ?_, fun k p n hn => ?_, fun k p a n ha hn => ?_,
    fun k p offset n hraised hn => ?_⟩
  · by_cases hp : p = message.source
    · subst hp
      simp only [IngestionState.commitOffset, if_true]
      exact (hm.below.succ hm.record hhandled).mono fun _ hrow => hrow
    · simp only [IngestionState.commitOffset, if_neg hp]
      exact (h.handled p).mono fun _ hrow => hrow
  · by_cases hp : p = message.source
    · subst hp
      simp only [IngestionState.commitOffset, if_true]
      exact (hposition k a ha hcurrent).ge
    · simp only [IngestionState.commitOffset, if_neg hp]
      exact h.ahead k p a ha hcurrent
  · have hmono : s.committed p ≤ (s.commitOffset i message).committed p := by
      by_cases hp : p = message.source
      · subst hp
        simpa only [IngestionState.commitOffset, if_true] using hahead
      · simp only [IngestionState.commitOffset, if_neg hp, Nat.le_refl]
    rcases List.mem_append.mp hn with hold | hnew
    · exact (h.accepted k p n hold).trans hmono
    · obtain ⟨-, hrest⟩ := Prod.mk.injEq .. |>.mp (List.mem_singleton.mp hnew)
      obtain ⟨rfl, rfl⟩ := Prod.mk.injEq .. |>.mp hrest
      simp only [IngestionState.commitOffset, if_true, Nat.le_refl]
  · rcases List.mem_append.mp hn with hold | hnew
    · exact h.resumed k p a n ha hold
    · obtain ⟨rfl, hrest⟩ := Prod.mk.injEq .. |>.mp (List.mem_singleton.mp hnew)
      obtain ⟨rfl, rfl⟩ := Prod.mk.injEq .. |>.mp hrest
      obtain rfl := Option.some.inj (hown.symm.trans ha)
      exact Nat.le_refl _
  · rcases List.mem_append.mp hn with hold | hnew
    · exact h.stopped k p offset n hraised hold
    · obtain ⟨rfl, -⟩ := Prod.mk.injEq .. |>.mp (List.mem_singleton.mp hnew)
      exact absurd hraised (hm.unraised p offset)

theorem IngestionRely.committedOffset (hij : j ≠ i) (message : Message) :
    IngestionRely codec log j s (s.commitOffset i message) := by
  refine ⟨fun _ h => h, fun _ => Nat.le_refl _, fun _ _ => rfl, fun _ _ h => Or.inl h,
    fun p n hmem => ?_, fun _ _ h => h⟩
  rcases List.mem_append.mp hmem with hold | hnew
  · exact hold
  · exact absurd (Prod.mk.injEq .. |>.mp (List.mem_singleton.mp hnew)).1 hij

/-- A row that stands in the way of a claim is the event's own: the position of
the record belongs to no other event. -/
theorem IngestionInv.claimed_row (h : IngestionInv codec log s) {tx : CommittedTx}
    {record : KafkaRecord} (hrecord : (log tx.source)[tx.offset]? = some record)
    (hevent : decodeMessage codec tx.source.topic record = .ok tx.event) {row : IngestedEvent}
    (hrow : row ∈ s.tables.ingestedEvents.rows) (hclash : IngestedClash row tx.row) :
    row.eventId = tx.event.eventId := by
  rcases hclash with hid | ⟨hsource, hoffset⟩
  · exact hid
  · obtain ⟨record', event', hrecord', hevent', hid⟩ := h.origin row hrow
    rw [hsource, hoffset] at hrecord'
    rw [hsource] at hevent'
    obtain rfl := Option.some.inj (hrecord.symm.trans hrecord')
    obtain rfl := Except.ok.inj (hevent.symm.trans hevent')
    exact hid

/-- A transaction that finds its event claimed is a later commit of it. -/
theorem Replayed.duplicate (h : Replayed s) {tx : CommittedTx} {row : IngestedEvent}
    (hrow : row ∈ s.tables.ingestedEvents.rows) (hid : row.eventId = tx.event.eventId) :
    Replayed { s with transactions := s.transactions ++ [tx] } := by
  have hfirsts : firstCommits (s.transactions ++ [tx]) = firstCommits s.transactions := by
    rw [h.events] at hrow
    obtain ⟨x, hx, rfl⟩ := List.mem_map.mp hrow
    rw [firstCommits_append, if_pos (List.any_eq_true.mpr ⟨x, hx, decide_eq_true hid⟩)]
  exact ⟨by rw [hfirsts]; exact h.events, by rw [hfirsts]; exact h.data⟩

/-- A transaction that claims its event is the first commit of it, and handles it
once more on top. -/
theorem Replayed.first (h : Replayed s) {tx : CommittedTx} {tables t₁ : IngestTables}
    (hrows : tables.ingestedEvents.rows = s.tables.ingestedEvents.rows ++ [tx.row])
    (hnew : ∀ row ∈ s.tables.ingestedEvents.rows, ¬IngestedClash row tx.row)
    (hhandle : handleEvent tx.refs tx.event tx.env s.tables = .ok t₁)
    (htables : tables = { t₁ with ingestedEvents := tables.ingestedEvents }) :
    Replayed { s with tables := tables, transactions := s.transactions ++ [tx] } := by
  have hfirsts : firstCommits (s.transactions ++ [tx]) = firstCommits s.transactions ++ [tx] := by
    rw [firstCommits_append, if_neg]
    intro hany
    obtain ⟨x, hx, hid⟩ := List.any_eq_true.mp hany
    have hrow : x.row ∈ s.tables.ingestedEvents.rows := by
      rw [h.events]
      exact List.mem_map_of_mem hx
    exact hnew x.row hrow (Or.inl (of_decide_eq_true hid))
  obtain ⟨t, hall, hs⟩ := h.data
  rw [hs, handleEvent_ingestedEvents] at hhandle
  refine ⟨?_, ?_⟩
  · rw [hfirsts, List.map_append, ← h.events]
    exact hrows
  · cases hh : handleEvent tx.refs tx.event tx.env t with
    | error x =>
        rw [hh] at hhandle
        cases hhandle
    | ok t₂ =>
        rw [hh] at hhandle
        obtain rfl := Except.ok.inj hhandle
        refine ⟨t₂, ?_, htables⟩
        rw [handleAll] at hall
        rw [hfirsts, handleAll, List.foldlM_append, hall]
        change (handleEvent tx.refs tx.event tx.env t >>= pure) = _
        rw [bind_pure]
        exact hh

/-- What a committed transaction keeps, and what it achieves. -/
theorem IngestionInv.transacted (h : IngestionInv codec log s) (tx : CommittedTx)
    {record : KafkaRecord} (hrecord : (log tx.source)[tx.offset]? = some record)
    (hevent : decodeMessage codec tx.source.topic record = .ok tx.event)
    {claimed : Bool} {tables : IngestTables}
    (htx : ingestTransaction tx.refs tx.event tx.source tx.offset tx.env s.tables =
      .ok (claimed, tables)) :
    IngestionInv codec log { s with tables := tables, transactions := s.transactions ++ [tx] } ∧
    (∀ row ∈ s.tables.ingestedEvents.rows, row ∈ tables.ingestedEvents.rows) ∧
    ∃ row ∈ tables.ingestedEvents.rows, row.eventId = tx.event.eventId := by
  rcases ingestTransaction_ok htx with ⟨rfl, row, hrow, hclash⟩ | ⟨hrows, hnew, t₁, hhandle, heq⟩
  · have hid := h.claimed_row hrecord hevent hrow hclash
    exact ⟨⟨h.replayed.duplicate hrow hid, h.origin,
      fun p => (h.handled p).mono fun _ hrow => hrow, h.current, h.ahead, h.accepted, h.resumed,
      h.stopped⟩, fun _ hrow => hrow, row, hrow, hid⟩
  · have hmono : ∀ row ∈ s.tables.ingestedEvents.rows, row ∈ tables.ingestedEvents.rows := by
      intro row hrow
      rw [hrows]
      exact List.mem_append_left _ hrow
    have hown : tx.row ∈ tables.ingestedEvents.rows := by
      rw [hrows]
      exact List.mem_append_right _ (List.mem_singleton_self _)
    refine ⟨⟨h.replayed.first hrows hnew hhandle heq, fun row hrow => ?_,
      fun p => (h.handled p).mono hmono, h.current, h.ahead, h.accepted, h.resumed, h.stopped⟩,
      hmono, tx.row, hown, rfl⟩
    change row ∈ tables.ingestedEvents.rows at hrow
    rw [hrows] at hrow
    rcases List.mem_append.mp hrow with hold | hlast
    · exact h.origin row hold
    · rw [List.mem_singleton.mp hlast]
      exact ⟨record, tx.event, hrecord, hevent, rfl⟩

/-! ## Rebalances -/

@[simp] theorem assign_assigned (i j : Nat) (source p : TopicPartition) (s : IngestionState) :
    (s.assign i source).assigned j p =
      if j = i ∧ p = source then some ⟨s.generation source + 1, s.committed source⟩
      else s.assigned j p := rfl

@[simp] theorem assign_generation (i : Nat) (source p : TopicPartition) (s : IngestionState) :
    (s.assign i source).generation p =
      if p = source then s.generation source + 1 else s.generation p := rfl

theorem IngestionInv.assigned (h : IngestionInv codec log s) (i : Nat)
    (source : TopicPartition) : IngestionInv codec log (s.assign i source) where
  replayed := ⟨h.replayed.events, h.replayed.data⟩
  origin := h.origin
  handled := fun p => (h.handled p).mono fun _ hrow => hrow
  current := fun j p a ha => by
    rw [assign_assigned] at ha
    rw [assign_generation]
    split at ha
    · rename_i hself
      obtain ⟨rfl, rfl⟩ := hself
      obtain rfl := Option.some.inj ha
      simp [IngestionState.assign]
    · obtain ⟨hle, howner⟩ := h.current j p a ha
      by_cases hp : p = source
      · subst hp
        rw [if_pos rfl]
        exact ⟨hle.trans (Nat.le_succ _), fun heq => absurd hle (by omega)⟩
      · rw [if_neg hp]
        refine ⟨hle, fun heq => ?_⟩
        simp only [IngestionState.assign, if_neg hp]
        exact howner heq
  ahead := fun j p a ha heq => by
    rw [assign_assigned] at ha
    rw [assign_generation] at heq
    split at ha
    · rename_i hself
      obtain ⟨rfl, rfl⟩ := hself
      obtain rfl := Option.some.inj ha
      exact Nat.le_refl _
    · by_cases hp : p = source
      · subst hp
        rw [if_pos rfl] at heq
        have hle := (h.current j p a ha).1
        omega
      · rw [if_neg hp] at heq
        exact h.ahead j p a ha heq
  accepted := h.accepted
  resumed := fun j p a n ha hn => by
    rw [assign_assigned] at ha
    split at ha
    · rename_i hself
      obtain ⟨rfl, rfl⟩ := hself
      obtain rfl := Option.some.inj ha
      exact h.accepted j p n hn
    · exact h.resumed j p a n ha hn
  stopped := h.stopped

theorem IngestionRely.assigned_to (h : IngestionInv codec log s) (i j : Nat)
    (source : TopicPartition) : IngestionRely codec log j s (s.assign i source) where
  rows := fun _ hrow => hrow
  generation := fun p => by
    rw [assign_generation]
    split
    · rename_i hp
      rw [hp]
      exact Nat.le_succ _
    · exact Nat.le_refl _
  assigned := fun p heq => by
    rw [assign_generation] at heq
    rw [assign_assigned, if_neg]
    rintro ⟨-, rfl⟩
    rw [if_pos rfl] at heq
    omega
  position := fun p a ha => by
    rw [assign_assigned] at ha
    split at ha
    · rename_i hself
      obtain rfl := Option.some.inj ha
      rw [hself.2]
      exact Or.inr ((h.handled source).mono fun _ hrow => hrow)
    · exact Or.inl ha
  commits := fun _ _ hmem => hmem
  raised := fun _ _ hmem => hmem

end Steps

/-! ## The worker meets its obligations -/

section Worker

variable {codec : Codec} {log : TopicPartition → List KafkaRecord} {i : Nat}
  {s : IngestionState} {r : Nat}

theorem IngestionWorker.wp_commit {message : Message} (h : InFlight codec log i message s)
    (hhandled : Handled codec s message.source message.record) :
    ((ingestionDiscipline codec log).proto r).wp (workerExec log) i
      (IngestionWorker.call (.commit message)) (fun _ => Idle codec log i) (fun _ _ => True) s := by
  refine Proto.wp_cmd.mpr fun s₁ hr hinv => ?_
  have h₁ := h.rely hr
  have hhandled₁ := hhandled.mono hr.rows
  refine ⟨⟨h₁, hhandled₁⟩, fun e v s₂ _ hx _ => ⟨fun _ _ => ?_, fun _ _ => trivial⟩⟩
  have hidle := h₁.idle hhandled₁
  rcases commit_cases hx with rfl | ⟨-, -, rfl⟩
  · exact hidle
  · exact ⟨fun source a ha => (hidle.handled source a ha).mono fun _ hrow => hrow,
      hidle.unraised⟩

theorem IngestionWorker.wp_transact {message : Message} {event : SupportedEvent}
    (h : InFlight codec log i message s)
    (hevent : decodeMessage codec message.source.topic message.record = .ok event) :
    ((ingestionDiscipline codec log).proto r).wp (workerExec log) i
      (IngestionWorker.call (.transact message event))
      (fun _ s => InFlight codec log i message s ∧ Handled codec s message.source message.record)
      (fun _ _ => True) s := by
  refine Proto.wp_cmd.mpr fun s₁ hr hinv => ?_
  have h₁ := h.rely hr
  refine ⟨⟨h₁, hevent⟩, fun e v s₂ _ hx _ => ⟨fun claimed hok => ?_, fun _ _ => trivial⟩⟩
  rcases transact_cases hx with ⟨⟨x, hx⟩, -⟩ | ⟨claimed', tables, htx, -, rfl⟩
  · rw [hx] at hok
    cases hok
  · obtain ⟨-, hrows, row, hrow, hid⟩ := hinv.transacted
      ⟨event, message.source, message.offset, e.refs, e.tx⟩ h₁.record hevent htx
    refine ⟨⟨h₁.record, h₁.below.mono hrows, h₁.generation, h₁.assigned, fun source a ha => ?_,
      h₁.commits, h₁.unraised⟩, Or.inr ⟨event, hevent, row, hrow, hid⟩⟩
    exact (h₁.handled source a ha).imp_left fun hb => hb.mono hrows

theorem IngestionWorker.wp_poll (h : Idle codec log i s) :
    ((ingestionDiscipline codec log).proto r).wp (workerExec log) i (IngestionWorker.call .poll)
      (fun answer s => (answer = none → Idle codec log i s) ∧
        ∀ message, answer = some message → InFlight codec log i message s)
      (fun _ _ => True) s := by
  refine Proto.wp_cmd.mpr fun s₁ hr hinv => ⟨trivial, fun e v s₂ _ hx _ =>
    ⟨fun answer hok => ?_, fun _ _ => trivial⟩⟩
  have h₁ := h.rely hr
  rcases poll_cases hx with ⟨rfl, ⟨x, hv⟩ | hv⟩ | ⟨source, a, record, ha, hrecord, hv, rfl⟩
  · rw [hv] at hok
    cases hok
  · obtain rfl := Except.ok.inj (hv.symm.trans hok)
    exact ⟨fun _ => h₁, nofun⟩
  · obtain rfl := Except.ok.inj (hv.symm.trans hok)
    refine ⟨nofun, fun message hm => ?_⟩
    obtain rfl := Option.some.inj hm
    exact h₁.polled hinv ha hrecord

theorem IngestionWorker.wp_processNext (h : Idle codec log i s) :
    ((ingestionDiscipline codec log).proto r).wp (workerExec log) i
      (IngestionWorker.processNext codec) (fun _ => Idle codec log i) (fun _ _ => True) s := by
  refine Proto.wp_seq (Proto.wp_mono (fun answer s' hanswer => ?_) (fun _ _ h => h)
    (IngestionWorker.wp_poll h))
  obtain ⟨hnone, hsome⟩ := hanswer
  cases answer with
  | none => exact hnone rfl
  | some message =>
      have hm := hsome message rfl
      simp only
      split
      · rename_i error hinvalid
        exact Proto.wp_seq (IngestionWorker.wp_commit hm (Or.inl ⟨error, hinvalid⟩))
      · trivial
      · rename_i event hevent
        refine Proto.wp_seq (Proto.wp_mono (fun _ s'' hdone => ?_) (fun _ _ h => h)
          (IngestionWorker.wp_transact hm hevent))
        exact Proto.wp_seq (IngestionWorker.wp_commit hdone.1 hdone.2)

theorem IngestionWorker.wp_loop (rounds : Nat) (h : Idle codec log i s) :
    ((ingestionDiscipline codec log).proto r).wp (workerExec log) i
      (IngestionWorker.loop codec rounds) (fun _ => Idle codec log i) (fun _ _ => True) s := by
  induction rounds generalizing s with
  | zero => exact h
  | succ rounds ih =>
      exact Proto.wp_seq (Proto.wp_mono (fun _ _ hidle => ih hidle) (fun _ _ h => h)
        (IngestionWorker.wp_processNext h))

theorem IngestionWorker.wp_close : ((ingestionDiscipline codec log).proto r).wp (workerExec log) i
    (IngestionWorker.call .close) (fun _ _ => True) (fun _ _ => True) s :=
  Proto.wp_cmd.mpr fun _ _ _ => ⟨trivial, fun _ _ _ _ _ _ => ⟨fun _ _ => trivial,
    fun _ _ => trivial⟩⟩

theorem IngestionWorker.wp_runForever (h : Idle codec log i s) (rounds : Nat) :
    ((ingestionDiscipline codec log).proto rounds).wp (workerExec log) i
      (IngestionWorker.runForever codec rounds) (fun _ _ => True) (fun _ _ => True) s :=
  Proto.wp_ensure.mpr (Proto.wp_mono (fun _ _ _ => IngestionWorker.wp_close)
    (fun _ _ _ => IngestionWorker.wp_close) (IngestionWorker.wp_loop rounds h))

theorem ingestionDiscipline_sound (codec : Codec) (log : TopicPartition → List KafkaRecord) :
    (ingestionDiscipline codec log).Sound (ingestion codec log) where
  rely_refl := IngestionRely.refl
  rely_trans := IngestionRely.trans
  fresh_rely := fun hr h => Idle.rely h hr
  post_rely := fun _ h => h
  xpost_rely := fun _ h => h
  exec := fun {r i c e v s s'} hinv hpre _ hx => by
    change workerExec log i e c s = some (v, s') at hx
    cases c with
    | poll =>
        rcases poll_cases hx with ⟨rfl, -⟩ | ⟨source, a, record, ha, -, -, rfl⟩
        · exact ⟨hinv, fun j _ => IngestionRely.refl j _⟩
        · exact ⟨IngestionInv.polled hinv ha, fun j hij => IngestionRely.polled hij _ _⟩
    | transact message event =>
        obtain ⟨hm, hevent⟩ := hpre
        rcases transact_cases hx with ⟨-, rfl⟩ | ⟨claimed, tables, htx, -, rfl⟩
        · exact ⟨IngestionInv.rolledBack hinv hm, fun j hij => IngestionRely.rolledBack hij _⟩
        · obtain ⟨hinv', hrows, -⟩ := IngestionInv.transacted hinv
            ⟨event, message.source, message.offset, e.refs, e.tx⟩ hm.record hevent htx
          exact ⟨hinv', fun j _ => ⟨hrows, fun _ => Nat.le_refl _, fun _ _ => rfl,
            fun _ _ h => Or.inl h, fun _ _ h => h, fun _ _ h => h⟩⟩
    | commit message =>
        obtain ⟨hm, hhandled⟩ := hpre
        rcases commit_cases hx with rfl | ⟨howner, hgeneration, rfl⟩
        · exact ⟨hinv, fun j _ => IngestionRely.refl j _⟩
        · exact ⟨IngestionInv.committedOffset hinv hm hhandled howner hgeneration,
            fun j hij => IngestionRely.committedOffset hij _⟩
    | close =>
        obtain rfl := close_state hx
        exact ⟨hinv, fun j _ => IngestionRely.refl j _⟩
  crash := fun hinv => ⟨hinv, fun j _ => IngestionRely.refl j _⟩
  ext := fun {x s s'} hinv _ hx => by
    obtain rfl := Option.some.inj hx
    exact ⟨IngestionInv.assigned hinv x.1 x.2, fun j => IngestionRely.assigned_to hinv x.1 j x.2⟩
  spawn := fun _ hfresh => IngestionWorker.wp_runForever hfresh _

end Worker

/-! ## The effect of any number of runs -/

section Effect

variable (codec : Codec) (log : TopicPartition → List KafkaRecord)

/-- The effect of ingestion, as far as it got: every event whose transaction
committed is handled once, in the order of the first commits; below a committed
offset everything is dealt with; and a transaction that raises leaves no trace
in the tables, and is not passed by an offset its run commits. -/
structure IngestedOnce (s : IngestionState) : Prop where
  once : ((firstCommits s.transactions).map fun tx => tx.event.eventId).Nodup
  all : ∀ tx ∈ s.transactions, ∃ x ∈ firstCommits s.transactions,
    x.event.eventId = tx.event.eventId
  replayed : Replayed s
  handled : ∀ source offset, offset < s.committed source →
    ∃ record, (log source)[offset]? = some record ∧ Handled codec s source record
  unchanged : ∀ i e message event x s',
    workerExec log i e (.transact message event) s = some (.error x, s') →
      s'.tables = s.tables ∧ (i, message.source, message.offset) ∈ s'.raised
  stopped : ∀ i source offset n, (i, source, offset) ∈ s.raised → (i, source, n) ∈ s.commits →
    n ≤ offset

end Effect

theorem ingestionInv_initial (codec : Codec) (log : TopicPartition → List KafkaRecord) :
    IngestionInv codec log IngestionState.initial where
  replayed := ⟨rfl, IngestTables.empty, rfl, rfl⟩
  origin := fun _ hrow => absurd hrow List.not_mem_nil
  handled := fun _ _ hlt => absurd hlt (Nat.not_lt_zero _)
  current := nofun
  ahead := nofun
  accepted := fun _ _ _ hn => absurd hn List.not_mem_nil
  resumed := nofun
  stopped := fun _ _ _ _ hraised => absurd hraised List.not_mem_nil

theorem idle_initial (codec : Codec) (log : TopicPartition → List KafkaRecord) (i : Nat) :
    Idle codec log i IngestionState.initial :=
  ⟨nofun, fun _ _ => List.not_mem_nil⟩

theorem ingestion_exactly_once (codec : Codec) (log : TopicPartition → List KafkaRecord)
    {w : IngestionWorld} (h : (ingestion codec log).Reach (fun _ _ => True)
      ⟨IngestionState.initial, []⟩ w) : IngestedOnce codec log w.shared := by
  have hallows : ∀ l (w : IngestionWorld), True →
      (ingestionDiscipline codec log).Allows l w := by
    intro l w _
    cases l <;> simp [Discipline.Allows, ingestionDiscipline]
  have hreach := h.mono hallows
  have hok := (ingestionDiscipline_sound codec log).ok_of_reach
    (Discipline.ok_idle (ingestionInv_initial codec log) (idle_initial codec log)) hreach
  have hinv : IngestionInv codec log w.shared := hok.inv
  refine ⟨firstCommits_nodup _, fun tx htx => exists_firstCommits htx, hinv.replayed,
    hinv.handled, fun i e message event x s' hx => ?_, hinv.stopped⟩
  rcases transact_cases hx with ⟨-, rfl⟩ | ⟨claimed, tables, -, hok, -⟩
  · exact ⟨rfl, List.mem_append_right _ (List.mem_singleton_self _)⟩
  · cases hok

namespace Sample

def taskId (n : Nat) : Uuid := ⟨BitVec.ofNat 128 n⟩

/-- A `playstore.app_stats.collected` event of crawl task `n`. -/
def statsEvent (n : Nat) : EventEnvelope AppStatsCollectedV1 where
  eventId := taskId (n + 16)
  occurredAt := 0
  payload :=
    { crawlTaskId := taskId n, applicationId := taskId 1,
      packageName := appPackage, collectedAt := 0, minInstalls := 10,
      score := fourStars, ratingsCount := 2, reviewsCount := 1, storeUpdatedOn := none,
      version := none, adSupported := false, sourceAdapter := gplay }

/-- Its serialized form. -/
def statsJson (n : Nat) : List UInt8 :=
  ["\x7b\"event_id\":\"", (taskId (n + 16)).text, "\",\"event_type\":\"",
    "playstore.app_stats.collected", "\",\"schema_version\":1,\"occurred_at\":\"",
    "1970-01-01T00:00:00Z\",\"payload\":\x7b\"crawl_task_id\":\"", (taskId n).text,
    "\",\"application_id\":\"", (taskId 1).text, "\",\"package_name\":\"org.example.app\",",
    "\"collected_at\":\"1970-01-01T00:00:00Z\",\"min_installs\":10,\"score\":4.0,",
    "\"ratings_count\":2,\"reviews_count\":1,\"store_updated_on\":null,\"version\":null,",
    "\"ad_supported\":false,\"source_adapter\":\"gplay\"\x7d\x7d"].flatMap
      fun part => part.toList.map fun c => c.toNat.toUInt8

def statsDict (n : Nat) : Json :=
  .dict [(pyStr "event_id", .str (pyStr (taskId (n + 16)).text)),
    (pyStr "event_type", .str (pyStr "playstore.app_stats.collected")),
    (pyStr "schema_version", .int 1),
    (pyStr "occurred_at", .str (pyStr "1970-01-01T00:00:00Z")),
    (pyStr "payload", .dict [(pyStr "crawl_task_id", .str (pyStr (taskId n).text)),
      (pyStr "application_id", .str (pyStr (taskId 1).text)),
      (pyStr "package_name", .str (pyStr "org.example.app")),
      (pyStr "collected_at", .str (pyStr "1970-01-01T00:00:00Z")),
      (pyStr "min_installs", .int 10), (pyStr "score", .float 0x4010000000000000#64),
      (pyStr "ratings_count", .int 2), (pyStr "reviews_count", .int 1),
      (pyStr "store_updated_on", .null), (pyStr "version", .null),
      (pyStr "ad_supported", .bool false), (pyStr "source_adapter", .str (pyStr "gplay"))])]

/-- The library calls on the two texts of the log below. -/
def codec : Codec where
  loads := fun value =>
    if value = statsJson 2 then .ok (statsDict 2)
    else if value = statsJson 3 then .ok (statsDict 3)
    else .error .refused
  appStats := fun value =>
    if value = statsJson 2 then .ok (statsEvent 2)
    else if value = statsJson 3 then .ok (statsEvent 3)
    else .error .refused
  reviewObserved := fun _ => .error .refused
  networkAnalysis := fun _ => .error .refused

def statsRecord (n : Nat) : KafkaRecord :=
  ⟨some (statsJson n), some (taskId 1).text.toUTF8.toList⟩

def statsPartition : TopicPartition := ⟨"playstore.app-stats.v1", 0⟩

/-- A tombstone, an event, the same event published again, and an event of a
crawl task that is not there. -/
def kafkaLog (source : TopicPartition) : List KafkaRecord :=
  if source = statsPartition then [⟨none, none⟩, statsRecord 2, statsRecord 2, statsRecord 3]
  else []

def workerStep (i : Nat) : Label WorkerEnv (Nat × TopicPartition) Nat :=
  .run i ⟨.none, some statsPartition,
    ⟨[⟨taskId 2, taskId 1, .appDetails⟩], Rel.Table.empty, Rel.Table.empty⟩, ⟨0, 0, 0⟩⟩

/-- The first run dies between the commit of its transaction and the commit of
the offset; the second one resumes there and runs into the unknown task. -/
def redelivery : List (Label WorkerEnv (Nat × TopicPartition) Nat) :=
  [.spawn 5, .ext (0, statsPartition)] ++ List.replicate 4 (workerStep 0) ++ [.crash 0] ++
  [.spawn 5, .ext (1, statsPartition)] ++ List.replicate 9 (workerStep 1)

end Sample

open Sample in
theorem ingestion_exactly_once_redelivery : ∃ w,
    (ingestion codec kafkaLog).run ⟨IngestionState.initial, []⟩ redelivery = some w ∧
    w.shared.committed statsPartition = 3 ∧ w.shared.transactions.length = 3 ∧
    w.shared.tables.appSnapshots.rows.length = 1 ∧
    w.shared.raised = [(1, statsPartition, 3)] ∧ IngestedOnce codec kafkaLog w.shared := by
  have hrun : ((ingestion codec kafkaLog).run ⟨IngestionState.initial, []⟩ redelivery).map
      (fun w => decide (w.shared.committed statsPartition = 3 ∧
        w.shared.transactions.length = 3 ∧ w.shared.tables.appSnapshots.rows.length = 1 ∧
        w.shared.raised = [(1, statsPartition, 3)])) = some true := by
    decide +kernel
  obtain ⟨w, hw, hout⟩ := Option.map_eq_some_iff.mp hrun
  obtain ⟨hcommitted, htransactions, hsnapshots, hraised⟩ := of_decide_eq_true hout
  have hreach := System.reach_of_run (fun _ _ _ => trivial) .refl hw
  exact ⟨w, hw, hcommitted, htransactions, hsnapshots, hraised,
    ingestion_exactly_once codec kafkaLog hreach⟩

end Sahabino
