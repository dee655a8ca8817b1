import Sahabino.ExactlyOnce

/-!
# False duplicates

`claim_event` inserts with `ON CONFLICT DO NOTHING` and names no conflict
target, so a row answers for two keys: the event's identity, and the
position it was read from. The second one says nothing about the event
once a topic is deleted and recreated, or its offsets restart: another
event stands where the old one stood.

Positions are therefore arbitrary here. A run is any sequence of
deliveries whose transactions committed; one that raises leaves no trace
in the tables and acknowledges nothing.
-/

namespace Sahabino

def Ingested (t : Rel.Table IngestedEvent IngestedClash) (eventId : Uuid) : Prop :=
  ∃ row ∈ t.rows, row.eventId = eventId

/-- A row was read from this position, of whatever event. -/
def Taken (t : Rel.Table IngestedEvent IngestedClash) (source : TopicPartition) (offset : Nat) :
    Prop :=
  ∃ row ∈ t.rows, row.source = source ∧ row.offset = offset

theorem claimEvent_eq_none {t : Rel.Table IngestedEvent IngestedClash} {event : SupportedEvent}
    {source : TopicPartition} {offset : Nat} {env : TxEnv} :
    claimEvent t event source offset env = none ↔
      Ingested t event.eventId ∨ Taken t source offset := by
  rw [claimEvent, Rel.Table.insert_eq_none]
  constructor
  · rintro ⟨row, hrow, hid | hposition⟩
    · exact Or.inl ⟨row, hrow, hid⟩
    · exact Or.inr ⟨row, hrow, hposition⟩
  · rintro (⟨row, hrow, hid⟩ | ⟨row, hrow, hposition⟩)
    · exact ⟨row, hrow, Or.inl hid⟩
    · exact ⟨row, hrow, Or.inr hposition⟩

/-! ## Runs of deliveries -/

/-- The tables after a run of deliveries that all meet `allow`, and what each
acknowledged delivery was answered: claimed, or taken for a duplicate. -/
inductive Delivered (allow : CommittedTx → IngestTables → Prop) :
    IngestTables → List (CommittedTx × Bool) → Prop
  | init : Delivered allow IngestTables.empty []
  | next {t t' : IngestTables} {acks : List (CommittedTx × Bool)} {tx : CommittedTx}
      {claimed : Bool} : Delivered allow t acks → allow tx t →
      ingestTransaction tx.refs tx.event tx.source tx.offset tx.env t = .ok (claimed, t') →
      Delivered allow t' (acks ++ [(tx, claimed)])

/-- The event is a duplicate, or its position is new. -/
def PositionOwn (tx : CommittedTx) (t : IngestTables) : Prop :=
  Ingested t.ingestedEvents tx.event.eventId ∨ ¬Taken t.ingestedEvents tx.source tx.offset

/-- The answer of a transaction tells which of its two branches it took. -/
theorem ingestTransaction_answer {tx : CommittedTx} {t t' : IngestTables} {claimed : Bool}
    (h : ingestTransaction tx.refs tx.event tx.source tx.offset tx.env t = .ok (claimed, t')) :
    (claimed = false ∧ t' = t ∧
      claimEvent t.ingestedEvents tx.event tx.source tx.offset tx.env = none) ∨
    (claimed = true ∧ t'.ingestedEvents.rows = t.ingestedEvents.rows ++ [tx.row]) := by
  have hok := ingestTransaction_ok h
  unfold ingestTransaction at h
  split at h
  · rename_i hclaim
    obtain ⟨rfl, rfl⟩ := Prod.mk.injEq .. |>.mp (Except.ok.inj h)
    exact Or.inl ⟨rfl, rfl, hclaim⟩
  · rename_i ingestedEvents hclaim
    obtain ⟨t₁, -, hpure⟩ := Rel.bind_eq_ok h
    obtain ⟨rfl, rfl⟩ := Prod.mk.injEq .. |>.mp (Except.ok.inj hpure)
    rcases hok with ⟨-, hclash⟩ | ⟨hrows, -⟩
    · obtain ⟨row, hrow, hclash⟩ := hclash
      exact absurd hclash (Rel.Table.not_clash_of_insert hclaim hrow)
    · exact Or.inr ⟨rfl, hrows⟩

/-- Every row of a run belongs to a delivery that was claimed, and so handled. -/
theorem Delivered.claimed_of_row {allow : CommittedTx → IngestTables → Prop} {t : IngestTables}
    {acks : List (CommittedTx × Bool)} (h : Delivered allow t acks) {eventId : Uuid}
    (hid : Ingested t.ingestedEvents eventId) :
    ∃ tx, (tx, true) ∈ acks ∧ tx.event.eventId = eventId := by
  induction h with
  | init =>
      obtain ⟨row, hrow, -⟩ := hid
      cases hrow
  | @next t t' acks tx claimed _ _ htx ih =>
      have hearlier : Ingested t.ingestedEvents eventId →
          ∃ x, (x, true) ∈ acks ++ [(tx, claimed)] ∧ x.event.eventId = eventId := by
        intro hold
        obtain ⟨x, hx, heq⟩ := ih hold
        exact ⟨x, List.mem_append_left _ hx, heq⟩
      rcases ingestTransaction_answer htx with ⟨-, rfl, -⟩ | ⟨rfl, hrows⟩
      · exact hearlier hid
      · obtain ⟨row, hrow, heq⟩ := hid
        rw [hrows] at hrow
        rcases List.mem_append.mp hrow with hold | hnew
        · exact hearlier ⟨row, hold, heq⟩
        · rw [List.mem_singleton.mp hnew] at heq
          exact ⟨tx, List.mem_append_right _ (List.mem_singleton_self _), heq⟩

/-- A delivery acknowledged as a duplicate was preceded by one of the same event
that was handled. -/
theorem Delivered.duplicate {t : IngestTables} {acks : List (CommittedTx × Bool)}
    (h : Delivered PositionOwn t acks) :
    ∀ before tx after, acks = before ++ (tx, false) :: after →
      ∃ first, (first, true) ∈ before ∧ first.event.eventId = tx.event.eventId := by
  induction h with
  | init =>
      intro before tx after hacks
      simp at hacks
  | @next t t' acks last claimed hrun hown htx ih =>
      intro before tx after hacks
      rcases List.eq_nil_or_concat after with rfl | ⟨rest, x, rfl⟩
      · -- the duplicate is the delivery of this step
        obtain ⟨rfl, hlast⟩ := List.append_inj' hacks rfl
        obtain ⟨rfl, rfl⟩ := Prod.mk.injEq .. |>.mp (List.cons.inj hlast).1
        rcases ingestTransaction_answer htx with ⟨-, -, hclaim⟩ | ⟨hclaimed, -⟩
        · rcases claimEvent_eq_none.mp hclaim with hid | htaken
          · exact hrun.claimed_of_row hid
          · rcases hown with hid | hfree
            · exact hrun.claimed_of_row hid
            · exact absurd htaken hfree
        · cases hclaimed
      · rw [List.concat_eq_append, ← List.cons_append, ← List.append_assoc] at hacks
        obtain ⟨rfl, -⟩ := List.append_inj' hacks rfl
        exact ih before tx rest rfl

/-- `claim_event` answers `False` only for a stored event, on exactly the tables
where the position is not taken by another event; and in a run of such
deliveries nothing is acknowledged as a duplicate without having been handled. -/
theorem claimEvent_false_only_duplicate (t : Rel.Table IngestedEvent IngestedClash)
    (event : SupportedEvent) (source : TopicPartition) (offset : Nat) (env : TxEnv) :
    ((claimEvent t event source offset env = none → Ingested t event.eventId) ↔
      (Ingested t event.eventId ∨ ¬Taken t source offset)) ∧
    ∀ tables acks, Delivered PositionOwn tables acks →
      ∀ before tx after, acks = before ++ (tx, false) :: after →
        ∃ first, (first, true) ∈ before ∧ first.event.eventId = tx.event.eventId := by
  refine ⟨?_, fun tables acks h => h.duplicate⟩
  rw [claimEvent_eq_none]
  constructor
  · intro h
    by_cases htaken : Taken t source offset
    · exact Or.inl (h (Or.inr htaken))
    · exact Or.inr htaken
  · rintro (hid | hfree) h
    · exact hid
    · exact h.resolve_right hfree

namespace Sample

/-- The app-stats event of crawl task `n`, read at an offset of the partition. -/
def statsTx (n offset : Nat) : CommittedTx where
  event := .appStats (statsEvent n)
  source := statsPartition
  offset := offset
  refs := ⟨[⟨taskId n, taskId 1, .appDetails⟩], Rel.Table.empty, Rel.Table.empty⟩
  env := ⟨0, n, 0⟩

/-- The transactions one after the other, with their answers. -/
def deliver (txs : List CommittedTx) : Except IngestError (IngestTables × List Bool) :=
  txs.foldlM (fun (t, answers) tx => do
    let (claimed, t') ← ingestTransaction tx.refs tx.event tx.source tx.offset tx.env t
    pure (t', answers ++ [claimed])) (IngestTables.empty, [])

end Sample

open Sample in
theorem claimEvent_false_only_duplicate_published_twice :
    ∃ t, Delivered PositionOwn t [(statsTx 2 0, true), (statsTx 2 1, false)] ∧
      ∃ first, (first, true) ∈ [(statsTx 2 0, true)] ∧
        first.event.eventId = (statsTx 2 1).event.eventId := by
  have hrun : ∃ t, Delivered PositionOwn t [(statsTx 2 0, true), (statsTx 2 1, false)] := by
    refine ⟨_, .next (.next .init (Or.inr ?_) rfl) (Or.inl ?_) rfl⟩
    · rintro ⟨row, hrow, -⟩
      cases hrow
    · exact ⟨(statsTx 2 0).row, List.mem_singleton_self _, rfl⟩
  obtain ⟨t, ht⟩ := hrun
  have hruns := (claimEvent_false_only_duplicate t.ingestedEvents (statsTx 2 1).event
    statsPartition 1 (statsTx 2 1).env).2
  exact ⟨t, ht, hruns t _ ht [(statsTx 2 0, true)] _ [] rfl⟩

open Sample in
/-- The topic was recreated between the two deliveries: the second event is
new, reads as a duplicate and is never handled. -/
theorem claimEvent_false_duplicate :
    ∃ t, deliver [statsTx 2 0, statsTx 3 0] = .ok (t, [true, false]) ∧
      claimEvent t.ingestedEvents (.appStats (statsEvent 3)) statsPartition 0 ⟨0, 3, 0⟩ = none ∧
      (∀ row ∈ t.ingestedEvents.rows, row.eventId ≠ (statsEvent 3).eventId) ∧
      ∀ row ∈ t.appSnapshots.rows, row.crawlTaskId ≠ taskId 3 := by
  refine ⟨_, rfl, ?_, ?_, ?_⟩ <;> decide +kernel

end Sahabino
