import Mathlib.Data.List.Nodup
import Sahabino.Sentiment

/-!
# The accounting of a drain

An `UPDATE` of the worker hits every pending row of one identity, and an
identity is attempted once. So what a drain has done at any moment is a
partial map from identities to decisions (`Decisions`), and the table is
the initial one with every pending row of a decided identity settled
(`Accounted.rows`). The counters, the written keys and the failed analyses
are then read off the initial table and that map.

The cursor runs over a set that shrinks underneath it. What it leaves
behind is not the rows below it but the decided identities: a pending row
at or below the cursor belongs to a decided one (`Paged.behind`), because
it was on a page, or an update of its identity reached it before.
-/

namespace Sahabino

open Function

/-! ## Decisions -/

inductive Decision where
  | applied (result : AnalysisResult) (now : Timestamp)
  | failure (now : Timestamp)

namespace Decision

/-- The assignment of the decision's `UPDATE`. -/
def settle (maxAttempts : Nat) : Decision → SentimentObservation → SentimentObservation
  | applied result now => withResult result now
  | failure now => failRow maxAttempts now

def isFailure : Decision → Bool
  | applied _ _ => false
  | failure _ => true

theorem settle_key (maxAttempts : Nat) (d : Decision) (r : SentimentObservation) :
    (d.settle maxAttempts r).key = r.key := by
  cases d <;> rfl

theorem settle_identity (maxAttempts : Nat) (d : Decision) (r : SentimentObservation) :
    (d.settle maxAttempts r).identity = r.identity := by
  cases d <;> rfl

end Decision

abbrev Decisions := Identity → Option Decision

/-- A row of the initial table after the decisions so far. -/
def settled (maxAttempts : Nat) (D : Decisions) (r : SentimentObservation) :
    SentimentObservation :=
  if r.pending then
    match D r.identity with
    | some d => d.settle maxAttempts r
    | none => r
  else r

section Settled

variable {maxAttempts : Nat} {D : Decisions} {r : SentimentObservation} {identity : Identity}

theorem settled_of_not_pending (h : r.pending = false) : settled maxAttempts D r = r := by
  rw [settled, h]
  rfl

theorem settled_of_undecided (maxAttempts : Nat) (h : D r.identity = none) :
    settled maxAttempts D r = r := by
  rw [settled, h]
  split <;> rfl

theorem settled_of_decided {d : Decision} (hpending : r.pending = true)
    (h : D r.identity = some d) : settled maxAttempts D r = d.settle maxAttempts r := by
  rw [settled, if_pos hpending, h]

theorem settled_key : (settled maxAttempts D r).key = r.key := by
  rw [settled]
  split
  · split
    · exact Decision.settle_key ..
    · rfl
  · rfl

theorem settled_identity : (settled maxAttempts D r).identity = r.identity := by
  rw [settled]
  split
  · split
    · exact Decision.settle_identity ..
    · rfl
  · rfl

theorem hits_iff : hits identity r = true ↔ r.pending = true ∧ r.identity = identity := by
  simp [hits]

/-- The rows of an undecided identity are as they were. -/
theorem hits_settled (h : D identity = none) :
    hits identity (settled maxAttempts D r) = hits identity r := by
  by_cases hid : r.identity = identity
  · rw [settled_of_undecided _ (by rw [hid]; exact h)]
  · have hne : ∀ x : SentimentObservation, x.identity = r.identity → hits identity x = false := by
      intro x hx
      simp [hits, hx, hid]
    rw [hne r rfl, hne _ settled_identity]

theorem settled_of_hits (h : D identity = none) (hr : hits identity r = true) :
    settled maxAttempts D r = r := by
  obtain ⟨-, rfl⟩ := hits_iff.mp hr
  exact settled_of_undecided _ h

/-- The rows an `UPDATE` of an undecided identity hits are rows of the initial
table. -/
theorem filter_hits_settled (rows : List SentimentObservation) (h : D identity = none) :
    (rows.map (settled maxAttempts D)).filter (hits identity) = rows.filter (hits identity) := by
  induction rows with
  | nil => rfl
  | cons x rows ih =>
      rw [List.map_cons, List.filter_cons, List.filter_cons, hits_settled h, ih]
      split
      · rename_i hx
        rw [settled_of_hits h hx]
      · rfl

/-- Settling one more identity is its `UPDATE`. -/
theorem settled_update (d : Decision) (h : D identity = none) :
    (if hits identity (settled maxAttempts D r) then d.settle maxAttempts (settled maxAttempts D r)
      else settled maxAttempts D r) = settled maxAttempts (update D identity (some d)) r := by
  rw [hits_settled h]
  by_cases hr : hits identity r = true
  · rw [if_pos hr, settled_of_hits h hr]
    obtain ⟨hpending, rfl⟩ := hits_iff.mp hr
    rw [settled_of_decided hpending (update_self ..)]
  · rw [if_neg hr]
    by_cases hpending : r.pending = true
    · have hne : r.identity ≠ identity := fun hid => hr (hits_iff.mpr ⟨hpending, hid⟩)
      rw [settled, settled, update_of_ne hne]
    · rw [settled_of_not_pending (by simpa using hpending),
        settled_of_not_pending (by simpa using hpending)]

end Settled

/-! ## Counting decided rows -/

/-- The pending rows of decided identities whose status is now as `P` says. -/
def tally (maxAttempts : Nat) (D : Decisions) (P : SentimentStatus → Bool)
    (rows : List SentimentObservation) : Nat :=
  rows.countP fun r => r.pending && (D r.identity).isSome && P (settled maxAttempts D r).status

theorem tally_update (maxAttempts : Nat) {D : Decisions} {identity : Identity} (d : Decision)
    (P : SentimentStatus → Bool) (rows : List SentimentObservation) (h : D identity = none) :
    tally maxAttempts (update D identity (some d)) P rows = tally maxAttempts D P rows +
      (rows.filter (hits identity)).countP fun r => P (d.settle maxAttempts r).status := by
  induction rows with
  | nil => rfl
  | cons r rows ih =>
      unfold tally at ih ⊢
      rw [List.countP_cons, List.countP_cons, ih]
      by_cases hr : hits identity r = true
      · obtain ⟨hpending, rfl⟩ := hits_iff.mp hr
        rw [List.filter_cons_of_pos hr, List.countP_cons, settled_of_decided hpending
          (update_self ..),
          update_self, h, hpending]
        simp
        omega
      · rw [List.filter_cons_of_neg hr]
        by_cases hpending : r.pending = true
        · have hne : r.identity ≠ identity := fun hid => hr (hits_iff.mpr ⟨hpending, hid⟩)
          rw [settled, settled, update_of_ne hne]
          omega
        · simp [hpending]

/-! ## The accounting between two statements -/

/-- The call was given `identity` and has no result for it: it raised, answered
for another number of texts, or put something else in that place. -/
def AnalyzerCall.Failed (call : AnalyzerCall) (identity : Identity) : Prop :=
  ∃ k : Nat, call.identities[k]? = some identity ∧ ∀ outcomes : List AnalysisOutcome,
    call.answer = some outcomes → outcomes.length = call.identities.length →
      outcomes[k]? = some AnalysisOutcome.failure

def AnalysisFailed (calls : List AnalyzerCall) (identity : Identity) : Prop :=
  ∃ call ∈ calls, call.Failed identity

/-- The call has `result` in the place of `identity`. -/
def AnalyzerCall.Answered (call : AnalyzerCall) (identity : Identity) (result : AnalysisResult) :
    Prop :=
  ∃ (k : Nat) (outcomes : List AnalysisOutcome), call.identities[k]? = some identity ∧
    call.answer = some outcomes ∧ outcomes[k]? = some (AnalysisOutcome.result result)

/-- The result of an identity is an earlier row's, or the analyzer's. -/
def Sourced (t : ObservationTable) (calls : List AnalyzerCall) (identity : Identity)
    (result : AnalysisResult) : Prop :=
  findReusable identity t = .ok (some result) ∨ ∃ call ∈ calls, call.Answered identity result

theorem Sourced.append {t : ObservationTable} {calls : List AnalyzerCall} {identity : Identity}
    {result : AnalysisResult} (h : Sourced t calls identity result) (calls' : List AnalyzerCall) :
    Sourced t (calls ++ calls') identity result :=
  h.imp_right fun ⟨call, hcall, hanswered⟩ => ⟨call, List.mem_append_left _ hcall, hanswered⟩

/-- A row whose analysis failed has no attempt left in its column. -/
def Exhausted (t : ObservationTable) (calls : List AnalyzerCall) : Prop :=
  ∃ r ∈ t.rows, r.pending = true ∧ AnalysisFailed calls r.identity ∧
    r.attemptCount.succ? = none

/-- The keys of the pending rows of an identity. -/
def groupKeys (t : ObservationTable) (identity : Identity) : List ObservationKey :=
  (t.rows.filter (hits identity)).map fun r => r.key

section Accounting

variable (t : ObservationTable) (maxAttempts : Nat)

/-- The state `s` of a drain of `t` is what the decisions `D`, taken in this
order, make of it. -/
structure Accounted (D : Decisions) (order : List Identity) (s : DrainState) : Prop where
  rows : s.table.rows = t.rows.map (settled maxAttempts D)
  nodup : order.Nodup
  decided : ∀ identity, identity ∈ order ↔ (D identity).isSome
  writes : s.writes = order.map (groupKeys t)
  pendingObservations : s.stats.pendingObservations = countPending t
  done : s.stats.doneObservations = tally maxAttempts D (· = .done) t.rows
  skipped : s.stats.skippedObservations = tally maxAttempts D (· = .skipped) t.rows
  failed : s.stats.failedObservations = tally maxAttempts D (· = .failed) t.rows
  retry : s.stats.retryPendingObservations = tally maxAttempts D (· = .pending) t.rows
  failures : ∀ identity d, D identity = some d →
    (d.isFailure = true ↔ AnalysisFailed s.calls identity)
  sources : ∀ identity result now, D identity = some (.applied result now) →
    Sourced t s.calls identity result
  fits : ∀ r ∈ t.rows, r.pending = true → ∀ now, D r.identity = some (.failure now) →
    r.attemptCount.succ?.isSome

/-- `AnalysisResult` knows the languages of the skipped rows. -/
def Readable : Prop :=
  ∀ r ∈ t.rows, r.status = .skipped → r.label = none →
    r.language = none ∨ r.language = some Language.fa.text ∨ r.language = some Language.en.text

/-- Rows the worker can read and write: a skipped row has a language that
`AnalysisResult` knows, and one more attempt fits the column. -/
structure Drainable : Prop where
  language : ∀ r ∈ t.rows, r.status = .skipped → r.label = none →
    r.language = none ∨ r.language = some Language.fa.text ∨ r.language = some Language.en.text
  attempts : ∀ r ∈ t.rows, r.pending = true → r.attemptCount.val < 32767

end Accounting

namespace Accounted

variable {t : ObservationTable} {maxAttempts : Nat} {D : Decisions} {order : List Identity}
  {s : DrainState} {identity : Identity}

theorem start : Accounted t maxAttempts (fun _ => none) [] (DrainState.start t) where
  rows := by
    show t.rows = _
    rw [List.map_congr_left fun r _ => settled_of_undecided _ rfl, List.map_id']
  nodup := List.nodup_nil
  decided := fun _ => by simp
  writes := rfl
  pendingObservations := rfl
  done := by simp [DrainState.start, tally]
  skipped := by simp [DrainState.start, tally]
  failed := by simp [DrainState.start, tally]
  retry := by simp [DrainState.start, tally]
  failures := nofun
  sources := fun _ _ _ hnone => nomatch hnone
  fits := fun _ _ _ _ hnone => nomatch hnone

/-- The rows an `UPDATE` of an undecided identity hits. -/
theorem filter_hits (h : Accounted t maxAttempts D order s) (hnew : D identity = none) :
    s.table.rows.filter (hits identity) = t.rows.filter (hits identity) := by
  rw [h.rows, filter_hits_settled _ hnew]

theorem hitKeys (h : Accounted t maxAttempts D order s) (hnew : D identity = none) :
    s.hitKeys identity = groupKeys t identity := by
  rw [DrainState.hitKeys, h.filter_hits hnew]
  rfl

theorem rows_updatePending (h : Accounted t maxAttempts D order s) (hnew : D identity = none)
    (d : Decision) (hkey : ∀ r, (d.settle maxAttempts r).key = r.key) :
    (updatePending identity (d.settle maxAttempts) hkey s.table).rows =
      t.rows.map (settled maxAttempts (update D identity (some d))) := by
  show s.table.rows.map _ = _
  rw [h.rows, List.map_map]
  exact List.map_congr_left fun r _ => settled_update d hnew

theorem order_append (h : Accounted t maxAttempts D order s) (hnew : D identity = none)
    (d : Decision) : (order ++ [identity]).Nodup ∧ ∀ i, i ∈ order ++ [identity] ↔
      (update D identity (some d) i).isSome := by
  have hnot : identity ∉ order := fun hmem => by
    have := (h.decided identity).mp hmem
    rw [hnew] at this
    cases this
  refine ⟨List.nodup_append.mpr ⟨h.nodup, List.nodup_singleton _, ?_⟩, fun i => ?_⟩
  · intro a ha b hb hab
    rw [List.mem_singleton.mp hb] at hab
    exact hnot (hab ▸ ha)
  · rw [List.mem_append, List.mem_singleton, h.decided]
    by_cases hi : i = identity
    · subst hi
      simp
    · rw [update_of_ne hi]
      simp [hi]

/-- The failures after one more decision, when no call is made. -/
theorem failures_update (h : Accounted t maxAttempts D order s) (d : Decision)
    (hd : d.isFailure = true ↔ AnalysisFailed s.calls identity) :
    ∀ i d', update D identity (some d) i = some d' →
      (d'.isFailure = true ↔ AnalysisFailed s.calls i) := by
  intro i d' hd'
  by_cases hi : i = identity
  · subst hi
    rw [update_self] at hd'
    obtain rfl := Option.some.inj hd'
    exact hd
  · rw [update_of_ne hi] at hd'
    exact h.failures i d' hd'

theorem sources_update (h : Accounted t maxAttempts D order s) (d : Decision)
    (hd : ∀ result now, d = .applied result now → Sourced t s.calls identity result) :
    ∀ i result now, update D identity (some d) i = some (.applied result now) →
      Sourced t s.calls i result := by
  intro i result now hi
  by_cases heq : i = identity
  · subst heq
    rw [update_self] at hi
    exact hd result now (Option.some.inj hi)
  · rw [update_of_ne heq] at hi
    exact h.sources i result now hi

theorem fits_update (h : Accounted t maxAttempts D order s) (d : Decision)
    (hd : ∀ now, d = .failure now → ∀ r ∈ t.rows, hits identity r = true →
      r.attemptCount.succ?.isSome) :
    ∀ r ∈ t.rows, r.pending = true → ∀ now,
      update D identity (some d) r.identity = some (.failure now) →
        r.attemptCount.succ?.isSome := by
  intro r hr hpending now hi
  by_cases heq : r.identity = identity
  · rw [heq, update_self] at hi
    exact hd now (Option.some.inj hi) r hr (hits_iff.mpr ⟨hpending, heq⟩)
  · rw [update_of_ne heq] at hi
    exact h.fits r hr hpending now hi

theorem countP_hits (h : Accounted t maxAttempts D order s) (hnew : D identity = none) :
    s.table.rows.countP (hits identity) = (t.rows.filter (hits identity)).length := by
  rw [List.countP_eq_length_filter, h.filter_hits hnew]

/-- Every row of a group gets the same status from a result. -/
theorem tally_applied (t : ObservationTable) (maxAttempts : Nat) (hnew : D identity = none)
    (result : AnalysisResult) (now : Timestamp)
    (status : SentimentStatus) :
    tally maxAttempts (update D identity (some (.applied result now))) (· = status) t.rows =
      tally maxAttempts D (· = status) t.rows +
        if result.status.toSentimentStatus = status then (t.rows.filter (hits identity)).length
        else 0 := by
  rw [tally_update _ _ _ _ hnew]
  congr 1
  split
  · rename_i hstatus
    exact List.countP_eq_length.mpr fun r _ => decide_eq_true hstatus
  · rename_i hstatus
    exact List.countP_eq_zero.mpr fun r _ => by
      show ¬decide (result.status.toSentimentStatus = status) = true
      simpa using hstatus

/-- `apply_result` on an undecided identity whose analysis has not failed. -/
theorem apply (h : Accounted t maxAttempts D order s) (clock : Nat → Timestamp)
    (hnew : D identity = none) (hok : ¬AnalysisFailed s.calls identity) {result : AnalysisResult}
    (hsource : Sourced t s.calls identity result) :
    Accounted t maxAttempts (update D identity (some (.applied result (s.now clock))))
      (order ++ [identity]) (s.apply clock identity result).2 := by
  obtain ⟨hnodup, hdecided⟩ := h.order_append hnew (.applied result (s.now clock))
  have hcount := h.countP_hits hnew
  have htally := tally_applied t maxAttempts hnew result (s.now clock)
  refine ⟨h.rows_updatePending hnew (.applied result (s.now clock)) fun _ => rfl, hnodup, hdecided,
    ?_, ?_, ?_, ?_, ?_, ?_, ?_, ?_, h.fits_update _ nofun⟩
  · show s.writes ++ [s.hitKeys identity] = _
    rw [h.writes, h.hitKeys hnew, List.map_append]
    rfl
  · simp only [DrainState.apply]
    split <;> exact h.pendingObservations
  · rw [htally .done, ← h.done, ← hcount]
    simp only [DrainState.apply, applyResult]
    split <;> rename_i hs <;> simp [hs, ResultStatus.toSentimentStatus]
  · rw [htally .skipped, ← h.skipped, ← hcount]
    simp only [DrainState.apply, applyResult]
    split <;> rename_i hs <;> simp [hs, ResultStatus.toSentimentStatus]
  · rw [htally .failed, ← h.failed]
    simp only [DrainState.apply, applyResult]
    split <;> rename_i hs <;> simp [hs, ResultStatus.toSentimentStatus]
  · rw [htally .pending, ← h.retry]
    simp only [DrainState.apply, applyResult]
    split <;> rename_i hs <;> simp [hs, ResultStatus.toSentimentStatus]
  · exact h.failures_update _ ⟨nofun, fun hfailed => absurd hfailed hok⟩
  · refine h.sources_update _ fun result' now heq => ?_
    obtain ⟨rfl, -⟩ := Decision.applied.inj heq
    exact hsource

theorem countReuse (h : Accounted t maxAttempts D order s) (updated : Nat) :
    Accounted t maxAttempts D order (s.countReuse updated) :=
  ⟨h.rows, h.nodup, h.decided, h.writes, h.pendingObservations, h.done, h.skipped, h.failed,
    h.retry, h.failures, h.sources, h.fits⟩

/-- A failed row is pending or failed, never done. -/
theorem failRow_status (maxAttempts : Nat) (now : Timestamp) (r : SentimentObservation) :
    (failRow maxAttempts now r).status = .failed ∨
      (failRow maxAttempts now r).status = .pending := by
  simp only [failRow, withFailure]
  split
  · exact Or.inl rfl
  · exact Or.inr rfl

/-- `record_failure` on an undecided identity whose analysis failed: nothing but the
decision changes, unless one more attempt does not fit. -/
theorem fail (h : Accounted t maxAttempts D order s) (clock : Nat → Timestamp)
    (hnew : D identity = none) (hfailed : AnalysisFailed s.calls identity) :
    (∃ s', s.fail maxAttempts clock identity = .ok s' ∧
      Accounted t maxAttempts (update D identity (some (.failure (s.now clock))))
        (order ++ [identity]) s' ∧
      s'.calls = s.calls ∧ s'.cursor = s.cursor ∧ s'.attempted = s.attempted) ∨
    (s.fail maxAttempts clock identity = .error .smallintOutOfRange ∧ Exhausted t s.calls) := by
  by_cases hany : (s.table.rows.any fun r => hits identity r && r.attemptCount.succ?.isNone) = true
  · obtain ⟨r, hr, hboth⟩ := List.any_eq_true.mp hany
    rw [Bool.and_eq_true] at hboth
    obtain ⟨hpending, hid⟩ := hits_iff.mp hboth.1
    refine Or.inr ⟨by rw [DrainState.fail, recordFailure, if_pos hany]; rfl, r, ?_, hpending,
      hid ▸ hfailed, Option.isNone_iff_eq_none.mp hboth.2⟩
    refine List.mem_of_mem_filter (p := hits identity) ?_
    rw [← h.filter_hits hnew]
    exact List.mem_filter.mpr ⟨hr, hboth.1⟩
  have hfits : (s.table.rows.any fun r => hits identity r && r.attemptCount.succ?.isNone) =
      false := by simpa using hany
  have hroom : ∀ r ∈ t.rows, hits identity r = true → r.attemptCount.succ?.isSome := by
    intro r hr hhits
    have hmem : r ∈ s.table.rows.filter (hits identity) := by
      rw [h.filter_hits hnew]
      exact List.mem_filter.mpr ⟨hr, hhits⟩
    have hnot := List.any_eq_false.mp hfits r (List.mem_of_mem_filter hmem)
    rw [Option.isSome_iff_ne_none]
    simpa [hhits] using hnot
  obtain ⟨hnodup, hdecided⟩ := h.order_append hnew (.failure (s.now clock))
  have hupdate := fun P => tally_update maxAttempts (.failure (s.now clock)) P t.rows hnew
  have hrecord : recordFailure identity maxAttempts (s.now clock) s.table = .ok
      (((s.table.rows.filter (hits identity)).map (failRow maxAttempts (s.now clock))).countP
          fun r => r.status = .pending,
        ((s.table.rows.filter (hits identity)).map (failRow maxAttempts (s.now clock))).countP
          fun r => r.status = .failed,
        updatePending identity (failRow maxAttempts (s.now clock)) (fun _ => rfl) s.table) := by
    rw [recordFailure, hfits]
    rfl
  refine Or.inl ⟨s.countFailure identity _ _ _, by rw [DrainState.fail, hrecord]; rfl,
    ⟨h.rows_updatePending hnew (.failure (s.now clock)) fun _ => rfl, hnodup, hdecided,
      ?_, h.pendingObservations, ?_, ?_, ?_, ?_, ?_, h.sources_update _ nofun,
      h.fits_update _ fun _ _ => hroom⟩, rfl, rfl, rfl⟩
  · show s.writes ++ [s.hitKeys identity] = _
    rw [h.writes, h.hitKeys hnew, List.map_append]
    rfl
  · rw [hupdate, ← h.done]
    refine (Nat.add_eq_left.mpr (List.countP_eq_zero.mpr fun r _ => ?_)).symm
    rcases failRow_status maxAttempts (s.now clock) r with hs | hs <;>
      simp [Decision.settle, hs]
  · rw [hupdate, ← h.skipped]
    refine (Nat.add_eq_left.mpr (List.countP_eq_zero.mpr fun r _ => ?_)).symm
    rcases failRow_status maxAttempts (s.now clock) r with hs | hs <;>
      simp [Decision.settle, hs]
  · show s.stats.failedObservations + _ = _
    rw [hupdate, ← h.failed, h.filter_hits hnew, List.countP_map]
    rfl
  · show s.stats.retryPendingObservations + _ = _
    rw [hupdate, ← h.retry, h.filter_hits hnew, List.countP_map]
    rfl
  · exact h.failures_update _ ⟨fun _ => hfailed, fun _ => rfl⟩

end Accounted

/-! ## Reuse and analysis -/

theorem AnalysisResult.make_ok {language : Option String} {label : Option SentimentLabel}
    {status : ResultStatus}
    (hlanguage : language = none ∨ language = some Language.fa.text ∨
      language = some Language.en.text)
    (hok : (status = .done → language.isSome ∧ label.isSome) ∧
      (status = .skipped → label = none)) :
    ∃ result, AnalysisResult.make language label status = .ok result := by
  obtain ⟨hdone, hskipped⟩ := hok
  cases status with
  | done =>
      obtain ⟨hl, hlabel⟩ := hdone rfl
      obtain ⟨label, rfl⟩ := Option.isSome_iff_exists.mp hlabel
      rcases hlanguage with rfl | rfl | rfl
      · cases hl
      · exact ⟨_, rfl⟩
      · exact ⟨_, rfl⟩
  | skipped =>
      obtain rfl := hskipped rfl
      rcases hlanguage with rfl | rfl | rfl
      · exact ⟨_, rfl⟩
      · exact ⟨_, rfl⟩
      · exact ⟨_, rfl⟩

section Pages

variable {t : ObservationTable} {maxAttempts : Nat} {D : Decisions} {order : List Identity}
  {s : DrainState} {identity : Identity}

/-- The reusable rows of an undecided identity are those of the initial table. -/
theorem filter_reusable_settled (rows : List SentimentObservation) (h : D identity = none) :
    (rows.map (settled maxAttempts D)).filter (reusable identity) =
      rows.filter (reusable identity) := by
  induction rows with
  | nil => rfl
  | cons x rows ih =>
      rw [List.map_cons, List.filter_cons, List.filter_cons, ih]
      by_cases hid : x.identity = identity
      · rw [settled_of_undecided _ (by rw [hid]; exact h)]
      · have hne : ∀ y : SentimentObservation, y.identity = x.identity →
            reusable identity y = false := by
          intro y hy
          simp [reusable, hy, hid]
        rw [hne x rfl, hne _ settled_identity]
        rfl

theorem Accounted.findReusable_eq (h : Accounted t maxAttempts D order s)
    (hnew : D identity = none) :
    Sahabino.findReusable identity s.table = Sahabino.findReusable identity t := by
  unfold Sahabino.findReusable
  rw [h.rows, filter_reusable_settled t.rows hnew]

/-- `find_reusable` never raises on a table whose languages it knows. -/
theorem findReusable_ok (ht : Readable t) (identity : Identity) :
    ∃ result, findReusable identity t = .ok result := by
  unfold Sahabino.findReusable
  split
  · exact ⟨none, rfl⟩
  rename_i r hhead
  have hr := (List.mem_insertionSort _).mp (List.mem_of_mem_head? hhead)
  obtain ⟨hrow, hreusable⟩ := List.mem_filter.mp hr
  simp only [reusable, Bool.and_eq_true, Bool.or_eq_true, decide_eq_true_eq] at hreusable
  obtain ⟨hid, hcase⟩ := hreusable
  obtain ⟨result, hresult⟩ : ∃ result, AnalysisResult.make r.language r.label
      (if r.status = .done then .done else .skipped) = .ok result := by
    rcases hcase with ⟨⟨hdone, hlanguage⟩, hlabel⟩ | ⟨hskipped, hlabel⟩
    · rw [if_pos hdone]
      refine AnalysisResult.make_ok (Or.inr hlanguage)
        ⟨fun _ => ⟨?_, hlabel⟩, fun hc => by cases hc⟩
      rcases hlanguage with hl | hl <;> rw [hl] <;> rfl
    · have hnone : r.label = none := Option.isNone_iff_eq_none.mp hlabel
      rw [if_neg fun hdone => by rw [hskipped] at hdone; cases hdone]
      exact AnalysisResult.make_ok (ht r hrow hskipped hnone)
        ⟨(fun hc => by cases hc), fun _ => hnone⟩
  exact ⟨some result, by rw [hresult]; rfl⟩

/-- From `s` to `s'`, the decisions `D` were extended to `D'` by exactly the
identities of `P`. -/
structure Advanced (t : ObservationTable) (maxAttempts : Nat) (D D' : Decisions)
    (P : Identity → Prop) (s s' : DrainState) : Prop where
  accounted : ∃ order, Accounted t maxAttempts D' order s'
  decided : ∀ identity, P identity → (D' identity).isSome
  others : ∀ identity, ¬P identity → D' identity = D identity
  calls : s'.calls = s.calls
  cursor : s'.cursor = s.cursor
  attempted : s'.attempted = s.attempted

theorem Advanced.isSome_iff {D' : Decisions} {P : Identity → Prop} {s' : DrainState}
    (h : Advanced t maxAttempts D D' P s s') (i : Identity) :
    (D' i).isSome ↔ (D i).isSome ∨ P i := by
  by_cases hi : P i
  · exact iff_of_true (h.decided i hi) (Or.inr hi)
  · rw [h.others i hi]
    exact ⟨Or.inl, fun hor => hor.resolve_right hi⟩

/-- One decision, then the rest. -/
theorem Advanced.cons {D' D'' : Decisions} {d : Decision} {P Q : Identity → Prop}
    {s₁ s' : DrainState} (h : Advanced t maxAttempts D' D'' P s₁ s')
    (hD : D' = update D identity (some d))
    (hs : s₁.calls = s.calls ∧ s₁.cursor = s.cursor ∧ s₁.attempted = s.attempted)
    (hP : ¬P identity)
    (hQ : ∀ i, Q i ↔ i = identity ∨ P i) : Advanced t maxAttempts D D'' Q s s' := by
  subst hD
  refine ⟨h.accounted, fun i hi => ?_, fun i hi => ?_, h.calls.trans hs.1, h.cursor.trans hs.2.1,
    h.attempted.trans hs.2.2⟩
  · rcases (hQ i).mp hi with rfl | hi
    · rw [h.others i hP, update_self]
      rfl
    · exact h.decided i hi
  · have hnot : i ≠ identity ∧ ¬P i := by
      constructor
      · exact fun heq => hi ((hQ i).mpr (Or.inl heq))
      · exact fun hp => hi ((hQ i).mpr (Or.inr hp))
    rw [h.others i hnot.2, update_of_ne hnot.1]

/-- The loop over the groups: each is reused or left for analysis. -/
theorem Accounted.reuse (clock : Nat → Timestamp) (ht : Readable t) (groups : List Identity) :
    ∀ {D : Decisions} {order : List Identity} {s : DrainState},
      Accounted t maxAttempts D order s → groups.Nodup → (∀ i ∈ groups, D i = none) →
      (∀ i ∈ groups, ¬AnalysisFailed s.calls i) →
      ∃ needsAnalysis s' D', s.reuse clock groups = .ok (needsAnalysis, s') ∧
        needsAnalysis.Sublist groups ∧
        Advanced t maxAttempts D D' (fun i => i ∈ groups ∧ i ∉ needsAnalysis) s s' := by
  induction groups with
  | nil =>
      intro D order s h _ _ _
      refine ⟨[], s, D, rfl, List.Sublist.refl _, ⟨order, h⟩, ?_, fun _ _ => rfl, rfl, rfl, rfl⟩
      rintro i ⟨hi, -⟩
      cases hi
  | cons identity groups ih =>
      intro D order s h hnodup hnew hok
      obtain ⟨hnot, hnodup'⟩ := List.nodup_cons.mp hnodup
      have hfresh := hnew identity (List.mem_cons_self ..)
      obtain ⟨result, hinitial⟩ := findReusable_ok ht identity
      have hfind := (h.findReusable_eq hfresh).trans hinitial
      cases result with
      | none =>
          obtain ⟨needs, s', D', hrun, hsub, hadv⟩ := ih h hnodup'
            (fun i hi => hnew i (List.mem_cons_of_mem _ hi))
            (fun i hi => hok i (List.mem_cons_of_mem _ hi))
          refine ⟨identity :: needs, s', D', ?_, hsub.cons_cons identity, hadv.accounted, ?_, ?_,
            hadv.calls, hadv.cursor, hadv.attempted⟩
          · simp only [DrainState.reuse, hfind, hrun]
            rfl
          · rintro i ⟨hi, hneeds⟩
            rw [List.mem_cons, not_or] at hneeds
            exact hadv.decided i ⟨(List.mem_cons.mp hi).resolve_left hneeds.1, hneeds.2⟩
          · intro i hi
            refine hadv.others i fun ⟨hmem, hneeds⟩ => hi ⟨List.mem_cons_of_mem _ hmem, ?_⟩
            rw [List.mem_cons, not_or]
            exact ⟨fun heq => hnot (heq ▸ hmem), hneeds⟩
      | some result =>
          have h₁ := (h.apply clock hfresh (hok identity (List.mem_cons_self ..))
            (Or.inl hinitial)).countReuse (s.apply clock identity result).1
          obtain ⟨needs, s', D', hrun, hsub, hadv⟩ := ih h₁ hnodup'
            (fun i hi => by
              have hne : i ≠ identity := fun heq => hnot (heq ▸ hi)
              rw [update_of_ne hne]
              exact hnew i (List.mem_cons_of_mem _ hi))
            (fun i hi => hok i (List.mem_cons_of_mem _ hi))
          have hneeds : identity ∉ needs := fun hmem => hnot (hsub.subset hmem)
          refine ⟨needs, s', D', ?_, hsub.cons identity,
            hadv.cons rfl ⟨rfl, rfl, rfl⟩ (fun hp => hnot hp.1) fun i => ?_⟩
          · simp only [DrainState.reuse, hfind]
            exact hrun
          · constructor
            · rintro ⟨hi, hno⟩
              exact (List.mem_cons.mp hi).imp_right fun hmem => ⟨hmem, hno⟩
            · rintro (rfl | ⟨hmem, hno⟩)
              · exact ⟨List.mem_cons_self .., hneeds⟩
              · exact ⟨List.mem_cons_of_mem _ hmem, hno⟩

/-- The loop over the outcomes: each identity is settled by its own. -/
theorem Accounted.settleAll (clock : Nat → Timestamp)
    (pairs : List (Identity × AnalysisOutcome)) :
    ∀ {D : Decisions} {order : List Identity} {s : DrainState},
      Accounted t maxAttempts D order s → (pairs.map fun p => p.1).Nodup →
      (∀ p ∈ pairs, D p.1 = none) →
      (∀ p ∈ pairs, p.2 = .failure ↔ AnalysisFailed s.calls p.1) →
      (∀ p ∈ pairs, ∀ result, p.2 = .result result → Sourced t s.calls p.1 result) →
      (∃ s' D', s.settleAll maxAttempts clock pairs = .ok s' ∧
        Advanced t maxAttempts D D' (fun i => i ∈ pairs.map fun p => p.1) s s') ∨
      (s.settleAll maxAttempts clock pairs = .error .smallintOutOfRange ∧
        Exhausted t s.calls) := by
  induction pairs with
  | nil =>
      intro D order s h _ _ _ _
      exact Or.inl ⟨s, D, rfl, ⟨order, h⟩, fun i hi => absurd hi List.not_mem_nil,
        fun _ _ => rfl, rfl,
        rfl, rfl⟩
  | cons p pairs ih =>
      intro D order s h hnodup hnew hfailed hsources
      obtain ⟨identity, outcome⟩ := p
      rw [List.map_cons] at hnodup
      obtain ⟨hnot, hnodup'⟩ := List.nodup_cons.mp hnodup
      have hfresh : D identity = none := hnew _ (List.mem_cons_self ..)
      have hrest : ∀ d, ∀ p ∈ pairs, update D identity (some d) p.1 = none := by
        intro d p hp
        have hne : p.1 ≠ identity := by
          rintro rfl
          exact hnot (List.mem_map.mpr ⟨p, hp, rfl⟩)
        rw [update_of_ne hne]
        exact hnew p (List.mem_cons_of_mem _ hp)
      have hmem : ∀ i, (i ∈ ((identity, outcome) :: pairs).map fun p => p.1) ↔
          i = identity ∨ i ∈ pairs.map fun p => p.1 := by
        intro i
        rw [List.map_cons, List.mem_cons]
      cases outcome with
      | result result =>
          have hok : ¬AnalysisFailed s.calls identity := fun hf => by
            cases (hfailed _ (List.mem_cons_self ..)).mpr hf
          have hsource : Sourced t s.calls identity result :=
            hsources _ (List.mem_cons_self ..) result rfl
          rcases ih (h.apply clock hfresh hok hsource) hnodup' (hrest _)
            (fun p hp => hfailed p (List.mem_cons_of_mem _ hp))
            (fun p hp => hsources p (List.mem_cons_of_mem _ hp)) with ⟨s', D', hrun, hadv⟩ | herror
          · exact Or.inl ⟨s', D', hrun, hadv.cons rfl ⟨rfl, rfl, rfl⟩ hnot hmem⟩
          · exact Or.inr herror
      | failure =>
          rcases h.fail clock hfresh ((hfailed _ (List.mem_cons_self ..)).mp rfl) with
            ⟨s₁, hfail, h₁, hcalls, hcursor, hattempted⟩ | ⟨herror, hexhausted⟩
          · rcases ih h₁ hnodup' (hrest _)
              (fun p hp => by rw [hcalls]; exact hfailed p (List.mem_cons_of_mem _ hp))
              (fun p hp => by rw [hcalls]; exact hsources p (List.mem_cons_of_mem _ hp)) with
              ⟨s', D', hrun, hadv⟩ | ⟨herror, hexhausted⟩
            · refine Or.inl ⟨s', D', ?_, hadv.cons rfl ⟨hcalls, hcursor, hattempted⟩ hnot hmem⟩
              simp only [DrainState.settleAll, hfail]
              exact hrun
            · refine Or.inr ⟨?_, hcalls ▸ hexhausted⟩
              simp only [DrainState.settleAll, hfail]
              exact herror
          · refine Or.inr ⟨?_, hexhausted⟩
            simp only [DrainState.settleAll, herror]
            rfl

theorem length_outcomes (needsAnalysis : List Identity) (answer : Option (List AnalysisOutcome)) :
    (DrainState.outcomes needsAnalysis answer).length = needsAnalysis.length := by
  unfold DrainState.outcomes
  split
  · split
    · rw [List.length_map]
    · rename_i hlength
      exact not_not.mp hlength
  · rw [List.length_map]

/-- What the loop takes for a failure is one. -/
theorem outcome_failure_iff (call : AnalyzerCall) (hnodup : call.identities.Nodup)
    {p : Identity × AnalysisOutcome}
    (hp : p ∈ call.identities.zip (DrainState.outcomes call.identities call.answer)) :
    p.2 = .failure ↔ call.Failed p.1 := by
  obtain ⟨k, hk⟩ := List.mem_iff_getElem?.mp hp
  obtain ⟨hid, hout⟩ := List.getElem?_zip_eq_some.mp hk
  have hsame : ∀ j, call.identities[j]? = some p.1 → j = k := by
    intro j hj
    obtain ⟨hlt, -⟩ := List.getElem?_eq_some_iff.mp hj
    exact (List.getElem?_inj hlt hnodup).mp (hj.trans hid.symm)
  -- every place of an answer that is not used is a failure
  have hall : ∀ {answer}, DrainState.outcomes call.identities answer =
      call.identities.map (fun _ => AnalysisOutcome.failure) → call.answer = answer →
      p.2 = .failure := by
    intro answer heq hanswer
    rw [hanswer, heq, List.getElem?_map, hid] at hout
    exact (Option.some.inj hout).symm
  cases hanswer : call.answer with
  | none =>
      refine iff_of_true (hall rfl hanswer) ⟨k, hid, fun outcomes houtcomes => ?_⟩
      rw [hanswer] at houtcomes
      cases houtcomes
  | some outcomes =>
      by_cases hlength : outcomes.length = call.identities.length
      · have hused : DrainState.outcomes call.identities call.answer = outcomes := by
          rw [hanswer, DrainState.outcomes, if_neg (not_not.mpr hlength)]
        rw [hused] at hout
        constructor
        · intro hfail
          refine ⟨k, hid, fun outs houts _ => ?_⟩
          obtain rfl := Option.some.inj (hanswer.symm.trans houts)
          rw [hout, hfail]
        · rintro ⟨j, hj, hj'⟩
          obtain rfl := hsame j hj
          exact Option.some.inj (hout.symm.trans (hj' outcomes hanswer hlength))
      · have hunused : DrainState.outcomes call.identities (some outcomes) =
            call.identities.map fun _ => .failure := by
          rw [DrainState.outcomes, if_pos hlength]
        refine iff_of_true (hall hunused hanswer) ⟨k, hid, fun outs houts hlen => ?_⟩
        obtain rfl := Option.some.inj (hanswer.symm.trans houts)
        exact absurd hlen hlength

/-- What the loop takes for a result is the analyzer's. -/
theorem outcome_result (call : AnalyzerCall) {p : Identity × AnalysisOutcome}
    (hp : p ∈ call.identities.zip (DrainState.outcomes call.identities call.answer))
    {result : AnalysisResult} (hresult : p.2 = .result result) : call.Answered p.1 result := by
  obtain ⟨k, hk⟩ := List.mem_iff_getElem?.mp hp
  obtain ⟨hid, hout⟩ := List.getElem?_zip_eq_some.mp hk
  rw [hresult] at hout
  unfold DrainState.outcomes at hout
  split at hout
  · rename_i outcomes hanswer
    split at hout
    · rw [List.getElem?_map, hid] at hout
      cases hout
    · exact ⟨k, outcomes, hid, hanswer, hout⟩
  · rw [List.getElem?_map, hid] at hout
    cases hout

end Pages

/-! ## Pages -/

theorem mem_groupRows (rows : List SentimentObservation) :
    ∀ (attempted : List Identity) (i : Identity), i ∈ groupRows attempted rows ↔
      i ∉ attempted ∧ ∃ r ∈ rows, r.identity = i := by
  induction rows with
  | nil => simp [groupRows]
  | cons r rows ih =>
      intro attempted i
      rw [groupRows]
      split
      · rename_i hold
        rw [ih]
        constructor
        · rintro ⟨hnew, x, hx, hid⟩
          exact ⟨hnew, x, List.mem_cons_of_mem _ hx, hid⟩
        · rintro ⟨hnew, x, hx, rfl⟩
          rcases List.mem_cons.mp hx with rfl | hx
          · exact absurd hold hnew
          · exact ⟨hnew, x, hx, rfl⟩
      · rename_i hnew
        rw [List.mem_cons, ih]
        constructor
        · rintro (rfl | ⟨hi, x, hx, hid⟩)
          · exact ⟨hnew, r, List.mem_cons_self .., rfl⟩
          · exact ⟨fun hmem => hi (List.mem_cons_of_mem _ hmem), x, List.mem_cons_of_mem _ hx, hid⟩
        · rintro ⟨hi, x, hx, rfl⟩
          by_cases heq : x.identity = r.identity
          · exact Or.inl heq
          · refine Or.inr ⟨?_, x, (List.mem_cons.mp hx).resolve_left ?_, rfl⟩
            · rw [List.mem_cons, not_or]
              exact ⟨heq, hi⟩
            · rintro rfl
              exact heq rfl

theorem nodup_groupRows (rows : List SentimentObservation) :
    ∀ attempted : List Identity, (groupRows attempted rows).Nodup := by
  induction rows with
  | nil => exact fun _ => List.nodup_nil
  | cons r rows ih =>
      intro attempted
      rw [groupRows]
      split
      · exact ih attempted
      · refine List.nodup_cons.mpr ⟨fun hmem => ?_, ih _⟩
        exact ((mem_groupRows _ _ _).mp hmem).1 (List.mem_cons_self ..)

instance : IsTrans SentimentObservation fun a b => a.key ≤ b.key := ⟨fun _ _ _ => le_trans⟩

instance : Std.Total fun a b : SentimentObservation => a.key ≤ b.key := ⟨fun _ _ => le_total _ _⟩

/-- A page is cut off at its last row: a row of the table that would have been
fetched and does not lie behind it is on the page. -/
theorem mem_fetchPendingAfter {t : ObservationTable} {cursor : Option ObservationKey} {limit : Nat}
    {last r : SentimentObservation}
    (hlast : (fetchPendingAfter cursor limit t).getLast? = some last) (hr : r ∈ t.rows)
    (hpending : r.pending = true) (hafter : afterCursor cursor r = true)
    (hle : r.key ≤ last.key) : r ∈ fetchPendingAfter cursor limit t := by
  have hlastmem := List.mem_of_getLast? hlast
  unfold fetchPendingAfter at hlast hlastmem ⊢
  have hsorted := List.pairwise_insertionSort
    (fun a b : SentimentObservation => a.key ≤ b.key)
    (t.rows.filter fun r => r.pending && afterCursor cursor r)
  have hmem : r ∈ (t.rows.filter fun r => r.pending && afterCursor cursor r).insertionSort
      fun a b => a.key ≤ b.key := by
    rw [List.mem_insertionSort, List.mem_filter]
    exact ⟨hr, by rw [hpending, hafter]; rfl⟩
  have hlastrow : last ∈ t.rows := by
    have := (List.mem_insertionSort _).mp (List.mem_of_mem_take hlastmem)
    exact (List.mem_filter.mp this).1
  rw [← List.take_append_drop limit (List.insertionSort _ _)] at hmem hsorted
  rcases List.mem_append.mp hmem with htake | hdrop
  · exact htake
  · -- behind the page with a key that is not: it is the last row itself
    have hge := (List.pairwise_append.mp hsorted).2.2 last hlastmem r hdrop
    have hkey : SameKey r last := le_antisymm hle hge
    rw [Rel.Table.eq_of_clash Eq.symm t hr hlastrow hkey]
    exact hlastmem

/-- What was fetched is pending and behind the cursor. -/
theorem fetchPendingAfter_spec {t : ObservationTable} {cursor : Option ObservationKey}
    {limit : Nat} {r : SentimentObservation} (h : r ∈ fetchPendingAfter cursor limit t) :
    r ∈ t.rows ∧ r.pending = true ∧ afterCursor cursor r = true := by
  have hmem := (List.mem_insertionSort _).mp (List.mem_of_mem_take h)
  obtain ⟨hrow, hboth⟩ := List.mem_filter.mp hmem
  rw [Bool.and_eq_true] at hboth
  exact ⟨hrow, hboth⟩

/-- An empty page means that nothing is left to fetch. -/
theorem fetchPendingAfter_nil {t : ObservationTable} {cursor : Option ObservationKey} {limit : Nat}
    (hlimit : 1 ≤ limit) (h : fetchPendingAfter cursor limit t = []) {r : SentimentObservation}
    (hr : r ∈ t.rows) (hpending : r.pending = true) : afterCursor cursor r = false := by
  by_contra hafter
  have hmem : r ∈ t.rows.filter fun r => r.pending && afterCursor cursor r :=
    List.mem_filter.mpr ⟨hr, by simpa [hpending] using hafter⟩
  unfold fetchPendingAfter at h
  rcases List.take_eq_nil_iff.mp h with hzero | hnil
  · omega
  · have := (List.mem_insertionSort fun a b : SentimentObservation => a.key ≤ b.key).mpr hmem
    rw [hnil] at this
    cases this

/-- The analyzer gave these answers. -/
def AnsweredBy (analyzer : Analyzer) (calls : List AnalyzerCall) : Prop :=
  ∀ call ∈ calls, ∃ n, call.answer = analyzer n (call.identities.map fun identity => identity.2)

/-- The accounting at the head of the loop. -/
structure Paged (analyzer : Analyzer) (t : ObservationTable) (maxAttempts : Nat) (D : Decisions)
    (s : DrainState) : Prop where
  accounted : ∃ order, Accounted t maxAttempts D order s
  attempted : ∀ i, i ∈ s.attempted ↔ (D i).isSome
  calls : ∀ call ∈ s.calls, ∀ i ∈ call.identities, (D i).isSome
  analyzedOnce : (s.calls.flatMap fun call => call.identities).Nodup
  behind : ∀ r ∈ t.rows, r.pending = true → afterCursor s.cursor r = false →
    (D r.identity).isSome
  answered : AnsweredBy analyzer s.calls

namespace Paged

variable {analyzer : Analyzer} {t : ObservationTable} {maxAttempts : Nat} {D : Decisions}
  {s : DrainState}

theorem start (analyzer : Analyzer) (t : ObservationTable) (maxAttempts : Nat) :
    Paged analyzer t maxAttempts (fun _ => none) (DrainState.start t) where
  accounted := ⟨[], .start⟩
  attempted := fun _ => by simp [DrainState.start]
  calls := fun _ hcall => absurd hcall List.not_mem_nil
  analyzedOnce := List.nodup_nil
  behind := fun _ _ _ hafter => absurd (show true = false from hafter) (by decide)
  answered := fun _ hcall => absurd hcall List.not_mem_nil

/-- An undecided identity has not been analyzed. -/
theorem not_failed (h : Paged analyzer t maxAttempts D s) {i : Identity} (hi : D i = none) :
    ¬AnalysisFailed s.calls i := by
  rintro ⟨call, hcall, k, hk, -⟩
  have := h.calls call hcall i (List.mem_of_getElem? hk)
  rw [hi] at this
  cases this

/-- A call for undecided identities analyzes none of them again. -/
theorem analyzedOnce_concat (h : Paged analyzer t maxAttempts D s) {call : AnalyzerCall}
    (hnodup : call.identities.Nodup) (hnew : ∀ i ∈ call.identities, D i = none) :
    ((s.calls ++ [call]).flatMap fun call => call.identities).Nodup := by
  rw [List.flatMap_append, List.flatMap_singleton, List.nodup_append]
  refine ⟨h.analyzedOnce, hnodup, fun a ha b hb hab => ?_⟩
  obtain ⟨c, hc, hmem⟩ := List.mem_flatMap.mp ha
  have hsome := h.calls c hc a hmem
  rw [hab, hnew b hb] at hsome
  cases hsome

theorem answered_concat (h : Paged analyzer t maxAttempts D s) (n : Nat)
    (identities : List Identity) :
    AnsweredBy analyzer (s.calls ++
      [⟨identities, analyzer n (identities.map fun identity => identity.2)⟩]) := by
  intro c hc
  rcases List.mem_append.mp hc with hold | hlast
  · exact h.answered c hold
  · obtain rfl := List.mem_singleton.mp hlast
    exact ⟨n, rfl⟩

/-- A row that is not pending any more belongs to a decided identity, and so
does one that is on the page. -/
theorem decided_or_fetched (h : Paged analyzer t maxAttempts D s) {batchSize : Nat}
    {last : SentimentObservation}
    (hlast : (fetchPendingAfter s.cursor batchSize s.table).getLast? = some last)
    {r : SentimentObservation} (hr : r ∈ t.rows) (hpending : r.pending = true)
    (hbehind : afterCursor (some last.key) r = false) :
    (D r.identity).isSome ∨
      ∃ x ∈ fetchPendingAfter s.cursor batchSize s.table, x.identity = r.identity := by
  obtain ⟨order, hacc⟩ := h.accounted
  cases hD : D r.identity with
  | some d => exact Or.inl rfl
  | none =>
      have hsame : settled maxAttempts D r = r := settled_of_undecided _ hD
      have hmem : r ∈ s.table.rows := by
        rw [hacc.rows, ← hsame]
        exact List.mem_map_of_mem hr
      by_cases hafter : afterCursor s.cursor r = true
      · refine Or.inr ⟨r, mem_fetchPendingAfter hlast hmem hpending hafter ?_, rfl⟩
        simpa [afterCursor] using hbehind
      · have := h.behind r hr hpending (by simpa using hafter)
        rw [hD] at this
        cases this

/-- The new identities of a page are the undecided ones on it. -/
theorem mem_groups (h : Paged analyzer t maxAttempts D s) {rows : List SentimentObservation}
    {i : Identity} :
    i ∈ groupRows s.attempted rows ↔ D i = none ∧ ∃ r ∈ rows, r.identity = i := by
  rw [mem_groupRows, h.attempted, Option.not_isSome_iff_eq_none]

/-- The head of the loop again, once the page's identities are decided. -/
theorem next (h : Paged analyzer t maxAttempts D s) {batchSize : Nat}
    {rows : List SentimentObservation}
    {last : SentimentObservation} (hrows : fetchPendingAfter s.cursor batchSize s.table = rows)
    (hlast : rows.getLast? = some last) {D' : Decisions} {s' : DrainState}
    (hacc : ∃ order, Accounted t maxAttempts D' order s')
    (hdecided : ∀ i, (D' i).isSome ↔ (D i).isSome ∨ i ∈ groupRows s.attempted rows)
    (hattempted : s'.attempted = s.attempted ++ groupRows s.attempted rows)
    (hcursor : s'.cursor = some last.key)
    (hcalls : ∀ call ∈ s'.calls, ∀ i ∈ call.identities, (D' i).isSome)
    (honce : (s'.calls.flatMap fun call => call.identities).Nodup)
    (hanswered : AnsweredBy analyzer s'.calls) : Paged analyzer t maxAttempts D' s' := by
  refine ⟨hacc, fun i => ?_, hcalls, honce, fun r hr hpending hbehind => ?_, hanswered⟩
  · rw [hattempted, List.mem_append, h.attempted, hdecided]
  · rw [hcursor] at hbehind
    rw [hdecided]
    have hpage := h.decided_or_fetched (by rw [hrows]; exact hlast) hr hpending hbehind
    rcases hpage with hold | ⟨x, hx, hid⟩
    · exact Or.inl hold
    · cases hD : D r.identity with
      | some d => exact Or.inl rfl
      | none =>
          rw [hrows] at hx
          exact Or.inr (h.mem_groups.mpr ⟨hD, x, hx, hid⟩)

end Paged

theorem Accounted.turn {t : ObservationTable} {maxAttempts : Nat} {D : Decisions}
    {order : List Identity} {s : DrainState} (h : Accounted t maxAttempts D order s)
    (rows : List SentimentObservation) : Accounted t maxAttempts D order (s.turn rows) :=
  ⟨h.rows, h.nodup, h.decided, h.writes, h.pendingObservations, h.done, h.skipped, h.failed,
    h.retry, h.failures, h.sources, h.fits⟩

/-- A call about undecided identities says nothing about the decided ones. -/
theorem Accounted.called {t : ObservationTable} {maxAttempts : Nat} {D : Decisions}
    {order : List Identity} {s : DrainState} (h : Accounted t maxAttempts D order s)
    {needsAnalysis : List Identity} (hnew : ∀ i ∈ needsAnalysis, D i = none)
    (answer : Option (List AnalysisOutcome)) :
    Accounted t maxAttempts D order (s.called needsAnalysis answer) := by
  refine ⟨h.rows, h.nodup, h.decided, h.writes, h.pendingObservations, h.done, h.skipped, h.failed,
    h.retry, fun i d hd => ?_, fun i result now hi => ?_, h.fits⟩
  case refine_2 => exact (h.sources i result now hi).append _
  rw [h.failures i d hd]
  constructor
  · rintro ⟨call, hcall, hfailed⟩
    exact ⟨call, List.mem_append_left _ hcall, hfailed⟩
  · rintro ⟨call, hcall, hfailed⟩
    rcases List.mem_append.mp hcall with hold | hlast
    · exact ⟨call, hold, hfailed⟩
    · obtain rfl := List.mem_singleton.mp hlast
      obtain ⟨k, hk, -⟩ := hfailed
      rw [hnew i (List.mem_of_getElem? hk)] at hd
      cases hd

/-- The outcomes of a call about identities that were in no earlier one. -/
theorem failure_iff_called {calls : List AnalyzerCall} {call : AnalyzerCall}
    (hnodup : call.identities.Nodup) (hunseen : ∀ i ∈ call.identities, ¬AnalysisFailed calls i)
    {p : Identity × AnalysisOutcome}
    (hp : p ∈ call.identities.zip (DrainState.outcomes call.identities call.answer)) :
    p.2 = .failure ↔ AnalysisFailed (calls ++ [call]) p.1 := by
  rw [outcome_failure_iff call hnodup hp]
  constructor
  · exact fun hfailed => ⟨call, List.mem_append_right _ (List.mem_singleton_self _), hfailed⟩
  · rintro ⟨c, hc, hfailed⟩
    rcases List.mem_append.mp hc with hold | hlast
    · exact absurd ⟨c, hold, hfailed⟩ (hunseen p.1 (List.of_mem_zip hp).1)
    · obtain rfl := List.mem_singleton.mp hlast
      exact hfailed

section Loop

variable {analyzer : Analyzer} {t : ObservationTable} {maxAttempts : Nat} {D : Decisions}
  {s : DrainState} {batchSize : Nat}

/-- How a drain can end early: an attempt that does not fit, after these answers. -/
def WornOut (analyzer : Analyzer) (t : ObservationTable) (e : SentimentError) : Prop :=
  e = .smallintOutOfRange ∧ ∃ calls, AnsweredBy analyzer calls ∧ Exhausted t calls

/-- The second half of a page: the analyzer is asked about identities that are
undecided, and each of them is settled. -/
theorem Accounted.analyze {order : List Identity} (h : Accounted t maxAttempts D order s)
    (clock : Nat → Timestamp) (call : AnalyzerCall) (hnodup : call.identities.Nodup)
    (hnew : ∀ i ∈ call.identities, D i = none)
    (hunseen : ∀ i ∈ call.identities, ¬AnalysisFailed s.calls i) :
    (∃ s' D', (s.called call.identities call.answer).settleAll maxAttempts clock
        (call.identities.zip (DrainState.outcomes call.identities call.answer)) = .ok s' ∧
      Advanced t maxAttempts D D' (fun i => i ∈ call.identities)
        (s.called call.identities call.answer) s') ∨
    ((s.called call.identities call.answer).settleAll maxAttempts clock
        (call.identities.zip (DrainState.outcomes call.identities call.answer)) =
          .error .smallintOutOfRange ∧ Exhausted t (s.calls ++ [call])) := by
  have hfst : (call.identities.zip (DrainState.outcomes call.identities call.answer)).map
      (fun p => p.1) = call.identities := List.map_fst_zip (by rw [length_outcomes])
  have hcall : call ∈ s.calls ++ [call] := List.mem_append_right _ (List.mem_singleton_self _)
  have hsettle := Accounted.settleAll clock
    (call.identities.zip (DrainState.outcomes call.identities call.answer))
    (h.called hnew call.answer) (by rw [hfst]; exact hnodup)
    (fun p hp => hnew p.1 (List.of_mem_zip hp).1)
    (fun p hp => failure_iff_called hnodup hunseen hp)
    (fun p hp result hresult => Or.inr ⟨call, hcall, outcome_result call hp hresult⟩)
  rw [hfst] at hsettle
  exact hsettle

theorem Paged.page (h : Paged analyzer t maxAttempts D s) (clock : Nat → Timestamp)
    (ht : Readable t) {rows : List SentimentObservation} {last : SentimentObservation}
    (hrows : fetchPendingAfter s.cursor batchSize s.table = rows)
    (hlast : rows.getLast? = some last) :
    (∃ s' D', s.page analyzer maxAttempts clock rows = .ok s' ∧
      Paged analyzer t maxAttempts D' s' ∧ s'.cursor = some last.key) ∨
    ∃ e, s.page analyzer maxAttempts clock rows = .error e ∧ WornOut analyzer t e := by
  obtain ⟨order, hacc⟩ := h.accounted
  have hnew : ∀ i ∈ groupRows s.attempted rows, D i = none :=
    fun i hi => (h.mem_groups.mp hi).1
  have hcursor : (s.turn rows).cursor = some last.key := by
    show (rows.getLast?.map fun r => r.key).or s.cursor = _
    rw [hlast]
    rfl
  obtain ⟨needs, s₁, D₁, hreuse, hsub, hadv⟩ := Accounted.reuse clock ht _ (hacc.turn rows)
    (nodup_groupRows rows _) hnew (fun i hi => h.not_failed (hnew i hi))
  have hcalls₁ : s₁.calls = s.calls := hadv.calls
  by_cases hnil : needs = []
  · subst hnil
    have hdecided : ∀ i, (D₁ i).isSome ↔ (D i).isSome ∨ i ∈ groupRows s.attempted rows := by
      intro i
      rw [hadv.isSome_iff]
      simp
    refine Or.inl ⟨s₁, D₁, by simp only [DrainState.page, hreuse]; rfl,
      h.next hrows hlast hadv.accounted hdecided hadv.attempted (hadv.cursor.trans hcursor)
        (fun call hcall i hi => ?_) (by rw [hcalls₁]; exact h.analyzedOnce)
        (by rw [hcalls₁]; exact h.answered),
      hadv.cursor.trans hcursor⟩
    rw [hcalls₁] at hcall
    exact (hdecided i).mpr (Or.inl (h.calls call hcall i hi))
  · -- what is left for analysis is still undecided when the analyzer answers
    have hneeds : ∀ i ∈ needs, D₁ i = none := fun i hi => by
      rw [hadv.others i fun hboth => hboth.2 hi]
      exact hnew i (hsub.subset hi)
    have hunseen : ∀ i ∈ needs, ¬AnalysisFailed s.calls i :=
      fun i hi => h.not_failed (hnew i (hsub.subset hi))
    have hnodup : needs.Nodup := hsub.nodup (nodup_groupRows rows _)
    obtain ⟨order₁, hacc₁⟩ := hadv.accounted
    let call : AnalyzerCall :=
      ⟨needs, analyzer s₁.calls.length (needs.map fun identity => identity.2)⟩
    have hanswered : AnsweredBy analyzer (s.calls ++ [call]) :=
      h.answered_concat s₁.calls.length needs
    have hpage : s.page analyzer maxAttempts clock rows =
        (s₁.called call.identities call.answer).settleAll maxAttempts clock
          (call.identities.zip (DrainState.outcomes call.identities call.answer)) := by
      simp only [DrainState.page, hreuse]
      show (if needs = [] then _ else _) = _
      rw [if_neg hnil]
    rw [hpage]
    rcases hacc₁.analyze clock call hnodup hneeds (by rw [hcalls₁]; exact hunseen) with
      ⟨s₂, D₂, hsettle, hadv₂⟩ | ⟨herror, hexhausted⟩
    · have hdecided : ∀ i, (D₂ i).isSome ↔ (D i).isSome ∨ i ∈ groupRows s.attempted rows := by
        intro i
        rw [hadv₂.isSome_iff, hadv.isSome_iff]
        show (_ ∨ _) ∨ i ∈ needs ↔ _
        by_cases hi : i ∈ needs
        · simp [hi, hsub.subset hi]
        · simp [hi]
      have hcalls₂ : s₂.calls = s.calls ++ [call] := hadv₂.calls.trans (by rw [← hcalls₁]; rfl)
      have hcursor₂ : s₂.cursor = some last.key :=
        hadv₂.cursor.trans (hadv.cursor.trans hcursor)
      refine Or.inl ⟨s₂, D₂, hsettle, h.next hrows hlast hadv₂.accounted hdecided
        (hadv₂.attempted.trans hadv.attempted) hcursor₂ (fun c hc i hi => ?_) ?_
        (by rw [hcalls₂]; exact hanswered), hcursor₂⟩
      · rw [hcalls₂] at hc
        rcases List.mem_append.mp hc with hold | hlast
        · exact (hdecided i).mpr (Or.inl (h.calls c hold i hi))
        · obtain rfl := List.mem_singleton.mp hlast
          exact (hdecided i).mpr (Or.inr (hsub.subset hi))
      · rw [hcalls₂]
        exact h.analyzedOnce_concat hnodup fun i hi => hnew i (hsub.subset hi)
    · rw [hcalls₁] at hexhausted
      exact Or.inr ⟨_, herror, rfl, _, hanswered, hexhausted⟩

/-- The cursor moves forward over the keys of the table, so the rows in front of
it get fewer. -/
theorem Paged.ahead_lt (h : Paged analyzer t maxAttempts D s) {last : SentimentObservation}
    (hlast : last ∈ fetchPendingAfter s.cursor batchSize s.table) :
    (t.rows.filter (afterCursor (some last.key))).length <
      (t.rows.filter (afterCursor s.cursor)).length := by
  obtain ⟨order, hacc⟩ := h.accounted
  obtain ⟨hrow, -, hafter⟩ := fetchPendingAfter_spec hlast
  rw [hacc.rows] at hrow
  obtain ⟨r, hr, rfl⟩ := List.mem_map.mp hrow
  have hkey : (settled maxAttempts D r).key = r.key := settled_key
  have hmono : ∀ x, afterCursor (some r.key) x = true → afterCursor s.cursor x = true := by
    intro x hx
    cases hc : s.cursor with
    | none => rfl
    | some c =>
        simp only [afterCursor, hc, decide_eq_true_eq, hkey] at hx hafter ⊢
        exact lt_trans hafter hx
  have hself : afterCursor s.cursor r = true := by
    cases hc : s.cursor with
    | none => rfl
    | some c =>
        rw [hc] at hafter
        simpa only [afterCursor, hkey] using hafter
  have hfilter : t.rows.filter (afterCursor (some r.key)) =
      (t.rows.filter (afterCursor s.cursor)).filter (afterCursor (some r.key)) := by
    rw [List.filter_filter]
    refine List.filter_congr fun x _ => ?_
    cases hx : afterCursor (some r.key) x with
    | true => rw [hmono x hx]; rfl
    | false => rfl
  rw [hkey, hfilter, List.length_filter_lt_length_iff_exists]
  exact ⟨r, List.mem_filter.mpr ⟨hr, hself⟩, by simp [afterCursor]⟩

/-- The loop ends, with every pending row of the initial table decided, unless an
attempt does not fit. -/
theorem Paged.drainLoop (clock : Nat → Timestamp) (ht : Readable t) (hbatch : 1 ≤ batchSize)
    (fuel : Nat) : ∀ {D : Decisions} {s : DrainState},
      Paged analyzer t maxAttempts D s → (t.rows.filter (afterCursor s.cursor)).length < fuel →
      (∃ s' D', DrainState.drainLoop analyzer batchSize maxAttempts clock fuel s = some (.ok s') ∧
        Paged analyzer t maxAttempts D' s' ∧
        ∀ r ∈ t.rows, r.pending = true → (D' r.identity).isSome) ∨
      ∃ e, DrainState.drainLoop analyzer batchSize maxAttempts clock fuel s = some (.error e) ∧
        WornOut analyzer t e := by
  induction fuel with
  | zero =>
      intro D s _ hfuel
      omega
  | succ fuel ih =>
      intro D s h hfuel
      cases hrows : fetchPendingAfter s.cursor batchSize s.table with
      | nil =>
          refine Or.inl ⟨s, D, by simp only [DrainState.drainLoop, hrows], h,
            fun r hr hpending => ?_⟩
          cases hD : D r.identity with
          | some d => rfl
          | none =>
              obtain ⟨order, hacc⟩ := h.accounted
              have hmem : r ∈ s.table.rows := by
                rw [hacc.rows, ← settled_of_undecided maxAttempts hD]
                exact List.mem_map_of_mem hr
              have hsome := h.behind r hr hpending
                (fetchPendingAfter_nil hbatch hrows hmem hpending)
              rw [hD] at hsome
              cases hsome
      | cons r rows =>
          obtain ⟨last, hlast⟩ : ∃ last, (r :: rows).getLast? = some last :=
            ⟨_, List.getLast?_eq_some_getLast (List.cons_ne_nil r rows)⟩
          rcases h.page clock ht hrows hlast with ⟨s₁, D₁, hpage, h₁, hcursor⟩ | ⟨e, hpage, hworn⟩
          · have hlt := h.ahead_lt (by rw [hrows]; exact List.mem_of_getLast? hlast)
            rcases ih h₁ (by rw [hcursor]; omega) with ⟨s', D', hrun, h', hall⟩ | ⟨e, hrun, hworn⟩
            · exact Or.inl ⟨s', D', by simp only [DrainState.drainLoop, hrows, hpage, hrun], h',
                hall⟩
            · exact Or.inr ⟨e, by simp only [DrainState.drainLoop, hrows, hpage, hrun], hworn⟩
          · exact Or.inr ⟨e, by simp only [DrainState.drainLoop, hrows, hpage], hworn⟩

/-- A whole drain. -/
theorem drain_cases (analyzer : Analyzer) (clock : Nat → Timestamp) (maxAttempts : Nat)
    (ht : Readable t) (hbatch : 1 ≤ batchSize) {fuel : Nat} (hfuel : t.rows.length < fuel) :
    (∃ s D, drain analyzer batchSize maxAttempts clock fuel t = some (.ok s) ∧
      Paged analyzer t maxAttempts D s ∧ ∀ r ∈ t.rows, r.pending = true → (D r.identity).isSome) ∨
    ∃ e, drain analyzer batchSize maxAttempts clock fuel t = some (.error e) ∧
      WornOut analyzer t e :=
  Paged.drainLoop clock ht hbatch fuel (Paged.start analyzer t maxAttempts)
    (Nat.lt_of_le_of_lt (List.length_filter_le _ _) hfuel)

end Loop

/-! ## What a drain did -/

/-- A row of the initial table and what became of it. -/
structure RowAccounted (maxAttempts : Nat) (calls : List AnalyzerCall)
    (r r' : SentimentObservation) : Prop where
  key : r'.key = r.key
  content : r'.content = r.content
  unchanged : r.pending = false → r' = r
  failed : r.pending = true → AnalysisFailed calls r.identity →
    r'.attemptCount.val = r.attemptCount.val + 1
  others : ¬(r.pending = true ∧ AnalysisFailed calls r.identity) →
    r'.attemptCount = r.attemptCount
  failedIff : r.pending = true → (r'.status = .failed ↔
    AnalysisFailed calls r.identity ∧ (maxAttempts : Int) ≤ r'.attemptCount.val)

/-- The drain of `t` that ended in `out`: no identity was analyzed twice, the
pending rows and no others were written, once, and the counters add up. -/
structure DrainAccounted (t : ObservationTable) (maxAttempts : Nat) (out : DrainState) : Prop where
  analyzedOnce : (out.calls.flatMap fun call => call.identities).Nodup
  writtenOnce : ∀ r ∈ t.rows, out.writes.flatten.count r.key = if r.pending then 1 else 0
  written : ∀ k ∈ out.writes.flatten, ∃ r ∈ t.rows, r.pending = true ∧ r.key = k
  rows : List.Forall₂ (RowAccounted maxAttempts out.calls) t.rows out.table.rows
  pendingObservations : out.stats.pendingObservations = countPending t
  total : out.stats.doneObservations + out.stats.skippedObservations +
    out.stats.failedObservations + out.stats.retryPendingObservations =
      out.stats.pendingObservations
  retry : out.stats.retryPendingObservations = countPending out.table

section Final

variable {t : ObservationTable} {maxAttempts : Nat} {D : Decisions} {order : List Identity}
  {s : DrainState}

/-- An identity's `UPDATE` writes the key of each of its pending rows once. -/
theorem count_groupKeys {r : SentimentObservation} (hr : r ∈ t.rows) (identity : Identity) :
    (groupKeys t identity).count r.key = if hits identity r then 1 else 0 := by
  have hnodup : (groupKeys t identity).Nodup := by
    refine List.Pairwise.map _ (fun _ _ hne => hne) ?_
    exact t.unique.filter _
  split
  · rename_i hhits
    refine List.count_eq_one_of_mem hnodup ?_
    exact List.mem_map.mpr ⟨r, List.mem_filter.mpr ⟨hr, hhits⟩, rfl⟩
  · rename_i hhits
    refine List.count_eq_zero.mpr fun hmem => hhits ?_
    obtain ⟨x, hx, hkey⟩ := List.mem_map.mp hmem
    obtain ⟨hxrow, hxhits⟩ := List.mem_filter.mp hx
    rw [← Rel.Table.eq_of_clash Eq.symm t hxrow hr hkey]
    exact hxhits

theorem count_writes {r : SentimentObservation} (hr : r ∈ t.rows) (order : List Identity)
    (hnodup : order.Nodup) : (order.map (groupKeys t)).flatten.count r.key =
      if r.pending = true ∧ r.identity ∈ order then 1 else 0 := by
  induction order with
  | nil => simp
  | cons identity order ih =>
      obtain ⟨hnot, hnodup'⟩ := List.nodup_cons.mp hnodup
      rw [List.map_cons, List.flatten_cons, List.count_append, count_groupKeys hr, ih hnodup']
      by_cases hpending : r.pending = true
      · by_cases hid : r.identity = identity
        · subst hid
          simp [hits, hpending, hnot]
        · simp [hits, hpending, hid]
      · simp [hits, hpending]

/-- Once every pending row is decided, a counter is a count over the final
table's view of them. -/
theorem tally_all (maxAttempts : Nat)
    (hall : ∀ r ∈ t.rows, r.pending = true → (D r.identity).isSome)
    (P : SentimentStatus → Bool) : tally maxAttempts D P t.rows =
      t.rows.countP fun r => r.pending && P (settled maxAttempts D r).status := by
  refine List.countP_congr fun r hr => ?_
  by_cases hpending : r.pending = true
  · simp [hpending, hall r hr hpending]
  · simp [hpending]

/-- Four statuses: the pending rows split by what they are now. -/
theorem countP_statuses (rows : List SentimentObservation)
    (f : SentimentObservation → SentimentStatus) :
    (rows.countP fun r => r.pending && decide (f r = .done)) +
      (rows.countP fun r => r.pending && decide (f r = .skipped)) +
      (rows.countP fun r => r.pending && decide (f r = .failed)) +
      (rows.countP fun r => r.pending && decide (f r = .pending)) =
    rows.countP fun r => r.pending := by
  induction rows with
  | nil => rfl
  | cons r rows ih =>
      simp only [List.countP_cons]
      cases hf : f r <;> cases hp : r.pending <;> simp <;> omega

theorem failRow_attemptCount (maxAttempts : Nat) (now : Timestamp) {r : SentimentObservation}
    (h : r.attemptCount.succ?.isSome) :
    (failRow maxAttempts now r).attemptCount.val = r.attemptCount.val + 1 := by
  unfold SmallInt.succ? at h
  split at h
  · rename_i hfits
    simp only [failRow, withFailure, SmallInt.succ?, dif_pos hfits, Option.getD_some]
  · cases h

theorem Accounted.row (h : Accounted t maxAttempts D order s)
    (hall : ∀ r ∈ t.rows, r.pending = true → (D r.identity).isSome)
    {r : SentimentObservation} (hr : r ∈ t.rows) :
    RowAccounted maxAttempts s.calls r (settled maxAttempts D r) := by
  by_cases hpending : r.pending = true
  case neg =>
    rw [settled_of_not_pending (by simpa using hpending)]
    exact ⟨rfl, rfl, fun _ => rfl, fun hp => absurd hp hpending, fun _ => rfl,
      fun hp => absurd hp hpending⟩
  obtain ⟨d, hd⟩ := Option.isSome_iff_exists.mp (hall r hr hpending)
  have hfailures := h.failures r.identity d hd
  rw [settled_of_decided hpending hd]
  cases d with
  | applied result now =>
      have hok : ¬AnalysisFailed s.calls r.identity := fun hf => by cases hfailures.mpr hf
      refine ⟨rfl, rfl, fun hp => ?_, fun _ hf => absurd hf hok, fun _ => rfl, fun _ => ?_⟩
      · rw [hpending] at hp
        cases hp
      · refine iff_of_false ?_ fun hf => hok hf.1
        show result.status.toSentimentStatus ≠ .failed
        cases result.status <;> nofun
  | failure now =>
      have hfailed := hfailures.mp rfl
      have hcount : (failRow maxAttempts now r).attemptCount.val = r.attemptCount.val + 1 :=
        failRow_attemptCount maxAttempts now (h.fits r hr hpending now hd)
      refine ⟨rfl, rfl, fun hp => ?_, fun _ _ => hcount,
        fun hnot => absurd ⟨hpending, hfailed⟩ hnot, fun _ => ?_⟩
      · rw [hpending] at hp
        cases hp
      · show (failRow maxAttempts now r).status = .failed ↔
          _ ∧ _ ≤ (failRow maxAttempts now r).attemptCount.val
        simp only [failRow, withFailure, hfailed, true_and]
        split <;> simp_all

end Final

/-- On every table whose rows the worker can read and write, `drain` ends, and
accounts for every row. -/
theorem drain_accounted (analyzer : Analyzer) (clock : Nat → Timestamp) (maxAttempts : Nat)
    {batchSize : Nat} (hbatch : 1 ≤ batchSize) {t : ObservationTable} (ht : Drainable t)
    {fuel : Nat} (hfuel : t.rows.length < fuel) :
    ∃ out, drain analyzer batchSize maxAttempts clock fuel t = some (.ok out) ∧
      DrainAccounted t maxAttempts out := by
  have hnotworn : ∀ e, ¬WornOut analyzer t e := by
    rintro e ⟨-, calls, -, r, hr, hpending, -, hnone⟩
    have hlt := ht.attempts r hr hpending
    rw [SmallInt.succ?, dif_pos (by omega)] at hnone
    cases hnone
  obtain ⟨out, D, hrun, hpaged, hall⟩ := (drain_cases analyzer clock maxAttempts ht.language hbatch
    hfuel).resolve_right fun ⟨e, _, hworn⟩ => hnotworn e hworn
  obtain ⟨order, hacc⟩ := hpaged.accounted
  have htally := tally_all maxAttempts hall
  refine ⟨out, hrun, hpaged.analyzedOnce, fun r hr => ?_, fun k hk => ?_, ?_,
    hacc.pendingObservations, ?_, ?_⟩
  · rw [hacc.writes, count_writes hr order hacc.nodup]
    by_cases hpending : r.pending = true
    · simp [hpending, (hacc.decided r.identity).mpr (hall r hr hpending)]
    · simp [hpending]
  · rw [hacc.writes] at hk
    obtain ⟨keys, hkeys, hmem⟩ := List.mem_flatten.mp hk
    obtain ⟨identity, -, rfl⟩ := List.mem_map.mp hkeys
    obtain ⟨r, hr, hkey⟩ := List.mem_map.mp hmem
    obtain ⟨hrow, hhits⟩ := List.mem_filter.mp hr
    exact ⟨r, hrow, (hits_iff.mp hhits).1, hkey⟩
  · rw [hacc.rows, List.forall₂_map_right_iff]
    exact List.forall₂_same.mpr fun r hr => hacc.row hall hr
  · rw [hacc.done, hacc.skipped, hacc.failed, hacc.retry, hacc.pendingObservations, htally, htally,
      htally, htally, countP_statuses t.rows fun r => (settled maxAttempts D r).status]
    rfl
  · rw [hacc.retry, htally, countPending, hacc.rows, List.countP_map]
    refine List.countP_congr fun r _ => ?_
    by_cases hpending : r.pending = true
    · rw [hpending, Bool.true_and]
      exact Iff.rfl
    · simp [hpending, settled_of_not_pending (by simpa using hpending)]

namespace Sample

def observation (reviewId task : Nat) (content : String) (attempts : SmallInt) :
    SentimentObservation where
  reviewId := reviewId
  crawlTaskId := ⟨BitVec.ofNat 128 task⟩
  content := some content
  language := none
  label := none
  status := .pending
  processedAt := none
  attemptCount := attempts

def noAttempts : SmallInt := ⟨0, by decide, by decide⟩

def twoAttempts : SmallInt := ⟨2, by decide, by decide⟩

def lastAttempt : SmallInt := ⟨32767, by decide, by decide⟩

def skippedIn (language : Option String) (r : SentimentObservation) : SentimentObservation :=
  { r with status := .skipped, language := language, processedAt := some 0 }

/-- Two rows of one text, two of another with different attempt counts, and one
with an earlier result. -/
def observations : ObservationTable where
  rows := [observation 1 1 "good" noAttempts, observation 2 2 "bad" twoAttempts,
    observation 1 3 "good" noAttempts, observation 2 1 "bad" noAttempts,
    skippedIn none (observation 3 1 "?" noAttempts), observation 3 2 "?" noAttempts]
  unique := by decide

/-- Knows "good", and nothing else. -/
def goodAnalyzer : Analyzer := fun _ contents => some (contents.map fun content =>
  if content = some "good" then .result (.done .en .positive)
  else .failure)

def skippedInGerman : ObservationTable where
  rows := [skippedIn (some "de") (observation 1 1 "gut" noAttempts),
    observation 1 2 "gut" noAttempts]
  unique := by decide

def worn : ObservationTable := ⟨[observation 2 1 "bad" lastAttempt], by decide⟩

end Sample

open Sample in
theorem drain_accounted_mixed : Drainable observations ∧
    ∃ out, drain goodAnalyzer 2 3 (fun _ => 0) 7 observations = some (.ok out) ∧
      out.stats = ⟨5, 1, 2, 2, 1, 1, 1⟩ ∧ DrainAccounted observations 3 out := by
  have ht : Drainable observations := ⟨by decide, by decide⟩
  obtain ⟨out, hrun, hout⟩ := drain_accounted goodAnalyzer (fun _ => 0) 3
    (show 1 ≤ 2 by decide) ht (show observations.rows.length < 7 by decide)
  have hstats : (drain goodAnalyzer 2 3 (fun _ => 0) 7 observations).map
      (fun r => r.toOption.map fun s => s.stats) = some (some ⟨5, 1, 2, 2, 1, 1, 1⟩) := by
    decide +kernel
  rw [hrun] at hstats
  exact ⟨ht, out, hrun, Option.some.inj (Option.some.inj hstats), hout⟩

open Sample in
/-- A row skipped in another language, and one at the end of its column: the
drain raises in the middle, and nothing is counted. -/
theorem drain_raises :
    (∀ fuel, drain goodAnalyzer 2 3 (fun _ => 0) (fuel + 1) skippedInGerman =
      some (.error (.valueError "sentiment language must be fa, en, or null"))) ∧
    ∀ fuel, drain goodAnalyzer 2 3 (fun _ => 0) (fuel + 1) worn =
      some (.error .smallintOutOfRange) :=
  ⟨fun _ => rfl, fun _ => rfl⟩

end Sahabino
