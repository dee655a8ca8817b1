import Mathlib.Data.List.Sort
import Mathlib.Data.Prod.Lex
import Sahabino.Capture
import Sahabino.Lib.Table

/-!
# The sentiment worker

`SentimentWorker.drain` over `PostgresStore`: the columns of
`review_observations` it reads and writes, its statements, and the loop.

The connection commits every statement, so each of them is one function
on the table. The analyzer is any function of its call's number and of
the contents it is given. What the loop did is kept beside its own state:
the analyzer calls with their answers, and the keys each `UPDATE` hit.
-/

namespace Sahabino

/-! ## Analysis results -/

inductive Language where
  | fa
  | en
deriving DecidableEq, Repr

def Language.text : Language → String
  | fa => "fa"
  | en => "en"

inductive SentimentLabel where
  | positive
  | neutral
  | negative
deriving DecidableEq, Repr

inductive ResultStatus where
  | done
  | skipped
deriving DecidableEq, Repr

structure AnalysisResult where
  language : Option Language
  label : Option SentimentLabel
  status : ResultStatus
  ok : (status = .done → language.isSome ∧ label.isSome) ∧ (status = .skipped → label = none)
deriving DecidableEq

namespace AnalysisResult

/-- `AnalysisResult(language=None, label=None, status="skipped")`. -/
def skipped : AnalysisResult := ⟨none, none, .skipped, nofun, fun _ => rfl⟩

/-- A result of status `done`. -/
def done (language : Language) (label : SentimentLabel) : AnalysisResult :=
  ⟨some language, some label, .done, fun _ => ⟨rfl, rfl⟩, nofun⟩

end AnalysisResult

/-- How `drain` can fail: a result that does not validate, or an integer that
does not fit its column. -/
inductive SentimentError where
  | valueError (message : String)
  | smallintOutOfRange
deriving DecidableEq, Repr

/-- `AnalysisResult(...)` on a row of the table, where the language is any text. -/
def AnalysisResult.make (language : Option String) (label : Option SentimentLabel)
    (status : ResultStatus) : Except SentimentError AnalysisResult := do
  let known ← match language with
    | none => pure none
    | some text =>
        if text = Language.fa.text then pure (some Language.fa)
        else if text = Language.en.text then pure (some Language.en)
        else throw (.valueError "sentiment language must be fa, en, or null")
  match status with
  | .done =>
      if h : known.isSome ∧ label.isSome then pure ⟨known, label, .done, fun _ => h, nofun⟩
      else throw (.valueError "done sentiment results require a supported language and label")
  | .skipped =>
      if h : label = none then pure ⟨known, label, .skipped, nofun, fun _ => h⟩
      else throw (.valueError "skipped sentiment results cannot have a label")

/-! ## The table -/

inductive SentimentStatus where
  | pending
  | done
  | skipped
  | failed
deriving DecidableEq, Repr

def ResultStatus.toSentimentStatus : ResultStatus → SentimentStatus
  | done => .done
  | skipped => .skipped

/-- A `smallint`. -/
structure SmallInt where
  val : Int
  lower : -32768 ≤ val
  upper : val ≤ 32767
deriving DecidableEq

/-- `n + 1`, when it still fits. -/
def SmallInt.succ? (n : SmallInt) : Option SmallInt :=
  if h : n.val + 1 ≤ 32767 then some ⟨n.val + 1, by have := n.lower; omega, h⟩ else none

abbrev Identity := Nat × Option String

/-- `(review_id, crawl_task_id)` in the order of `ORDER BY`: PostgreSQL compares
UUIDs by their bytes. -/
abbrev ObservationKey := Nat ×ₗ Nat

structure SentimentObservation where
  reviewId : Nat
  crawlTaskId : Uuid
  content : Option String
  language : Option String
  label : Option SentimentLabel
  status : SentimentStatus
  processedAt : Option Timestamp
  attemptCount : SmallInt
deriving DecidableEq

namespace SentimentObservation

def key (r : SentimentObservation) : ObservationKey := toLex (r.reviewId, r.crawlTaskId.bits.toNat)

def identity (r : SentimentObservation) : Identity := (r.reviewId, r.content)

def pending (r : SentimentObservation) : Bool := r.status = .pending

end SentimentObservation

def SameKey (a b : SentimentObservation) : Prop := a.key = b.key

instance : DecidableRel SameKey := fun a b => inferInstanceAs (Decidable (a.key = b.key))

abbrev ObservationTable := Rel.Table SentimentObservation SameKey

/-! ## The store -/

def countPending (t : ObservationTable) : Nat := t.rows.countP (·.pending)

def afterCursor (cursor : Option ObservationKey) (r : SentimentObservation) : Bool :=
  match cursor with
  | none => true
  | some c => c < r.key

def fetchPendingAfter (cursor : Option ObservationKey) (limit : Nat) (t : ObservationTable) :
    List SentimentObservation :=
  ((t.rows.filter fun r => r.pending && afterCursor cursor r).insertionSort
    fun a b => a.key ≤ b.key).take limit

/-- The `WHERE` clause of `find_reusable`; `content IS NOT DISTINCT FROM` is
equality of the nullable texts. -/
def reusable (identity : Identity) (r : SentimentObservation) : Bool :=
  r.identity = identity &&
    ((r.status = .done && (r.language = some Language.fa.text || r.language = some Language.en.text)
        && r.label.isSome)
      || (r.status = .skipped && r.label.isNone))

/-- Its `ORDER BY`: done before skipped, then the latest first and `NULL` last. -/
def reusableBefore (a b : SentimentObservation) : Bool :=
  if (a.status = .done) = (b.status = .done) then
    match a.processedAt, b.processedAt with
    | _, none => true
    | none, some _ => false
    | some s, some t => t ≤ s
  else a.status = .done

def findReusable (identity : Identity) (t : ObservationTable) :
    Except SentimentError (Option AnalysisResult) :=
  match ((t.rows.filter (reusable identity)).insertionSort
      fun a b => reusableBefore a b = true).head? with
  | none => .ok none
  | some r => (AnalysisResult.make r.language r.label
      (if r.status = .done then .done else .skipped)).map some

/-- The rows an `UPDATE` of this identity hits. -/
def hits (identity : Identity) (r : SentimentObservation) : Bool :=
  r.pending && r.identity = identity

def withResult (result : AnalysisResult) (now : Timestamp) (r : SentimentObservation) :
    SentimentObservation :=
  { r with
    language := result.language.map Language.text, label := result.label,
    status := result.status.toSentimentStatus, processedAt := some now }

/-- `count` is the row's attempt count plus one. -/
def withFailure (maxAttempts : Nat) (now : Timestamp) (count : SmallInt)
    (r : SentimentObservation) : SentimentObservation :=
  { r with
    attemptCount := count, language := none, label := none,
    status := if (maxAttempts : Int) ≤ count.val then .failed else .pending,
    processedAt := if (maxAttempts : Int) ≤ count.val then some now else none }

/-- `UPDATE ... WHERE` the identity is pending, with an assignment that leaves
the key alone. -/
def updatePending (identity : Identity) (f : SentimentObservation → SentimentObservation)
    (hf : ∀ r, (f r).key = r.key) (t : ObservationTable) : ObservationTable :=
  t.modify (fun r => if hits identity r then f r else r) (by
    intro a b h
    unfold SameKey at *
    have hkey : ∀ r, (if hits identity r then f r else r).key = r.key := by
      intro r
      split
      · exact hf r
      · rfl
    rwa [hkey a, hkey b] at h)

/-- Returns the row count, as `cursor.rowcount` does. -/
def applyResult (identity : Identity) (result : AnalysisResult) (now : Timestamp)
    (t : ObservationTable) : Nat × ObservationTable :=
  (t.rows.countP (hits identity),
    updatePending identity (withResult result now) (fun _ => rfl) t)

def failRow (maxAttempts : Nat) (now : Timestamp) (r : SentimentObservation) :
    SentimentObservation :=
  withFailure maxAttempts now (r.attemptCount.succ?.getD r.attemptCount) r

/-- Returns how many of the rows are pending and how many failed afterwards. One
row whose count does not fit fails the whole statement. -/
def recordFailure (identity : Identity) (maxAttempts : Nat) (now : Timestamp)
    (t : ObservationTable) : Except SentimentError (Nat × Nat × ObservationTable) :=
  if t.rows.any fun r => hits identity r && r.attemptCount.succ?.isNone then
    .error .smallintOutOfRange
  else
    let returned := (t.rows.filter (hits identity)).map fun r => failRow maxAttempts now r
    .ok (returned.countP fun r => r.status = .pending, returned.countP fun r => r.status = .failed,
      updatePending identity (failRow maxAttempts now) (fun _ => rfl) t)

/-! ## The worker -/

structure RunStats where
  pendingObservations : Nat
  reusedResults : Nat
  newlyAnalyzedTexts : Nat
  doneObservations : Nat
  skippedObservations : Nat
  failedObservations : Nat
  retryPendingObservations : Nat
deriving DecidableEq, Repr

/-- An entry of the analyzer's answer; whatever is no `AnalysisResult` is a failure
of the item. -/
inductive AnalysisOutcome where
  | result (r : AnalysisResult)
  | failure

/-- `analyze_batch`: its list, or `none` when it raises. -/
abbrev Analyzer := Nat → List (Option String) → Option (List AnalysisOutcome)

structure AnalyzerCall where
  identities : List Identity
  answer : Option (List AnalysisOutcome)

/-- The locals of `drain` and the table; `calls` and `writes` are the history. -/
structure DrainState where
  table : ObservationTable
  stats : RunStats
  cursor : Option ObservationKey
  attempted : List Identity
  calls : List AnalyzerCall
  writes : List (List ObservationKey)

section Drain

variable (analyzer : Analyzer) (batchSize maxAttempts : Nat) (clock : Nat → Timestamp)

/-- The identities of a page that were not attempted yet, in their order. -/
def groupRows (attempted : List Identity) : List SentimentObservation → List Identity
  | [] => []
  | r :: rows =>
      if r.identity ∈ attempted then groupRows attempted rows
      else r.identity :: groupRows (r.identity :: attempted) rows

namespace DrainState

/-- The keys an `UPDATE` of this identity hits now. -/
def hitKeys (s : DrainState) (identity : Identity) : List ObservationKey :=
  (s.table.rows.filter (hits identity)).map (·.key)

/-- `now()` of the next statement. -/
def now (s : DrainState) : Timestamp := clock s.writes.length

/-- `apply_result` and the counters after it. -/
def apply (identity : Identity) (result : AnalysisResult) (s : DrainState) : Nat × DrainState :=
  let (updated, table) := applyResult identity result (s.now clock) s.table
  (updated, { s with
    table := table
    writes := s.writes ++ [s.hitKeys identity]
    stats := match result.status with
      | .done => { s.stats with doneObservations := s.stats.doneObservations + updated }
      | .skipped => { s.stats with skippedObservations := s.stats.skippedObservations + updated } })

/-- The counters after `record_failure`. -/
def countFailure (identity : Identity) (pending failed : Nat) (table : ObservationTable)
    (s : DrainState) : DrainState :=
  { s with
    table := table
    writes := s.writes ++ [s.hitKeys identity]
    stats := { s.stats with
      retryPendingObservations := s.stats.retryPendingObservations + pending
      failedObservations := s.stats.failedObservations + failed } }

def fail (identity : Identity) (s : DrainState) : Except SentimentError DrainState := do
  let (pending, failed, table) ← recordFailure identity maxAttempts (s.now clock) s.table
  pure (s.countFailure identity pending failed table)

def countReuse (updated : Nat) (s : DrainState) : DrainState :=
  { s with stats := { s.stats with reusedResults := s.stats.reusedResults + updated } }

/-- The loop over `groups`; also returns `needs_analysis`. -/
def reuse : List Identity → DrainState → Except SentimentError (List Identity × DrainState)
  | [], s => .ok ([], s)
  | identity :: groups, s => do
      match ← findReusable identity s.table with
      | none =>
          let (needsAnalysis, s') ← reuse groups s
          pure (identity :: needsAnalysis, s')
      | some result =>
          let (updated, s') := s.apply clock identity result
          reuse groups (s'.countReuse updated)

/-- An answer of the wrong length, or an exception, is a failure of every item. -/
def outcomes (needsAnalysis : List Identity) (answer : Option (List AnalysisOutcome)) :
    List AnalysisOutcome :=
  match answer with
  | some outcomes =>
      if outcomes.length ≠ needsAnalysis.length then needsAnalysis.map fun _ => .failure
      else outcomes
  | none => needsAnalysis.map fun _ => .failure

/-- The loop over `zip(needs_analysis, outcomes)`. -/
def settleAll : List (Identity × AnalysisOutcome) → DrainState → Except SentimentError DrainState
  | [], s => .ok s
  | (identity, .result result) :: rest, s => settleAll rest (s.apply clock identity result).2
  | (identity, .failure) :: rest, s => do
      let s' ← s.fail maxAttempts clock identity
      settleAll rest s'

/-- The page is fetched: the cursor moves to its end, its new identities count
as attempted. -/
def turn (rows : List SentimentObservation) (s : DrainState) : DrainState :=
  { s with
    cursor := (rows.getLast?.map fun r => r.key).or s.cursor
    attempted := s.attempted ++ groupRows s.attempted rows }

/-- The analyzer was given `needs_analysis`. -/
def called (needsAnalysis : List Identity) (answer : Option (List AnalysisOutcome))
    (s : DrainState) : DrainState :=
  { s with
    calls := s.calls ++ [⟨needsAnalysis, answer⟩]
    stats := { s.stats with
      newlyAnalyzedTexts := s.stats.newlyAnalyzedTexts + needsAnalysis.length } }

/-- One page. -/
def page (rows : List SentimentObservation) (s : DrainState) :
    Except SentimentError DrainState := do
  let (needsAnalysis, s') ← (s.turn rows).reuse clock (groupRows s.attempted rows)
  if needsAnalysis = [] then pure s'
  else
    let answer := analyzer s'.calls.length (needsAnalysis.map fun identity => identity.2)
    (s'.called needsAnalysis answer).settleAll maxAttempts clock
      (needsAnalysis.zip (outcomes needsAnalysis answer))

/-- `while True`, for at most `fuel` rounds. -/
def drainLoop : Nat → DrainState → Option (Except SentimentError DrainState)
  | 0, _ => none
  | fuel + 1, s =>
      match fetchPendingAfter s.cursor batchSize s.table with
      | [] => some (.ok s)
      | r :: rows =>
          match s.page analyzer maxAttempts clock (r :: rows) with
          | .error x => some (.error x)
          | .ok s' => drainLoop fuel s'

def start (t : ObservationTable) : DrainState where
  table := t
  stats := ⟨countPending t, 0, 0, 0, 0, 0, 0⟩
  cursor := none
  attempted := []
  calls := []
  writes := []

end DrainState

/-- `drain`; `none` when `fuel` rounds were not enough. -/
def drain (fuel : Nat) (t : ObservationTable) : Option (Except SentimentError DrainState) :=
  DrainState.drainLoop analyzer batchSize maxAttempts clock fuel (DrainState.start t)

end Drain

end Sahabino
