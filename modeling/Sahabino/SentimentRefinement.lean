import Sahabino.SentimentDrain

/-!
# A drain is one analysis per row

For an analyzer that applies one function to every text, the groups, the
reuse of earlier results, the pages and the batches of `drain` do not show
in the table it leaves. `naive` is the worker without them: it analyzes
every pending row by itself. Both leave the same table but for the times
of processing, and where a row has no attempt left both fail in the same
way.
-/

namespace Sahabino

/-! ## The naive worker -/

/-- The analyzer that applies `f` to every text. -/
def pointwise (f : Option String → AnalysisOutcome) : Analyzer :=
  fun _ contents => some (contents.map f)

/-- The row carries the result of `f` for its content. -/
def Carries (f : Option String → AnalysisOutcome) (r : SentimentObservation) : Prop :=
  ∃ result : AnalysisResult, f r.content = .result result ∧
    r.language = result.language.map Language.text ∧ r.label = result.label ∧
    r.status = result.status.toSentimentStatus

def Analyzed (f : Option String → AnalysisOutcome) (t : ObservationTable) : Prop :=
  ∀ r ∈ t.rows, r.status = .done ∨ r.status = .skipped → Carries f r

/-- A pending row is analyzed by itself: it gets its result, or one more failed
attempt. -/
def naiveRow (f : Option String → AnalysisOutcome) (maxAttempts : Nat) (now : Timestamp)
    (r : SentimentObservation) : Except SentimentError SentimentObservation :=
  if r.pending then
    match f r.content with
    | .result result => .ok (withResult result now r)
    | .failure =>
        if r.attemptCount.succ?.isSome then .ok (failRow maxAttempts now r)
        else .error .smallintOutOfRange
  else .ok r

def naive (f : Option String → AnalysisOutcome) (maxAttempts : Nat) (now : Timestamp)
    (t : ObservationTable) : Except SentimentError (List SentimentObservation) :=
  t.rows.mapM (naiveRow f maxAttempts now)

/-- The row but for when it was processed. -/
def untimed (r : SentimentObservation) : SentimentObservation :=
  { r with processedAt := r.processedAt.map fun _ => 0 }

/-- What a drain leaves, but for the times. -/
def finalRows (result : Except SentimentError DrainState) :
    Except SentimentError (List SentimentObservation) :=
  result.map fun out => out.table.rows.map untimed

section MapM

variable {α β γ ε : Type} {g : α → Except ε β}

theorem mapM_eq_ok (f : α → γ) (f' : β → γ) {xs : List α}
    (h : ∀ x ∈ xs, ∃ y, g x = .ok y ∧ f' y = f x) :
    (xs.mapM g).map (List.map f') = .ok (xs.map f) := by
  induction xs with
  | nil => rfl
  | cons x xs ih =>
      obtain ⟨y, hy, heq⟩ := h x (List.mem_cons_self ..)
      have ih := ih fun z hz => h z (List.mem_cons_of_mem _ hz)
      cases hxs : xs.mapM g with
      | error e =>
          rw [hxs] at ih
          cases ih
      | ok ys =>
          rw [hxs] at ih
          have hmap : ys.map f' = xs.map f := Except.ok.inj ih
          rw [List.mapM_cons, hy, hxs]
          show Except.ok (f' y :: ys.map f') = _
          rw [heq, hmap]
          rfl

theorem mapM_eq_error {e : ε} {xs : List α} (hall : ∀ x ∈ xs, ∀ e', g x = .error e' → e' = e)
    (h : ∃ x ∈ xs, g x = .error e) : xs.mapM g = .error e := by
  induction xs with
  | nil =>
      obtain ⟨x, hx, -⟩ := h
      cases hx
  | cons x xs ih =>
      rw [List.mapM_cons]
      cases hx : g x with
      | error e' =>
          rw [hall x (List.mem_cons_self ..) e' hx]
          rfl
      | ok y =>
          obtain ⟨z, hz, hfail⟩ := h
          have hmem : z ∈ xs := (List.mem_cons.mp hz).resolve_left (by
            rintro rfl
            rw [hx] at hfail
            cases hfail)
          rw [ih (fun w hw => hall w (List.mem_cons_of_mem _ hw)) ⟨z, hmem, hfail⟩]
          rfl

end MapM

/-! ## Where results come from -/

section Sources

variable {f : Option String → AnalysisOutcome} {t : ObservationTable}

theorem AnalysisResult.make_self (result : AnalysisResult) :
    AnalysisResult.make (result.language.map Language.text) result.label result.status =
      .ok result := by
  obtain ⟨language, label, status, hdone, hskipped⟩ := result
  cases status with
  | done =>
      obtain ⟨hl, hlabel⟩ := hdone rfl
      obtain ⟨label, rfl⟩ := Option.isSome_iff_exists.mp hlabel
      obtain ⟨language, rfl⟩ := Option.isSome_iff_exists.mp hl
      cases language <;> rfl
  | skipped =>
      obtain rfl := hskipped rfl
      rcases language with _ | language
      · rfl
      · cases language <;> rfl

/-- A carried result has a language that `AnalysisResult` knows. -/
theorem Analyzed.readable (h : Analyzed f t) : Readable t := by
  intro r hr hskipped _
  obtain ⟨result, -, hlanguage, -, -⟩ := h r hr (Or.inr hskipped)
  rw [hlanguage]
  rcases result.language with _ | language
  · exact Or.inl rfl
  · cases language
    · exact Or.inr (Or.inl rfl)
    · exact Or.inr (Or.inr rfl)

/-- What is reused is what `f` gives. -/
theorem Analyzed.reused (h : Analyzed f t) {identity : Identity} {result : AnalysisResult}
    (hfind : findReusable identity t = .ok (some result)) : f identity.2 = .result result := by
  unfold findReusable at hfind
  split at hfind
  · cases hfind
  rename_i r hhead
  have hmem := (List.mem_insertionSort _).mp (List.mem_of_mem_head? hhead)
  obtain ⟨hr, hreusable⟩ := List.mem_filter.mp hmem
  simp only [reusable, Bool.and_eq_true, Bool.or_eq_true, decide_eq_true_eq] at hreusable
  obtain ⟨hid, hcase⟩ := hreusable
  have hstatus : r.status = .done ∨ r.status = .skipped :=
    hcase.imp (fun hdone => hdone.1.1) fun hskipped => hskipped.1
  obtain ⟨carried, hf, hlanguage, hlabel, hsame⟩ := h r hr hstatus
  have hkind : (if r.status = .done then ResultStatus.done else .skipped) = carried.status := by
    rw [hsame]
    cases carried.status <;> rfl
  rw [hlanguage, hlabel, hkind, carried.make_self] at hfind
  obtain rfl := Option.some.inj (Except.ok.inj hfind)
  have hcontent : identity.2 = r.content := by rw [← hid]; rfl
  rw [hcontent]
  exact hf

theorem failed_of_pointwise {calls : List AnalyzerCall} (h : AnsweredBy (pointwise f) calls)
    {identity : Identity} (hfailed : AnalysisFailed calls identity) : f identity.2 = .failure := by
  obtain ⟨call, hcall, k, hk, hplace⟩ := hfailed
  obtain ⟨n, hanswer⟩ := h call hcall
  have hout := hplace _ hanswer (by rw [List.length_map, List.length_map])
  rw [List.getElem?_map, List.getElem?_map, hk] at hout
  exact Option.some.inj hout

theorem answered_of_pointwise {calls : List AnalyzerCall} (h : AnsweredBy (pointwise f) calls)
    {call : AnalyzerCall} (hcall : call ∈ calls) {identity : Identity} {result : AnalysisResult}
    (hanswered : call.Answered identity result) : f identity.2 = .result result := by
  obtain ⟨k, outcomes, hk, houtcomes, hout⟩ := hanswered
  obtain ⟨n, hanswer⟩ := h call hcall
  obtain rfl := Option.some.inj (hanswer.symm.trans houtcomes)
  rw [List.getElem?_map, List.getElem?_map, hk] at hout
  exact Option.some.inj hout

theorem Analyzed.sourced (h : Analyzed f t) {calls : List AnalyzerCall}
    (hcalls : AnsweredBy (pointwise f) calls) {identity : Identity} {result : AnalysisResult}
    (hsource : Sourced t calls identity result) : f identity.2 = .result result := by
  rcases hsource with hreused | ⟨call, hcall, hanswered⟩
  · exact h.reused hreused
  · exact answered_of_pointwise hcalls hcall hanswered

end Sources

/-! ## The two workers -/

section Refinement

variable {f : Option String → AnalysisOutcome} {t : ObservationTable} {maxAttempts : Nat}
  {D : Decisions} {order : List Identity} {s : DrainState}

/-- A row that a drain has settled is the naive worker's. -/
theorem naiveRow_of_settled (h : Analyzed f t) (now : Timestamp)
    (hacc : Accounted t maxAttempts D order s) (hcalls : AnsweredBy (pointwise f) s.calls)
    (hall : ∀ r ∈ t.rows, r.pending = true → (D r.identity).isSome) {r : SentimentObservation}
    (hr : r ∈ t.rows) :
    ∃ r', naiveRow f maxAttempts now r = .ok r' ∧
      untimed r' = untimed (settled maxAttempts D r) := by
  unfold naiveRow
  by_cases hpending : r.pending = true
  case neg =>
    rw [if_neg hpending, settled_of_not_pending (by simpa using hpending)]
    exact ⟨r, rfl, rfl⟩
  obtain ⟨d, hd⟩ := Option.isSome_iff_exists.mp (hall r hr hpending)
  rw [if_pos hpending, settled_of_decided hpending hd]
  cases d with
  | applied result now' =>
      have hf : f r.content = .result result :=
        h.sourced hcalls (hacc.sources r.identity result now' hd)
      rw [hf]
      exact ⟨withResult result now r, rfl, rfl⟩
  | failure now' =>
      have hf : f r.content = .failure :=
        failed_of_pointwise hcalls ((hacc.failures r.identity _ hd).mp rfl)
      rw [hf]
      refine ⟨failRow maxAttempts now r, if_pos (hacc.fits r hr hpending now' hd), ?_⟩
      simp only [Decision.settle, failRow, withFailure, untimed]
      split <;> rfl

/-- The naive worker fails in one way. -/
theorem naiveRow_error {now : Timestamp} {r : SentimentObservation} {e : SentimentError}
    (h : naiveRow f maxAttempts now r = .error e) : e = .smallintOutOfRange := by
  unfold naiveRow at h
  split at h
  · split at h
    · cases h
    · split at h
      · cases h
      · exact (Except.error.inj h).symm
  · cases h

/-- Where a drain finds a row without attempts left, so does the naive worker. -/
theorem naive_of_exhausted (maxAttempts : Nat) (now : Timestamp) {calls : List AnalyzerCall}
    (hcalls : AnsweredBy (pointwise f) calls) (h : Exhausted t calls) :
    naive f maxAttempts now t = .error .smallintOutOfRange := by
  obtain ⟨r, hr, hpending, hfailed, hnone⟩ := h
  have hf : f r.content = .failure := failed_of_pointwise hcalls hfailed
  refine mapM_eq_error (fun x _ e he => naiveRow_error he) ⟨r, hr, ?_⟩
  rw [naiveRow, if_pos hpending, hf]
  exact if_neg (by rw [hnone]; nofun)

theorem finalRows_drain (h : Analyzed f t) (maxAttempts : Nat) (clock : Nat → Timestamp)
    (now : Timestamp) {batchSize : Nat} (hbatch : 1 ≤ batchSize) {fuel : Nat}
    (hfuel : t.rows.length < fuel) :
    (drain (pointwise f) batchSize maxAttempts clock fuel t).map finalRows =
      some ((naive f maxAttempts now t).map (List.map untimed)) := by
  rcases drain_cases (pointwise f) clock maxAttempts h.readable hbatch hfuel with
    ⟨s, D, hrun, hpaged, hall⟩ | ⟨e, hrun, rfl, calls, hcalls, hexhausted⟩
  · obtain ⟨order, hacc⟩ := hpaged.accounted
    have hnaive := mapM_eq_ok (fun r => untimed (settled maxAttempts D r)) untimed
      fun r hr => naiveRow_of_settled h now hacc hpaged.answered hall hr
    rw [hrun, naive, hnaive, Option.map_some, finalRows, Except.map, hacc.rows, List.map_map]
    rfl
  · rw [hrun, naive_of_exhausted maxAttempts now hcalls hexhausted]
    rfl

end Refinement

/-- A drain whose analyzer works text by text ends as the naive worker does, with
the same table but for the times; so its batches do not show. -/
theorem drain_refines_naive {f : Option String → AnalysisOutcome} {t : ObservationTable}
    (h : Analyzed f t) (maxAttempts : Nat) :
    (∀ batchSize fuel, 1 ≤ batchSize → t.rows.length < fuel → ∀ clock now,
      (drain (pointwise f) batchSize maxAttempts clock fuel t).map finalRows =
        some ((naive f maxAttempts now t).map (List.map untimed))) ∧
    ∀ batchSize batchSize' fuel fuel', 1 ≤ batchSize → 1 ≤ batchSize' → t.rows.length < fuel →
      t.rows.length < fuel' → ∀ clock clock',
      (drain (pointwise f) batchSize maxAttempts clock fuel t).map finalRows =
        (drain (pointwise f) batchSize' maxAttempts clock' fuel' t).map finalRows := by
  refine ⟨fun batchSize fuel hbatch hfuel clock now =>
    finalRows_drain h maxAttempts clock now hbatch hfuel, ?_⟩
  intro batchSize batchSize' fuel fuel' hbatch hbatch' hfuel hfuel' clock clock'
  rw [finalRows_drain h maxAttempts clock 0 hbatch hfuel,
    finalRows_drain h maxAttempts clock' 0 hbatch' hfuel']

namespace Sample

/-- "good" is positive, "?" has no language, and nothing else is known. -/
def goodOrSkipped (content : Option String) : AnalysisOutcome :=
  if content = some "good" then .result (.done .en .positive)
  else if content = some "?" then .result .skipped
  else .failure

end Sample

open Sample in
theorem drain_refines_naive_observations :
    (drain (pointwise goodOrSkipped) 2 3 (fun _ => 0) 7 observations).map finalRows =
        some ((naive goodOrSkipped 3 5 observations).map (List.map untimed)) ∧
      (drain (pointwise goodOrSkipped) 1 3 (fun _ => 0) 7 observations).map finalRows =
        (drain (pointwise goodOrSkipped) 4 3 (fun _ => 9) 7 observations).map finalRows := by
  have h : Analyzed goodOrSkipped observations := by
    intro r hr hstatus
    simp only [observations, List.mem_cons, List.not_mem_nil, or_false] at hr
    rcases hr with rfl | rfl | rfl | rfl | rfl | rfl
    · rcases hstatus with hstatus | hstatus <;> cases hstatus
    · rcases hstatus with hstatus | hstatus <;> cases hstatus
    · rcases hstatus with hstatus | hstatus <;> cases hstatus
    · rcases hstatus with hstatus | hstatus <;> cases hstatus
    · exact ⟨⟨none, none, .skipped, by simp, by simp⟩, rfl, rfl, rfl, rfl⟩
    · rcases hstatus with hstatus | hstatus <;> cases hstatus
  obtain ⟨hnaive, hbatches⟩ := drain_refines_naive h 3
  exact ⟨hnaive 2 7 (by decide) (by decide) _ _,
    hbatches 1 4 7 7 (by decide) (by decide) (by decide) (by decide) _ _⟩

end Sahabino
