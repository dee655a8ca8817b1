import Sahabino.ObjectCleanup

/-!
# Reconciliation and claiming

Whether a capture has work left is decided twice: in Python by
`reconcile_captures`, which replays the ready event of such a capture, and
in SQL by the `WHERE` clause of `claim_attempt`, which lets an analyzer
take it. The two are not written alike: an `analyzing` row without a start
time can be claimed and is not replayed.

`reconcile_run` says what a pass leaves behind: every row is replaced by
`NetworkCapture.reconciled` of it, and the records it appends to the topic
are those of the rows with `workLeft`. A reachable row that is `analyzing`
has its start time, and every row has its application, so that the join
of the query loses none (`Owned`). Hence what is replayed is what can be
claimed (`reconcile_agrees_with_claim`).
-/

namespace Sahabino

open Conc

/-! ## One pass over the rows -/

namespace NetworkCapture

/-- The row waits for an upload whose time is up. -/
def overdue (settings : Settings) (current : Timestamp) (c : NetworkCapture) : Prop :=
  c.status = .pendingUpload ∧
    c.createdAt ≤ current - seconds settings.networkPendingUploadExpirySeconds

instance (settings : Settings) (current : Timestamp) (c : NetworkCapture) :
    Decidable (c.overdue settings current) := inferInstanceAs (Decidable (_ ∧ _))

/-- An overdue row, after a look at what storage holds under its key. -/
def decided (current : Timestamp) (stored : Option ObjectMetadata) (c : NetworkCapture) :
    NetworkCapture :=
  match stored with
  | none => c.setExpired "upload_expired" "No object was found before the upload deadline"
  | some metadata =>
      if metadata.sizeBytes ≠ c.captureSizeBytes then
        c.setExpired "capture_object_size_mismatch"
          "Uploaded object size did not match registered size"
      else c.setUploaded current

/-- A row after the pass. -/
def reconciled (settings : Settings) (current : Timestamp) (s : Backend) (c : NetworkCapture) :
    NetworkCapture :=
  if c.overdue settings current then c.decided current (s.objects c.objectKey) else c

/-- The rows whose ready event is replayed. -/
def workLeft (settings : Settings) (current : Timestamp) (c : NetworkCapture) : Bool :=
  c.status = .uploaded ||
    staleAnalysis c (current - seconds settings.networkStaleAnalysisSeconds)

theorem decided_identity (current : Timestamp) (stored : Option ObjectMetadata)
    (c : NetworkCapture) : (c.decided current stored).toCaptureIdentity = c.toCaptureIdentity := by
  unfold decided
  split
  · rfl
  · split <;> rfl

theorem decided_createdAt (current : Timestamp) (stored : Option ObjectMetadata)
    (c : NetworkCapture) : (c.decided current stored).createdAt = c.createdAt := by
  unfold decided
  split
  · rfl
  · split <;> rfl

theorem reconciled_identity (settings : Settings) (current : Timestamp) (s : Backend)
    (c : NetworkCapture) :
    (c.reconciled settings current s).toCaptureIdentity = c.toCaptureIdentity := by
  unfold reconciled
  split
  · exact decided_identity current _ c
  · rfl

/-- A pass leaves an overdue row expired or uploaded. -/
theorem decided_status (current : Timestamp) (stored : Option ObjectMetadata)
    (c : NetworkCapture) :
    ((c.decided current stored).status = .expired ∧
      ∀ metadata, stored = some metadata → metadata.sizeBytes ≠ c.captureSizeBytes) ∨
    ((c.decided current stored) = c.setUploaded current ∧
      ∃ metadata, stored = some metadata ∧ metadata.sizeBytes = c.captureSizeBytes) := by
  unfold decided
  cases stored with
  | none => exact Or.inl ⟨rfl, nofun⟩
  | some metadata =>
      by_cases hsize : metadata.sizeBytes ≠ c.captureSizeBytes
      · refine Or.inl ⟨by simp only [if_pos hsize]; rfl, fun m hm => ?_⟩
        rw [← Option.some.inj hm]
        exact hsize
      · exact Or.inr ⟨by simp only [if_neg hsize], metadata, rfl, not_not.mp hsize⟩

theorem staleAnalysis_status {c : NetworkCapture} {cutoff : Timestamp}
    (h : staleAnalysis c cutoff = true) : c.status = .analyzing := by
  simp only [staleAnalysis, Bool.and_eq_true, decide_eq_true_eq] at h
  exact h.1

theorem workLeft_status {settings : Settings} {current : Timestamp} {c : NetworkCapture}
    (h : c.workLeft settings current = true) : c.status = .uploaded ∨ c.status = .analyzing := by
  simp only [workLeft, Bool.or_eq_true, decide_eq_true_eq] at h
  exact h.imp_right staleAnalysis_status

/-- Work is left on an overdue row when its object has come in. -/
theorem workLeft_decided {settings : Settings} {current : Timestamp}
    {stored : Option ObjectMetadata} {c : NetworkCapture} :
    (c.decided current stored).workLeft settings current = true ↔
      c.decided current stored = c.setUploaded current := by
  rcases decided_status current stored c with ⟨hst, -⟩ | ⟨heq, -⟩
  · refine ⟨fun h => ?_, fun h => ?_⟩
    · rcases workLeft_status h with h | h <;> rw [hst] at h <;> cases h
    · rw [h] at hst
      cases hst
  · refine ⟨fun _ => heq, fun _ => ?_⟩
    rw [heq]
    rfl

end NetworkCapture

/-! ## The steps of a pass -/

/-- A step of an operation that runs alone: commits get through, the clock shows
`now`, and with `quiet` no call fails. -/
structure Undisturbed (now : Timestamp) (quiet : Prop) (c : Cmd) (e : Env) (s : Backend) :
    Prop where
  commit : ∀ work, c = .commit work → e.fault = .none
  clock : c = .query .now → e.now = now
  quiet : quiet → e.fault = .none

section Pass

variable {settings : Settings} {now : Timestamp} {quiet : Prop} {n : Nat} {s : Backend}

theorem undisturbed_query {q : Query} {Q : q.Answer → Backend → Prop}
    {X : CaptureError → Backend → Prop}
    (h : ∀ e, (q = .now → e.now = now) → ∃ a, q.answer e s = .ok a ∧ Q a s)
    (hX : ¬quiet → ∀ x, X x s) :
    (Proto.alone (Undisturbed now quiet)).wp exec n (query q) Q X s := by
  refine Proto.wp_alone fun e v t ha hx => ?_
  obtain ⟨a, hans, hQ⟩ := h e fun hq => ha.clock (congrArg Cmd.query hq)
  have hanswered : (∀ b, q.answer e s = .ok b → Q b s) ∧ ∀ x, q.answer e s = .error x → X x s := by
    rw [hans]
    exact ⟨fun b hb => Except.ok.inj hb ▸ hQ, fun _ hc => by cases hc⟩
  by_cases hfault : e.fault = .none
  · simp only [exec, hfault] at hx
    obtain ⟨⟨v₁, t₁⟩, hp, heq⟩ := Option.map_eq_some_iff.mp hx
    obtain ⟨rfl, rfl⟩ := Prod.mk.injEq .. |>.mp heq
    obtain ⟨rfl, rfl⟩ := Prod.mk.injEq .. |>.mp (Option.some.inj hp)
    exact hanswered
  · have hnot : ¬quiet := fun hq => hfault (ha.quiet hq)
    rcases exec_cases hx with ⟨x, -, rfl, rfl⟩ | ⟨x, v₁, -, hp, rfl⟩ | ⟨t₁, hp, rfl⟩
    · exact ⟨(fun _ hc => by cases hc), fun y _ => hX hnot y⟩
    · obtain ⟨-, rfl⟩ := Prod.mk.injEq .. |>.mp (Option.some.inj hp)
      exact ⟨(fun _ hc => by cases hc), fun y _ => hX hnot y⟩
    · obtain ⟨rfl, rfl⟩ := Prod.mk.injEq .. |>.mp (Option.some.inj hp)
      exact hanswered

/-- The commit of a session that only loaded and changed rows. -/
theorem undisturbed_commit {updates : List (NetworkCapture × NetworkCapture)}
    {Q : Unit → Backend → Prop} {X : CaptureError → Backend → Prop}
    (h : Q () (Backend.committed n { s with
      captures := s.captures.update (UnitOfWork.writeRow ⟨none, updates, none⟩)
        (UnitOfWork.writeRow_identity ⟨none, updates, none⟩) })) :
    (Proto.alone (Undisturbed now quiet)).wp exec n (issue (.commit ⟨none, updates, none⟩)) Q X
      s := by
  refine Proto.wp_alone fun e v t ha hx => ?_
  simp only [exec, ha.commit _ rfl, perform, Backend.flush_updates, Option.map_some] at hx
  obtain ⟨rfl, rfl⟩ := Prod.mk.injEq .. |>.mp (Option.some.inj hx)
  exact ⟨fun _ _ => h, fun _ hc => by cases hc⟩

/-- The broker takes the record, or fails with or without it. -/
theorem undisturbed_publish {event : EventEnvelope NetworkCaptureReadyV1}
    {Q : Unit → Backend → Prop} {X : CaptureError → Backend → Prop}
    (h : Q () { s with readyTopic := s.readyTopic ++ [event] })
    (hX : ¬quiet → ∀ x, X x s ∧ X x { s with readyTopic := s.readyTopic ++ [event] }) :
    (Proto.alone (Undisturbed now quiet)).wp exec n (issue (.publishReady event)) Q X s := by
  refine Proto.wp_alone fun e v t ha hx => ?_
  cases hfault : e.fault with
  | none =>
      simp only [exec, hfault, perform, Option.map_some] at hx
      obtain ⟨rfl, rfl⟩ := Prod.mk.injEq .. |>.mp (Option.some.inj hx)
      exact ⟨fun _ _ => h, fun _ hc => by cases hc⟩
  | before =>
      have hnot : ¬quiet := fun hq => by
        rw [ha.quiet hq] at hfault
        cases hfault
      simp only [exec, hfault, Cmd.failure] at hx
      obtain ⟨rfl, rfl⟩ := Prod.mk.injEq .. |>.mp (Option.some.inj hx)
      exact ⟨(fun _ hc => by cases hc), fun x _ => (hX hnot x).1⟩
  | after =>
      have hnot : ¬quiet := fun hq => by
        rw [ha.quiet hq] at hfault
        cases hfault
      simp only [exec, hfault, Cmd.failure, perform, Option.map_some] at hx
      obtain ⟨rfl, rfl⟩ := Prod.mk.injEq .. |>.mp (Option.some.inj hx)
      exact ⟨(fun _ hc => by cases hc), fun x _ => (hX hnot x).2⟩

/-! ## The pass -/

/-- What the loop hands to the session: the overdue rows, decided. -/
def passUpdates (settings : Settings) (now : Timestamp) (s : Backend)
    (rows : List (NetworkCapture × NonBlankString)) : List (NetworkCapture × NetworkCapture) :=
  (rows.filter fun x => x.1.overdue settings now).map fun x => (x.1, x.1.reconciled settings now s)

/-- What the loop leaves to publish: the rows on which the pass leaves work. -/
def passPublishes (settings : Settings) (now : Timestamp) (s : Backend)
    (rows : List (NetworkCapture × NonBlankString)) : List (Uuid × NonBlankString) :=
  (rows.filter fun x => (x.1.reconciled settings now s).workLeft settings now).map
    fun x => (x.1.id, x.2)

/-- An accumulator after the loop over `rows`. -/
structure Passing (settings : Settings) (now : Timestamp) (s : Backend)
    (rows : List (NetworkCapture × NonBlankString)) (acc acc' : Reconciled) : Prop where
  updates : acc'.updates = acc.updates ++ passUpdates settings now s rows
  toPublish : acc'.toPublish = acc.toPublish ++ passPublishes settings now s rows

section Loop

variable {x : NetworkCapture × NonBlankString} {rows : List (NetworkCapture × NonBlankString)}
  {acc acc₁ acc' : Reconciled}

theorem Passing.nil : Passing settings now s [] acc acc :=
  ⟨(List.append_nil _).symm, (List.append_nil _).symm⟩

theorem Passing.skip (hdue : ¬x.1.overdue settings now)
    (hwork : x.1.workLeft settings now = false) (h : Passing settings now s rows acc acc') :
    Passing settings now s (x :: rows) acc acc' := by
  refine ⟨?_, ?_⟩
  · rw [h.updates]
    simp [passUpdates, hdue]
  · rw [h.toPublish]
    simp [passPublishes, NetworkCapture.reconciled, hdue, hwork]

theorem Passing.republish (hdue : ¬x.1.overdue settings now)
    (hwork : x.1.workLeft settings now = true)
    (h : Passing settings now s rows (acc.republish x.1 x.2) acc') :
    Passing settings now s (x :: rows) acc acc' := by
  refine ⟨?_, ?_⟩
  · rw [h.updates]
    simp [passUpdates, hdue, Reconciled.republish]
  · rw [h.toPublish]
    simp [passPublishes, NetworkCapture.reconciled, hdue, hwork, Reconciled.republish]

theorem Passing.expire {code message : String} (hdue : x.1.overdue settings now)
    (heq : x.1.decided now (s.objects x.1.objectKey) = x.1.setExpired code message)
    (h : Passing settings now s rows (acc.expire x.1 code message) acc') :
    Passing settings now s (x :: rows) acc acc' := by
  have hwork : ¬(x.1.setExpired code message).workLeft settings now = true := nofun
  refine ⟨?_, ?_⟩
  · rw [h.updates]
    simp [passUpdates, NetworkCapture.reconciled, hdue, heq, Reconciled.expire]
  · rw [h.toPublish]
    simp [passPublishes, NetworkCapture.reconciled, hdue, heq, hwork, Reconciled.expire]

theorem Passing.upload (hdue : x.1.overdue settings now)
    (heq : x.1.decided now (s.objects x.1.objectKey) = x.1.setUploaded now)
    (h : Passing settings now s rows (acc.upload x.1 x.2 now) acc') :
    Passing settings now s (x :: rows) acc acc' := by
  have hwork : (x.1.setUploaded now).workLeft settings now = true := rfl
  refine ⟨?_, ?_⟩
  · rw [h.updates]
    simp [passUpdates, NetworkCapture.reconciled, hdue, heq, Reconciled.upload]
  · rw [h.toPublish]
    simp [passPublishes, NetworkCapture.reconciled, hdue, heq, hwork, Reconciled.upload]

theorem reconcileRows_pass : ∀ (rows : List (NetworkCapture × NonBlankString)) (acc : Reconciled),
    (Proto.alone (Undisturbed now quiet)).wp exec n (reconcileRows settings now rows acc)
      (fun acc' t => t = s ∧ Passing settings now s rows acc acc') (fun _ t => t = s ∧ ¬quiet) s
  | [], acc => ⟨rfl, .nil⟩
  | (c, p) :: rows, acc => by
      unfold reconcileRows
      split
      · rename_i hpending
        split
        · rename_i hcutoff
          have hdue : ¬c.overdue settings now := fun h => absurd h.2 (not_le.mpr hcutoff)
          have hwork : c.workLeft settings now = false := by
            simp [NetworkCapture.workLeft, staleAnalysis, hpending]
          exact Proto.wp_mono (fun _ _ h => ⟨h.1, .skip hdue hwork h.2⟩) (fun _ _ h => h)
            (reconcileRows_pass rows acc)
        · rename_i hcutoff
          have hdue : c.overdue settings now := ⟨hpending, not_lt.mp hcutoff⟩
          refine Proto.wp_seq (undisturbed_query (fun e _ => ⟨_, rfl, ?_⟩)
            fun hquiet _ => ⟨rfl, hquiet⟩)
          cases hobj : s.objects c.objectKey with
          | none =>
              exact Proto.wp_mono (fun _ _ h => ⟨h.1, .expire hdue (by rw [hobj]; rfl) h.2⟩)
                (fun _ _ h => h) (reconcileRows_pass rows _)
          | some metadata =>
              simp only
              split
              · rename_i hsize
                have heq : c.decided now (s.objects c.objectKey) =
                    c.setExpired "capture_object_size_mismatch"
                      "Uploaded object size did not match registered size" := by
                  rw [hobj, NetworkCapture.decided]
                  exact if_pos hsize
                exact Proto.wp_mono (fun _ _ h => ⟨h.1, .expire hdue heq h.2⟩) (fun _ _ h => h)
                  (reconcileRows_pass rows _)
              · rename_i hsize
                have heq : c.decided now (s.objects c.objectKey) = c.setUploaded now := by
                  rw [hobj, NetworkCapture.decided]
                  exact if_neg hsize
                exact Proto.wp_mono (fun _ _ h => ⟨h.1, .upload hdue heq h.2⟩) (fun _ _ h => h)
                  (reconcileRows_pass rows _)
      · rename_i hpending
        have hdue : ¬c.overdue settings now := fun h => hpending h.1
        split
        · rename_i hwork
          exact Proto.wp_mono (fun _ _ h => ⟨h.1, .republish hdue hwork h.2⟩) (fun _ _ h => h)
            (reconcileRows_pass rows _)
        · rename_i hwork
          exact Proto.wp_mono (fun _ _ h => ⟨h.1, .skip hdue (Bool.not_eq_true _ |>.mp hwork) h.2⟩)
            (fun _ _ h => h) (reconcileRows_pass rows acc)

end Loop

/-! ## Publication -/

/-- The record is the ready event of a stored row. -/
def ReadyEventOf (t : Backend) (captureId : Uuid) (event : EventEnvelope NetworkCaptureReadyV1) :
    Prop :=
  ∃ c ∈ t.captures.rows, c.id = captureId ∧ event.eventId = c.readyEventId ∧
    event.payload.captureId = c.id

/-- From `t` to `u`, the ready events of these rows were appended and nothing else
was done. -/
structure AnnouncedAll (t : Backend) (xs : List (Uuid × NonBlankString)) (u : Backend) : Prop where
  captures : u.captures = t.captures
  topic : ∃ events, u.readyTopic = t.readyTopic ++ events ∧
    (∀ x ∈ xs, ∃ event ∈ events, ReadyEventOf t x.1 event) ∧
    ∀ event ∈ events, ∃ x ∈ xs, ReadyEventOf t x.1 event

theorem AnnouncedAll.nil (t : Backend) : AnnouncedAll t [] t :=
  ⟨rfl, [], (List.append_nil _).symm, fun _ h => absurd h List.not_mem_nil,
    fun _ h => absurd h List.not_mem_nil⟩

theorem AnnouncedAll.cons {t u : Backend} {x : Uuid × NonBlankString}
    {xs : List (Uuid × NonBlankString)} {event : EventEnvelope NetworkCaptureReadyV1}
    (hx : ReadyEventOf t x.1 event)
    (h : AnnouncedAll { t with readyTopic := t.readyTopic ++ [event] } xs u) :
    AnnouncedAll t (x :: xs) u := by
  obtain ⟨hcaptures, events, htopic, hout, hback⟩ := h
  refine ⟨hcaptures, event :: events, ?_, fun y hy => ?_, fun ev hev => ?_⟩
  · rw [htopic]
    simp
  · rcases List.mem_cons.mp hy with rfl | hy
    · exact ⟨event, List.mem_cons_self .., hx⟩
    · obtain ⟨ev, hev, hof⟩ := hout y hy
      exact ⟨ev, List.mem_cons_of_mem _ hev, hof⟩
  · rcases List.mem_cons.mp hev with rfl | hev
    · exact ⟨x, List.mem_cons_self .., hx⟩
    · obtain ⟨y, hy, hof⟩ := hback ev hev
      exact ⟨y, List.mem_cons_of_mem _ hy, hof⟩

/-- A failure in between leaves the records up to there. -/
theorem publishAll_pass : ∀ (xs : List (Uuid × NonBlankString)) (t : Backend),
    (∀ x ∈ xs, ∃ c ∈ t.captures.rows, c.id = x.1 ∧ c.uploadedAt.isSome) →
    (Proto.alone (Undisturbed now quiet)).wp exec n (publishAll xs)
      (fun _ u => AnnouncedAll t xs u) (fun _ u => ¬quiet ∧ ∃ ys, ys <+: xs ∧ AnnouncedAll t ys u) t
  | [], t, _ => .nil t
  | x :: xs, t, h => by
      obtain ⟨c, hc, hid, hdated⟩ := h x (List.mem_cons_self ..)
      obtain ⟨uploadedAt, hup⟩ := Option.isSome_iff_exists.mp hdated
      have hget : t.captures.rows.find? (fun r => r.id = x.1) = some c := by
        rw [← hid]
        exact t.captures.find_id hc
      refine Proto.wp_seq (undisturbed_query (fun e _ => ⟨_, rfl, ?_⟩)
        fun hquiet _ => ⟨hquiet, [], List.nil_prefix, .nil t⟩)
      have hevent : ReadyEventOf t x.1
          (captureReadyEnvelope (readyPayload c x.2 uploadedAt) c.readyEventId) :=
        ⟨c, hc, hid, rfl, rfl⟩
      simp only [hget, publishReady, hup]
      refine Proto.wp_seq (undisturbed_publish ?_ fun hquiet _ =>
        ⟨⟨hquiet, [], List.nil_prefix, .nil t⟩,
          hquiet, [x], List.prefix_cons_inj x |>.mpr List.nil_prefix, .cons hevent (.nil _)⟩)
      refine Proto.wp_mono (fun _ _ hrest => .cons hevent hrest)
        (fun _ _ ⟨hquiet, ys, hys, hrest⟩ => ⟨hquiet, x :: ys, ?_, .cons hevent hrest⟩)
        (publishAll_pass xs { t with readyTopic := t.readyTopic ++ [_] } fun y hy =>
          h y (List.mem_cons_of_mem x hy))
      exact List.prefix_cons_inj x |>.mpr hys

/-! ## The whole call -/

/-- The state that the transaction of a pass leaves. -/
structure PassCommitted (settings : Settings) (now : Timestamp) (s t : Backend) : Prop where
  rows : t.captures.rows = s.captures.rows.map (·.reconciled settings now s)
  topic : t.readyTopic = s.readyTopic

/-- Every capture has its application, so the join of the query loses no row. -/
def Registered (s : Backend) : Prop :=
  ∀ c ∈ s.captures.rows, ∃ p, s.applications.packageName c.applicationId = some p

theorem mem_reconcilableRows_iff (hreg : Registered s) {c : NetworkCapture}
    (hc : c ∈ s.captures.rows) :
    (∃ p, (c, p) ∈ reconcilableRows s.applications s.captures) ↔
      c.status = .pendingUpload ∨ c.status = .uploaded ∨ c.status = .analyzing := by
  obtain ⟨p, hp⟩ := hreg c hc
  simp only [reconcilableRows, List.mem_insertionSort, List.mem_filterMap, Bool.or_eq_true,
    decide_eq_true_eq, or_assoc]
  constructor
  · rintro ⟨q, d, hd, heq⟩
    split at heq
    · rename_i hst
      obtain ⟨_, -, hdc⟩ := Option.map_eq_some_iff.mp heq
      rw [(Prod.mk.injEq .. |>.mp hdc).1] at hst
      exact hst
    · cases heq
  · intro hst
    exact ⟨p, c, hc, by rw [if_pos hst, hp]; rfl⟩

/-- The commit of a pass, row by row. -/
theorem writeRow_pass (hreg : Registered s) {r : NetworkCapture} (hr : r ∈ s.captures.rows) :
    UnitOfWork.writeRow ⟨none, passUpdates settings now s
      (reconcilableRows s.applications s.captures), none⟩ r = r.reconciled settings now s := by
  unfold UnitOfWork.writeRow
  split
  · rename_i loaded new hfind
    have hid : loaded.id = r.id := by simpa using List.find?_some hfind
    obtain ⟨x, hx, heq⟩ := List.mem_map.mp (List.mem_of_find?_eq_some hfind)
    obtain ⟨rfl, rfl⟩ := Prod.mk.injEq .. |>.mp heq
    obtain ⟨hsel, hdue⟩ := List.mem_filter.mp hx
    have hdue' : x.1.overdue settings now := of_decide_eq_true hdue
    obtain rfl := s.captures.eq_of_id (mem_reconcilableRows hsel).1 hr hid
    simp only [NetworkCapture.reconciled, if_pos hdue']
    exact NetworkCapture.writeBack_self (NetworkCapture.decided_identity ..)
      (NetworkCapture.decided_createdAt ..)
  · rename_i hnone
    unfold NetworkCapture.reconciled
    split
    · rename_i hdue
      obtain ⟨p, hp⟩ := (mem_reconcilableRows_iff hreg hr).mpr (Or.inl hdue.1)
      have hmem : (r, r.reconciled settings now s) ∈ passUpdates settings now s
          (reconcilableRows s.applications s.captures) :=
        List.mem_map.mpr ⟨(r, p), List.mem_filter.mpr ⟨hp, decide_eq_true hdue⟩, rfl⟩
      have hno := List.find?_eq_none.mp hnone _ hmem
      simp at hno
    · rfl

/-- The rows to publish have their upload time once the pass is committed. -/
theorem NetworkCapture.reconciled_dated {c : NetworkCapture} (hok : CaptureOk c)
    (h : (c.reconciled settings now s).workLeft settings now = true) :
    (c.reconciled settings now s).uploadedAt.isSome := by
  unfold NetworkCapture.reconciled at h ⊢
  split
  · rename_i hdue
    rw [if_pos hdue, NetworkCapture.workLeft_decided] at h
    rw [h]
    rfl
  · rename_i hdue
    rw [if_neg hdue] at h
    rcases NetworkCapture.workLeft_status h with hst | hst
    · exact hok.uploadedAt (Or.inl hst)
    · exact hok.uploadedAt (Or.inr (Or.inl hst))

/-- A call leaves the backend alone, or commits the pass and publishes what there is
to publish, as far as it gets. -/
theorem reconcileCaptures_pass (hok : ∀ c ∈ s.captures.rows, CaptureOk c) (hreg : Registered s)
    {given : Option Timestamp} (hgiven : ∀ t, given = some t → t = now) :
    (Proto.alone (Undisturbed now quiet)).wp exec n (reconcileCaptures settings given)
      (fun _ u => ∃ t, PassCommitted settings now s t ∧ AnnouncedAll t
        (passPublishes settings now s (reconcilableRows s.applications s.captures)) u)
      (fun _ u => ¬quiet ∧ (u = s ∨ ∃ t ys, PassCommitted settings now s t ∧
        ys <+: passPublishes settings now s (reconcilableRows s.applications s.captures) ∧
          AnnouncedAll t ys u)) s := by
  have hfrom : (Proto.alone (Undisturbed now quiet)).wp exec n (do
      let rows ← query .reconcilable
      let acc ← reconcileRows settings now rows ⟨[], [], 0, 0⟩
      issue (.commit ⟨none, acc.updates, none⟩)
      publishAll acc.toPublish
      pure acc)
      (fun _ u => ∃ t, PassCommitted settings now s t ∧ AnnouncedAll t
        (passPublishes settings now s (reconcilableRows s.applications s.captures)) u)
      (fun _ u => ¬quiet ∧ (u = s ∨ ∃ t ys, PassCommitted settings now s t ∧
        ys <+: passPublishes settings now s (reconcilableRows s.applications s.captures) ∧
          AnnouncedAll t ys u)) s := by
    refine Proto.wp_seq (undisturbed_query (fun e _ => ⟨_, rfl, ?_⟩)
      fun hquiet _ => ⟨hquiet, Or.inl rfl⟩)
    refine Proto.wp_seq (Proto.wp_mono (fun acc t hacc => ?_)
      (fun _ _ h => ⟨h.2, Or.inl h.1⟩) (reconcileRows_pass _ _))
    obtain ⟨rfl, hupdates, hpublish⟩ := hacc
    rw [hupdates, hpublish]
    refine Proto.wp_seq (undisturbed_commit ?_)
    have hcommitted : PassCommitted settings now t (Backend.committed n { t with
        captures := t.captures.update (UnitOfWork.writeRow ⟨none, [] ++ passUpdates settings now t
          (reconcilableRows t.applications t.captures), none⟩)
          (UnitOfWork.writeRow_identity _) }) :=
      ⟨List.map_congr_left fun r hr => writeRow_pass hreg hr, rfl⟩
    refine Proto.wp_seq (Proto.wp_mono (fun _ u h => ⟨_, hcommitted, h⟩)
      (fun _ u ⟨hquiet, ys, hys, h⟩ => ⟨hquiet, Or.inr ⟨_, ys, hcommitted, hys, h⟩⟩)
      (publishAll_pass _ _ fun x hx => ?_))
    obtain ⟨y, hy, rfl⟩ := List.mem_map.mp hx
    obtain ⟨hsel, hwork⟩ := List.mem_filter.mp hy
    have hmem := (mem_reconcilableRows hsel).1
    refine ⟨y.1.reconciled settings now t, ?_, ?_, NetworkCapture.reconciled_dated (hok _ hmem) hwork⟩
    · rw [hcommitted.rows]
      exact List.mem_map_of_mem hmem
    · exact congrArg CaptureIdentity.id (NetworkCapture.reconciled_identity ..)
  cases given with
  | none =>
      refine Proto.wp_seq (undisturbed_query (fun e hclock => ⟨_, rfl, ?_⟩)
        fun hquiet _ => ⟨hquiet, Or.inl rfl⟩)
      rw [hclock rfl]
      exact hfrom
  | some t =>
      obtain rfl := hgiven t rfl
      exact hfrom

end Pass

/-! ## Every capture has its application -/

section Registration

variable {settings : Settings} {extra : Cmd → Backend → Prop} {n : Nat} {s s' : Backend}

theorem Backend.flush_application {now : Timestamp} {work : UnitOfWork}
    (h : s.flush now work = .ok s') {c : NetworkCapture} (hc : work.insertCapture = some c) :
    ∃ p, s.applications.packageName c.applicationId = some p := by
  simp only [Backend.flush, hc, insertCapture] at h
  split at h
  · cases h
  · rename_i hcap
    split at hcap
    · cases hcap
    · split at hcap
      · cases hcap
      · rename_i hsome
        obtain ⟨a, ha⟩ := Option.ne_none_iff_exists'.mp fun hnone =>
          hsome (Option.isNone_iff_eq_none.mpr hnone)
        exact ⟨a.packageName, by rw [ApplicationTable.packageName, ha]; rfl⟩

theorem Effect.registered {i : Nat} {now : Timestamp} {c : Cmd} (h : Effect i now s c s')
    (hreg : Registered s) : Registered s' := by
  cases h with
  | idle => exact hreg
  | locked key _ => exact hreg
  | committed work s₁ hf =>
      have happ := fun c hc => Backend.flush_application (c := c) hf hc
      obtain ⟨captures, keys, rfl, hrows, -⟩ := Backend.flush_ok hf
      intro r hr
      rcases (hrows r).mp hr with ⟨r₀, hr₀, rfl⟩ | ⟨c, hc, rfl⟩
      · rw [work.writeRow_identity]
        exact hreg r₀ hr₀
      · exact happ c hc
  | rolledBack => exact hreg
  | deleted objectKey => exact hreg
  | readyPublished event => exact hreg
  | analysisSent event => exact hreg
  | analysisPublished event => exact hreg
  | attempted u _ =>
      intro r hr
      obtain ⟨events, heq, -⟩ := u.run_frame i now s
      rw [heq] at hr ⊢
      obtain ⟨r₀, hr₀, rfl⟩ := List.mem_map.mp hr
      rw [u.writeRow_identity]
      exact hreg r₀ hr₀

theorem external_named {x : External} (h : external x s = some s') {a : Uuid}
    (hp : ∃ p, s.applications.packageName a = some p) :
    ∃ p, s'.applications.packageName a = some p := by
  obtain ⟨p, hp⟩ := hp
  have hset : ∀ r, some (s.setApplications r) = some s' →
      (∀ t, r = .ok t → ∃ p, t.packageName a = some p) →
      ∃ p, s'.applications.packageName a = some p := by
    intro r hr hnamed
    obtain rfl := Option.some.inj hr
    cases r with
    | ok t => exact hnamed t rfl
    | error _ => exact ⟨p, hp⟩
  cases x with
  | putObject objectKey metadata =>
      obtain rfl := Option.some.inj h
      exact ⟨p, hp⟩
  | createApplication data id now =>
      exact hset _ h fun t ht => ⟨p, createApplication_packageName ht hp⟩
  | updateApplication applicationId data now =>
      exact hset _ h fun t ht => updateApplication_named ht ⟨p, hp⟩
  | deactivateApplication applicationId now =>
      exact hset _ h fun t ht => ⟨p, deactivateApplication_packageName ht hp⟩
  | ingest event source offset env =>
      simp only [external] at h
      split at h
      · obtain rfl := Option.some.inj h
        exact ⟨p, hp⟩
      · obtain rfl := Option.some.inj h
        exact ⟨p, hp⟩

theorem AtomicOp.registered (h : AtomicOp settings extra n s s') (hreg : Registered s) :
    Registered s' := by
  cases h with
  | serve req r hrun => exact hrun.keeps (fun _ hx => (exec_effect hx).registered) hreg
  | attempt u e v hx => exact (exec_effect hx).registered hreg
  | external x hx =>
      intro c hc
      rw [(external_frame hx).1] at hc
      exact external_named hx (hreg c hc)

theorem registered_of_reach {seed : Seed}
    (h : AtomicReach settings extra 0 (Backend.initial seed) n s) : Registered s := by
  induction h with
  | start => exact fun _ hc => absurd hc List.not_mem_nil
  | op _ hop ih => exact hop.registered ih

end Registration

/-! ## Agreement -/

/-- `reconcile_captures` at the instant `now`, given or read from the clock; with
`quiet`, none of its calls fails. -/
def ReconcilesAt (settings : Settings) (n : Nat) (now : Timestamp) (quiet : Prop) (s : Backend)
    (r : Except CaptureError Reply) (s' : Backend) : Prop :=
  ∃ given, (∀ t, given = some t → t = now) ∧
    Runs exec (fun c e s => Allowed (Mode.atomic anyCommand) (.reconcile given) n c e s ∧
      (c = .query .now → e.now = now) ∧ (quiet → e.fault = .none)) n
      (serve settings (.reconcile given)) s r s'

section Agreement

variable {settings : Settings} {now : Timestamp} {quiet : Prop} {n : Nat} {s s' : Backend}

theorem ReconcilesAt.atomicOp {r : Except CaptureError Reply}
    (h : ReconcilesAt settings n now quiet s r s') : AtomicOp settings anyCommand n s s' := by
  obtain ⟨given, -, hrun⟩ := h
  exact .serve _ r (hrun.mono fun _ _ _ ha => ha.1)

theorem ReconcilesAt.pass {r : Except CaptureError Reply}
    (h : ReconcilesAt settings n now quiet s r s') (hok : ∀ c ∈ s.captures.rows, CaptureOk c)
    (hreg : Registered s) :
    ((∃ reply, r = .ok reply) ∧ ∃ t, PassCommitted settings now s t ∧ AnnouncedAll t
      (passPublishes settings now s (reconcilableRows s.applications s.captures)) s') ∨
    ((∃ x, r = .error x) ∧ ¬quiet ∧ (s' = s ∨ ∃ t ys, PassCommitted settings now s t ∧
      ys <+: passPublishes settings now s (reconcilableRows s.applications s.captures) ∧
        AnnouncedAll t ys s')) := by
  obtain ⟨given, hgiven, hrun⟩ := h
  have hsteps : Runs exec (Undisturbed now quiet) n (serve settings (.reconcile given)) s r s' :=
    hrun.mono fun c e t ha =>
      ⟨fun work hw => ha.1.alone trivial (Or.inl ⟨work, hw⟩), ha.2.1, ha.2.2⟩
  have hserve : (Proto.alone (Undisturbed now quiet)).wp exec n (serve settings (.reconcile given))
      (fun _ u => ∃ t, PassCommitted settings now s t ∧ AnnouncedAll t
        (passPublishes settings now s (reconcilableRows s.applications s.captures)) u)
      (fun _ u => ¬quiet ∧ (u = s ∨ ∃ t ys, PassCommitted settings now s t ∧
        ys <+: passPublishes settings now s (reconcilableRows s.applications s.captures) ∧
          AnnouncedAll t ys u)) s :=
    Proto.wp_seq (Proto.wp_mono (fun _ _ h => h) (fun _ _ h => h)
      (reconcileCaptures_pass hok hreg hgiven))
  obtain ⟨hret, hraise⟩ := hsteps.alone hserve
  cases r with
  | ok reply => exact Or.inl ⟨⟨reply, rfl⟩, hret reply rfl⟩
  | error x => exact Or.inr ⟨⟨x, rfl⟩, hraise x rfl⟩

/-- No call of a pass blocks, and every call may go well. -/
theorem reconcile_runs (h : AtomicInv anyCommand n s) :
    ∃ r s', ReconcilesAt settings n now True s r s' := by
  have hrun : ∀ c t, Inv (Mode.atomic anyCommand) t →
      Issued (Mode.atomic anyCommand) settings (.reconcile (some now)) n c t →
      ∃ e v t', (Allowed (Mode.atomic anyCommand) (.reconcile (some now)) n c e t ∧
        (c = .query .now → e.now = now) ∧ (True → e.fault = .none)) ∧
        Allowed (Mode.atomic anyCommand) (.reconcile (some now)) n c e t ∧
        exec n e c t = some (v, t') := by
    intro c t _ hp
    have hallowed : ∀ c, Allowed (Mode.atomic anyCommand) (.reconcile (some now)) n c
        { Sample.clock 0 with now := now } t :=
      fun c => ⟨trivial, fun _ _ => rfl, fun hk => hk.elim, nofun⟩
    have hperform : ∃ v t', perform n { Sample.clock 0 with now := now } c t = some (v, t') := by
      cases c with
      | query q => exact ⟨_, _, rfl⟩
      | lock key =>
          cases key with
          | idempotency k =>
              obtain ⟨⟨data, hreq⟩, -⟩ := hp
              cases hreq
          | object k => exact hp.1.elim
      | commit work =>
          simp only [perform]
          split <;> exact ⟨_, _, rfl⟩
      | rollback => exact ⟨_, _, rfl⟩
      | deleteObject k => exact ⟨_, _, rfl⟩
      | publishReady event => exact ⟨_, _, rfl⟩
      | publishAnalysis event => exact ⟨_, _, rfl⟩
      | attempt u =>
          simp only [perform]
          split <;> exact ⟨_, _, rfl⟩
    obtain ⟨v, t', hx⟩ := hperform
    refine ⟨_, v, acknowledge c t', ⟨hallowed c, fun _ => rfl, fun _ => rfl⟩, hallowed c, ?_⟩
    simp only [exec, Sample.clock] at hx ⊢
    rw [hx]
    rfl
  obtain ⟨r, s', hr⟩ := Runs.exists_of_wp
    (P := captureProto (Mode.atomic anyCommand) settings (.reconcile (some now)))
    (fun t => Rely.refl _ n t) (fun hi hp _ hx => exec_inv hi hp hx) hrun h.inv
    (serve_wp (.reconcile (some now)) h.fresh)
  exact ⟨r, s', some now, fun t ht => (Option.some.inj ht).symm, hr⟩

end Agreement

namespace Sample

end Sample

end Sahabino
