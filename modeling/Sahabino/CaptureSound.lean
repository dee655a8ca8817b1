import Sahabino.CaptureVerify

/-!
# Soundness of the capture discipline

`complete`, the operator commands and the analyzer worker meet the
discipline too, and with them the whole pool does
(`captureDiscipline_sound`). The operator commands and `complete` write
back objects without taking a lock; all that is shown of such a write is
that the object was once loaded and moved by a move of the lifecycle.
Alone, it was loaded from the row that is stored.
-/

namespace Sahabino

open Conc (Prog Proto)

section Processes

variable {m : Mode} {settings : Settings} {req : Request} {i : Nat} {s : Backend}

/-! ## `complete` -/

theorem announceCompleted_wp {c : NetworkCapture} (hknown : Known c s) (hfit : Fit m c) :
    (captureProto m settings req).wp exec i (announceCompleted c) (fun _ _ => True)
      (Raised m i) s := by
  have hX := raised_of_infrastructure m i
  unfold announceCompleted
  split
  · rename_i hd
    refine Proto.wp_seq (packageNameForCapture_wp (hX _) (fun t => ⟨nofun, fun _ => nofun⟩) ?_)
    intro t p hr _ hn
    refine Proto.wp_seq (publishReady_wp (hX _) (fun hup => ⟨nofun, fun ha => ?_⟩)
      (hknown.rely hr) hn fun _ _ _ => trivial)
    have := hfit ha hd
    rw [hup] at this
    cases this
  · trivial

theorem complete_wp {captureId : Uuid} :
    (captureProto m settings req).wp exec i (complete captureId) (fun _ _ => True)
      (Raised m i) s := by
  have hX := raised_of_infrastructure m i
  have hnow : ∀ e t, ∃ a, Query.now.answer e t = .ok a := fun e _ => ⟨e.now, rfl⟩
  refine Proto.wp_seq (get_wp (hX _) (fun t c _ hi hc _ => ?_)
    fun t _ _ => ⟨nofun, fun _ => nofun⟩)
  have hseen := Seen.of_mem hi hc
  simp only
  split
  · exact ⟨nofun, fun _ => nofun⟩
  · refine Proto.wp_seq (wp_query (hX _) fun t₁ hr₁ hi₁ e _ => ⟨fun a ha => ?_, nofun⟩)
    obtain rfl := Except.ok.inj ha
    cases hobj : t₁.objects c.objectKey with
    | none => exact ⟨nofun, fun _ => nofun⟩
    | some metadata =>
        simp only
        split
        · exact ⟨nofun, fun _ => nofun⟩
        · rename_i hsize
          have hseen₁ := hseen.rely hr₁
          split
          · rename_i hst
            refine Proto.wp_seq (wp_local hnow (hX _) fun t₂ now hr₂ _ => ?_)
            have hmove : ∀ t, Rely m i t₁ t → Move m t c (c.setUploaded now) := by
              refine fun t hr => .upload now hst fun ha => ?_
              rw [hr.alone ha]
              exact ⟨metadata, hobj, not_not.mp hsize⟩
            refine Proto.wp_seq (wp_commit (hX _) fun t₃ hr₃ _ =>
              ⟨CommitOk.of_updates ?_, ?_, fun _ _ hf => raised_of_flush_error hf t₃⟩)
            · intro u hu
              rw [List.mem_singleton.mp hu]
              exact ⟨hseen₁.rely (hr₂.trans hr₃), hmove t₃ (hr₂.trans hr₃)⟩
            · intro now' t₄ hf _
              have hknown := (hseen₁.known.rely (hr₂.trans hr₃)).flush (i := i) hf
              exact announceCompleted_wp hknown fun _ _ => rfl
          · exact announceCompleted_wp hseen₁.known (hseen₁.fit hi₁)

/-! ## `retry_capture` -/

theorem mem_captureWithPackage {applications : ApplicationTable} {captures : CaptureTable}
    {captureId : Uuid} {c : NetworkCapture} {p : NonBlankString}
    (h : captureWithPackage applications captures captureId = some (c, p)) :
    c ∈ captures.rows ∧ c.id = captureId ∧ applications.packageName c.applicationId = some p := by
  unfold captureWithPackage at h
  split at h
  · rename_i c' hf
    obtain ⟨p', hp', heq⟩ := Option.map_eq_some_iff.mp h
    obtain ⟨rfl, rfl⟩ := Prod.mk.injEq .. |>.mp heq
    exact ⟨List.mem_of_find?_eq_some hf, by simpa using List.find?_some hf, hp'⟩
  · cases h

/-- Alone, the row that was written back is the object that was written. -/
theorem stored_of_flush {c c' r : NetworkCapture} {t t₁ : Backend} {now : Timestamp}
    (ha : m.alone) (hseen : Seen m c t) (hmove : Move m t c c')
    (hf : t.flush now ⟨none, [(c, c')], none⟩ = .ok t₁) (hr : r ∈ t₁.captures.rows)
    (hid : r.id = c.id) : r = c' := by
  obtain ⟨captures, keys, rfl, hrows, -⟩ := Backend.flush_ok hf
  rcases (hrows r).mp hr with ⟨r₀, hr₀, rfl⟩ | ⟨c₀, hc₀, -⟩
  · have hid₀ : c.id = r₀.id :=
      (hid.symm.trans (congrArg CaptureIdentity.id (UnitOfWork.writeRow_identity _ r₀)))
    obtain rfl := hseen.eq_stored ha hr₀ hid₀
    simp only [UnitOfWork.writeRow, List.find?_singleton, decide_true, if_true]
    exact NetworkCapture.writeBack_self hmove.identity hmove.createdAt
  · cases hc₀

theorem retryCapture_wp {captureId : Uuid} :
    (captureProto m settings req).wp exec i (retryCapture captureId) (fun _ _ => True)
      (Raised m i) s := by
  have hX := raised_of_infrastructure m i
  refine Proto.wp_seq (wp_query (hX _) fun t hr hi e _ => ⟨fun a ha => ?_, nofun⟩)
  obtain rfl := Except.ok.inj ha
  cases hrow : captureWithPackage t.applications t.captures captureId with
  | none => exact ⟨nofun, fun _ => nofun⟩
  | some row =>
      obtain ⟨c, p⟩ := row
      obtain ⟨hc, hid, hp⟩ := mem_captureWithPackage hrow
      have hseen := Seen.of_mem hi hc
      simp only
      split
      · exact ⟨nofun, fun _ => nofun⟩
      · rename_i hst
        split
        · exact ⟨nofun, fun _ => nofun⟩
        · rename_i hdel
          have hfailed : c.status = .failed := not_not.mp hst
          have hmove : ∀ t, Move m t c c.setRetried := fun t =>
            .retry hfailed (by simpa using hdel)
          refine Proto.wp_seq (wp_commit (hX _) fun t₁ hr₁ _ =>
            ⟨CommitOk.of_updates ?_, ?_, fun _ _ hf => raised_of_flush_error hf t₁⟩)
          · intro u hu
            rw [List.mem_singleton.mp hu]
            exact ⟨hseen.rely hr₁, hmove t₁⟩
          · intro now t₂ hf _
            have hnamed : Named m c.applicationId p (t₂.committed i) := by
              intro hfrozen
              have hn := hr₁.names _ _ hfrozen hp
              obtain ⟨captures, keys, rfl, -, -⟩ := Backend.flush_ok hf
              exact hn
            have hknown := (hseen.known.rely hr₁).flush (i := i) hf
            refine Proto.wp_seq (get_wp (hX _) (fun t₃ c₃ hr₃ _ hc₃ hid₃ => ?_)
              fun _ _ _ => ⟨nofun, fun _ => nofun⟩)
            have hrid := (hknown.rely hr₃).identity hc₃ (hid₃.trans hid.symm)
            refine Proto.wp_seq (publishReady_wp (hX _) (fun hup => ⟨nofun, fun ha => ?_⟩)
              ⟨c₃, hc₃, rfl⟩ ?_ fun _ _ _ => trivial)
            · -- alone, the retried row kept the upload time it had as a failed one
              have hc₂ : c₃ ∈ t₂.captures.rows := by
                rw [hr₃.alone ha] at hc₃
                exact hc₃
              have hid₂ : c₃.id = c.id := hid₃.trans hid.symm
              have heq := stored_of_flush ha (hseen.rely hr₁) (hmove t₁) hf hc₂ hid₂
              have hsome := (hi.ok ha c hc).uploadedAt (Or.inr (Or.inr (Or.inr hfailed)))
              rw [heq] at hup
              have hnone : c.uploadedAt = none := hup
              rw [hnone] at hsome
              cases hsome
            · have happ : c₃.applicationId = c.applicationId :=
                congrArg CaptureIdentity.applicationId hrid
              rw [happ]
              exact hnamed.rely hr₃

/-! ## `reconcile_captures` -/

/-- A row chosen for publication: known, with the name that was read for it. -/
structure Chosen (m : Mode) (captureId : Uuid) (p : NonBlankString) (s : Backend) : Prop where
  row : ∃ c, Known c s ∧ c.id = captureId ∧ Named m c.applicationId p s

theorem Chosen.rely {captureId : Uuid} {p : NonBlankString} {s s' : Backend}
    (hr : Rely m i s s') (h : Chosen m captureId p s) : Chosen m captureId p s' := by
  obtain ⟨c, hknown, hid, hnamed⟩ := h.row
  exact ⟨⟨c, hknown.rely hr, hid, hnamed.rely hr⟩⟩

/-- The accumulator of the loop. The last part is about an operation that runs
alone: a chosen row has an upload time, or an update that gives it one, and no
other update. -/
structure ReconciledOk (m : Mode) (acc : Reconciled) (s : Backend) : Prop where
  updates : ∀ u ∈ acc.updates, Seen m u.1 s ∧ Move m s u.1 u.2
  chosen : ∀ x ∈ acc.toPublish, Chosen m x.1 x.2 s
  dated : m.alone → ∀ x ∈ acc.toPublish,
    (∀ u ∈ acc.updates, u.1.id = x.1 → u.2.uploadedAt.isSome) ∧
      ((∃ u ∈ acc.updates, u.1.id = x.1) ∨
        ∀ c ∈ s.captures.rows, c.id = x.1 → c.uploadedAt.isSome)

theorem Move.rely {c c' : NetworkCapture} {s s' : Backend} (hr : Rely m i s s')
    (h : Move m s c c') : Move m s' c c' := by
  cases h with
  | reopen h => exact .reopen h
  | upload now hst hobj =>
      refine .upload now hst fun ha => ?_
      rw [hr.alone ha]
      exact hobj ha
  | expire code message hst => exact .expire code message hst
  | retry hst hdel => exact .retry hst hdel
  | delete deletedAt hterm => exact .delete deletedAt hterm

theorem ReconciledOk.rely {acc : Reconciled} {s s' : Backend} (hr : Rely m i s s')
    (h : ReconciledOk m acc s) : ReconciledOk m acc s' where
  updates := fun u hu => ⟨(h.updates u hu).1.rely hr, (h.updates u hu).2.rely hr⟩
  chosen := fun x hx => (h.chosen x hx).rely hr
  dated := fun ha x hx => by
    rw [hr.alone ha]
    exact h.dated ha x hx

/-- Every update of the loop is of a row it has passed. -/
structure Passed (rows : List (NetworkCapture × NonBlankString)) (acc : Reconciled) : Prop where
  distinct : (rows.map fun x => x.1.id).Nodup
  updates : ∀ x ∈ rows, ∀ u ∈ acc.updates, u.1.id ≠ x.1.id
  chosen : ∀ x ∈ rows, ∀ y ∈ acc.toPublish, y.1 ≠ x.1.id

theorem Passed.skip {x : NetworkCapture × NonBlankString}
    {rows : List (NetworkCapture × NonBlankString)} {acc : Reconciled}
    (h : Passed (x :: rows) acc) : Passed rows acc where
  distinct := (List.nodup_cons.mp h.distinct).2
  updates := fun y hy => h.updates y (List.mem_cons_of_mem x hy)
  chosen := fun y hy => h.chosen y (List.mem_cons_of_mem x hy)

/-- The ids still ahead differ from the one being looked at. -/
theorem Passed.ne {x y : NetworkCapture × NonBlankString}
    {rows : List (NetworkCapture × NonBlankString)} {acc : Reconciled}
    (h : Passed (x :: rows) acc) (hy : y ∈ rows) : x.1.id ≠ y.1.id := by
  intro heq
  have hnot := (List.nodup_cons.mp h.distinct).1
  exact hnot (List.mem_map.mpr ⟨y, hy, heq.symm⟩)

theorem ReconciledOk.update {acc : Reconciled} {c c' : NetworkCapture}
    {updates : List (NetworkCapture × NetworkCapture)} (h : ReconciledOk m acc s)
    (hups : updates = acc.updates ++ [(c, c')]) (hseen : Seen m c s) (hmove : Move m s c c')
    (hnew : ∀ y ∈ acc.toPublish, y.1 ≠ c.id) :
    ReconciledOk m { acc with updates := updates } s := by
  subst hups
  refine ⟨fun u hu => ?_, h.chosen, fun ha x hx => ?_⟩
  · rcases List.mem_append.mp hu with hu | hu
    · exact h.updates u hu
    · rw [List.mem_singleton.mp hu]
      exact ⟨hseen, hmove⟩
  · obtain ⟨hall, hsome⟩ := h.dated ha x hx
    refine ⟨fun u hu hid => ?_, ?_⟩
    · rcases List.mem_append.mp hu with hu | hu
      · exact hall u hu hid
      · rw [List.mem_singleton.mp hu] at hid
        exact absurd hid.symm (hnew x hx)
    · rcases hsome with ⟨u, hu, hid⟩ | hrow
      · exact Or.inl ⟨u, List.mem_append_left _ hu, hid⟩
      · exact Or.inr hrow

theorem ReconciledOk.choose {acc : Reconciled} (h : ReconciledOk m acc s) (captureId : Uuid)
    (p : NonBlankString) (hch : Chosen m captureId p s)
    (hdated : m.alone → (∀ u ∈ acc.updates, u.1.id = captureId → u.2.uploadedAt.isSome) ∧
      ((∃ u ∈ acc.updates, u.1.id = captureId) ∨
        ∀ c ∈ s.captures.rows, c.id = captureId → c.uploadedAt.isSome)) :
    ReconciledOk m { acc with toPublish := acc.toPublish ++ [(captureId, p)] } s := by
  refine ⟨h.updates, fun x hx => ?_, fun ha x hx => ?_⟩
  · rcases List.mem_append.mp hx with hx | hx
    · exact h.chosen x hx
    · rw [List.mem_singleton.mp hx]
      exact hch
  · rcases List.mem_append.mp hx with hx | hx
    · exact h.dated ha x hx
    · rw [List.mem_singleton.mp hx]
      exact hdated ha

theorem Passed.grow {x : NetworkCapture × NonBlankString}
    {rows : List (NetworkCapture × NonBlankString)} {acc acc' : Reconciled}
    (h : Passed (x :: rows) acc)
    (hu : ∀ u ∈ acc'.updates, u ∈ acc.updates ∨ u.1 = x.1)
    (hp : ∀ y ∈ acc'.toPublish, y ∈ acc.toPublish ∨ y.1 = x.1.id) : Passed rows acc' where
  distinct := h.skip.distinct
  updates := by
    intro y hy u hu'
    rcases hu u hu' with hold | hnew
    · exact h.skip.updates y hy u hold
    · rw [hnew]
      exact h.ne hy
  chosen := by
    intro y hy z hz
    rcases hp z hz with hold | hnew
    · exact h.skip.chosen y hy z hold
    · rw [hnew]
      exact h.ne hy

/-- A row of the selection, as the loop may still use it after other rows. -/
structure Selected (m : Mode) (x : NetworkCapture × NonBlankString) (s : Backend) : Prop where
  seen : Seen m x.1 s
  fit : Fit m x.1
  named : Named m x.1.applicationId x.2 s

theorem Selected.rely {x : NetworkCapture × NonBlankString} {s s' : Backend}
    (hr : Rely m i s s') (h : Selected m x s) : Selected m x s' :=
  ⟨h.seen.rely hr, h.fit, h.named.rely hr⟩

theorem ReconciledOk.expire {c : NetworkCapture} {p : NonBlankString}
    {rows : List (NetworkCapture × NonBlankString)} {acc : Reconciled} {code message : String}
    (h : ReconciledOk m acc s) (hp : Passed ((c, p) :: rows) acc) (hsel : Selected m (c, p) s)
    (hst : c.status = .pendingUpload) :
    ReconciledOk m (acc.expire c code message) s ∧ Passed rows (acc.expire c code message) := by
  have hup := h.update rfl hsel.seen (.expire code message hst)
    fun y hy => hp.chosen _ (List.mem_cons_self ..) y hy
  refine ⟨⟨hup.updates, hup.chosen, hup.dated⟩, hp.grow (fun u hu => ?_) fun y hy => Or.inl hy⟩
  rcases List.mem_append.mp hu with hu | hu
  · exact Or.inl hu
  · rw [List.mem_singleton.mp hu]
    exact Or.inr rfl

theorem ReconciledOk.upload {c : NetworkCapture} {p : NonBlankString}
    {rows : List (NetworkCapture × NonBlankString)} {acc : Reconciled} {current : Timestamp}
    (h : ReconciledOk m acc s) (hp : Passed ((c, p) :: rows) acc) (hsel : Selected m (c, p) s)
    (hst : c.status = .pendingUpload)
    (hobj : m.alone → ∃ metadata, s.objects c.objectKey = some metadata ∧
      metadata.sizeBytes = c.captureSizeBytes) :
    ReconciledOk m (acc.upload c p current) s ∧ Passed rows (acc.upload c p current) := by
  have hup := h.update rfl hsel.seen (.upload current hst hobj)
    fun y hy => hp.chosen _ (List.mem_cons_self ..) y hy
  have hch := hup.choose c.id p
    ⟨c, hsel.seen.known, rfl, hsel.named⟩ fun _ => ⟨fun u hu hid => ?_, Or.inl ?_⟩
  · refine ⟨⟨hch.updates, hch.chosen, hch.dated⟩, hp.grow (fun u hu => ?_) fun y hy => ?_⟩
    · rcases List.mem_append.mp hu with hu | hu
      · exact Or.inl hu
      · rw [List.mem_singleton.mp hu]
        exact Or.inr rfl
    · rcases List.mem_append.mp hy with hy | hy
      · exact Or.inl hy
      · rw [List.mem_singleton.mp hy]
        exact Or.inr rfl
  · rcases List.mem_append.mp hu with hu | hu
    · exact absurd hid (hp.updates _ (List.mem_cons_self ..) u hu)
    · rw [List.mem_singleton.mp hu]
      rfl
  · exact ⟨_, List.mem_append_right _ (List.mem_singleton.mpr rfl), rfl⟩

theorem ReconciledOk.republish {c : NetworkCapture} {p : NonBlankString}
    {rows : List (NetworkCapture × NonBlankString)} {acc : Reconciled}
    (h : ReconciledOk m acc s) (hp : Passed ((c, p) :: rows) acc) (hsel : Selected m (c, p) s)
    (hd : c.dispatchable = true) :
    ReconciledOk m (acc.republish c p) s ∧ Passed rows (acc.republish c p) := by
  have hch := h.choose c.id p
    ⟨c, hsel.seen.known, rfl, hsel.named⟩ fun ha => ⟨fun u hu hid => ?_, Or.inr ?_⟩
  · refine ⟨⟨hch.updates, hch.chosen, hch.dated⟩, hp.grow (fun u hu => Or.inl hu) fun y hy => ?_⟩
    rcases List.mem_append.mp hy with hy | hy
    · exact Or.inl hy
    · rw [List.mem_singleton.mp hy]
      exact Or.inr rfl
  · exact absurd hid (hp.updates _ (List.mem_cons_self ..) u hu)
  · intro c' hc' hid
    obtain rfl := hsel.seen.eq_stored ha hc' hid.symm
    exact hsel.fit ha hd

theorem reconcileRows_wp {current : Timestamp} :
    ∀ (rows : List (NetworkCapture × NonBlankString)) (acc : Reconciled) {s : Backend},
      ReconciledOk m acc s → Passed rows acc → (∀ x ∈ rows, Selected m x s) →
      (captureProto m settings req).wp exec i (reconcileRows settings current rows acc)
        (ReconciledOk m) (Raised m i) s
  | [], _, _, h, _, _ => h
  | (c, p) :: rows, acc, s, h, hp, hsel => by
      have hX := raised_of_infrastructure m i
      have hrest : ∀ x ∈ rows, Selected m x s := fun x hx => hsel x (List.mem_cons_of_mem _ hx)
      have hc := hsel (c, p) (List.mem_cons_self ..)
      unfold reconcileRows
      split
      · rename_i hst
        split
        · exact reconcileRows_wp rows acc h hp.skip hrest
        · refine Proto.wp_seq (wp_query (hX _) fun t hr _ e _ => ⟨fun a ha => ?_, nofun⟩)
          obtain rfl := Except.ok.inj ha
          have ht := h.rely hr
          have hct := hc.rely hr
          have hrt : ∀ x ∈ rows, Selected m x t := fun x hx => (hrest x hx).rely hr
          cases hobj : t.objects c.objectKey with
          | none =>
              obtain ⟨h', hp'⟩ := ht.expire hp hct hst
              exact reconcileRows_wp rows _ h' hp' hrt
          | some metadata =>
              simp only
              split
              · obtain ⟨h', hp'⟩ := ht.expire hp hct hst
                exact reconcileRows_wp rows _ h' hp' hrt
              · rename_i hsize
                obtain ⟨h', hp'⟩ := ht.upload hp hct hst
                  fun _ => ⟨metadata, hobj, not_not.mp hsize⟩
                exact reconcileRows_wp rows _ h' hp' hrt
      · split
        · rename_i hst
          have hd : c.dispatchable = true := by
            simp only [Bool.or_eq_true, decide_eq_true_eq] at hst
            rcases hst with hst | hst
            · simp [NetworkCapture.dispatchable, hst]
            · simp only [staleAnalysis, Bool.and_eq_true, decide_eq_true_eq] at hst
              simp [NetworkCapture.dispatchable, hst.1]
          obtain ⟨h', hp'⟩ := h.republish hp hc hd
          exact reconcileRows_wp rows _ h' hp' hrest
        · exact reconcileRows_wp rows acc h hp.skip hrest

/-- Publishing by id: the row is read again, and alone it has its upload time. -/
theorem publishAll_wp :
    ∀ (xs : List (Uuid × NonBlankString)) {s : Backend}, (∀ x ∈ xs, Chosen m x.1 x.2 s) →
      (m.alone → ∀ x ∈ xs, ∀ c ∈ s.captures.rows, c.id = x.1 → c.uploadedAt.isSome) →
      (captureProto m settings req).wp exec i (publishAll xs) (fun _ _ => True) (Raised m i) s
  | [], _, _, _ => trivial
  | (captureId, p) :: xs, s, hch, hdated => by
      have hX := raised_of_infrastructure m i
      have hch' : ∀ {t}, Rely m i s t → ∀ x ∈ xs, Chosen m x.1 x.2 t :=
        fun hr x hx => (hch x (List.mem_cons_of_mem _ hx)).rely hr
      have hdated' : ∀ {t}, Rely m i s t → m.alone → ∀ x ∈ xs, ∀ c ∈ t.captures.rows,
          c.id = x.1 → c.uploadedAt.isSome := by
        intro t hr ha x hx
        rw [hr.alone ha]
        exact hdated ha x (List.mem_cons_of_mem _ hx)
      refine Proto.wp_seq (get_wp (hX _) (fun t c hr _ hc hid => ?_) fun t hr _ => ?_)
      · obtain ⟨c₀, hknown, hid₀, hnamed⟩ := ((hch _ (List.mem_cons_self ..)).rely hr).row
        have hrid := hknown.identity hc (hid.trans hid₀.symm)
        refine Proto.wp_seq (publishReady_wp (hX _) (fun hup => ⟨nofun, fun ha => ?_⟩)
          ⟨c, hc, rfl⟩ ?_ fun t₁ topic hr₁ => ?_)
        · have hcs : c ∈ s.captures.rows := by
            rw [hr.alone ha] at hc
            exact hc
          have hsome := hdated ha _ (List.mem_cons_self ..) c hcs hid
          rw [hup] at hsome
          cases hsome
        · have happ : c.applicationId = c₀.applicationId :=
            congrArg CaptureIdentity.applicationId hrid
          rw [happ]
          exact hnamed
        · have hrs := hr.trans hr₁
          refine publishAll_wp xs (fun x hx => ?_) fun ha x hx => hdated' hrs ha x hx
          exact ⟨(hch' hrs x hx).row⟩
      · exact publishAll_wp xs (hch' hr) (hdated' hr)

theorem mem_reconcilableRows {applications : ApplicationTable} {captures : CaptureTable}
    {x : NetworkCapture × NonBlankString} (h : x ∈ reconcilableRows applications captures) :
    x.1 ∈ captures.rows ∧ applications.packageName x.1.applicationId = some x.2 := by
  rw [reconcilableRows, List.mem_insertionSort, List.mem_filterMap] at h
  obtain ⟨c, hc, hx⟩ := h
  split at hx
  · obtain ⟨p, hp, rfl⟩ := Option.map_eq_some_iff.mp hx
    exact ⟨hc, hp⟩
  · cases hx

theorem nodup_reconcilableRows (applications : ApplicationTable) (captures : CaptureTable) :
    ((reconcilableRows applications captures).map fun x => x.1.id).Nodup := by
  unfold reconcilableRows
  refine (((List.perm_insertionSort _ _).map _).nodup_iff).mpr ?_
  refine List.pairwise_map.mpr (List.Pairwise.filterMap _ ?_ captures.unique)
  intro c c' hclash x hx y hy
  split at hx
  · split at hy
    · obtain ⟨p, -, rfl⟩ := Option.map_eq_some_iff.mp hx
      obtain ⟨p', -, rfl⟩ := Option.map_eq_some_iff.mp hy
      exact fun hid => hclash (Or.inl hid)
    · cases hy
  · cases hx

/-- Alone, the rows chosen by the loop have their upload time once its updates
are committed: by their own update, or from before. -/
theorem ReconciledOk.dated_of_flush {acc : Reconciled} {t t₁ : Backend} {now : Timestamp}
    (h : ReconciledOk m acc t) (ha : m.alone)
    (hf : t.flush now ⟨none, acc.updates, none⟩ = .ok t₁) :
    ∀ x ∈ acc.toPublish, ∀ r ∈ t₁.captures.rows, r.id = x.1 → r.uploadedAt.isSome := by
  intro x hx r hr hid
  obtain ⟨captures, keys, rfl, hrows, -⟩ := Backend.flush_ok hf
  obtain ⟨hall, hsome⟩ := h.dated ha x hx
  rcases (hrows r).mp hr with ⟨r₀, hr₀, rfl⟩ | ⟨c, hc, -⟩
  · have hid₀ : r₀.id = x.1 :=
      (congrArg CaptureIdentity.id (UnitOfWork.writeRow_identity _ r₀)).symm.trans hid
    unfold UnitOfWork.writeRow
    cases hfind : acc.updates.find? fun u => u.1.id = r₀.id with
    | none =>
        rcases hsome with ⟨u, hu, huid⟩ | hrow
        · have := List.find?_eq_none.mp hfind u hu
          simp [huid, hid₀] at this
        · exact hrow r₀ hr₀ hid₀
    | some u =>
        have hu := List.mem_of_find?_eq_some hfind
        have huid : u.1.id = r₀.id := by simpa using List.find?_some hfind
        obtain ⟨hseen, hmove⟩ := h.updates u hu
        obtain rfl := hseen.eq_stored ha hr₀ huid
        simp only
        rw [NetworkCapture.writeBack_self hmove.identity hmove.createdAt]
        exact hall u hu (huid.trans hid₀)
  · cases hc

theorem Chosen.flush {captureId : Uuid} {p : NonBlankString} {t t₁ : Backend} {now : Timestamp}
    {work : UnitOfWork} (h : Chosen m captureId p t) (hf : t.flush now work = .ok t₁) :
    Chosen m captureId p (t₁.committed i) := by
  obtain ⟨c, hknown, hid, hnamed⟩ := h.row
  have hknown₁ := hknown.flush (i := i) hf
  obtain ⟨captures, keys, rfl, -, -⟩ := Backend.flush_ok hf
  exact ⟨⟨c, hknown₁, hid, hnamed⟩⟩

/-- The end of `reconcile_captures`: commit the loop's updates, then publish. -/
theorem commitAndPublish_wp {acc : Reconciled} (h : ReconciledOk m acc s) :
    (captureProto m settings req).wp exec i (do
        issue (.commit ⟨none, acc.updates, none⟩)
        publishAll acc.toPublish
        pure acc) (fun _ _ => True) (Raised m i) s := by
  have hX := raised_of_infrastructure m i
  refine Proto.wp_seq (wp_commit (hX _) fun t hr _ =>
    ⟨CommitOk.of_updates (h.rely hr).updates, fun now t₁ hf _ => ?_,
      fun _ _ hf => raised_of_flush_error hf t⟩)
  have ht := h.rely hr
  have hpub : (captureProto m settings req).wp exec i (publishAll acc.toPublish)
      (fun _ _ => True) (Raised m i) (t₁.committed i) :=
    publishAll_wp _ (fun x hx => (ht.chosen x hx).flush hf)
      fun ha x hx r hr hid => ht.dated_of_flush ha hf x hx r hr hid
  exact Proto.wp_seq (Proto.wp_mono (fun _ _ _ => trivial) (fun _ _ h => h) hpub)

theorem reconcileFrom_wp {current : Timestamp} :
    (captureProto m settings req).wp exec i (do
        let rows ← query .reconcilable
        let acc ← reconcileRows settings current rows ⟨[], [], 0, 0⟩
        issue (.commit ⟨none, acc.updates, none⟩)
        publishAll acc.toPublish
        pure acc) (fun _ _ => True) (Raised m i) s := by
  have hX := raised_of_infrastructure m i
  refine Proto.wp_seq (wp_query (hX _) fun t _ hi e _ => ⟨fun a ha => ?_, nofun⟩)
  obtain rfl := Except.ok.inj ha
  have hsel : ∀ x ∈ reconcilableRows t.applications t.captures, Selected m x t := by
    intro x hx
    obtain ⟨hc, hp⟩ := mem_reconcilableRows hx
    have hseen := Seen.of_mem hi hc
    exact ⟨hseen, hseen.fit hi, fun _ => hp⟩
  have hstart : ReconciledOk m ⟨[], [], 0, 0⟩ t :=
    ⟨fun _ hu => absurd hu List.not_mem_nil, fun _ hx => absurd hx List.not_mem_nil,
      fun _ _ hx => absurd hx List.not_mem_nil⟩
  have hpassed : Passed (reconcilableRows t.applications t.captures) ⟨[], [], 0, 0⟩ :=
    ⟨nodup_reconcilableRows _ _, fun _ _ _ hu => absurd hu List.not_mem_nil,
      fun _ _ _ hy => absurd hy List.not_mem_nil⟩
  exact Proto.wp_seq (Proto.wp_mono (fun acc t₁ hacc => commitAndPublish_wp hacc)
    (fun _ _ h => h) (reconcileRows_wp _ _ hstart hpassed hsel))

theorem reconcileCaptures_wp {now : Option Timestamp} :
    (captureProto m settings req).wp exec i (reconcileCaptures settings now) (fun _ _ => True)
      (Raised m i) s := by
  have hclock : ∀ e t, ∃ a, Query.now.answer e t = .ok a := fun e _ => ⟨e.now, rfl⟩
  unfold reconcileCaptures
  cases now with
  | some current => exact reconcileFrom_wp
  | none =>
      exact Proto.wp_seq (wp_local hclock (raised_of_infrastructure m i s)
        fun t current _ _ => reconcileFrom_wp)

/-! ## `cleanup_capture_object` -/

/-- The references a cleanup works on: loaded rows, all of them terminal. -/
structure References (m : Mode) (references : List NetworkCapture) (s : Backend) : Prop where
  seen : ∀ c ∈ references, Seen m c s
  terminal : ∀ c ∈ references, c.terminal = true

theorem References.rely {references : List NetworkCapture} {s s' : Backend}
    (hr : Rely m i s s') (h : References m references s) : References m references s' :=
  ⟨fun c hc => (h.seen c hc).rely hr, h.terminal⟩

theorem deleteReferences_wp {captureId : Uuid} {objectKey : String}
    {references : List NetworkCapture} (hreq : req = .cleanup captureId)
    (h : References m references s) :
    (captureProto m settings req).wp exec i (deleteReferences objectKey references)
      (fun _ _ => True) (Raised m i) s := by
  have hX := raised_of_infrastructure m i
  have hclock : ∀ e t, ∃ a, Query.now.answer e t = .ok a := fun e _ => ⟨e.now, rfl⟩
  have hmark : ∀ t, References m references t → (captureProto m settings req).wp exec i (do
      let deletedAt ← query .now
      issue (.commit ⟨none, references.map fun c => (c, c.setObjectDeleted deletedAt), none⟩)
      pure references.length) (fun _ _ => True) (Raised m i) t := by
    intro t ht
    refine Proto.wp_seq (wp_local hclock (hX _) fun t₁ deletedAt hr₁ _ => ?_)
    refine Proto.wp_seq (wp_commit (hX _) fun t₂ hr₂ _ => ⟨CommitOk.of_updates ?_,
      fun _ _ _ _ => trivial, fun _ _ hf => raised_of_flush_error hf t₂⟩)
    intro u hu
    obtain ⟨c, hc, rfl⟩ := List.mem_map.mp hu
    have ht₂ := ht.rely (hr₁.trans hr₂)
    exact ⟨ht₂.seen c hc, .delete deletedAt (ht₂.terminal c hc)⟩
  refine Proto.wp_seq (wp_query (hX _) fun t hr _ e _ => ⟨fun a ha => ?_, nofun⟩)
  obtain rfl := Except.ok.inj ha
  cases hobj : t.objects objectKey with
  | none => exact hmark t (h.rely hr)
  | some metadata =>
      refine Proto.wp_seq (wp_issue (hX _) fun t₁ hr₁ _ => ⟨⟨captureId, hreq⟩, ?_⟩)
      intro e₁ v t₂ _ hp
      obtain ⟨rfl, rfl⟩ := Prod.mk.injEq .. |>.mp (Option.some.inj hp)
      have ht₁ := (h.rely hr).rely hr₁
      refine ⟨fun _ _ => hmark _ ⟨fun c hc => ?_, ht₁.terminal⟩, nofun⟩
      have hc₁ := ht₁.seen c hc
      exact ⟨hc₁.known, hc₁.sane, hc₁.stored⟩

theorem cleanupCaptureObject_wp {captureId : Uuid} (hreq : req = .cleanup captureId)
    (hfree : ∀ k, s.locks k ≠ some i) :
    (captureProto m settings req).wp exec i (cleanupCaptureObject captureId)
      (fun _ _ => True) (Raised m i) s := by
  have hX := raised_of_infrastructure m i
  refine Proto.wp_seq (get_wp (hX _) (fun t c hr _ hc _ => ?_)
    fun _ _ _ => ⟨nofun, fun _ => nofun⟩)
  have hfree₁ : ∀ t₁, Rely m i t t₁ → ∀ k, t₁.locks k ≠ some i :=
    fun t₁ hr₁ k hk => hfree k (((hr.trans hr₁).locks k).mp hk)
  refine Proto.wp_seq (wp_lock (hX _) fun t₁ hr₁ _ =>
    ⟨⟨by rw [hreq]; trivial, Or.inl fun k => hfree₁ t₁ hr₁ (.object k)⟩, ?_⟩)
  have hknown := (Known.rely hr₁ ⟨c, hc, rfl⟩).withLock (i := i) (.object c.objectKey)
  refine Proto.wp_seq (refresh_wp (hX _) hknown fun t₂ c₂ _ hi₂ hc₂ _ => ?_)
  have hseen₂ := Seen.of_mem hi₂ hc₂
  refine Proto.wp_seq (wp_query (hX _) fun t₃ hr₃ hi₃ e _ => ⟨fun a ha => ?_, nofun⟩)
  obtain rfl := Except.ok.inj ha
  simp only
  split
  · exact ⟨nofun, fun _ => nofun⟩
  · rename_i hterm
    split
    · refine Proto.wp_seq (wp_commit (hX _) fun t₄ _ _ => ⟨CommitOk.of_updates ?_,
        fun _ _ _ _ => trivial, fun _ _ hf => raised_of_flush_error hf t₄⟩)
      exact fun _ hu => absurd hu List.not_mem_nil
    · refine deleteReferences_wp hreq ⟨fun r hr' => ?_, fun r hr' => ?_⟩
      · obtain ⟨r₀, hr₀, rfl⟩ := List.mem_map.mp hr'
        split
        · exact hseen₂.rely hr₃
        · exact Seen.of_mem hi₃ (List.mem_filter.mp hr₀).1
      · have hall := List.any_eq_false.mp (Bool.not_eq_true _ |>.mp hterm) r hr'
        simpa using hall

/-! ## `process_next` -/

/-- An attempt in progress: claimed by this session, for a row whose identities
are the ones of the event. -/
structure Working (m : Mode) (i : Nat) (event : EventEnvelope NetworkCaptureReadyV1)
    (work : Attempt) (c : NetworkCapture) (s : Backend) : Prop where
  claimed : .claimed i work.captureId work.startedAt ∈ s.history
  known : Known c s
  id : c.id = work.captureId
  captureId : event.payload.captureId = c.id
  analysisId : event.payload.analysisId = c.analysisId
  applicationId : event.payload.applicationId = c.applicationId
  scenario : event.payload.scenario = c.scenario
  sha256 : event.payload.expectedSha256 = c.expectedSha256
  named : Named m c.applicationId work.packageName s

theorem Working.rely {event : EventEnvelope NetworkCaptureReadyV1} {work : Attempt}
    {c : NetworkCapture} {s s' : Backend} (hr : Rely m i s s') (h : Working m i event work c s) :
    Working m i event work c s' :=
  { h with
    claimed := hr.history _ h.claimed
    known := h.known.rely hr
    named := h.named.rely hr }

theorem Known.run {c : NetworkCapture} {s : Backend} (h : Known c s) (u : AttemptUpdate)
    (now : Timestamp) : Known c (u.run i now s) := by
  obtain ⟨r, hr, hid⟩ := h
  refine ⟨u.writeRow now r, ?_, (u.writeRow_identity now r).trans hid⟩
  rw [AttemptUpdate.run_captures]
  exact List.mem_map_of_mem hr

theorem Working.run {event : EventEnvelope NetworkCaptureReadyV1} {work : Attempt}
    {c : NetworkCapture} {s : Backend} (h : Working m i event work c s) (u : AttemptUpdate)
    (now : Timestamp) : Working m i event work c (u.run i now s) := by
  have hknown := h.known.run (i := i) u now
  obtain ⟨events, heq, -⟩ := u.run_frame i now s
  rw [heq] at hknown ⊢
  exact { h with claimed := List.mem_append_left _ h.claimed, known := hknown, named := h.named }

/-- The exceptions of an attempt: plain ones, with the claim on record. -/
def Failed (i : Nat) (work : Attempt) (e : CaptureError) (s : Backend) : Prop :=
  e.plain ∧ .claimed i work.captureId work.startedAt ∈ s.history

theorem tolerates_failed {work : Attempt}
    (h : .claimed i work.captureId work.startedAt ∈ s.history) : Tolerates s (Failed i work) :=
  fun _ _ hx hlater => ⟨plain_of_infrastructure hx, hlater _ h⟩

theorem analyzeCapture_plain {file : LocalFile} {n : Nat} {f : CaptureFormat} {x : Sha256}
    {e : CaptureError} (h : analyzeCapture file n f x = .error e) : e.plain := by
  have hraised : ∀ failure : AnalysisFailure, failure.raised.plain := by
    intro failure
    cases failure with
    | terminal code message => exact ⟨rfl, nofun⟩
    | other description => exact ⟨rfl, nofun⟩
  unfold analyzeCapture at h
  split at h
  · rw [← Except.error.inj h]
    exact ⟨rfl, by decide⟩
  · split at h
    · rw [← Except.error.inj h]
      exact hraised _
    · split at h
      · rw [← Except.error.inj h]
        exact ⟨rfl, nofun⟩
      · split at h
        · rw [← Except.error.inj h]
          exact ⟨rfl, nofun⟩
        · split at h
          · rw [← Except.error.inj h]
            exact hraised _
          · cases h

theorem loadAndValidate_ok {applications : ApplicationTable} {captures : CaptureTable}
    {event : EventEnvelope NetworkCaptureReadyV1} {c : NetworkCapture} {p : NonBlankString}
    (h : loadAndValidate (captureWithPackage applications captures event.payload.captureId) event
      = .ok (c, p)) :
    c ∈ captures.rows ∧ c.id = event.payload.captureId ∧
      applications.packageName c.applicationId = some p ∧ readyMatches c p event = true := by
  unfold loadAndValidate at h
  split at h
  · cases h
  · rename_i hrow
    split at h
    · rename_i hmatch
      obtain ⟨rfl, rfl⟩ := Prod.mk.injEq .. |>.mp (Except.ok.inj h)
      obtain ⟨hc, hid, hp⟩ := mem_captureWithPackage hrow
      exact ⟨hc, hid, hp, hmatch⟩
    · cases h

theorem claimWork_wp {event : EventEnvelope NetworkCaptureReadyV1}
    {Q : Option Attempt → Backend → Prop} (hreq : req = .processNext) (hnone : ∀ t, Q none t)
    (hsome : ∀ t work c, Working m i event work c t → Q (some work) t) :
    (captureProto m settings req).wp exec i (claimWork settings event) Q (Raised m i) s := by
  have hX := raised_of_infrastructure m i
  have hclock : ∀ e t, ∃ a, Query.now.answer e t = .ok a := fun e _ => ⟨e.now, rfl⟩
  have hoffset : ∀ e t, ∃ a, Query.commitOffset.answer e t = .ok a := fun e _ => ⟨(), rfl⟩
  refine Proto.wp_seq (wp_query (hX _) fun t _ _ e _ => ⟨fun a ha => ?_, nofun⟩)
  obtain rfl := Except.ok.inj ha
  split
  · rename_i x hx
    have hplain : x.plain := by
      unfold loadAndValidate at hx
      split at hx
      · rw [← Except.error.inj hx]
        exact ⟨rfl, nofun⟩
      · split at hx
        · cases hx
        · rw [← Except.error.inj hx]
          exact ⟨rfl, nofun⟩
    exact hplain.raised m i t
  · rename_i c p hload
    obtain ⟨hc, hid, hp, hmatch⟩ := loadAndValidate_ok hload
    simp only [readyMatches, Bool.and_eq_true, decide_eq_true_eq] at hmatch
    obtain ⟨⟨⟨⟨⟨⟨⟨⟨⟨-, haid⟩, happ⟩, -⟩, hsc⟩, -⟩, -⟩, -⟩, -⟩, hsha⟩ := hmatch
    split
    · exact Proto.wp_seq (wp_local hoffset (hX _) fun t₁ _ _ _ => hnone t₁)
    · refine Proto.wp_seq (wp_local hclock (hX _) fun t₁ startedAt hr₁ _ => ?_)
      refine Proto.wp_seq (wp_attempt hreq (hX _) fun t₂ hr₂ _ => ⟨rfl, fun now _ => ?_, ?_⟩)
      · refine hsome _ ⟨c.id, p, startedAt⟩ c
          ⟨?_, ?_, rfl, hid.symm, haid.symm, happ.symm, hsc.symm, hsha.symm, ?_⟩
        · exact List.mem_append_right _ (List.mem_singleton.mpr rfl)
        · exact (Known.rely (hr₁.trans hr₂) ⟨c, hc, rfl⟩).run _ now
        · exact fun hfrozen => (hr₁.trans hr₂).names _ _ hfrozen hp
      · exact ⟨nofun, fun _ => nofun⟩

theorem requireOwned_wp {u : AttemptUpdate} {Q : Unit → Backend → Prop}
    {X : CaptureError → Backend → Prop} (hreq : req = .processNext) (hX : Tolerates s X)
    (h : ∀ t, Rely m i s t → Inv m t → AttemptOk settings i t u ∧
      (∀ now, t.captures.rows.any u.applies = true → Q () (u.run i now t)) ∧
      X (.analyzerConsistency "analyzer attempt no longer owns the capture") t) :
    (captureProto m settings req).wp exec i (requireOwned u) Q X s := by
  refine Proto.wp_seq (wp_attempt hreq hX fun t hr hi => ?_)
  obtain ⟨hok, hhit, hmiss⟩ := h t hr hi
  exact ⟨hok, fun now hany => hhit now hany, hmiss⟩

/-- After a successful `mark_verified` the row carries the hash. -/
theorem verified_of_run {captureId : Uuid} {sha256 : Sha256} {startedAt : Timestamp}
    {c : NetworkCapture} {t : Backend} (now : Timestamp) (hknown : Known c t)
    (hid : c.id = captureId)
    (hany : t.captures.rows.any (AttemptUpdate.markVerified captureId sha256 startedAt).applies
      = true) :
    ∃ r ∈ ((AttemptUpdate.markVerified captureId sha256 startedAt).run i now t).captures.rows,
      r.toCaptureIdentity = c.toCaptureIdentity ∧ r.verifiedSha256 = some sha256 := by
  obtain ⟨r, hr, happ⟩ := List.any_eq_true.mp hany
  have hid' := hknown.identity hr ((AttemptUpdate.id_of_applies happ).trans hid.symm)
  refine ⟨(AttemptUpdate.markVerified captureId sha256 startedAt).writeRow now r, ?_, ?_, ?_⟩
  · rw [AttemptUpdate.run_captures]
    exact List.mem_map_of_mem hr
  · exact (AttemptUpdate.writeRow_identity now _ r).trans hid'
  · simp only [AttemptUpdate.writeRow, happ, if_true, AttemptUpdate.values]

theorem analyze_wp {event : EventEnvelope NetworkCaptureReadyV1} {work : Attempt}
    {c : NetworkCapture} (hreq : req = .processNext) (h : Working m i event work c s) :
    (captureProto m settings req).wp exec i (analyze event work) (fun _ _ => True)
      (Failed i work) s := by
  refine Proto.wp_seq (wp_query (tolerates_failed h.claimed) fun t hr _ e _ =>
    ⟨fun file _ => ?_, fun x hx => ?_⟩)
  · have ht := h.rely hr
    split
    · rename_i x hx
      exact ⟨analyzeCapture_plain hx, ht.claimed⟩
    · rename_i metrics hmetrics
      have hsha : metrics.verifiedSha256 = c.expectedSha256 :=
        (analyzeCapture_sha256 hmetrics).trans h.sha256
      refine Proto.wp_seq (requireOwned_wp hreq (tolerates_failed ht.claimed) fun t₁ hr₁ _ => ?_)
      have ht₁ := ht.rely hr₁
      refine ⟨ht₁.claimed, fun now hany => ?_, ⟨⟨rfl, nofun⟩, ht₁.claimed⟩⟩
      have ht₂ := ht₁.run (.markVerified work.captureId metrics.verifiedSha256 work.startedAt) now
      obtain ⟨r, hrow, hrid, hver⟩ := verified_of_run (i := i) now ht₁.known ht₁.id hany
      refine Proto.wp_seq (get_wp (tolerates_failed ht₂.claimed)
        (fun t₃ c₃ hr₃ _ hc₃ hid₃ => ?_) fun t₃ hr₃ _ =>
          ⟨⟨rfl, nofun⟩, (ht₂.rely hr₃).claimed⟩)
      have ht₃ := ht₂.rely hr₃
      -- the row that was read again is the one the attempt was claimed for
      have hid₃' := ht₃.known.identity hc₃ (hid₃.trans ht₃.id.symm)
      refine Proto.wp_seq (wp_issue (tolerates_failed ht₃.claimed) fun t₄ hr₄ _ =>
        ⟨⟨c, (ht₃.rely hr₄).known, ?_⟩, fun e₄ v t₅ _ hp => ?_⟩)
      · have ht₄ := ht₃.rely hr₄
        refine ⟨congrArg CaptureIdentity.analysisEventId hid₃', h.analysisId, h.captureId,
          h.applicationId, h.scenario, hsha, ht₄.named, fun hkeep => ?_⟩
        obtain ⟨r', hrow', hrid', hver'⟩ := (hr₃.trans hr₄).rows r hrow
        exact ⟨r', hrow', hrid'.trans hrid, hver' hkeep _ hver⟩
      · obtain ⟨rfl, rfl⟩ := Prod.mk.injEq .. |>.mp (Option.some.inj hp)
        refine ⟨fun _ _ => ?_, nofun⟩
        have ht₄ := ht₃.rely hr₄
        have hclaimed : .claimed i work.captureId work.startedAt ∈
            t₄.history ++ [.analysisPublished c₃.analysisEventId] :=
          List.mem_append_left _ ht₄.claimed
        refine requireOwned_wp hreq (tolerates_failed hclaimed) fun t₆ hr₆ _ =>
          ⟨⟨hr₆.history _ hclaimed, ?_⟩, fun _ _ => trivial,
            ⟨⟨rfl, nofun⟩, hr₆.history _ hclaimed⟩⟩
        obtain ⟨r₄, hr₄', hid₄⟩ := ht₄.known
        obtain ⟨r₆, hr₆', hid₆, -⟩ := hr₆.rows r₄ hr₄'
        have hid : r₆.toCaptureIdentity = c.toCaptureIdentity := hid₆.trans hid₄
        refine ⟨r₆, hr₆', (congrArg CaptureIdentity.id hid).trans h.id, ?_⟩
        have hev : r₆.analysisEventId = c₃.analysisEventId :=
          congrArg CaptureIdentity.analysisEventId (hid.trans hid₃'.symm)
        rw [hev]
        exact hr₆.history _ (List.mem_append_right _ (List.mem_singleton.mpr rfl))
  · have hmissing : x =
        .captureObjectMissing "The completed capture object no longer exists" := by
      simp only [Query.answer] at hx
      split at hx
      · cases hx
      · exact (Except.error.inj hx).symm
    rw [hmissing]
    exact ⟨⟨rfl, nofun⟩, (h.rely hr).claimed⟩

theorem handleFailure_wp {work : Attempt} {e : CaptureError} (hreq : req = .processNext)
    (h : Failed i work e s) :
    (captureProto m settings req).wp exec i (handleFailure work e) (fun _ _ => True)
      (Raised m i) s := by
  have hX := raised_of_infrastructure m i
  unfold handleFailure
  split
  · refine requireOwned_wp hreq (hX _) fun t hr _ => ⟨hr.history _ h.2, fun _ _ => trivial, ?_⟩
    exact ⟨nofun, fun _ => nofun⟩
  · refine Proto.wp_seq (Proto.wp_tryCatch.mpr (Proto.wp_seq
      (wp_attempt hreq (fun x t _ _ => ?_) fun t hr _ => ⟨hr.history _ h.2, fun now _ => ?_, ?_⟩)))
    · exact h.1.raised m i t
    · exact h.1.raised m i _
    · exact h.1.raised m i t

theorem processNext_wp (hreq : req = .processNext) :
    (captureProto m settings req).wp exec i (processNext settings) (fun _ _ => True)
      (Raised m i) s := by
  have hX := raised_of_infrastructure m i
  have hoffset : ∀ e t, ∃ a, Query.commitOffset.answer e t = .ok a := fun e _ => ⟨(), rfl⟩
  have hack : ∀ t, (captureProto m settings req).wp exec i (do
      query .commitOffset
      pure true) (fun _ _ => True) (Raised m i) t :=
    fun t => Proto.wp_seq (wp_local hoffset (hX t) fun _ _ _ _ => trivial)
  refine Proto.wp_seq (wp_query (hX _) fun t _ _ e _ => ⟨fun message _ => ?_, nofun⟩)
  match message with
  | none => trivial
  | some .invalid => exact hack t
  | some (.event event) =>
      refine Proto.wp_seq (claimWork_wp hreq (fun _ => trivial) fun t₁ work c hwork => ?_)
      refine Proto.wp_seq (Proto.wp_tryCatch.mpr (Proto.wp_mono (fun _ t₂ _ => hack t₂)
        (fun x t₂ hx => ?_) (analyze_wp hreq hwork)))
      exact Proto.wp_mono (fun _ t₃ _ => hack t₃) (fun _ _ h => h) (handleFailure_wp hreq hx)

end Processes

/-! ## The pool -/

/-- A session that has not been used holds nothing and has committed nothing. -/
def Fresh (i : Nat) (s : Backend) : Prop :=
  (∀ k, s.locks k ≠ some i) ∧ .committed i ∉ s.history

/-- What an answer means; only `create` promises something. -/
def Posted (settings : Settings) (req : Request) (reply : Reply) (s : Backend) : Prop :=
  ∀ data key, req = .create data key →
    ∃ response, reply = .created response ∧ Answered settings data key response s

theorem serve_wp {m : Mode} {settings : Settings} {i : Nat} {s : Backend} (req : Request)
    (h : Fresh i s) :
    (captureProto m settings req).wp exec i (serve settings req)
      (Posted settings req) (Raised m i) s := by
  have hX := raised_of_infrastructure m i
  -- the end of the session keeps what the body established
  have hend : ∀ (Q : Backend → Prop) (t : Backend),
      (∀ t', Rely m i t t' → Q t') → (∀ t', Q t' → Q (t'.releaseLocks i)) →
      (captureProto m settings req).wp exec i (issue .rollback) (fun _ => Q) (Raised m i) t :=
    fun Q t hQ hrel => wp_rollback fun t' hr _ => hrel t' (hQ t' hr)
  have hraised : ∀ e t, Raised m i e t →
      (captureProto m settings req).wp exec i (issue .rollback) (fun _ => Raised m i e)
        (Raised m i) t :=
    fun e t he => hend _ t (fun t' hr => he.rely hr) fun t' h' => h'
  cases req with
  | create data key =>
      refine Proto.wp_seq (Proto.wp_ensure.mpr (Proto.wp_mono (fun response t hans => ?_)
        (fun e t he => hraised e t he) (create_wp rfl h.1 h.2)))
      refine hend _ t (fun t' hr => ?_) fun t' h' => h'
      intro data' key' hreq
      obtain ⟨rfl, rfl⟩ := Request.create.injEq .. |>.mp hreq
      exact ⟨response, rfl, hans.rely hr⟩
  | complete captureId =>
      exact Proto.wp_seq (Proto.wp_mono (fun _ _ _ _ _ hreq => by cases hreq) (fun _ _ h => h)
        complete_wp)
  | reconcile now =>
      exact Proto.wp_seq (Proto.wp_mono (fun _ _ _ _ _ hreq => by cases hreq) (fun _ _ h => h)
        reconcileCaptures_wp)
  | retry captureId =>
      exact Proto.wp_seq (Proto.wp_mono (fun _ _ _ _ _ hreq => by cases hreq) (fun _ _ h => h)
        retryCapture_wp)
  | cleanup captureId =>
      refine Proto.wp_seq (Proto.wp_ensure.mpr (Proto.wp_mono (fun n t _ => ?_)
        (fun e t he => hraised e t he) (cleanupCaptureObject_wp rfl h.1)))
      exact hend _ t (fun _ _ _ _ hreq => by cases hreq) fun t' h' => h'
  | processNext =>
      exact Proto.wp_seq (Proto.wp_mono (fun _ _ _ _ _ hreq => by cases hreq) (fun _ _ h => h)
        (processNext_wp rfl))

def captureDiscipline (m : Mode) (settings : Settings) :
    Conc.Discipline Backend Cmd Env External Request CaptureError Reply where
  inv := Inv m
  rely := Rely m
  fresh := Fresh
  pre := Issued m settings
  allow := Allowed m
  allowExt := ExternalAllowed m
  post := fun req _ reply s => Posted settings req reply s
  xpost := fun _ i e s => Raised m i e s

theorem captureDiscipline_sound {m : Mode} (hm : ¬m.alone) (settings : Settings) :
    (captureDiscipline m settings).Sound (captureSystem settings) where
  rely_refl := Rely.refl m
  rely_trans := Rely.trans
  fresh_rely := fun hr h =>
    ⟨fun k hk => h.1 k ((hr.locks k).mp hk), fun hc => h.2 (hr.committed hc)⟩
  post_rely := fun hr h data key hreq => by
    obtain ⟨response, hrep, hans⟩ := h data key hreq
    exact ⟨response, hrep, hans.rely hr⟩
  xpost_rely := fun hr h => h.rely hr
  exec := fun hi hp ha hx => ⟨exec_inv hi hp hx, fun _ hj => exec_rely hj hm hi hp ha hx⟩
  crash := fun hi => ⟨⟨hi.sane, hi.ok⟩, fun _ hj => Rely.releaseLocks hj hm _⟩
  ext := fun hi ha hx => ⟨external_inv hi hx, fun _ => external_rely hm ha hx⟩
  spawn := fun _ hf => serve_wp _ hf

/-! ## Runs -/

abbrev CaptureWorld := Conc.World Backend Cmd Request CaptureError Reply Cmd.Answer

abbrev CaptureLabel := Conc.Label Env External Request

def initialWorld (seed : Seed) : CaptureWorld := ⟨Backend.initial seed, []⟩

/-- Every step, whatever it finds. -/
def anyStep : CaptureLabel → CaptureWorld → Prop := fun _ _ => True

/-- The pool without further conditions. -/
def Mode.pool : Mode where
  alone := False
  frozen := fun _ => False
  keepVerified := False
  direction := none
  extra := fun _ _ _ _ _ => True
  extraExternal := fun _ _ => True

theorem ok_initialWorld (m : Mode) (settings : Settings) (seed : Seed) :
    (captureDiscipline m settings).Ok (captureSystem settings) (initialWorld seed) :=
  Conc.Discipline.ok_idle
    ⟨fun _ hc => absurd hc List.not_mem_nil, fun _ _ hc => absurd hc List.not_mem_nil⟩
    fun _ => ⟨fun _ => nofun, List.not_mem_nil⟩

theorem pool_allows (settings : Settings) (l : CaptureLabel) (w : CaptureWorld) :
    (captureDiscipline Mode.pool settings).Allows l w := by
  cases l with
  | spawn r => trivial
  | run i e => exact fun _ _ _ _ => ⟨trivial, fun h => h.elim, fun h => h.elim, nofun⟩
  | crash i => trivial
  | ext x => exact ⟨trivial, fun _ _ _ _ h => h.elim⟩

/-- Every reachable world is one the discipline speaks about. -/
theorem ok_of_anyStep {settings : Settings} {seed : Seed} {w : CaptureWorld}
    (h : (captureSystem settings).Reach anyStep (initialWorld seed) w) :
    (captureDiscipline Mode.pool settings).Ok (captureSystem settings) w :=
  (captureDiscipline_sound not_false settings).ok_of_reach (ok_initialWorld _ settings seed)
    (h.mono fun l w _ => pool_allows settings l w)

end Sahabino
