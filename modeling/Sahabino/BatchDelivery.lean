import Sahabino.SharedPublisher

/-!
# Batches on the shared producer

Any number of threads over one `KafkaProducer`, each with a call of its
own: `publish`, `publish_batch`, `flush` or `close`.

`publish_batch` holds the lock to its end, so its messages are queued as
one block. A batch that returns came through a flush that left nothing
queued and nothing to raise, and with the fates of its messages there is
only one left for each: acknowledged (`batch_delivered`).

The way back is worse. A call that gives up leaves messages in the
library, and possibly failures in the list; the next call to poll hears
of them, and raises them as its own. Everything a batch raises is its own
exactly when it starts with nothing left over (`batch_isolated`).
-/

namespace Sahabino

open Conc

/-- One producer, and a thread for each call. -/
def sharedProducer {ε : Type} (cfg : ProducerConfig) :
    System (ProducerState ε) (ProducerCmd ε) ProducerEnv Empty (ProducerCmd ε) PublisherError Unit
      ProducerCmd.Answer where
  exec := producerExec cfg
  prog c := do
    let _ ← Prog.cmd c
    pure ()
  crash := fun _ s => s
  ext := fun x _ => nomatch x

abbrev ProducerWorld (ε : Type) :=
  World (ProducerState ε) (ProducerCmd ε) (ProducerCmd ε) PublisherError Unit ProducerCmd.Answer

namespace ProducerState

variable {ε : Type} {s s' s'' : ProducerState ε} {cfg : ProducerConfig} {i : Nat}

/-! ## What a call adds -/

/-- The messages grew by messages of the process `i`, and no acknowledgement was lost. -/
structure Adds (i : Nat) (s s' : ProducerState ε) : Prop where
  messages : ∃ added, s'.messages = s.messages ++ added ∧ ∀ m ∈ added, m.1 = i
  acknowledged : ∀ n ∈ s.acknowledged, n ∈ s'.acknowledged

theorem Adds.refl (i : Nat) (s : ProducerState ε) : s.Adds i s :=
  ⟨⟨[], (List.append_nil _).symm, nofun⟩, fun _ h => h⟩

theorem Adds.trans (h : s.Adds i s') (h' : s'.Adds i s'') : s.Adds i s'' := by
  obtain ⟨added, heq, hadded⟩ := h.messages
  obtain ⟨added', heq', hadded'⟩ := h'.messages
  refine ⟨⟨added ++ added', ?_, fun m hm => ?_⟩,
    fun n hn => h'.acknowledged n (h.acknowledged n hn)⟩
  · rw [heq', heq, List.append_assoc]
  · rcases List.mem_append.mp hm with hm | hm
    · exact hadded m hm
    · exact hadded' m hm

theorem Adds.andThen {r : ProducerOutcome ε} {f : ProducerState ε → ProducerOutcome ε}
    (h : s.Adds i r.state) (hf : ∀ s' : ProducerState ε, s'.Adds i (f s').state) :
    s.Adds i (r.andThen f).state := by
  unfold ProducerOutcome.andThen
  split
  · exact h.trans (hf _)
  · exact h

theorem publish_adds (cfg : ProducerConfig) (i : Nat) (message : ProducerMessage ε)
    (env : PublishEnv) (s : ProducerState ε) : s.Adds i (s.publish cfg i message env).state := by
  refine ⟨?_, (publish_safe cfg i message env s).grows.acknowledged⟩
  rcases publish_messages cfg i message env s with heq | heq
  · exact ⟨[], by rw [heq, List.append_nil], nofun⟩
  · refine ⟨[(i, message)], heq, fun m hm => ?_⟩
    rw [List.mem_singleton.mp hm]

theorem flush_adds (i : Nat) (env : PollEnv) (s : ProducerState ε) :
    s.Adds i (s.flush env).state := by
  refine ⟨⟨[], ?_, nofun⟩, (flush_safe env s).grows.acknowledged⟩
  rw [flush_messages, List.append_nil]

theorem publishBatch_adds (cfg : ProducerConfig) (i : Nat) (env : PollEnv)
    (messages : List (ProducerMessage ε)) : ∀ (publishes : Nat → PublishEnv)
      (s : ProducerState ε), s.Adds i (s.publishBatch cfg i publishes env messages).state := by
  induction messages with
  | nil =>
      intro publishes s
      exact flush_adds i env s
  | cons message messages ih =>
      intro publishes s
      exact (publish_adds cfg i message (publishes 0) s).andThen (ih _)

theorem close_adds (i : Nat) (env : PollEnv) (s : ProducerState ε) :
    s.Adds i (s.close env).state := by
  unfold close
  split
  · exact .refl i s
  · exact (flush_adds i env s).andThen fun s => ⟨(Adds.refl i s).messages, fun _ h => h⟩

theorem producerMethod_adds (cfg : ProducerConfig) (i : Nat) (e : ProducerEnv)
    (c : ProducerCmd ε) (s : ProducerState ε) : s.Adds i (producerMethod cfg i e c s).state := by
  cases c with
  | publish message =>
      exact (publish_adds cfg i message (e.publishes 0) s).andThen fun s =>
        ⟨(Adds.refl i s).messages, fun _ h => h⟩
  | flush =>
      obtain ⟨hmessages, hacknowledged⟩ := flush_adds i e.flush s
      exact ⟨hmessages, hacknowledged⟩
  | publishBatch messages => exact publishBatch_adds cfg i e.flush messages e.publishes s
  | close => exact close_adds i e.flush s

/-- A batch that returns has queued its messages in a row; those, and all that
had a fate before, are acknowledged. -/
theorem publishBatch_ok {env : PollEnv} {messages : List (ProducerMessage ε)} :
    ∀ {publishes : Nat → PublishEnv} {s : ProducerState ε},
      (s.publishBatch cfg i publishes env messages).result = .ok () →
      (s.publishBatch cfg i publishes env messages).state.messages =
          s.messages ++ messages.map (Prod.mk i) ∧
        ∀ n, s.Fate n ∨ (s.messages.length ≤ n ∧ n < s.messages.length + messages.length) →
          n ∈ (s.publishBatch cfg i publishes env messages).state.acknowledged := by
  induction messages with
  | nil =>
      intro publishes s h
      obtain ⟨hqueue, herrors⟩ := flush_ok h
      refine ⟨(flush_messages env s).trans (List.append_nil _).symm, fun n hn => ?_⟩
      have hfate : s.Fate n := by
        rcases hn with hfate | ⟨hle, hlt⟩
        · exact hfate
        · exact absurd hlt (Nat.not_lt.mpr hle)
      -- nothing is queued any more and nothing failed
      rcases (flush_safe env s).fate n hfate with (hq | hacked | ⟨f, hf, -⟩) | ⟨failures, hr, -⟩
      · rw [hqueue] at hq
        cases hq
      · exact hacked
      · rw [herrors] at hf
        cases hf
      · rw [show (s.flush env).result = .ok () from h] at hr
        cases hr
  | cons message messages ih =>
      intro publishes s h
      obtain ⟨hpublished, heq⟩ := andThen_ok h
      obtain ⟨hmessages, hfate⟩ := publish_ok hpublished
      unfold publishBatch at h ⊢
      rw [heq] at h ⊢
      obtain ⟨hrest, hacked⟩ := ih h
      refine ⟨?_, fun n hn => hacked n ?_⟩
      · rw [hrest, hmessages, List.map_cons, List.append_assoc, List.singleton_append]
      · rw [hmessages, List.length_append, List.length_singleton]
        rw [List.length_cons] at hn
        rcases hn with hold | ⟨hle, hlt⟩
        · rcases (publish_safe cfg i message (publishes 0) s).fate n hold with hkept | ⟨_, hr, -⟩
          · exact Or.inl hkept
          · rw [hpublished] at hr
            cases hr
        · rcases Nat.eq_or_lt_of_le hle with rfl | hlater
          · exact Or.inl hfate
          · exact Or.inr (by omega)

/-! ## What a call raises -/

/-- Everything that is queued or failed is numbered from `k` on. -/
structure Since (k : Nat) (s : ProducerState ε) : Prop where
  le : k ≤ s.messages.length
  queue : ∀ n ∈ s.queue, k ≤ n ∧ n < s.messages.length
  failures : ∀ f ∈ s.deliveryErrors, k ≤ f.message ∧ f.message < s.messages.length

/-- The same of the state a method leaves and of the failures it raises. -/
structure RaisesSince (k : Nat) (r : ProducerOutcome ε) : Prop where
  state : Since k r.state
  raised : ∀ failures, r.result = .error (.delivery failures) →
    failures ≠ [] ∧ ∀ f ∈ failures, k ≤ f.message ∧ f.message < r.state.messages.length

variable {k : Nat}

theorem RaisesSince.andThen {r : ProducerOutcome ε} {f : ProducerState ε → ProducerOutcome ε}
    (h : RaisesSince k r) (hf : ∀ s, Since k s → RaisesSince k (f s)) :
    RaisesSince k (r.andThen f) := by
  unfold ProducerOutcome.andThen
  split
  · exact hf _ h.state
  · exact h

/-- An ending that is no delivery error. -/
theorem Since.ends (h : Since k s) {result : Except ProducerError Unit}
    (hresult : ∀ failures, result ≠ .error (.delivery failures)) :
    RaisesSince k ⟨result, s⟩ :=
  ⟨h, fun failures hraised => absurd hraised (hresult failures)⟩

theorem Since.report (h : Since k s) (r : DeliveryReport) : Since k (s.report r) := by
  unfold ProducerState.report
  split
  case isFalse => exact h
  rename_i hqueued
  have hrest : ∀ n ∈ s.queue.erase r.message, k ≤ n ∧ n < s.messages.length :=
    fun n hn => h.queue n (List.mem_of_mem_erase hn)
  unfold onDelivery
  split
  · exact ⟨h.le, hrest, h.failures⟩
  · refine ⟨h.le, hrest, fun f hf => ?_⟩
    rcases List.mem_append.mp hf with hf | hf
    · exact h.failures f hf
    · rw [List.mem_singleton.mp hf]
      exact h.queue _ hqueued

theorem Since.serve (reports : List DeliveryReport) (h : Since k s) :
    Since k (s.serve reports) := by
  induction reports generalizing s with
  | nil => exact h
  | cons r reports ih => exact ih (h.report r)

theorem Since.raiseDeliveryErrors (h : Since k s) : RaisesSince k s.raiseDeliveryErrors := by
  unfold ProducerState.raiseDeliveryErrors
  split
  · exact h.ends nofun
  · rename_i hsome
    refine ⟨⟨h.le, h.queue, nofun⟩, fun failures hraised => ?_⟩
    obtain rfl := ProducerError.delivery.inj (Except.error.inj hraised)
    exact ⟨hsome, h.failures⟩

theorem Since.ensureOpen (h : Since k s) : RaisesSince k s.ensureOpen := by
  unfold ProducerState.ensureOpen
  split <;> exact h.ends nofun

theorem Since.encode (message : ProducerMessage ε) (env : PublishEnv) (h : Since k s) :
    RaisesSince k (s.encode message env) := by
  unfold ProducerState.encode
  split
  · exact h.ends nofun
  · split <;> exact h.ends nofun

theorem Since.pollThenRaise (poll : PollEnv) {x : ProducerError}
    (hx : ∀ failures, x ≠ .delivery failures) (h : Since k s) :
    RaisesSince k (s.pollThenRaise poll x) := by
  unfold ProducerState.pollThenRaise
  simp only
  split
  · exact (h.serve poll.reports).ends fun failures heq => hx failures (Except.error.inj heq)
  · exact (h.serve poll.reports).raiseDeliveryErrors

theorem Since.enqueue (i : Nat) (message : ProducerMessage ε) (h : Since k s) :
    Since k (s.enqueue i message) := by
  have hlength : (s.enqueue i message).messages.length = s.messages.length + 1 := by
    simp [ProducerState.enqueue]
  refine ⟨?_, fun n hn => ?_, fun f hf => ?_⟩
  · rw [hlength]
    exact Nat.le_succ_of_le h.le
  · rw [hlength]
    rcases List.mem_append.mp hn with hn | hn
    · exact ⟨(h.queue n hn).1, Nat.lt_succ_of_lt (h.queue n hn).2⟩
    · rw [List.mem_singleton.mp hn]
      exact ⟨h.le, Nat.lt_succ_self _⟩
  · rw [hlength]
    exact ⟨(h.failures f hf).1, Nat.lt_succ_of_lt (h.failures f hf).2⟩

theorem Since.produce (i : Nat) (message : ProducerMessage ε) (attempts : Nat → ProduceAttempt)
    (retries : Nat) : ∀ (attempt : Nat) (s : ProducerState ε), Since k s →
      RaisesSince k (s.produce i message attempts retries attempt) := by
  induction retries with
  | zero =>
      intro attempt s h
      unfold ProducerState.produce
      split
      · exact (h.enqueue i message).ends nofun
      · exact h.ends nofun
      · exact h.ends nofun
  | succ retries ih =>
      intro attempt s h
      unfold ProducerState.produce
      split
      · exact (h.enqueue i message).ends nofun
      · exact h.ends nofun
      · exact (h.pollThenRaise _ (by nofun)).andThen (ih (attempt + 1))

theorem Since.publish (cfg : ProducerConfig) (i : Nat) (message : ProducerMessage ε)
    (env : PublishEnv) (h : Since k s) : RaisesSince k (s.publish cfg i message env) :=
  h.ensureOpen.andThen fun _ h => (h.encode message env).andThen fun _ h =>
    (h.produce i message env.attempts _ 0).andThen fun _ h =>
      h.pollThenRaise env.poll (by nofun)

theorem Since.flush (env : PollEnv) (h : Since k s) : RaisesSince k (s.flush env) := by
  refine h.ensureOpen.andThen fun s h => ?_
  have hserved := h.serve env.reports
  simp only
  split
  · exact hserved.ends nofun
  · split
    · exact hserved.ends nofun
    · exact hserved.raiseDeliveryErrors

theorem Since.publishBatch (cfg : ProducerConfig) (i : Nat) (env : PollEnv)
    (messages : List (ProducerMessage ε)) : ∀ (publishes : Nat → PublishEnv)
      (s : ProducerState ε), Since k s →
      RaisesSince k (s.publishBatch cfg i publishes env messages) := by
  induction messages with
  | nil =>
      intro publishes s h
      exact h.flush env
  | cons message messages ih =>
      intro publishes s h
      exact (h.publish cfg i message (publishes 0)).andThen (ih _)

/-- Nothing of an earlier call is queued or waits to be raised; or the producer
is closed, and refuses the batch. -/
def StartsClean (s : ProducerState ε) : Prop :=
  s.closed = true ∨ (s.queue = [] ∧ s.deliveryErrors = [])

theorem publishBatch_closed {publishes : Nat → PublishEnv} {env : PollEnv}
    (h : s.closed = true) (messages : List (ProducerMessage ε)) :
    (s.publishBatch cfg i publishes env messages).result = .error .closed := by
  have hopen : s.ensureOpen = ⟨.error .closed, s⟩ := if_pos h
  cases messages with
  | nil => simp [publishBatch, flush, hopen, ProducerOutcome.andThen]
  | cons message messages => simp [publishBatch, publish, hopen, ProducerOutcome.andThen]

/-- What a batch raises after a clean start is numbered like its own messages. -/
theorem publishBatch_raises_own {publishes : Nat → PublishEnv} {env : PollEnv}
    (hclean : s.StartsClean) {messages : List (ProducerMessage ε)}
    {failures : List DeliveryFailure}
    (h : (s.publishBatch cfg i publishes env messages).result = .error (.delivery failures)) :
    ∃ f ∈ failures, ∃ message,
      (s.publishBatch cfg i publishes env messages).state.messages[f.message]? =
        some (i, message) := by
  rcases hclean with hclosed | ⟨hqueue, herrors⟩
  · rw [publishBatch_closed hclosed messages] at h
    cases h
  have hsince : Since s.messages.length s := by
    refine ⟨Nat.le_refl _, fun n hn => ?_, fun f hf => ?_⟩
    · rw [hqueue] at hn
      cases hn
    · rw [herrors] at hf
      cases hf
  obtain ⟨hne, hall⟩ := (hsince.publishBatch cfg i env messages publishes s).raised failures h
  obtain ⟨f, hf⟩ := List.exists_mem_of_ne_nil failures hne
  obtain ⟨hle, hlt⟩ := hall f hf
  obtain ⟨added, hmessages, hadded⟩ := (publishBatch_adds cfg i env messages publishes s).messages
  rw [hmessages] at hlt ⊢
  rw [List.length_append] at hlt
  obtain ⟨⟨j, message⟩, hget⟩ : ∃ m, added[f.message - s.messages.length]? = some m :=
    ⟨_, List.getElem?_eq_getElem (by omega)⟩
  obtain rfl : j = i := hadded _ (List.mem_of_getElem? hget)
  exact ⟨f, hf, message, (List.getElem?_append_right hle).trans hget⟩

/-- The library reports an error for all that is queued. -/
def allFail (s : ProducerState ε) : PollEnv where
  reports := s.queue.map fun n => ⟨n, some (0, "Local: Message timed out")⟩
  raises := false

theorem serve_allFail {queue : List Nat} : ∀ {s : ProducerState ε}, s.queue = queue →
    (s.serve s.allFail.reports).queue = [] ∧
      (s.serve s.allFail.reports).deliveryErrors.length =
        s.deliveryErrors.length + queue.length := by
  induction queue with
  | nil =>
      intro s h
      have hreports : s.allFail.reports = [] := by simp [allFail, h]
      rw [hreports]
      exact ⟨h, rfl⟩
  | cons n queue ih =>
      intro s h
      have hreports : s.allFail.reports =
          ⟨n, some (0, "Local: Message timed out")⟩ ::
            (s.report ⟨n, some (0, "Local: Message timed out")⟩).allFail.reports := by
        simp [allFail, report, onDelivery, h]
      have hrest : (s.report ⟨n, some (0, "Local: Message timed out")⟩).queue = queue := by
        simp [report, onDelivery, h]
      have hfailed : (s.report ⟨n, some (0, "Local: Message timed out")⟩).deliveryErrors.length =
          s.deliveryErrors.length + 1 := by
        simp [report, onDelivery, h]
      obtain ⟨hempty, hlength⟩ := ih hrest
      rw [hreports]
      refine ⟨hempty, hlength.trans ?_⟩
      rw [hfailed, List.length_cons]
      omega

/-- What an unclean start can come to: the empty batch raises failures, and has no
message at all. -/
theorem flush_allFail (h : ¬s.StartsClean) :
    ∃ failures, (s.flush s.allFail).result = .error (.delivery failures) := by
  obtain ⟨hopen, hleft⟩ := not_or.mp h
  obtain ⟨hqueue, hlength⟩ := serve_allFail (s := s) rfl
  have hraised : (s.serve s.allFail.reports).deliveryErrors ≠ [] := by
    intro hnone
    rw [hnone, List.length_nil] at hlength
    exact hleft ⟨List.length_eq_zero_iff.mp (by omega), List.length_eq_zero_iff.mp (by omega)⟩
  have hstate : s.ensureOpen = ⟨.ok (), s⟩ := if_neg hopen
  have hraises : s.allFail.raises = false := rfl
  refine ⟨(s.serve s.allFail.reports).deliveryErrors, ?_⟩
  simp only [flush, hstate, ProducerOutcome.andThen, hraises, hqueue, ne_eq, not_true_eq_false,
    Bool.false_eq_true, if_false, raiseDeliveryErrors, if_neg hraised]

/-! ## The calls among each other -/

/-- What the other calls leave to the process `i`. -/
structure CallRely (i : Nat) (s s' : ProducerState ε) : Prop where
  messages : ∃ added, s'.messages = s.messages ++ added ∧ ∀ m ∈ added, m.1 ≠ i
  acknowledged : ∀ n ∈ s.acknowledged, n ∈ s'.acknowledged

theorem Adds.rely {j : Nat} (h : s.Adds i s') (hj : j ≠ i) : CallRely j s s' := by
  obtain ⟨added, heq, hadded⟩ := h.messages
  exact ⟨⟨added, heq, fun m hm hmine => hj (hmine.symm.trans (hadded m hm))⟩, h.acknowledged⟩

/-- The process `i` has queued nothing. -/
def CallFresh (i : Nat) (s : ProducerState ε) : Prop := ∀ m ∈ s.messages, m.1 ≠ i

theorem CallRely.fresh (h : CallRely i s s') (hfresh : CallFresh i s) : CallFresh i s' := by
  obtain ⟨added, heq, hadded⟩ := h.messages
  intro m hm
  rw [heq] at hm
  rcases List.mem_append.mp hm with hm | hm
  · exact hfresh m hm
  · exact hadded m hm

theorem CallRely.trans (h : CallRely i s s') (h' : CallRely i s' s'') : CallRely i s s'' := by
  obtain ⟨added, heq, hadded⟩ := h.messages
  obtain ⟨added', heq', hadded'⟩ := h'.messages
  refine ⟨⟨added ++ added', ?_, fun m hm => ?_⟩,
    fun n hn => h'.acknowledged n (h.acknowledged n hn)⟩
  · rw [heq', heq, List.append_assoc]
  · rcases List.mem_append.mp hm with hm | hm
    · exact hadded m hm
    · exact hadded' m hm

end ProducerState

section

open ProducerState

variable {ε : Type} {cfg : ProducerConfig} {i : Nat} {s s' : ProducerState ε}

/-- Calls that each do one method: under a condition on the state the method
starts in, they end in `post` or `xpost`. -/
def callDiscipline (allow : ProducerCmd ε → ProducerState ε → Prop)
    (post : ProducerCmd ε → Nat → ProducerState ε → Prop)
    (xpost : ProducerCmd ε → Nat → PublisherError → ProducerState ε → Prop) :
    Discipline (ProducerState ε) (ProducerCmd ε) ProducerEnv Empty (ProducerCmd ε)
      PublisherError Unit where
  inv _ := True
  rely := CallRely
  fresh := CallFresh
  pre r _ c _ := c = r
  allow _ _ c _ s := allow c s
  allowExt _ _ := True
  post r i _ s := post r i s
  xpost := xpost

theorem callDiscipline_sound {allow : ProducerCmd ε → ProducerState ε → Prop}
    {post : ProducerCmd ε → Nat → ProducerState ε → Prop}
    {xpost : ProducerCmd ε → Nat → PublisherError → ProducerState ε → Prop}
    (hpost : ∀ {c i s s'}, CallRely i s s' → post c i s → post c i s')
    (hxpost : ∀ {c i x s s'}, CallRely i s s' → xpost c i x s → xpost c i x s')
    (hmethod : ∀ {c i e s}, CallFresh i s → allow c s →
      ((producerMethod cfg i e c s).result = .ok () →
        post c i (producerMethod cfg i e c s).state) ∧
      ∀ x, (producerMethod cfg i e c s).result = .error x →
        xpost c i (.producer x) (producerMethod cfg i e c s).state) :
    (callDiscipline allow post xpost).Sound (sharedProducer cfg) where
  rely_refl i s := ⟨⟨[], (List.append_nil _).symm, nofun⟩, fun _ h => h⟩
  rely_trans h h' := h.trans h'
  fresh_rely h hfresh := h.fresh hfresh
  post_rely h hp := hpost h hp
  xpost_rely h hx := hxpost h hx
  exec := by
    intro r i c e v s s' _ _ _ hexec
    obtain ⟨-, rfl⟩ := Prod.mk.inj (Option.some.inj hexec)
    exact ⟨trivial, fun j hj => (producerMethod_adds cfg i e c s).rely hj⟩
  crash _ := ⟨trivial, fun _ _ => ⟨⟨[], (List.append_nil _).symm, nofun⟩, fun _ h => h⟩⟩
  ext := by
    intro x
    cases x
  spawn := by
    intro c i s _ hfresh
    refine Proto.wp_seq (Proto.wp_cmd.mpr fun s₁ hrely _ => ⟨rfl, fun e v s₂ ha hexec _ => ?_⟩)
    obtain ⟨rfl, rfl⟩ := Prod.mk.inj (Option.some.inj hexec)
    obtain ⟨hok, herror⟩ := hmethod (e := e) (hrely.fresh hfresh) ha
    refine ⟨fun a hresult => hok (ok_of_mapError hresult), fun x hresult => ?_⟩
    cases hr : (producerMethod cfg i e c s₁).result with
    | ok _ =>
        rw [hr] at hresult
        cases hresult
    | error x' =>
        rw [hr] at hresult
        obtain rfl := Except.error.inj hresult
        exact herror x' hr

/-- The steps whose methods start under the condition. -/
def allowsCalls (allow : ProducerCmd ε → ProducerState ε → Prop) :
    Label ProducerEnv Empty (ProducerCmd ε) → ProducerWorld ε → Prop
  | .run i _, w => ∀ r c k, w.sessions[i]? = some ⟨r, some (.call c k)⟩ → allow c w.shared
  | _, _ => True

theorem allowsCalls_of_run {allow : ProducerCmd ε → ProducerState ε → Prop}
    {l : Label ProducerEnv Empty (ProducerCmd ε)} {w : ProducerWorld ε}
    (h : ∀ i e, l = .run i e → ∀ c, allow c w.shared) : allowsCalls allow l w := by
  cases l with
  | run i e => exact fun _ c _ _ => h i e rfl c
  | spawn r => trivial
  | crash i => trivial
  | ext x => trivial

theorem callDiscipline_ok {allow : ProducerCmd ε → ProducerState ε → Prop}
    {post : ProducerCmd ε → Nat → ProducerState ε → Prop}
    {xpost : ProducerCmd ε → Nat → PublisherError → ProducerState ε → Prop}
    (hsound : (callDiscipline allow post xpost).Sound (sharedProducer cfg)) {w : ProducerWorld ε}
    (h : (sharedProducer cfg).Reach (allowsCalls allow) ⟨.initial, []⟩ w) :
    (callDiscipline allow post xpost).Ok (sharedProducer cfg) w := by
  have hidle : (callDiscipline allow post xpost).Ok (sharedProducer cfg) ⟨.initial, []⟩ :=
    Discipline.ok_idle trivial fun i m hm => by cases hm
  refine hsound.ok_of_reach hidle (h.mono fun l w hl => ?_)
  cases l with
  | spawn r => trivial
  | run i e => exact fun r c k hi => hl r c k hi
  | crash i => trivial
  | ext x => trivial

/-! ## Batches that return -/

/-- The process `i` has queued these messages in a row and nothing else, and they are
all acknowledged. -/
def BatchDelivered (i : Nat) (messages : List (ProducerMessage ε)) (s : ProducerState ε) : Prop :=
  ∃ before after, s.messages = before ++ messages.map (Prod.mk i) ++ after ∧
    (∀ m ∈ before, m.1 ≠ i) ∧ (∀ m ∈ after, m.1 ≠ i) ∧
    ∀ n, before.length ≤ n → n < before.length + messages.length → n ∈ s.acknowledged

theorem BatchDelivered.rely {messages : List (ProducerMessage ε)} (h : CallRely i s s')
    (hdelivered : BatchDelivered i messages s) : BatchDelivered i messages s' := by
  obtain ⟨added, heq, hadded⟩ := h.messages
  obtain ⟨before, after, hmessages, hbefore, hafter, hacked⟩ := hdelivered
  refine ⟨before, after ++ added, ?_, hbefore, fun m hm => ?_,
    fun n hle hlt => h.acknowledged n (hacked n hle hlt)⟩
  · rw [heq, hmessages, List.append_assoc]
  · rcases List.mem_append.mp hm with hm | hm
    · exact hafter m hm
    · exact hadded m hm

/-- What a call that returned has to show: only a batch waits for its messages. -/
def CallDelivers (c : ProducerCmd ε) (i : Nat) (s : ProducerState ε) : Prop :=
  ∀ messages, c = .publishBatch messages → BatchDelivered i messages s

theorem callDelivers_sound (cfg : ProducerConfig) :
    (callDiscipline (fun (_ : ProducerCmd ε) _ => True) CallDelivers
      fun _ _ _ _ => True).Sound (sharedProducer cfg) := by
  refine callDiscipline_sound ?_ (fun _ _ => trivial) ?_
  · intro c i s s' hrely hpost messages hc
    exact (hpost messages hc).rely hrely
  · intro c i e s hfresh _
    refine ⟨fun hok messages hc => ?_, fun _ _ => trivial⟩
    subst hc
    obtain ⟨heq, hacked⟩ := publishBatch_ok hok
    refine ⟨s.messages, [], heq.trans (List.append_nil _).symm, hfresh, nofun, ?_⟩
    exact fun n hle hlt => hacked n (Or.inr ⟨hle, hlt⟩)

theorem callDelivers_ok {w : ProducerWorld ε}
    (h : (sharedProducer cfg).Reach (fun _ _ => True) ⟨.initial, []⟩ w) :
    (callDiscipline (fun (_ : ProducerCmd ε) _ => True) CallDelivers
      fun _ _ _ _ => True).Ok (sharedProducer cfg) w := by
  exact callDiscipline_ok (callDelivers_sound cfg) (h.mono fun _ _ _ =>
    allowsCalls_of_run fun _ _ _ _ => trivial)

/-- A batch that returned queued its messages exactly once and in their order, and
all of them were acknowledged. -/
theorem batch_delivered {w : ProducerWorld ε}
    (h : (sharedProducer cfg).Reach (fun _ _ => True) ⟨.initial, []⟩ w) {i : Nat}
    {messages : List (ProducerMessage ε)}
    (hi : w.sessions[i]? = some ⟨.publishBatch messages, some (.ret ())⟩) :
    BatchDelivered i messages w.shared :=
  (callDelivers_ok h).returned hi messages rfl

/-- A batch that returned, or that raised these delivery failures. -/
def batchEnd : Session (ProducerCmd ε) (ProducerCmd ε) PublisherError Unit ProducerCmd.Answer →
    Option (List (ProducerMessage ε) × Option (List DeliveryFailure))
  | ⟨.publishBatch messages, some (.ret ())⟩ => some (messages, none)
  | ⟨.publishBatch messages, some (.raise (.producer (.delivery failures)))⟩ =>
      some (messages, some failures)
  | _ => none

theorem batchEnd_returned {w : ProducerWorld ε} {messages : List (ProducerMessage ε)}
    (h : w.sessions[i]?.bind batchEnd = some (messages, none)) :
    w.sessions[i]? = some ⟨.publishBatch messages, some (.ret ())⟩ := by
  obtain ⟨session, hi, hend⟩ := Option.bind_eq_some_iff.mp h
  rw [hi]
  unfold batchEnd at hend
  split at hend
  · obtain ⟨rfl, -⟩ := Prod.mk.inj (Option.some.inj hend)
    rfl
  · cases hend
  · cases hend

theorem batchEnd_raised {w : ProducerWorld ε} {messages : List (ProducerMessage ε)}
    {failures : List DeliveryFailure}
    (h : w.sessions[i]?.bind batchEnd = some (messages, some failures)) :
    w.sessions[i]? =
      some ⟨.publishBatch messages, some (.raise (.producer (.delivery failures)))⟩ := by
  obtain ⟨session, hi, hend⟩ := Option.bind_eq_some_iff.mp h
  rw [hi]
  unfold batchEnd at hend
  split at hend
  · cases hend
  · obtain ⟨rfl, hfailures⟩ := Prod.mk.inj (Option.some.inj hend)
    obtain rfl := Option.some.inj hfailures
    rfl
  · cases hend

namespace Sample

def reviewMessage (n : Nat) : ProducerMessage Nat where
  topic := "playstore.review-observed.v1"
  key := "7c9e6679-7425-40de-944b-e07fc1f90ae7"
  event := n

/-- The queue is full once for each message, and the poll in between runs these
callbacks. -/
def fullOnce (polled flushed : List DeliveryReport) : ProducerEnv where
  publishes _ := ⟨true, fun attempt =>
    ⟨if attempt = 0 then .bufferFull else .queued, ⟨polled, false⟩⟩, ⟨[], false⟩⟩
  flush := ⟨flushed, false⟩

/-- Another thread has queued a message; its callback runs in the middle of the batch. -/
def interruptedBatch : List (Label ProducerEnv Empty (ProducerCmd Nat)) :=
  [.spawn (.publishBatch [reviewMessage 1, reviewMessage 2]), .spawn (.publish (reviewMessage 3)),
    .run 1 (callbacks []), .run 0 (fullOnce [⟨0, none⟩] [⟨2, none⟩, ⟨1, none⟩])]

end Sample

open Sample in
theorem batch_delivered_interrupted :
    ∃ w : ProducerWorld Nat,
      (sharedProducer producerConfig).Reach (fun _ _ => True) ⟨.initial, []⟩ w ∧
      w.sessions[0]? =
        some ⟨.publishBatch [reviewMessage 1, reviewMessage 2], some (.ret ())⟩ ∧
      BatchDelivered 0 [reviewMessage 1, reviewMessage 2] w.shared := by
  have hrun : ((sharedProducer producerConfig).run ⟨.initial, []⟩ interruptedBatch).map
      (fun w => w.sessions[0]?.bind batchEnd) =
        some (some ([reviewMessage 1, reviewMessage 2], none)) := by
    decide +kernel
  obtain ⟨w, hw, hend⟩ := Option.map_eq_some_iff.mp hrun
  have hreach : (sharedProducer producerConfig).Reach (fun _ _ => True) ⟨.initial, []⟩ w :=
    System.reach_of_run (fun _ _ _ => trivial) .refl hw
  have hreturned := batchEnd_returned hend
  exact ⟨w, hreach, hreturned, batch_delivered hreach hreturned⟩

/-! ## Batches that raise -/

/-- A message of the process `i` is among the failures. -/
def NamesOwn (i : Nat) (failures : List DeliveryFailure) (s : ProducerState ε) : Prop :=
  ∃ f ∈ failures, ∃ message, s.messages[f.message]? = some (i, message)

theorem NamesOwn.rely {failures : List DeliveryFailure} (h : CallRely i s s')
    (hnames : NamesOwn i failures s) : NamesOwn i failures s' := by
  obtain ⟨added, heq, -⟩ := h.messages
  obtain ⟨f, hf, message, hget⟩ := hnames
  refine ⟨f, hf, message, ?_⟩
  rw [heq, List.getElem?_append_left (List.getElem?_eq_some_iff.mp hget).1]
  exact hget

/-- A batch starts clean. -/
def BatchStartsClean (c : ProducerCmd ε) (s : ProducerState ε) : Prop :=
  ∀ messages, c = .publishBatch messages → s.StartsClean

/-- What a call that raised has to show: only a batch is asked whose failures it raises. -/
def CallRaisesOwn (c : ProducerCmd ε) (i : Nat) (x : PublisherError) (s : ProducerState ε) :
    Prop :=
  ∀ messages failures, c = .publishBatch messages → x = .producer (.delivery failures) →
    NamesOwn i failures s

theorem callRaisesOwn_sound (cfg : ProducerConfig) :
    (callDiscipline (BatchStartsClean (ε := ε)) (fun _ _ _ => True) CallRaisesOwn).Sound
      (sharedProducer cfg) := by
  refine callDiscipline_sound (fun _ _ => trivial) ?_ ?_
  · intro c i x s s' hrely hxpost messages failures hc hx
    exact (hxpost messages failures hc hx).rely hrely
  · intro c i e s _ hclean
    refine ⟨fun _ => trivial, fun x hraised messages failures hc hx => ?_⟩
    obtain rfl := PublisherError.producer.inj hx
    subst hc
    exact publishBatch_raises_own (hclean messages rfl) hraised

/-- A `publish` that nothing comes of; an empty batch has none. -/
def idlePublish : PublishEnv := ⟨false, fun _ => ⟨.raised, ⟨[], false⟩⟩, ⟨[], false⟩⟩

/-- A new caller whose method raises. -/
theorem run_raises {w : ProducerWorld ε} {c : ProducerCmd ε} {e : ProducerEnv}
    {x : ProducerError} (h : (producerMethod cfg w.sessions.length e c w.shared).result = .error x) :
    (sharedProducer cfg).run w [.spawn c, .run w.sessions.length e] =
      some ⟨(producerMethod cfg w.sessions.length e c w.shared).state,
        w.sessions ++ [⟨c, some (.raise (.producer x))⟩]⟩ := by
  have hexec : (sharedProducer cfg).exec w.sessions.length e c w.shared =
      some (.error (.producer x), (producerMethod cfg w.sessions.length e c w.shared).state) := by
    show some (Except.mapError _ (producerMethod cfg w.sessions.length e c w.shared).result, _) = _
    rw [h]
    rfl
  exact System.run_spawn rfl hexec

/-- Along every run in which each batch starts clean, a batch that raises delivery
failures raises one of its own; and wherever something is left over, a batch that
queues nothing can be made to raise it. -/
theorem batch_isolated (cfg : ProducerConfig) (w : ProducerWorld ε) :
    ((sharedProducer cfg).Reach (allowsCalls BatchStartsClean) ⟨.initial, []⟩ w →
      ∀ i messages failures, w.sessions[i]? =
          some ⟨.publishBatch messages, some (.raise (.producer (.delivery failures)))⟩ →
        NamesOwn i failures w.shared) ∧
    ((sharedProducer cfg).Reach (fun _ _ => True) ⟨.initial, []⟩ w → ¬w.shared.StartsClean →
      ∃ e w' failures, (sharedProducer cfg).run w
          [.spawn (.publishBatch []), .run w.sessions.length e] = some w' ∧
        w'.sessions[w.sessions.length]? =
          some ⟨.publishBatch [], some (.raise (.producer (.delivery failures)))⟩ ∧
        ¬NamesOwn w.sessions.length failures w'.shared) := by
  refine ⟨fun h i messages failures hi => ?_, fun h hleft => ?_⟩
  · exact (callDiscipline_ok (callRaisesOwn_sound cfg) h).raised hi messages failures rfl rfl
  · obtain ⟨failures, hraised⟩ := flush_allFail hleft
    have hfresh : CallFresh w.sessions.length w.shared :=
      (callDelivers_ok h).fresh _ (Nat.le_refl _)
    refine ⟨⟨fun _ => idlePublish, w.shared.allFail⟩, _, failures, run_raises ?_,
      List.getElem?_concat_length, fun ⟨f, _, message, hget⟩ => ?_⟩
    · exact hraised
    · rw [show (producerMethod cfg w.sessions.length _ (.publishBatch []) w.shared).state.messages =
        w.shared.messages from flush_messages _ _] at hget
      exact hfresh _ (List.mem_of_getElem? hget) rfl

/-- The step starts clean, whatever its method is. -/
def stepStartsClean : Label ProducerEnv Empty (ProducerCmd ε) → ProducerWorld ε → Bool
  | .run _ _, w => w.shared.queue.isEmpty && w.shared.deliveryErrors.isEmpty
  | _, _ => true

theorem allowsCalls_of_stepStartsClean (l : Label ProducerEnv Empty (ProducerCmd ε))
    (w : ProducerWorld ε) (h : stepStartsClean l w = true) : allowsCalls BatchStartsClean l w := by
  refine allowsCalls_of_run fun i e hrun c messages _ => ?_
  subst hrun
  obtain ⟨hqueue, herrors⟩ := (Bool.and_eq_true _ _).mp h
  exact Or.inr ⟨List.isEmpty_iff.mp hqueue, List.isEmpty_iff.mp herrors⟩

namespace Sample

/-- A batch whose only message fails. -/
def failedBatch : List (Label ProducerEnv Empty (ProducerCmd Nat)) :=
  [.spawn (.publishBatch [reviewMessage 1]),
    .run 0 (callbacks [⟨0, some (0, "Local: Message timed out")⟩])]

/-- A batch that is not heard of before its flush times out. -/
def unheardBatch : List (Label ProducerEnv Empty (ProducerCmd Nat)) :=
  [.spawn (.publishBatch [reviewMessage 1]), .run 0 (callbacks [])]

/-- The first caller's flush times out; its message fails while the second caller,
whose own message arrives, waits for its batch. -/
def inheritedFailure : List (Label ProducerEnv Empty (ProducerCmd Nat)) :=
  [.spawn (.publishBatch [reviewMessage 1]), .spawn (.publishBatch [reviewMessage 2]),
    .run 0 (callbacks []),
    .run 1 ⟨fun _ => ⟨true, fun _ => ⟨.queued, ⟨[], false⟩⟩, ⟨[], false⟩⟩,
      ⟨[⟨0, some (0, "Local: Message timed out")⟩, ⟨1, none⟩], false⟩⟩]

end Sample

open Sample in
theorem batch_isolated_failed_and_unheard :
    (∃ w failures, (sharedProducer producerConfig).Reach (allowsCalls BatchStartsClean)
        ⟨.initial, []⟩ w ∧ w.sessions[0]? = some ⟨.publishBatch [reviewMessage 1],
          some (.raise (.producer (.delivery failures)))⟩ ∧ NamesOwn 0 failures w.shared) ∧
    ∃ w : ProducerWorld Nat, (sharedProducer producerConfig).Reach (fun _ _ => True)
        ⟨.initial, []⟩ w ∧ ¬w.shared.StartsClean ∧
      ∃ e w' failures, (sharedProducer producerConfig).run w
          [.spawn (.publishBatch []), .run w.sessions.length e] = some w' ∧
        w'.sessions[w.sessions.length]? =
          some ⟨.publishBatch [], some (.raise (.producer (.delivery failures)))⟩ ∧
        ¬NamesOwn w.sessions.length failures w'.shared := by
  refine ⟨?_, ?_⟩
  · have hrun : ((sharedProducer producerConfig).runIf stepStartsClean ⟨.initial, []⟩
        failedBatch).map (fun w => w.sessions[0]?.bind batchEnd) =
          some (some ([reviewMessage 1], some [⟨0, "playstore.review-observed.v1[0] delivery " ++
            "failed: Local: Message timed out"⟩])) := by
      decide +kernel
    obtain ⟨w, hw, hend⟩ := Option.map_eq_some_iff.mp hrun
    have hreach := System.reach_of_runIf allowsCalls_of_stepStartsClean .refl hw
    have hraised := batchEnd_raised hend
    exact ⟨w, _, hreach, hraised, (batch_isolated producerConfig w).1 hreach 0 _ _ hraised⟩
  · have hrun : ((sharedProducer producerConfig).run ⟨.initial, []⟩ unheardBatch).map
        (fun w => (w.shared.closed, w.shared.queue)) = some (false, [0]) := by
      decide +kernel
    obtain ⟨w, hw, hfacts⟩ := Option.map_eq_some_iff.mp hrun
    obtain ⟨hclosed, hqueue⟩ := Prod.mk.inj hfacts
    have hreach : (sharedProducer producerConfig).Reach (fun _ _ => True) ⟨.initial, []⟩ w :=
      System.reach_of_run (fun _ _ _ => trivial) .refl hw
    have hleft : ¬w.shared.StartsClean := by
      simp [ProducerState.StartsClean, hclosed, hqueue]
    exact ⟨w, hreach, hleft, (batch_isolated producerConfig w).2 hreach hleft⟩

open Sample in
theorem batch_inherits_failure :
    ¬∀ (cfg : ProducerConfig) (w : ProducerWorld Nat),
      (sharedProducer cfg).Reach (fun _ _ => True) ⟨.initial, []⟩ w →
      ∀ i messages failures, w.sessions[i]? =
          some ⟨.publishBatch messages, some (.raise (.producer (.delivery failures)))⟩ →
        NamesOwn i failures w.shared := by
  intro hclaim
  have hrun : ((sharedProducer producerConfig).run ⟨.initial, []⟩ inheritedFailure).map (fun w =>
      (w.sessions[1]?.bind batchEnd, w.shared.messages[0]?.map (·.1))) =
      some (some ([reviewMessage 2], some [⟨0, "playstore.review-observed.v1[0] delivery failed: " ++
        "Local: Message timed out"⟩]), some 0) := by
    decide +kernel
  obtain ⟨w, hw, hfacts⟩ := Option.map_eq_some_iff.mp hrun
  obtain ⟨hend, howner⟩ := Prod.mk.inj hfacts
  have hreach : (sharedProducer producerConfig).Reach (fun _ _ => True) ⟨.initial, []⟩ w :=
    System.reach_of_run (fun _ _ _ => trivial) .refl hw
  obtain ⟨f, hf, message, hget⟩ := hclaim _ w hreach 1 _ _ (batchEnd_raised hend)
  obtain rfl := List.mem_singleton.mp hf
  rw [hget] at howner
  cases howner

end

end Sahabino
