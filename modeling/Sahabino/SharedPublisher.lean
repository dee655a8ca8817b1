import Sahabino.Lifecycle
import Sahabino.Producer

/-!
# Delivery through the shared publisher

A publisher call queues its message under the producer's lock, releases
it, and takes it again to flush. In between, other calls poll the same
library and drain the same list of delivery errors, so a failure can be
raised in a call that did not queue the message.

A message that was queued has one of three fates until its own call looks
at it: it is still queued, it was acknowledged, or its failure is in the
list (`Fate`). Every method keeps that, except that it may raise the list
(`Safe`). So a flush that returns finds its own message acknowledged,
provided nobody else raised the message's failure meanwhile: that is the
condition on the steps of the other calls (`KeepsFailures`), and there is
no other way to lose it.
-/

namespace Sahabino

open Conc

namespace ProducerState

variable {ε : Type} {s s' s'' : ProducerState ε}

/-! ## What a method keeps -/

/-- Queued, acknowledged, or failed and not yet raised. -/
def Fate (s : ProducerState ε) (message : Nat) : Prop :=
  message ∈ s.queue ∨ message ∈ s.acknowledged ∨ ∃ f ∈ s.deliveryErrors, f.message = message

structure Grows (s s' : ProducerState ε) : Prop where
  messages : ∀ (n : Nat) m, s.messages[n]? = some m → s'.messages[n]? = some m
  acknowledged : ∀ n ∈ s.acknowledged, n ∈ s'.acknowledged
  awaiting : s'.awaiting = s.awaiting

theorem Grows.refl (s : ProducerState ε) : s.Grows s := ⟨fun _ _ h => h, fun _ h => h, rfl⟩

theorem Grows.trans (h : s.Grows s') (h' : s'.Grows s'') : s.Grows s'' :=
  ⟨fun n m hm => h'.messages n m (h.messages n m hm),
    fun n hn => h'.acknowledged n (h.acknowledged n hn), h'.awaiting.trans h.awaiting⟩

/-- A message keeps its fate, unless the method raises its failure. -/
structure Safe (s : ProducerState ε) (r : ProducerOutcome ε) : Prop where
  grows : s.Grows r.state
  fate : ∀ n, s.Fate n → r.state.Fate n ∨
    ∃ failures, r.result = .error (.delivery failures) ∧ ∃ f ∈ failures, f.message = n

theorem Safe.andThen {r : ProducerOutcome ε} {f : ProducerState ε → ProducerOutcome ε}
    (h : s.Safe r) (hf : r.result = .ok () → r.state.Safe (f r.state)) : s.Safe (r.andThen f) := by
  unfold ProducerOutcome.andThen
  split
  · rename_i hok
    obtain ⟨hgrows, hfate⟩ := hf hok
    refine ⟨h.grows.trans hgrows, fun n hn => ?_⟩
    rcases h.fate n hn with hkept | ⟨failures, hraised, -⟩
    · exact hfate n hkept
    · rw [hok] at hraised
      cases hraised
  · exact h

theorem andThen_ok {r : ProducerOutcome ε} {f : ProducerState ε → ProducerOutcome ε}
    (h : (r.andThen f).result = .ok ()) : r.result = .ok () ∧ r.andThen f = f r.state := by
  unfold ProducerOutcome.andThen at h ⊢
  split
  · rename_i hok
    exact ⟨hok, rfl⟩
  · rename_i x hraised
    rw [hraised] at h
    simp only [hraised] at h
    cases h

/-! ## Callbacks -/

theorem report_grows (r : DeliveryReport) (s : ProducerState ε) : s.Grows (s.report r) := by
  unfold report onDelivery
  split
  · split
    · exact ⟨fun _ _ h => h, fun _ h => List.mem_append_left _ h, rfl⟩
    · exact ⟨fun _ _ h => h, fun _ h => h, rfl⟩
  · exact .refl s

theorem report_messages (r : DeliveryReport) (s : ProducerState ε) :
    (s.report r).messages = s.messages := by
  unfold report onDelivery
  split
  · split <;> rfl
  · rfl

/-- A report moves its message from the queue to one of the other two places. -/
theorem report_fate (r : DeliveryReport) {n : Nat} (h : s.Fate n) : (s.report r).Fate n := by
  unfold report
  split
  case isFalse => exact h
  unfold onDelivery
  rcases h with hqueued | hacked | ⟨f, hf, hn⟩
  · by_cases heq : n = r.message
    · subst heq
      split
      · exact Or.inr (Or.inl (List.mem_append_right _ (List.mem_singleton_self _)))
      · exact Or.inr (Or.inr ⟨_, List.mem_append_right _ (List.mem_singleton_self _), rfl⟩)
    · have hrest : n ∈ s.queue.erase r.message := (List.mem_erase_of_ne heq).mpr hqueued
      split
      · exact Or.inl hrest
      · exact Or.inl hrest
  · split
    · exact Or.inr (Or.inl (List.mem_append_left _ hacked))
    · exact Or.inr (Or.inl hacked)
  · split
    · exact Or.inr (Or.inr ⟨f, hf, hn⟩)
    · exact Or.inr (Or.inr ⟨f, List.mem_append_left _ hf, hn⟩)

theorem serve_spec (reports : List DeliveryReport) (s : ProducerState ε) :
    s.Grows (s.serve reports) ∧ (s.serve reports).messages = s.messages ∧
      ∀ n, s.Fate n → (s.serve reports).Fate n := by
  induction reports generalizing s with
  | nil => exact ⟨.refl s, rfl, fun _ h => h⟩
  | cons r reports ih =>
      obtain ⟨hgrows, hmessages, hfate⟩ := ih (s.report r)
      exact ⟨(report_grows r s).trans hgrows, hmessages.trans (report_messages r s),
        fun n hn => hfate n (report_fate r hn)⟩

theorem raiseDeliveryErrors_ok (h : s.raiseDeliveryErrors.result = .ok ()) :
    s.raiseDeliveryErrors.state = s ∧ s.deliveryErrors = [] := by
  unfold raiseDeliveryErrors at h ⊢
  split
  · rename_i hnone
    exact ⟨rfl, hnone⟩
  · rename_i hsome
    rw [if_neg hsome] at h
    cases h

theorem raiseDeliveryErrors_safe (s : ProducerState ε) : s.Safe s.raiseDeliveryErrors := by
  unfold raiseDeliveryErrors
  split
  · exact ⟨.refl s, fun _ h => Or.inl h⟩
  · refine ⟨⟨fun _ _ h => h, fun _ h => h, rfl⟩, fun n hn => ?_⟩
    rcases hn with hqueued | hacked | ⟨f, hf, hmessage⟩
    · exact Or.inl (Or.inl hqueued)
    · exact Or.inl (Or.inr (Or.inl hacked))
    · exact Or.inr ⟨s.deliveryErrors, rfl, f, hf, hmessage⟩

theorem raiseDeliveryErrors_messages (s : ProducerState ε) :
    s.raiseDeliveryErrors.state.messages = s.messages := by
  unfold raiseDeliveryErrors
  split <;> rfl

/-! ## The methods -/

theorem safe_of_serve (reports : List DeliveryReport) {r : ProducerOutcome ε}
    (h : (s.serve reports).Safe r) : s.Safe r := by
  obtain ⟨hgrows, -, hfate⟩ := serve_spec reports s
  exact ⟨hgrows.trans h.grows, fun n hn => h.fate n (hfate n hn)⟩

theorem safe_raise (s : ProducerState ε) (r : Except ProducerError Unit) : s.Safe ⟨r, s⟩ :=
  ⟨.refl s, fun _ h => Or.inl h⟩

theorem pollThenRaise_safe (poll : PollEnv) (x : ProducerError) (s : ProducerState ε) :
    s.Safe (s.pollThenRaise poll x) := by
  refine safe_of_serve poll.reports ?_
  unfold pollThenRaise
  split
  · exact safe_raise _ _
  · exact raiseDeliveryErrors_safe _

theorem pollThenRaise_messages (poll : PollEnv) (x : ProducerError) (s : ProducerState ε) :
    (s.pollThenRaise poll x).state.messages = s.messages := by
  obtain ⟨-, hmessages, -⟩ := serve_spec poll.reports s
  unfold pollThenRaise
  split
  · exact hmessages
  · exact (raiseDeliveryErrors_messages _).trans hmessages

theorem enqueue_grows (i : Nat) (message : ProducerMessage ε) (s : ProducerState ε) :
    s.Grows (s.enqueue i message) := by
  refine ⟨fun n m hm => ?_, fun _ h => h, rfl⟩
  show (s.messages ++ [(i, message)])[n]? = some m
  rw [List.getElem?_append_left (List.getElem?_eq_some_iff.mp hm).1]
  exact hm

theorem enqueue_fate (i : Nat) (message : ProducerMessage ε) {n : Nat} (h : s.Fate n) :
    (s.enqueue i message).Fate n := by
  rcases h with hqueued | hrest
  · exact Or.inl (List.mem_append_left _ hqueued)
  · exact Or.inr hrest

theorem ensureOpen_safe (s : ProducerState ε) : s.Safe s.ensureOpen := by
  unfold ensureOpen
  split <;> exact safe_raise s _

theorem ensureOpen_state (s : ProducerState ε) : s.ensureOpen.state = s := by
  unfold ensureOpen
  split <;> rfl

theorem encode_safe (message : ProducerMessage ε) (env : PublishEnv) (s : ProducerState ε) :
    s.Safe (s.encode message env) := by
  unfold encode
  split
  · exact safe_raise s _
  · split <;> exact safe_raise s _

theorem encode_state (message : ProducerMessage ε) (env : PublishEnv) (s : ProducerState ε) :
    (s.encode message env).state = s := by
  unfold encode
  split
  · rfl
  · split <;> rfl

theorem produce_safe (i : Nat) (message : ProducerMessage ε) (attempts : Nat → ProduceAttempt)
    (retries : Nat) : ∀ (attempt : Nat) (s : ProducerState ε),
      s.Safe (s.produce i message attempts retries attempt) := by
  induction retries with
  | zero =>
      intro attempt s
      unfold produce
      split
      · exact ⟨enqueue_grows i message s, fun n hn => Or.inl (enqueue_fate i message hn)⟩
      · exact safe_raise s _
      · exact safe_raise s _
  | succ retries ih =>
      intro attempt s
      unfold produce
      split
      · exact ⟨enqueue_grows i message s, fun n hn => Or.inl (enqueue_fate i message hn)⟩
      · exact safe_raise s _
      · exact (pollThenRaise_safe _ _ s).andThen fun _ => ih (attempt + 1) _

/-- A loop that ends normally has queued the message, under the next number. -/
theorem produce_ok {i : Nat} {message : ProducerMessage ε} {attempts : Nat → ProduceAttempt}
    (retries : Nat) : ∀ (attempt : Nat) (s : ProducerState ε),
      (s.produce i message attempts retries attempt).result = .ok () →
      (s.produce i message attempts retries attempt).state.messages =
          s.messages ++ [(i, message)] ∧
        s.messages.length ∈ (s.produce i message attempts retries attempt).state.queue := by
  induction retries with
  | zero =>
      intro attempt s h
      unfold produce at h ⊢
      split at h
      · exact ⟨rfl, List.mem_append_right _ (List.mem_singleton_self _)⟩
      · cases h
      · cases h
  | succ retries ih =>
      intro attempt s h
      unfold produce at h ⊢
      split at h
      · exact ⟨rfl, List.mem_append_right _ (List.mem_singleton_self _)⟩
      · cases h
      · simp only at h ⊢
        obtain ⟨-, hstate⟩ := andThen_ok h
        rw [hstate] at h ⊢
        have hmessages := pollThenRaise_messages (attempts attempt).poll
          (.pollFailed message.topic) s
        rw [← hmessages]
        exact ih (attempt + 1) _ h

theorem publish_safe (cfg : ProducerConfig) (i : Nat) (message : ProducerMessage ε)
    (env : PublishEnv) (s : ProducerState ε) : s.Safe (s.publish cfg i message env) :=
  (ensureOpen_safe s).andThen fun _ => (encode_safe message env _).andThen fun _ =>
    (produce_safe i message env.attempts _ 0 _).andThen fun _ => pollThenRaise_safe env.poll _ _

/-- A `publish` that returns has queued its message, and the message has a fate. -/
theorem publish_ok {cfg : ProducerConfig} {i : Nat} {message : ProducerMessage ε}
    {env : PublishEnv} (h : (s.publish cfg i message env).result = .ok ()) :
    (s.publish cfg i message env).state.messages = s.messages ++ [(i, message)] ∧
      (s.publish cfg i message env).state.Fate s.messages.length := by
  unfold publish at h ⊢
  obtain ⟨-, hopen⟩ := andThen_ok h
  rw [hopen, ensureOpen_state] at h ⊢
  obtain ⟨-, hencode⟩ := andThen_ok h
  rw [hencode, encode_state] at h ⊢
  obtain ⟨hproduced, hpoll⟩ := andThen_ok h
  rw [hpoll] at h ⊢
  obtain ⟨hmessages, hqueued⟩ := produce_ok cfg.queueFullMaxRetries 0 s hproduced
  refine ⟨(pollThenRaise_messages _ _ _).trans hmessages, ?_⟩
  rcases (pollThenRaise_safe env.poll (.callbacksFailed message.topic) _).fate _ (Or.inl hqueued)
    with hkept | ⟨failures, hraised, -⟩
  · exact hkept
  · rw [h] at hraised
    cases hraised

theorem flush_safe (env : PollEnv) (s : ProducerState ε) : s.Safe (s.flush env) := by
  refine (ensureOpen_safe s).andThen fun _ => safe_of_serve env.reports ?_
  simp only
  split
  · exact safe_raise _ _
  · split
    · exact safe_raise _ _
    · exact raiseDeliveryErrors_safe _

/-- A `flush` that returns leaves nothing queued and nothing to raise. -/
theorem flush_ok {env : PollEnv} (h : (s.flush env).result = .ok ()) :
    (s.flush env).state.queue = [] ∧ (s.flush env).state.deliveryErrors = [] := by
  unfold flush at h ⊢
  obtain ⟨-, hopen⟩ := andThen_ok h
  rw [hopen, ensureOpen_state] at h ⊢
  simp only at h ⊢
  split at h
  · cases h
  rename_i hraises
  rw [if_neg hraises]
  split at h
  · cases h
  rename_i hqueue
  rw [if_neg hqueue]
  obtain ⟨hstate, herrors⟩ := raiseDeliveryErrors_ok h
  rw [hstate]
  exact ⟨not_not.mp hqueue, herrors⟩

/-- A loop leaves the messages alone or adds its own. -/
theorem produce_messages (i : Nat) (message : ProducerMessage ε)
    (attempts : Nat → ProduceAttempt) (retries : Nat) : ∀ (attempt : Nat) (s : ProducerState ε),
      (s.produce i message attempts retries attempt).state.messages = s.messages ∨
        (s.produce i message attempts retries attempt).state.messages =
          s.messages ++ [(i, message)] := by
  induction retries with
  | zero =>
      intro attempt s
      unfold produce
      split
      · exact Or.inr rfl
      · exact Or.inl rfl
      · exact Or.inl rfl
  | succ retries ih =>
      intro attempt s
      unfold produce
      split
      · exact Or.inr rfl
      · exact Or.inl rfl
      · have hmessages := pollThenRaise_messages (attempts attempt).poll
          (.pollFailed message.topic) s
        simp only [ProducerOutcome.andThen]
        split
        · rw [← hmessages]
          exact ih (attempt + 1) _
        · exact Or.inl hmessages

theorem publish_messages (cfg : ProducerConfig) (i : Nat) (message : ProducerMessage ε)
    (env : PublishEnv) (s : ProducerState ε) :
    (s.publish cfg i message env).state.messages = s.messages ∨
      (s.publish cfg i message env).state.messages = s.messages ++ [(i, message)] := by
  unfold publish
  simp only [ProducerOutcome.andThen]
  split
  · rw [ensureOpen_state]
    split
    · rw [encode_state]
      have hmessages := produce_messages i message env.attempts
        cfg.queueFullMaxRetries 0 s
      split
      · rw [pollThenRaise_messages]
        exact hmessages
      · exact hmessages
    · rw [encode_state]
      exact Or.inl rfl
  · rw [ensureOpen_state]
    exact Or.inl rfl

theorem flush_messages (env : PollEnv) (s : ProducerState ε) :
    (s.flush env).state.messages = s.messages := by
  obtain ⟨-, hmessages, -⟩ := serve_spec env.reports s
  unfold flush
  simp only [ProducerOutcome.andThen]
  split
  · rw [ensureOpen_state]
    split
    · exact hmessages
    · split
      · exact hmessages
      · rw [raiseDeliveryErrors_messages]
        exact hmessages
  · rw [ensureOpen_state]

end ProducerState

/-! ## The discipline of a publisher call -/

/-- `message`, under the number `n`, is what the process `i` has queued so far. -/
def HasQueued (i n : Nat) (message : ProducerMessage NetworkEvent)
    (s : ProducerState NetworkEvent) : Prop :=
  ∀ n' message', s.messages[n']? = some (i, message') ↔ n' = n ∧ message' = message

/-- The step raises no failure of a message that another call has queued and
not yet flushed. -/
def KeepsFailures (cfg : ProducerConfig) (i : Nat) (c : ProducerCmd NetworkEvent)
    (e : ProducerEnv) (s : ProducerState NetworkEvent) : Prop :=
  ∀ failures, (producerMethod cfg i e c s).result = .error (.delivery failures) →
    ∀ f ∈ failures, ∀ j, (j, f.message) ∈ s.awaiting → j = i

/-- What the other calls leave to the process `i`. -/
structure PublisherRely (i : Nat) (s s' : ProducerState NetworkEvent) : Prop where
  awaiting : ∀ n, (i, n) ∈ s'.awaiting ↔ (i, n) ∈ s.awaiting
  messages : ∀ (n : Nat) m, s'.messages[n]? = some (i, m) ↔ s.messages[n]? = some (i, m)
  acknowledged : ∀ n ∈ s.acknowledged, n ∈ s'.acknowledged

theorem PublisherRely.hasQueued {i n : Nat} {message : ProducerMessage NetworkEvent}
    {s s' : ProducerState NetworkEvent} (h : PublisherRely i s s')
    (hqueued : HasQueued i n message s) : HasQueued i n message s' :=
  fun n' m' => (h.messages n' m').trans (hqueued n' m')

/-- The process `i` has done nothing yet. -/
structure PublisherFresh (i : Nat) (s : ProducerState NetworkEvent) : Prop where
  awaiting : ∀ n, (i, n) ∉ s.awaiting
  messages : ∀ (n : Nat) m, s.messages[n]? ≠ some (i, m)

def publisherDiscipline (cfg : ProducerConfig) :
    Discipline (ProducerState NetworkEvent) (ProducerCmd NetworkEvent) ProducerEnv Empty
      PublisherCall PublisherError Unit where
  inv s := ∀ i n, (i, n) ∈ s.awaiting → s.Fate n
  rely := PublisherRely
  fresh := PublisherFresh
  pre _ i c s :=
    match c with
    | .publish _ => PublisherFresh i s
    | .flush => True
    | .publishBatch _ => False
    | .close => False
  allow _ i c e s := KeepsFailures cfg i c e s
  allowExt _ _ := True
  post r i _ s := ∃ n message, r.message = some message ∧ HasQueued i n message s ∧
    n ∈ s.acknowledged
  xpost _ _ _ _ := True

variable {cfg : ProducerConfig} {i : Nat} {e : ProducerEnv} {s : ProducerState NetworkEvent}

/-- Messages of another process are no messages of `j`. -/
theorem messages_append_other {j : Nat} (hj : j ≠ i)
    (messages : List (Nat × ProducerMessage NetworkEvent))
    (message m : ProducerMessage NetworkEvent) (n : Nat) :
    (messages ++ [(i, message)])[n]? = some (j, m) ↔ messages[n]? = some (j, m) := by
  rw [getElem?_concat_iff]
  exact or_iff_left fun h => hj (congrArg Prod.fst h.2)

theorem hasQueued_append {message : ProducerMessage NetworkEvent}
    {messages : List (Nat × ProducerMessage NetworkEvent)}
    (h : ∀ (n : Nat) m, s.messages[n]? ≠ some (i, m))
    (hmessages : messages = s.messages ++ [(i, message)]) (n' : Nat)
    (message' : ProducerMessage NetworkEvent) :
    messages[n']? = some (i, message') ↔ n' = s.messages.length ∧ message' = message := by
  subst hmessages
  rw [getElem?_concat_iff, Prod.mk.injEq]
  exact (or_iff_right (h n' message')).trans (and_congr_right fun _ => and_iff_right rfl)

/-- A method under the condition keeps the fate of the other calls' messages. -/
theorem fate_of_safe {r : ProducerOutcome NetworkEvent}
    (hinv : ∀ j n, (j, n) ∈ s.awaiting → s.Fate n)
    (hsafe : s.Safe r) (hkeeps : ∀ failures, r.result = .error (.delivery failures) →
      ∀ f ∈ failures, ∀ j, (j, f.message) ∈ s.awaiting → j = i) {j n : Nat} (hj : j ≠ i)
    (hawaits : (j, n) ∈ s.awaiting) : r.state.Fate n := by
  rcases hsafe.fate n (hinv j n hawaits) with hkept | ⟨failures, hraised, f, hf, rfl⟩
  · exact hkept
  · exact absurd (hkeeps failures hraised f hf j hawaits) hj

/-- What a `publish` under the condition does. -/
theorem producerMethod_publish {message : ProducerMessage NetworkEvent}
    (hinv : (publisherDiscipline cfg).inv s) (hfresh : PublisherFresh i s)
    (hkeeps : KeepsFailures cfg i (.publish message) e s) :
    (publisherDiscipline cfg).inv (producerMethod cfg i e (.publish message) s).state ∧
      (∀ j, j ≠ i → PublisherRely j s (producerMethod cfg i e (.publish message) s).state) ∧
      ((producerMethod cfg i e (.publish message) s).result = .ok () →
        HasQueued i s.messages.length message
          (producerMethod cfg i e (.publish message) s).state ∧
        (i, s.messages.length) ∈
          (producerMethod cfg i e (.publish message) s).state.awaiting) := by
  have hsafe := ProducerState.publish_safe cfg i message (e.publishes 0) s
  have hmessages := ProducerState.publish_messages cfg i message (e.publishes 0) s
  have hother : ∀ (j n : Nat), j ≠ i → ∀ m,
      ((s.publish cfg i message (e.publishes 0)).state.messages[n]? = some (j, m) ↔
        s.messages[n]? = some (j, m)) := by
    intro j n hj m
    rcases hmessages with heq | heq
    · rw [heq]
    · rw [heq]
      exact messages_append_other hj s.messages message m n
  simp only [KeepsFailures, producerMethod, ProducerOutcome.andThen] at hkeeps ⊢
  cases hresult : (s.publish cfg i message (e.publishes 0)).result with
  | ok _ =>
      simp only
      obtain ⟨hqueued, hfate⟩ := ProducerState.publish_ok hresult
      refine ⟨fun j n hj => ?_, fun j hj => ⟨fun n => ?_, fun n m => hother j n hj m,
        hsafe.grows.acknowledged⟩, fun _ => ⟨hasQueued_append hfresh.messages hqueued, ?_⟩⟩
      · rcases List.mem_append.mp hj with hold | hnew
        · rw [hsafe.grows.awaiting] at hold
          rcases hsafe.fate n (hinv j n hold) with hkept | ⟨failures, hraised, -⟩
          · exact hkept
          · rw [hresult] at hraised
            cases hraised
        · obtain ⟨rfl, rfl⟩ := Prod.mk.inj (List.mem_singleton.mp hnew)
          exact hfate
      · rw [List.mem_append, hsafe.grows.awaiting]
        simp [hj]
      · exact List.mem_append_right _ (List.mem_singleton_self _)
  | error x =>
      simp only [hresult] at hkeeps ⊢
      rw [← hresult] at hkeeps
      refine ⟨fun j n hj => ?_, fun j hj => ⟨fun n => ?_, fun n m => hother j n hj m,
        hsafe.grows.acknowledged⟩, fun h => by cases h⟩
      · rw [hsafe.grows.awaiting] at hj
        have hne : j ≠ i := fun h => hfresh.awaiting n (h ▸ hj)
        exact fate_of_safe hinv hsafe hkeeps hne hj
      · rw [hsafe.grows.awaiting]

/-- What a `flush` under the condition does. -/
theorem producerMethod_flush (hinv : (publisherDiscipline cfg).inv s)
    (hkeeps : KeepsFailures cfg i .flush e s) :
    (publisherDiscipline cfg).inv (producerMethod cfg i e .flush s).state ∧
      (∀ j, j ≠ i → PublisherRely j s (producerMethod cfg i e .flush s).state) ∧
      ((producerMethod cfg i e .flush s).result = .ok () →
        (producerMethod cfg i e .flush s).state.messages = s.messages ∧
        ∀ n, (i, n) ∈ s.awaiting →
          n ∈ (producerMethod cfg i e .flush s).state.acknowledged) := by
  have hsafe := ProducerState.flush_safe e.flush s
  have hmessages := ProducerState.flush_messages e.flush s
  refine ⟨fun j n hj => ?_, fun j hj => ⟨fun n => ?_, fun n m => ?_, hsafe.grows.acknowledged⟩,
    fun hok => ⟨hmessages, fun n hn => ?_⟩⟩
  · obtain ⟨hold, hne⟩ := List.mem_filter.mp hj
    rw [hsafe.grows.awaiting] at hold
    exact fate_of_safe hinv hsafe hkeeps (of_decide_eq_true hne) hold
  · show (j, n) ∈ (s.flush e.flush).state.awaiting.filter _ ↔ _
    rw [List.mem_filter, hsafe.grows.awaiting]
    simp [hj]
  · show (s.flush e.flush).state.messages[n]? = _ ↔ _
    rw [hmessages]
  · -- nothing is queued any more and nothing failed, so one fate is left
    obtain ⟨hqueue, herrors⟩ := ProducerState.flush_ok hok
    rcases hsafe.fate n (hinv i n hn) with (hq | hacked | ⟨f, hf, -⟩) | ⟨failures, hraised, -⟩
    · rw [hqueue] at hq
      cases hq
    · exact hacked
    · rw [herrors] at hf
      cases hf
    · rw [show (s.flush e.flush).result = .ok () from hok] at hraised
      cases hraised

theorem ok_of_mapError {r : Except ProducerError Unit}
    (h : r.mapError PublisherError.producer = .ok ()) : r = .ok () := by
  cases r with
  | ok _ => rfl
  | error x => cases h

theorem dispatch_wp {r : PublisherCall} {message : ProducerMessage NetworkEvent}
    (hr : r.message = some message) (failure : String) (hfresh : PublisherFresh i s) :
    ((publisherDiscipline cfg).proto r).wp (producerExec cfg) i
      (KafkaNetworkPublisher.dispatch message failure) ((publisherDiscipline cfg).post r i)
      ((publisherDiscipline cfg).xpost r i) s := by
  refine Proto.wp_tryCatch.mpr (Proto.wp_seq (Proto.wp_cmd.mpr fun s₁ hrely hinv => ?_))
  have hfresh₁ : PublisherFresh i s₁ :=
    ⟨fun n hn => hfresh.awaiting n ((hrely.awaiting n).mp hn),
      fun n m hm => hfresh.messages n m ((hrely.messages n m).mp hm)⟩
  refine ⟨hfresh₁, fun e v s₂ hkeeps hexec _ => ⟨fun a ha => ?_, fun _ _ => trivial⟩⟩
  obtain ⟨rfl, rfl⟩ := Prod.mk.inj (Option.some.inj hexec)
  obtain ⟨-, -, hqueued⟩ := producerMethod_publish hinv hfresh₁ hkeeps
  obtain ⟨hmine, hawaits⟩ := hqueued (ok_of_mapError ha)
  refine Proto.wp_seq (Proto.wp_cmd.mpr fun s₃ hrely₃ hinv₃ => ⟨trivial, ?_⟩)
  refine fun e' v' s₄ hkeeps' hexec' _ => ⟨fun b hb => ?_, fun _ _ => trivial⟩
  obtain ⟨rfl, rfl⟩ := Prod.mk.inj (Option.some.inj hexec')
  obtain ⟨-, -, hflushed⟩ := producerMethod_flush hinv₃ hkeeps'
  obtain ⟨hmessages, hacked⟩ := hflushed (ok_of_mapError hb)
  refine ⟨s₁.messages.length, message, hr, fun n' m' => ?_,
    hacked _ ((hrely₃.awaiting _).mpr hawaits)⟩
  rw [hmessages]
  exact hrely₃.hasQueued hmine n' m'

theorem publisherDiscipline_sound (cfg : ProducerConfig) :
    (publisherDiscipline cfg).Sound (networkPublisher cfg) where
  rely_refl i s := ⟨fun _ => Iff.rfl, fun _ _ => Iff.rfl, fun _ h => h⟩
  rely_trans h h' := ⟨fun n => (h'.awaiting n).trans (h.awaiting n),
    fun n m => (h'.messages n m).trans (h.messages n m),
    fun n hn => h'.acknowledged n (h.acknowledged n hn)⟩
  fresh_rely h hfresh := ⟨fun n hn => hfresh.awaiting n ((h.awaiting n).mp hn),
    fun n m hm => hfresh.messages n m ((h.messages n m).mp hm)⟩
  post_rely h hpost := by
    obtain ⟨n, message, hr, hqueued, hacked⟩ := hpost
    exact ⟨n, message, hr, h.hasQueued hqueued, h.acknowledged n hacked⟩
  xpost_rely _ _ := trivial
  exec := by
    intro r i c e v s s' hinv hpre hkeeps hexec
    obtain ⟨rfl, rfl⟩ := Prod.mk.inj (Option.some.inj hexec)
    cases c with
    | publish message =>
        obtain ⟨hinv', hrely, -⟩ := producerMethod_publish hinv hpre hkeeps
        exact ⟨hinv', hrely⟩
    | flush =>
        obtain ⟨hinv', hrely, -⟩ := producerMethod_flush hinv hkeeps
        exact ⟨hinv', hrely⟩
    | publishBatch messages => exact hpre.elim
    | close => exact hpre.elim
  crash h := ⟨h, fun _ _ => ⟨fun _ => Iff.rfl, fun _ _ => Iff.rfl, fun _ h => h⟩⟩
  ext := by
    intro x
    cases x
  spawn := by
    intro r i s _ hfresh
    cases r with
    | publishReady capture packageName =>
        show Proto.wp _ _ _ (KafkaNetworkPublisher.publishReady capture packageName) _ _ _
        unfold KafkaNetworkPublisher.publishReady
        split
        · trivial
        · rename_i uploadedAt huploaded
          refine dispatch_wp ?_ _ hfresh
          show capture.uploadedAt.map _ = _
          rw [huploaded, Option.map_some]
    | publishAnalysis capture payload => exact dispatch_wp rfl _ hfresh

/-! ## Delivery -/

/-- Every step of the run meets `KeepsFailures`. -/
def keepsFailures (cfg : ProducerConfig) :
    Label ProducerEnv Empty PublisherCall → PublisherWorld → Prop
  | .run i e, w => ∀ r c k, w.sessions[i]? = some ⟨r, some (.call c k)⟩ →
      KeepsFailures cfg i c e w.shared
  | _, _ => True

/-- A publisher call that returned has had its message, the only one it queued,
acknowledged. -/
theorem publisher_delivers {cfg : ProducerConfig} {w : PublisherWorld}
    (h : (networkPublisher cfg).Reach (keepsFailures cfg) ⟨.initial, []⟩ w) {i : Nat}
    {r : PublisherCall} (hi : w.sessions[i]? = some ⟨r, some (.ret ())⟩) :
    ∃ n message, r.message = some message ∧ HasQueued i n message w.shared ∧
      n ∈ w.shared.acknowledged := by
  have hallows : ∀ l w, keepsFailures cfg l w → (publisherDiscipline cfg).Allows l w := by
    intro l w hkeeps
    cases l with
    | spawn r => trivial
    | run i e => exact hkeeps
    | crash i => trivial
    | ext x => trivial
  have hidle : (publisherDiscipline cfg).Ok (networkPublisher cfg) ⟨.initial, []⟩ := by
    refine Discipline.ok_idle (fun _ _ hn => ?_) fun j => ⟨fun _ hn => ?_, fun n m hm => ?_⟩
    · simp [ProducerState.initial] at hn
    · simp [ProducerState.initial] at hn
    · simp [ProducerState.initial] at hm
  have hok := (publisherDiscipline_sound cfg).ok_of_reach hidle (h.mono hallows)
  exact hok.returned hi

/-- The step raises no failures at all. -/
def raisesNoFailure (cfg : ProducerConfig) :
    Label ProducerEnv Empty PublisherCall → PublisherWorld → Bool
  | .run i e, w => match w.sessions[i]? with
      | some ⟨_, some (.call c _)⟩ => match (producerMethod cfg i e c w.shared).result with
          | .error (.delivery _) => false
          | _ => true
      | _ => true
  | _, _ => true

theorem keepsFailures_of_raisesNoFailure {cfg : ProducerConfig}
    (l : Label ProducerEnv Empty PublisherCall) (w : PublisherWorld)
    (h : raisesNoFailure cfg l w = true) : keepsFailures cfg l w := by
  cases l with
  | spawn r => trivial
  | run i e =>
      intro r c k hi failures hraised
      simp only [raisesNoFailure, hi, hraised] at h
      cases h
  | crash i => trivial
  | ext x => trivial

namespace Sample

def capture (n : Nat) : NetworkCapture :=
  { newCapture (data .upload) none (seconds 1)
      ⟨uuid n, uuid (n + 1), uuid (n + 2), uuid (n + 3)⟩ with uploadedAt := some (seconds 3) }

def producerConfig : ProducerConfig := ⟨3⟩

/-- A call of the library that runs these callbacks. -/
def callbacks (reports : List DeliveryReport) : ProducerEnv where
  publishes _ := ⟨true, fun _ => ⟨.queued, ⟨[], false⟩⟩, ⟨reports, false⟩⟩
  flush := ⟨reports, false⟩

/-- Two calls queue their messages before either of them flushes; the first
flush hears of both. -/
def twoCalls : List (Label ProducerEnv Empty PublisherCall) :=
  [.spawn (.publishReady (capture 10) packageName), .spawn (.publishReady (capture 20) packageName),
    .run 0 (callbacks []), .run 1 (callbacks []), .run 1 (callbacks [⟨0, none⟩, ⟨1, none⟩]),
    .run 0 (callbacks [])]

/-- The second call polls while it queues its message, hears that the first
message failed and raises that; the first call then flushes in peace. -/
def stolenFailure : List (Label ProducerEnv Empty PublisherCall) :=
  [.spawn (.publishReady (capture 10) packageName), .spawn (.publishReady (capture 20) packageName),
    .run 0 (callbacks []), .run 1 (callbacks [⟨0, some (0, "Local: Message timed out")⟩]),
    .run 0 (callbacks [⟨1, none⟩])]

/-- The calls that returned. -/
def returned (w : PublisherWorld) : List Bool :=
  w.sessions.map fun session => match session.prog with
    | some (.ret _) => true
    | _ => false

theorem returned_get {w : PublisherWorld} {i : Nat} (h : (returned w)[i]? = some true) :
    ∃ r, w.sessions[i]? = some ⟨r, some (.ret ())⟩ := by
  obtain ⟨⟨r, p⟩, hi, hp⟩ := by simpa [returned] using h
  refine ⟨r, ?_⟩
  rw [hi]
  split at hp
  · rename_i heq
    simp only at heq
    rw [heq]
  · cases hp

end Sample

open Sample in
theorem publisher_delivers_two_calls :
    ∃ w, (networkPublisher producerConfig).Reach (keepsFailures producerConfig)
        ⟨.initial, []⟩ w ∧ returned w = [true, true] ∧
      ∀ i < 2, ∃ n message, HasQueued i n message w.shared ∧ n ∈ w.shared.acknowledged := by
  have hrun : ((networkPublisher producerConfig).runIf (raisesNoFailure producerConfig)
      ⟨.initial, []⟩ twoCalls).map returned = some [true, true] := by
    decide +kernel
  obtain ⟨w, hw, hreturned⟩ := Option.map_eq_some_iff.mp hrun
  have hreach := System.reach_of_runIf keepsFailures_of_raisesNoFailure .refl hw
  refine ⟨w, hreach, hreturned, fun i hi => ?_⟩
  obtain ⟨r, hr⟩ : ∃ r, w.sessions[i]? = some ⟨r, some (.ret ())⟩ := by
    refine returned_get ?_
    rw [hreturned]
    rcases (by omega : i = 0 ∨ i = 1) with rfl | rfl
    · rfl
    · rfl
  obtain ⟨n, message, -, hqueued, hacked⟩ := publisher_delivers hreach hr
  exact ⟨n, message, hqueued, hacked⟩

open Sample in
theorem publisher_loses_failure :
    ¬∀ (cfg : ProducerConfig) (w : PublisherWorld),
      (networkPublisher cfg).Reach (fun _ _ => True) ⟨.initial, []⟩ w →
      ∀ i r, w.sessions[i]? = some ⟨r, some (.ret ())⟩ →
        ∀ (n : Nat) message, w.shared.messages[n]? = some (i, message) →
          n ∈ w.shared.acknowledged := by
  intro hclaim
  have hrun : ((networkPublisher producerConfig).run ⟨.initial, []⟩ stolenFailure).map (fun w =>
      ((returned w)[0]?, w.shared.messages[0]?.map (·.1), w.shared.acknowledged)) =
      some (some true, some 0, [1]) := by
    decide +kernel
  obtain ⟨w, hw, hfacts⟩ := Option.map_eq_some_iff.mp hrun
  obtain ⟨hreturned, hrest⟩ := Prod.mk.inj hfacts
  obtain ⟨hmessage, hacked⟩ := Prod.mk.inj hrest
  obtain ⟨r, hr⟩ := returned_get hreturned
  obtain ⟨⟨j, message⟩, hm, rfl⟩ := Option.map_eq_some_iff.mp hmessage
  have hreach := System.reach_of_run (fun _ _ _ => trivial) .refl hw
  have hlost := hclaim producerConfig w hreach 0 r hr 0 message hm
  rw [hacked] at hlost
  simp at hlost

end Sahabino
