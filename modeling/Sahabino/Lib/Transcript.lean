import Sahabino.Lib.Prog

/-!
# Transcripts

A process whose every command is answered by a world that is free in what
it answers. The state is the world together with the transcript: the
commands that were issued, each with its answer, the last one first. What
the world may do is a relation `allow`; with the trivial one it does as
it likes, and what is then proved of a process holds in any surroundings.

`Evident` properties of a transcript are those that stay once they are
there. A process that issues a command only on such evidence has a
*discipline*: `Audit.pre`, shown once by its weakest precondition and
then true at every point of every run, whether it ends or is cut off
(`Audit.owed`).
-/

namespace Conc

/-- A command and its answer. -/
structure Event (C : Type) (Resp : C → Type) (ε : Type) where
  command : C
  answer : Except ε (Resp command)

structure Recorded (C : Type) (Resp : C → Type) (ε W : Type) where
  world : W
  log : List (Event C Resp ε)

/-- What a world makes of the next command, whichever it is. -/
structure Reaction (C : Type) (Resp : C → Type) (ε W : Type) where
  answer : (c : C) → Except ε (Resp c)
  after : W

section

variable {C : Type} {Resp : C → Type} {ε W α β : Type}

/-- The state after one more command. -/
def Recorded.step (s : Recorded C Resp ε W) (c : C) (e : Reaction C Resp ε W) :
    Recorded C Resp ε W :=
  ⟨e.after, ⟨c, e.answer c⟩ :: s.log⟩

def recording : Exec (Recorded C Resp ε W) C (Reaction C Resp ε W) ε Resp :=
  fun _ e c s => some (e.answer c, s.step c e)

/-- What a process owes before its commands, and what the world may do. -/
structure Audit (C : Type) (Resp : C → Type) (ε W : Type) where
  pre : C → Recorded C Resp ε W → Prop
  allow : C → Reaction C Resp ε W → Recorded C Resp ε W → Prop

/-- Nobody else moves: what others do is a part of the reactions. -/
def Audit.proto (A : Audit C Resp ε W) :
    Proto (Recorded C Resp ε W) C (Reaction C Resp ε W) where
  inv _ := True
  rely _ s s' := s' = s
  pre _ := A.pre
  allow _ := A.allow

namespace Audit

variable (A : Audit C Resp ε W)

/-- From `s` on, `p` keeps the discipline and ends with `Q` or `X`. -/
def Meets (p : Prog C Resp ε α) (Q : α → Recorded C Resp ε W → Prop)
    (X : ε → Recorded C Resp ε W → Prop) (s : Recorded C Resp ε W) : Prop :=
  A.proto.wp recording 0 p Q X s

variable {A} {p : Prog C Resp ε α} {Q Q' : α → Recorded C Resp ε W → Prop}
  {X X' : ε → Recorded C Resp ε W → Prop} {s : Recorded C Resp ε W}

theorem meets_call {c : C} {k : Except ε (Resp c) → Prog C Resp ε α} :
    A.Meets (.call c k) Q X s ↔
      A.pre c s ∧ ∀ e, A.allow c e s → A.Meets (k (e.answer c)) Q X (s.step c e) := by
  constructor
  · intro h
    obtain ⟨hpre, hk⟩ := h s rfl trivial
    exact ⟨hpre, fun e he => hk e _ _ he rfl trivial⟩
  · rintro ⟨hpre, hk⟩ s' rfl -
    refine ⟨hpre, fun e r s'' he hx _ => ?_⟩
    obtain ⟨rfl, rfl⟩ := Prod.mk.inj (Option.some.inj hx)
    exact hk e he

theorem meets_pure {a : α} (h : Q a s) : A.Meets (pure a) Q X s := h

theorem meets_raise {e : ε} (h : X e s) : A.Meets (.raise e) Q X s := h

theorem meets_seq {f : α → Prog C Resp ε β} {Q : β → Recorded C Resp ε W → Prop}
    (h : A.Meets p (fun a t => A.Meets (f a) Q X t) X s) : A.Meets (p >>= f) Q X s :=
  Proto.wp_seq h

theorem meets_cmd {c : C} {Q : Resp c → Recorded C Resp ε W → Prop} (hpre : A.pre c s)
    (hok : ∀ e a, A.allow c e s → e.answer c = .ok a → Q a (s.step c e))
    (herr : ∀ e x, A.allow c e s → e.answer c = .error x → X x (s.step c e)) :
    A.Meets (Prog.cmd c) Q X s := by
  refine meets_call.mpr ⟨hpre, fun e he => ?_⟩
  cases hanswer : e.answer c with
  | ok a => exact hok e a he hanswer
  | error x => exact herr e x he hanswer

theorem Meets.mono (h : A.Meets p Q X s) (hQ : ∀ a t, Q a t → Q' a t)
    (hX : ∀ e t, X e t → X' e t) : A.Meets p Q' X' s :=
  Proto.wp_mono hQ hX h

theorem Meets.and (h : A.Meets p Q X s) (h' : A.Meets p Q' X' s) :
    A.Meets p (fun a t => Q a t ∧ Q' a t) (fun e t => X e t ∧ X' e t) s := by
  induction p generalizing s with
  | ret a => exact ⟨h, h'⟩
  | raise e => exact ⟨h, h'⟩
  | call c k ih =>
      obtain ⟨hpre, hk⟩ := meets_call.mp h
      exact meets_call.mpr ⟨hpre, fun e he => ih _ (hk e he) ((meets_call.mp h').2 e he)⟩

end Audit

/-! ## Growth -/

/-- What has been added to the transcript consists of commands with `P`. -/
def Grown (P : C → Prop) (s s' : Recorded C Resp ε W) : Prop :=
  ∃ added, s'.log = added ++ s.log ∧ ∀ e ∈ added, P e.command

namespace Grown

variable {P P' : C → Prop} {s s' s'' : Recorded C Resp ε W}

theorem refl : Grown P s s := ⟨[], rfl, fun _ h => by cases h⟩

theorem step {c : C} {e : Reaction C Resp ε W} (hc : P c) : Grown P s (s.step c e) := by
  refine ⟨[⟨c, e.answer c⟩], rfl, fun x hx => ?_⟩
  obtain rfl := List.mem_singleton.mp hx
  exact hc

theorem trans (h : Grown P s s') (h' : Grown P s' s'') : Grown P s s'' := by
  obtain ⟨added, hlog, hadded⟩ := h
  obtain ⟨added', hlog', hadded'⟩ := h'
  refine ⟨added' ++ added, by rw [hlog', hlog, List.append_assoc], fun e he => ?_⟩
  rcases List.mem_append.mp he with he | he
  · exact hadded' e he
  · exact hadded e he

theorem mono (h : Grown P s s') (hP : ∀ c, P c → P' c) : Grown P' s s' := by
  obtain ⟨added, hlog, hadded⟩ := h
  exact ⟨added, hlog, fun e he => hP _ (hadded e he)⟩

theorem mem (h : Grown P s s') {e : Event C Resp ε} (he : e ∈ s.log) : e ∈ s'.log := by
  obtain ⟨added, hlog, -⟩ := h
  rw [hlog]
  exact List.mem_append_right _ he

end Grown

/-- What a process can issue is what it adds. -/
theorem Audit.meets_only {A : Audit C Resp ε W} {P : C → Prop} {p : Prog C Resp ε α}
    (hp : p.Only P) {s s₀ : Recorded C Resp ε W} (hs : Grown P s₀ s)
    {Q : α → Recorded C Resp ε W → Prop} {X : ε → Recorded C Resp ε W → Prop}
    (h : A.Meets p Q X s) :
    A.Meets p (fun a t => Q a t ∧ Grown P s₀ t) (fun e t => X e t ∧ Grown P s₀ t) s := by
  induction p generalizing s with
  | ret a => exact ⟨h, hs⟩
  | raise e => exact ⟨h, hs⟩
  | call c k ih =>
      obtain ⟨hpre, hk⟩ := meets_call.mp h
      exact meets_call.mpr ⟨hpre, fun e he => ih _ (hp.2 _) (hs.trans (.step hp.1)) (hk e he)⟩

/-- A process of commands that may always be issued. -/
theorem Audit.meets_of_only {A : Audit C Resp ε W} {P : C → Prop} {p : Prog C Resp ε α}
    (hp : p.Only P) (hpre : ∀ c s, P c → A.pre c s) {s₀ s : Recorded C Resp ε W}
    (hs : Grown P s₀ s) :
    A.Meets p (fun _ t => Grown P s₀ t) (fun _ t => Grown P s₀ t) s := by
  induction p generalizing s with
  | ret a => exact hs
  | raise e => exact hs
  | call c k ih =>
      exact meets_call.mpr ⟨hpre c s hp.1, fun e _ => ih _ (hp.2 _) (hs.trans (.step hp.1))⟩

theorem Prog.Only.outcome {P : C → Prop} {p : Prog C Resp ε α} (hp : p.Only P) :
    p.outcome.Only P := by
  induction p with
  | ret a => trivial
  | raise e => trivial
  | call c k ih => exact ⟨hp.1, fun r => ih r (hp.2 r)⟩

theorem Prog.only_true (p : Prog C Resp ε α) : p.Only fun _ => True := by
  induction p with
  | ret a => trivial
  | raise e => trivial
  | call c k ih => exact ⟨trivial, ih⟩

/-- What stays true of a growing transcript. -/
def Evident (R : Recorded C Resp ε W → Prop) : Prop :=
  ∀ s s', Grown (fun _ => True) s s' → R s → R s'

namespace Evident

variable {R R' : Recorded C Resp ε W → Prop}

theorem const (q : Prop) : Evident fun _ : Recorded C Resp ε W => q :=
  fun _ _ _ h => h

theorem and (h : Evident R) (h' : Evident R') : Evident fun s => R s ∧ R' s :=
  fun s s' hs hr => ⟨h s s' hs hr.1, h' s s' hs hr.2⟩

theorem or (h : Evident R) (h' : Evident R') : Evident fun s => R s ∨ R' s :=
  fun s s' hs hr => hr.imp (h s s' hs) (h' s s' hs)

theorem exists_ {ι : Sort*} {R : ι → Recorded C Resp ε W → Prop} (h : ∀ i, Evident (R i)) :
    Evident fun s => ∃ i, R i s :=
  fun s s' hs ⟨i, hr⟩ => ⟨i, h i s s' hs hr⟩

theorem forall_ {ι : Sort*} {R : ι → Recorded C Resp ε W → Prop} (h : ∀ i, Evident (R i)) :
    Evident fun s => ∀ i, R i s :=
  fun s s' hs hr i => h i s s' hs (hr i)

end Evident

/-- Evidence is not lost. -/
theorem Audit.Meets.keep {A : Audit C Resp ε W} {p : Prog C Resp ε α}
    {Q : α → Recorded C Resp ε W → Prop} {X : ε → Recorded C Resp ε W → Prop}
    {R : Recorded C Resp ε W → Prop} {s : Recorded C Resp ε W} (h : A.Meets p Q X s)
    (hR : Evident R) (hs : R s) :
    A.Meets p (fun a t => Q a t ∧ R t) (fun e t => X e t ∧ R t) s :=
  (Audit.meets_only p.only_true .refl h).mono (fun _ t ht => ⟨ht.1, hR s t ht.2 hs⟩)
    fun _ t ht => ⟨ht.1, hR s t ht.2 hs⟩

/-! ## In what order -/

/-- What commands with `P` leave true. -/
def Lasting (P : C → Prop) (R : Recorded C Resp ε W → Prop) : Prop :=
  ∀ s s', Grown P s s' → R s → R s'

/-- Since the last event with `E`, which came upon `R`, what was added has `S`. -/
def Upon (S : Recorded C Resp ε W → Prop) (E : Event C Resp ε → Prop)
    (R : Recorded C Resp ε W → Prop) (s : Recorded C Resp ε W) : Prop :=
  ∃ newer e older, s.log = newer ++ e :: older ∧ S ⟨s.world, newer⟩ ∧ E e ∧ R ⟨s.world, older⟩

/-- What has been added to `base` has `R` on its own. -/
def Since (base : List (Event C Resp ε)) (R : Recorded C Resp ε W → Prop)
    (s : Recorded C Resp ε W) : Prop :=
  ∃ added, s.log = added ++ base ∧ R ⟨s.world, added⟩

/-- Commands with `P`, and no others. -/
def Just (P : C → Prop) (s : Recorded C Resp ε W) : Prop := ∀ e ∈ s.log, P e.command

section

variable {P P' : C → Prop} {R S : Recorded C Resp ε W → Prop} {E : Event C Resp ε → Prop}
  {s : Recorded C Resp ε W}

theorem Evident.lasting (h : Evident R) : Lasting P R :=
  fun s s' hs => h s s' (hs.mono fun _ _ => trivial)

theorem Lasting.and (h : Lasting P R) (h' : Lasting P S) : Lasting P fun s => R s ∧ S s :=
  fun s s' hs hr => ⟨h s s' hs hr.1, h' s s' hs hr.2⟩

theorem lasting_just : Lasting P (Just P : Recorded C Resp ε W → Prop) := by
  rintro s s' ⟨added, hlog, hadded⟩ hs e he
  rw [hlog] at he
  rcases List.mem_append.mp he with he | he
  · exact hadded e he
  · exact hs e he

theorem Lasting.upon (hS : Lasting P S) (hR : Lasting P' R) : Lasting P (Upon S E R) := by
  rintro s s' ⟨added, hlog, hadded⟩ ⟨newer, e, older, hs, hnewer, he, hr⟩
  refine ⟨added ++ newer, e, older, by rw [hlog, hs, List.append_assoc], ?_, he, ?_⟩
  · exact hS ⟨s.world, newer⟩ _ ⟨added, rfl, hadded⟩ hnewer
  · exact hR ⟨s.world, older⟩ _ ⟨[], rfl, fun _ h => by cases h⟩ hr

/-- The event has just happened. -/
theorem Upon.now {c : C} {e : Reaction C Resp ε W} (hR : Lasting P R) (hr : R s)
    (hS : S ⟨e.after, []⟩) (hE : E ⟨c, e.answer c⟩) : Upon S E R (s.step c e) :=
  ⟨[], _, s.log, rfl, hS, hE, hR s ⟨e.after, s.log⟩ ⟨[], rfl, fun _ h => by cases h⟩ hr⟩

/-- What has been found out since the event. -/
theorem Since.upon {e : Event C Resp ε} {older : List (Event C Resp ε)} {w : W}
    (h : Since (e :: older) S s) (he : E e) (hR : Lasting P R) (hr : R ⟨w, older⟩) :
      Upon S E R s := by
  obtain ⟨added, hlog, hs⟩ := h
  exact ⟨added, e, older, hlog, hs, he, hR ⟨w, older⟩ _ ⟨[], rfl, fun _ h => by cases h⟩ hr⟩

/-- What was known before the event still is. -/
theorem Upon.past {T : Recorded C Resp ε W → Prop} (h : Upon S E R s) (hT : Evident T)
    (hRT : ∀ s, R s → T s) : T s := by
  obtain ⟨newer, e, older, hlog, -, -, hr⟩ := h
  refine hT ⟨s.world, older⟩ s ⟨newer ++ [e], ?_, fun _ _ => trivial⟩ (hRT _ hr)
  rw [hlog, List.append_assoc]
  rfl

theorem Grown.just {w : W} (h : Grown P ⟨w, []⟩ s) : Just P s := by
  obtain ⟨added, hlog, hadded⟩ := h
  intro e he
  rw [hlog, List.append_nil] at he
  exact hadded e he

theorem Upon.mono {S' : Recorded C Resp ε W → Prop} (h : Upon S E R s)
    (hS : ∀ s, S s → S' s) : Upon S' E R s := by
  obtain ⟨newer, e, older, hlog, hnewer, he, hr⟩ := h
  exact ⟨newer, e, older, hlog, hS _ hnewer, he, hr⟩

end

/-- The command was answered so. -/
def Said (c : C) (a : Resp c) (s : Recorded C Resp ε W) : Prop :=
  (⟨c, .ok a⟩ : Event C Resp ε) ∈ s.log

theorem log_step {c : C} {e : Reaction C Resp ε W} {s : Recorded C Resp ε W}
    {x : Except ε (Resp c)} (h : e.answer c = x) : (s.step c e).log = ⟨c, x⟩ :: s.log := by
  rw [Recorded.step, h]

theorem said_step {c : C} {a : Resp c} {e : Reaction C Resp ε W} {s : Recorded C Resp ε W}
    (h : e.answer c = .ok a) : Said c a (s.step c e) := by
  rw [Said, log_step h]
  exact List.mem_cons_self ..

theorem evident_said {c : C} {a : Resp c} : Evident (W := W) (ε := ε) (Said c a) :=
  fun _ _ h hs => h.mem hs

/-- A single command, as far as its discipline goes: what it was answered is on record. -/
theorem Audit.meets_said {A : Audit C Resp ε W} {c : C} {s : Recorded C Resp ε W}
    {Q : Resp c → Recorded C Resp ε W → Prop} (hpre : A.pre c s)
    (h : ∀ a t, Grown (fun _ => True) s t → Said c a t → Q a t) :
    A.Meets (Prog.cmd c) Q (fun _ _ => True) s :=
  meets_cmd hpre (fun _ a _ ha => h a _ (.step trivial) (said_step ha)) fun _ _ _ _ => trivial

/-! ## What came before does not matter -/

/-- The world may do anything, and nothing is owed but that the commands have `P`. -/
def Audit.only (P : C → Prop) : Audit C Resp ε W where
  pre c _ := P c
  allow _ _ _ := True

/-- A process is run on top of any transcript as on the empty one. -/
theorem Audit.meets_since {P : C → Prop} {A : Audit C Resp ε W} {p : Prog C Resp ε α}
    {Q : α → Recorded C Resp ε W → Prop} {X : ε → Recorded C Resp ε W → Prop}
    {Q' : α → Recorded C Resp ε W → Prop} {X' : ε → Recorded C Resp ε W → Prop}
    {base : List (Event C Resp ε)} {s : Recorded C Resp ε W} {added : List (Event C Resp ε)}
    (hlog : s.log = added ++ base) (h : A.Meets p Q X s)
    (h' : (Audit.only P).Meets p Q' X' ⟨s.world, added⟩) :
    A.Meets p (fun a t => Q a t ∧ Since base (Q' a) t)
      (fun e t => X e t ∧ Since base (X' e) t) s := by
  induction p generalizing s added with
  | ret a => exact ⟨h, added, hlog, h'⟩
  | raise e => exact ⟨h, added, hlog, h'⟩
  | call c k ih =>
      obtain ⟨hpre, hk⟩ := meets_call.mp h
      refine meets_call.mpr ⟨hpre, fun e he => ?_⟩
      have hlog' : (s.step c e).log = (⟨c, e.answer c⟩ :: added) ++ base := by
        rw [Recorded.step, hlog]
        rfl
      exact ih _ hlog' (hk e he) ((meets_call.mp h').2 e trivial)

/-! ## Every point of every run -/

/-- Wherever a run has come, what is left of the process keeps the discipline. -/
theorem Audit.Meets.steps {A : Audit C Resp ε W} {p p' : Prog C Resp ε α}
    {Q : α → Recorded C Resp ε W → Prop} {X : ε → Recorded C Resp ε W → Prop}
    {s s' : Recorded C Resp ε W} (h : A.Meets p Q X s)
    (hrun : Steps recording A.allow 0 p s p' s') : A.Meets p' Q X s' :=
  (Steps.wp (P := A.proto) (fun _ => rfl) (fun _ _ _ _ => trivial) hrun trivial h).2

theorem Audit.Meets.runs {A : Audit C Resp ε W} {p : Prog C Resp ε α}
    {Q : α → Recorded C Resp ε W → Prop} {X : ε → Recorded C Resp ε W → Prop}
    {s s' : Recorded C Resp ε W} {r : Except ε α} (h : A.Meets p Q X s)
    (hrun : Runs recording A.allow 0 p s r s') :
    (∀ a, r = .ok a → Q a s') ∧ ∀ e, r = .error e → X e s' :=
  (Runs.wp (P := A.proto) (J := fun _ => True) (fun _ => rfl) (fun _ _ _ _ => trivial)
    (fun _ _ _ _ _ => trivial) hrun trivial trivial h).2.2

/-- A process that keeps one discipline keeps another that asks for less of what it adds. -/
theorem Audit.Meets.under {A B : Audit C Resp ε W} {p : Prog C Resp ε α} {P : C → Prop}
    {Q : α → Recorded C Resp ε W → Prop} {X : ε → Recorded C Resp ε W → Prop}
    {s₀ s : Recorded C Resp ε W} (h : A.Meets p Q X s)
    (hallow : ∀ c e t, B.allow c e t → A.allow c e t)
    (hpre : ∀ c t, Grown P s₀ t → A.pre c t → B.pre c t ∧ P c) (hs : Grown P s₀ s) :
    B.Meets p (fun a t => Q a t ∧ Grown P s₀ t) (fun e t => X e t ∧ Grown P s₀ t) s := by
  induction p generalizing s with
  | ret a => exact ⟨h, hs⟩
  | raise e => exact ⟨h, hs⟩
  | call c k ih =>
      obtain ⟨hc, hk⟩ := meets_call.mp h
      obtain ⟨hB, hP⟩ := hpre c s hs hc
      exact meets_call.mpr ⟨hB, fun e he => ih _ (hk e (hallow c e s he)) (hs.trans (.step hP))⟩

/-- A command about to be issued has been earned. -/
theorem Audit.Meets.owed {A : Audit C Resp ε W} {p : Prog C Resp ε α}
    {Q : α → Recorded C Resp ε W → Prop} {X : ε → Recorded C Resp ε W → Prop}
    {s s' : Recorded C Resp ε W} (h : A.Meets p Q X s) {c : C}
    {k : Except ε (Resp c) → Prog C Resp ε α}
    (hrun : Steps recording A.allow 0 p s (.call c k) s') : A.pre c s' :=
  (meets_call.mp (h.steps hrun)).1

/-- A run against a world that is written down. -/
theorem Steps.recorded {allow : C → Reaction C Resp ε W → Recorded C Resp ε W → Prop}
    {p p' : Prog C Resp ε α} {s s' : Recorded C Resp ε W}
    (reactions : List (Reaction C Resp ε W)) (hallow : ∀ c e s, allow c e s)
    (h : stepsIf recording 0 (fun _ _ _ => true) reactions p s = some (p', s')) :
    Steps recording allow 0 p s p' s' := Steps.of_stepsIf (fun c e s _ => hallow c e s) h

theorem Runs.recorded {allow : C → Reaction C Resp ε W → Recorded C Resp ε W → Prop}
    {p : Prog C Resp ε α} {r : Except ε α} {s s' : Recorded C Resp ε W}
    (reactions : List (Reaction C Resp ε W)) (hallow : ∀ c e s, allow c e s)
    (h : solo recording 0 reactions p s = some (r, s')) : Runs recording allow 0 p s r s' :=
  Runs.of_solo (fun e _ c s => hallow c e s) h

end

end Conc
