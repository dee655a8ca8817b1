import Mathlib.Data.List.Basic
import Sahabino.Lib.Prog

/-!
# Pools of processes

Any number of processes over one shared state, in any interleaving of
their commands: a step spawns a process for a request, runs one command
of one process, kills a process between two of its commands, or lets the
outside world change the state.

`Discipline.Sound` collects what has to be shown once: each single
command, issued under its `pre`, keeps `inv` and stays within every other
process's `rely`; each request's process meets its own `wp`. The payoff
is `Sound.ok_of_reach`: along every run, `inv` holds, and every process
still owes only what its `wp` says - in particular the `pre` of the
command it is about to issue (`Ok.issued`) and its postcondition once it
has ended (`Ok.returned`, `Ok.raised`).

The invariants of a development then come in two kinds: those a process
needs while it runs go into `inv` and `rely`; everything else is proved
afterwards, command by command, with `Sound.always`.
-/

namespace Conc

/-- A system of processes: the commands, the process that serves a request,
what dies with a killed process, and the outside world's own steps. -/
structure System (S C E X Req ε α : Type) (Resp : C → Type) where
  exec : Exec S C E ε Resp
  prog : Req → Prog C Resp ε α
  crash : Nat → S → S
  ext : X → S → Option S

/-- A served request and what is left of its process; `none` after a kill. -/
structure Session (C Req ε α : Type) (Resp : C → Type) where
  req : Req
  prog : Option (Prog C Resp ε α)

structure World (S C Req ε α : Type) (Resp : C → Type) where
  shared : S
  sessions : List (Session C Req ε α Resp)

inductive Label (E X Req : Type) where
  | spawn (r : Req)
  | run (i : Nat) (e : E)
  | crash (i : Nat)
  | ext (x : X)

/-- Entries are numbered and appended at the end. -/
theorem getElem?_concat_iff {α : Type} {xs : List α} {x y : α} {n : Nat} :
    (xs ++ [x])[n]? = some y ↔ xs[n]? = some y ∨ (n = xs.length ∧ y = x) := by
  constructor
  · intro h
    rcases Nat.lt_or_ge n xs.length with hlt | hge
    · exact Or.inl ((List.getElem?_append_left hlt).symm.trans h)
    · rw [List.getElem?_append_right hge, List.getElem?_singleton] at h
      split at h
      · exact Or.inr ⟨by omega, (Option.some.inj h).symm⟩
      · cases h
  · rintro (h | ⟨rfl, rfl⟩)
    · exact (List.getElem?_append_left (List.getElem?_eq_some_iff.mp h).1).trans h
    · exact List.getElem?_concat_length

section

variable {S C E X Req ε α : Type} {Resp : C → Type}

/-- Every process has returned or raised. -/
def World.Quiescent (w : World S C Req ε α Resp) : Prop :=
  ∀ session ∈ w.sessions, ∃ p, session.prog = some p ∧ p.ended = true

def World.isQuiescent (w : World S C Req ε α Resp) : Bool :=
  w.sessions.all fun session => session.prog.any (·.ended)

theorem World.isQuiescent_iff {w : World S C Req ε α Resp} :
    w.isQuiescent = true ↔ w.Quiescent := by
  simp [isQuiescent, Quiescent, Option.any_eq_true]

namespace System

/-- One step of the pool. -/
def step (M : System S C E X Req ε α Resp) :
    Label E X Req → World S C Req ε α Resp → Option (World S C Req ε α Resp)
  | .spawn r, w => some { w with sessions := w.sessions ++ [⟨r, some (M.prog r)⟩] }
  | .run i e, w =>
      match w.sessions[i]? with
      | some ⟨r, some (.call c k)⟩ =>
          match M.exec i e c w.shared with
          | some (v, s) => some ⟨s, w.sessions.set i ⟨r, some (k v)⟩⟩
          | none => none
      | _ => none
  | .crash i, w =>
      match w.sessions[i]? with
      | some ⟨r, some _⟩ => some ⟨M.crash i w.shared, w.sessions.set i ⟨r, none⟩⟩
      | _ => none
  | .ext x, w => (M.ext x w.shared).map fun s => { w with shared := s }

/-- Run a list of steps. -/
def run (M : System S C E X Req ε α Resp) (w : World S C Req ε α Resp) :
    List (Label E X Req) → Option (World S C Req ε α Resp)
  | [] => some w
  | l :: ls => match M.step l w with
      | some w' => M.run w' ls
      | none => none

/-- The worlds reachable from `w₀` by steps that all meet `allow`. -/
inductive Reach (M : System S C E X Req ε α Resp)
    (allow : Label E X Req → World S C Req ε α Resp → Prop)
    (w₀ : World S C Req ε α Resp) : World S C Req ε α Resp → Prop
  | refl : Reach M allow w₀ w₀
  | step {l : Label E X Req} {w w' : World S C Req ε α Resp} :
      Reach M allow w₀ w → allow l w → M.step l w = some w' → Reach M allow w₀ w'

theorem Reach.trans {M : System S C E X Req ε α Resp}
    {allow : Label E X Req → World S C Req ε α Resp → Prop}
    {w₀ w₁ w₂ : World S C Req ε α Resp} (h₁ : M.Reach allow w₀ w₁)
    (h₂ : M.Reach allow w₁ w₂) : M.Reach allow w₀ w₂ := by
  induction h₂ with
  | refl => exact h₁
  | step _ ha hs ih => exact ih.step ha hs

theorem Reach.mono {M : System S C E X Req ε α Resp}
    {allow allow' : Label E X Req → World S C Req ε α Resp → Prop}
    (hle : ∀ l w, allow l w → allow' l w) {w₀ w : World S C Req ε α Resp}
    (h : M.Reach allow w₀ w) : M.Reach allow' w₀ w := by
  induction h with
  | refl => exact .refl
  | step _ ha hs ih => exact ih.step (hle _ _ ha) hs

/-- A list of steps that runs, and that `allow` does not restrict, reaches its
final world. -/
theorem reach_of_run {M : System S C E X Req ε α Resp}
    {allow : Label E X Req → World S C Req ε α Resp → Prop} :
    ∀ {ls : List (Label E X Req)} {w₀ w w' : World S C Req ε α Resp},
      (∀ l ∈ ls, ∀ w, allow l w) → M.Reach allow w₀ w → M.run w ls = some w' →
        M.Reach allow w₀ w'
  | [], _, _, _, _, h, hrun => by
      obtain rfl := Option.some.inj hrun
      exact h
  | l :: ls, w₀, w, w', hall, h, hrun => by
      cases hl : M.step l w with
      | none => simp [run, hl] at hrun
      | some w₁ =>
          simp only [run, hl] at hrun
          have hrest := fun l' hl' => hall l' (List.mem_cons_of_mem l hl')
          exact reach_of_run hrest (h.step (hall l List.mem_cons_self w) hl) hrun

/-- A new process that runs its first command. -/
theorem run_spawn {M : System S C E X Req ε α Resp} {w : World S C Req ε α Resp} {r : Req} {c : C}
    {k : Except ε (Resp c) → Prog C Resp ε α} {e : E} {v : Except ε (Resp c)} {s : S}
    (hprog : M.prog r = .call c k)
    (hexec : M.exec w.sessions.length e c w.shared = some (v, s)) :
    M.run w [.spawn r, .run w.sessions.length e] =
      some ⟨s, w.sessions ++ [⟨r, some (k v)⟩]⟩ := by
  simp [run, step, hprog, hexec]

/-- `run`, as long as every step passes a check. -/
def runIf (M : System S C E X Req ε α Resp)
    (check : Label E X Req → World S C Req ε α Resp → Bool) (w : World S C Req ε α Resp) :
    List (Label E X Req) → Option (World S C Req ε α Resp)
  | [] => some w
  | l :: ls => if check l w then (M.step l w).bind fun w' => M.runIf check w' ls else none

/-- A checked run reaches its final world by allowed steps. -/
theorem reach_of_runIf {M : System S C E X Req ε α Resp}
    {check : Label E X Req → World S C Req ε α Resp → Bool}
    {allow : Label E X Req → World S C Req ε α Resp → Prop}
    (hcheck : ∀ l w, check l w = true → allow l w) {ls : List (Label E X Req)} :
    ∀ {w₀ w w' : World S C Req ε α Resp}, M.Reach allow w₀ w →
      M.runIf check w ls = some w' → M.Reach allow w₀ w' := by
  induction ls with
  | nil =>
      intro w₀ w w' h hrun
      obtain rfl := Option.some.inj hrun
      exact h
  | cons l ls ih =>
      intro w₀ w w' h hrun
      simp only [runIf] at hrun
      split at hrun
      · rename_i hl
        obtain ⟨w₁, hstep, hrest⟩ := Option.bind_eq_some_iff.mp hrun
        exact ih (h.step (hcheck l w hl) hstep) hrest
      · cases hrun

end System

/-! ## Step inversion -/

/-- What a step of the pool can do, said once. -/
theorem System.step_cases {M : System S C E X Req ε α Resp} {l : Label E X Req}
    {w w' : World S C Req ε α Resp} (h : M.step l w = some w') :
    (∃ r, l = .spawn r ∧
        w' = { w with sessions := w.sessions ++ [⟨r, some (M.prog r)⟩] }) ∨
    (∃ i e r c k v s, l = .run i e ∧ w.sessions[i]? = some ⟨r, some (.call c k)⟩ ∧
        M.exec i e c w.shared = some (v, s) ∧
        w' = ⟨s, w.sessions.set i ⟨r, some (k v)⟩⟩) ∨
    (∃ i r p, l = .crash i ∧ w.sessions[i]? = some ⟨r, some p⟩ ∧
        w' = ⟨M.crash i w.shared, w.sessions.set i ⟨r, none⟩⟩) ∨
    (∃ x s, l = .ext x ∧ M.ext x w.shared = some s ∧ w' = { w with shared := s }) := by
  cases l with
  | spawn r => exact Or.inl ⟨r, rfl, (Option.some.inj h).symm⟩
  | run i e =>
      right; left
      simp only [System.step] at h
      split at h
      · rename_i r c k hsess
        split at h
        · rename_i v s hexec
          exact ⟨i, e, r, c, k, v, s, rfl, hsess, hexec, (Option.some.inj h).symm⟩
        · cases h
      · cases h
  | crash i =>
      right; right; left
      simp only [System.step] at h
      split at h
      · rename_i r p hsess
        exact ⟨i, r, p, rfl, hsess, (Option.some.inj h).symm⟩
      · cases h
  | ext x =>
      right; right; right
      simp only [System.step, Option.map_eq_some_iff] at h
      obtain ⟨s, hs, rfl⟩ := h
      exact ⟨x, s, rfl, hs, rfl⟩

/-- A session serves one request for good. -/
theorem System.Reach.req {M : System S C E X Req ε α Resp}
    {allow : Label E X Req → World S C Req ε α Resp → Prop}
    {w w' : World S C Req ε α Resp} (h : M.Reach allow w w') {i : Nat} {r : Req}
    {p : Option (Prog C Resp ε α)} (hi : w.sessions[i]? = some ⟨r, p⟩) :
    ∃ p', w'.sessions[i]? = some ⟨r, p'⟩ := by
  induction h with
  | refl => exact ⟨p, hi⟩
  | @step l w w' _ _ hstep ih =>
      obtain ⟨q, hq⟩ := ih
      have hlt : i < w.sessions.length := (List.getElem?_eq_some_iff.mp hq).1
      have hset : ∀ j r' p', w.sessions[j]? = some ⟨r', p'⟩ → ∀ p'',
          ∃ q', (w.sessions.set j ⟨r', p''⟩)[i]? = some ⟨r, q'⟩ := by
        intro j r' p' hj p''
        by_cases hij : j = i
        · subst hij
          obtain ⟨rfl, -⟩ := Session.mk.injEq .. |>.mp (Option.some.inj (hj.symm.trans hq))
          exact ⟨p'', List.getElem?_set_self hlt⟩
        · exact ⟨q, by rw [List.getElem?_set_ne hij]; exact hq⟩
      rcases System.step_cases hstep with ⟨r', rfl, rfl⟩ | ⟨j, e, r', c, k, v, s, rfl, hj, -, rfl⟩ |
        ⟨j, r', p', rfl, hj, rfl⟩ | ⟨x, s, rfl, -, rfl⟩
      · exact ⟨q, by rw [List.getElem?_append_left hlt]; exact hq⟩
      · exact hset j r' _ hj _
      · exact hset j r' _ hj _
      · exact ⟨q, hq⟩

/-! ## Disciplines -/

/-- A discipline for a whole pool: one `Proto` per request, over a common
invariant and rely, with the postconditions and what a session id that has
not been used yet may assume. -/
structure Discipline (S C E X Req ε α : Type) where
  inv : S → Prop
  rely : Nat → S → S → Prop
  fresh : Nat → S → Prop
  pre : Req → Nat → C → S → Prop
  allow : Req → Nat → C → E → S → Prop
  allowExt : X → S → Prop
  post : Req → Nat → α → S → Prop
  xpost : Req → Nat → ε → S → Prop

namespace Discipline

/-- The obligations of the process that serves `r`. -/
def proto (D : Discipline S C E X Req ε α) (r : Req) : Proto S C E :=
  ⟨D.inv, D.rely, D.pre r, D.allow r⟩

/-- The steps the discipline speaks about. -/
def Allows (D : Discipline S C E X Req ε α) :
    Label E X Req → World S C Req ε α Resp → Prop
  | .run i e, w => ∀ r c k, w.sessions[i]? = some ⟨r, some (.call c k)⟩ →
      D.allow r i c e w.shared
  | .ext x, w => D.allowExt x w.shared
  | _, _ => True

/-- What has to be shown once about the commands and the processes. -/
structure Sound (D : Discipline S C E X Req ε α) (M : System S C E X Req ε α Resp) :
    Prop where
  rely_refl : ∀ i s, D.rely i s s
  rely_trans : ∀ {i s s' s''}, D.rely i s s' → D.rely i s' s'' → D.rely i s s''
  fresh_rely : ∀ {i s s'}, D.rely i s s' → D.fresh i s → D.fresh i s'
  post_rely : ∀ {r i a s s'}, D.rely i s s' → D.post r i a s → D.post r i a s'
  xpost_rely : ∀ {r i e s s'}, D.rely i s s' → D.xpost r i e s → D.xpost r i e s'
  exec : ∀ {r i c e v s s'}, D.inv s → D.pre r i c s → D.allow r i c e s →
    M.exec i e c s = some (v, s') → D.inv s' ∧ ∀ j, j ≠ i → D.rely j s s'
  crash : ∀ {i s}, D.inv s → D.inv (M.crash i s) ∧ ∀ j, j ≠ i → D.rely j s (M.crash i s)
  ext : ∀ {x s s'}, D.inv s → D.allowExt x s → M.ext x s = some s' →
    D.inv s' ∧ ∀ j, D.rely j s s'
  spawn : ∀ {r i s}, D.inv s → D.fresh i s →
    (D.proto r).wp M.exec i (M.prog r) (D.post r i) (D.xpost r i) s

/-- The invariant of the pool: `inv`, unused ids are fresh, and every live
process meets its `wp` from here on. -/
structure Ok (D : Discipline S C E X Req ε α) (M : System S C E X Req ε α Resp)
    (w : World S C Req ε α Resp) : Prop where
  inv : D.inv w.shared
  fresh : ∀ i, w.sessions.length ≤ i → D.fresh i w.shared
  live : ∀ i r p, w.sessions[i]? = some ⟨r, some p⟩ →
    (D.proto r).wp M.exec i p (D.post r i) (D.xpost r i) w.shared

variable {D : Discipline S C E X Req ε α} {M : System S C E X Req ε α Resp}

/-- A process about to issue a command has shown its `pre`. -/
theorem Ok.issued {w : World S C Req ε α Resp} (h : D.Ok M w) (hs : D.Sound M)
    {i : Nat} {r : Req} {c : C} {k : Except ε (Resp c) → Prog C Resp ε α}
    (hi : w.sessions[i]? = some ⟨r, some (.call c k)⟩) : D.pre r i c w.shared :=
  (h.live i r _ hi w.shared (hs.rely_refl i _) h.inv).1

theorem Ok.returned {w : World S C Req ε α Resp} (h : D.Ok M w) {i : Nat} {r : Req}
    {a : α} (hi : w.sessions[i]? = some ⟨r, some (.ret a)⟩) : D.post r i a w.shared :=
  h.live i r _ hi

theorem Ok.raised {w : World S C Req ε α Resp} (h : D.Ok M w) {i : Nat} {r : Req}
    {e : ε} (hi : w.sessions[i]? = some ⟨r, some (.raise e)⟩) : D.xpost r i e w.shared :=
  h.live i r _ hi

/-- Once all processes have ended, every used id is in its postcondition. -/
theorem Ok.quiescent {w : World S C Req ε α Resp} (h : D.Ok M w) (hw : w.Quiescent) (i : Nat) :
    D.fresh i w.shared ∨ (∃ r a, D.post r i a w.shared) ∨ ∃ r e, D.xpost r i e w.shared := by
  cases hi : w.sessions[i]? with
  | none => exact Or.inl (h.fresh i (List.getElem?_eq_none_iff.mp hi))
  | some session =>
      obtain ⟨r, q⟩ := session
      obtain ⟨p, rfl, hended⟩ := hw ⟨r, q⟩ (List.mem_of_getElem? hi)
      cases p with
      | ret a => exact Or.inr (Or.inl ⟨r, a, h.returned hi⟩)
      | raise e => exact Or.inr (Or.inr ⟨r, e, h.raised hi⟩)
      | call c k => cases hended

/-- The process that stepped continues under its own `wp`. -/
theorem Ok.stepped {w : World S C Req ε α Resp} (h : D.Ok M w) (hs : D.Sound M)
    {i : Nat} {r : Req} {c : C} {k : Except ε (Resp c) → Prog C Resp ε α} {e : E}
    {v : Except ε (Resp c)} {s : S}
    (hi : w.sessions[i]? = some ⟨r, some (.call c k)⟩)
    (ha : D.allow r i c e w.shared) (hx : M.exec i e c w.shared = some (v, s)) :
    (D.proto r).wp M.exec i (k v) (D.post r i) (D.xpost r i) s := by
  obtain ⟨hpre, hk⟩ := h.live i r _ hi w.shared (hs.rely_refl i _) h.inv
  exact hk e v s ha hx (hs.exec h.inv hpre ha hx).1

/-- Replacing one session: the other processes are only asked to survive the
change of the shared state. -/
theorem Ok.replace {w : World S C Req ε α Resp} (h : D.Ok M w) (hs : D.Sound M)
    {i : Nat} {r : Req} {p : Prog C Resp ε α} {q : Option (Prog C Resp ε α)} {s : S}
    (hi : w.sessions[i]? = some ⟨r, some p⟩) (hinv : D.inv s)
    (hrely : ∀ j, j ≠ i → D.rely j w.shared s)
    (hq : ∀ p', q = some p' →
      (D.proto r).wp M.exec i p' (D.post r i) (D.xpost r i) s) :
    D.Ok M ⟨s, w.sessions.set i ⟨r, q⟩⟩ := by
  have hlt : i < w.sessions.length := (List.getElem?_eq_some_iff.mp hi).1
  refine ⟨hinv, fun j hj => ?_, fun j r' p' hj => ?_⟩
  · rw [List.length_set] at hj
    exact hs.fresh_rely (hrely j (by omega)) (h.fresh j hj)
  · by_cases hji : j = i
    · subst hji
      rw [List.getElem?_set_self hlt] at hj
      obtain ⟨rfl, rfl⟩ := Session.mk.injEq .. |>.mp (Option.some.inj hj)
      exact hq p' rfl
    · rw [List.getElem?_set_ne (Ne.symm hji)] at hj
      exact Proto.wp_rely hs.rely_trans hs.post_rely hs.xpost_rely (hrely j hji)
        (h.live j r' p' hj)

/-- The pool invariant survives every allowed step. -/
theorem Sound.ok_step (hs : D.Sound M) {l : Label E X Req}
    {w w' : World S C Req ε α Resp} (h : D.Ok M w) (ha : D.Allows l w)
    (hstep : M.step l w = some w') : D.Ok M w' := by
  rcases System.step_cases hstep with ⟨r, rfl, rfl⟩ | ⟨i, e, r, c, k, v, s, rfl, hi, hx, rfl⟩ |
    ⟨i, r, p, rfl, hi, rfl⟩ | ⟨x, s, rfl, hx, rfl⟩
  · refine ⟨h.inv, fun j hj => ?_, fun j r' p' hj => ?_⟩
    · rw [List.length_append, List.length_singleton] at hj
      exact h.fresh j (by omega)
    · rcases getElem?_concat_iff.mp hj with hj | ⟨rfl, hsession⟩
      · exact h.live j r' p' hj
      · obtain ⟨rfl, hp⟩ := Session.mk.injEq .. |>.mp hsession
        obtain rfl := Option.some.inj hp
        exact hs.spawn h.inv (h.fresh _ (Nat.le_refl _))
  · have hal := ha r c k hi
    have hk := hs.exec h.inv (h.issued hs hi) hal hx
    refine h.replace hs hi hk.1 hk.2 fun p' hp' => ?_
    obtain rfl := Option.some.inj hp'
    exact h.stepped hs hi hal hx
  · have hk := hs.crash (i := i) h.inv
    exact h.replace hs hi hk.1 hk.2 fun p' hp' => by cases hp'
  · have hk := hs.ext h.inv ha hx
    exact ⟨hk.1, fun j hj => hs.fresh_rely (hk.2 j) (h.fresh j hj),
      fun j r' p' hj => Proto.wp_rely hs.rely_trans hs.post_rely hs.xpost_rely (hk.2 j)
        (h.live j r' p' hj)⟩

/-- The pool invariant holds along every allowed run. -/
theorem Sound.ok_of_reach (hs : D.Sound M) {w₀ w : World S C Req ε α Resp}
    (h₀ : D.Ok M w₀) (h : M.Reach D.Allows w₀ w) : D.Ok M w := by
  induction h with
  | refl => exact h₀
  | step _ ha hstep ih => exact hs.ok_step ih ha hstep

/-- A world without sessions meets the pool invariant as soon as its state
does. -/
theorem ok_idle {s : S} (hinv : D.inv s) (hfresh : ∀ i, D.fresh i s) :
    D.Ok M ⟨s, []⟩ :=
  ⟨hinv, fun i _ => hfresh i, fun i r p hi => by simp at hi⟩

/-- Invariants beyond `inv`: a property of the shared state that every
command keeps when it is issued under its `pre`, and that kills and outside
steps keep, holds along every allowed run. -/
theorem Sound.always (hs : D.Sound M) {J : S → Prop}
    (hexec : ∀ {r i c e v s s'}, D.inv s → D.pre r i c s → D.allow r i c e s →
      M.exec i e c s = some (v, s') → J s → J s')
    (hcrash : ∀ {i s}, D.inv s → J s → J (M.crash i s))
    (hext : ∀ {x s s'}, D.inv s → D.allowExt x s → M.ext x s = some s' → J s → J s')
    {w₀ w : World S C Req ε α Resp} (h₀ : D.Ok M w₀) (hJ : J w₀.shared)
    (h : M.Reach D.Allows w₀ w) : J w.shared := by
  induction h with
  | refl => exact hJ
  | @step l w w' hr ha hstep ih =>
      have hok := hs.ok_of_reach h₀ hr
      rcases System.step_cases hstep with ⟨r, rfl, rfl⟩ |
        ⟨i, e, r, c, k, v, s, rfl, hi, hx, rfl⟩ | ⟨i, r, p, rfl, hi, rfl⟩ | ⟨x, s, rfl, hx, rfl⟩
      · exact ih
      · exact hexec hok.inv (hok.issued hs hi) (ha r c k hi) hx ih
      · exact hcrash hok.inv ih
      · exact hext hok.inv ha hx ih

/-- A process followed from one point on: whatever `wp` it meets there, under
postconditions that survive interference, it still meets later. -/
theorem Sound.wp_of_reach (hs : D.Sound M) {i : Nat} {r : Req} {p : Prog C Resp ε α}
    {Q : α → S → Prop} {Y : ε → S → Prop}
    (hQ : ∀ {a s s'}, D.rely i s s' → Q a s → Q a s')
    (hY : ∀ {e s s'}, D.rely i s s' → Y e s → Y e s')
    {w₀ w : World S C Req ε α Resp} (h₀ : D.Ok M w₀)
    (hi₀ : w₀.sessions[i]? = some ⟨r, some p⟩)
    (hwp : (D.proto r).wp M.exec i p Q Y w₀.shared) (h : M.Reach D.Allows w₀ w) :
    ∃ q, w.sessions[i]? = some ⟨r, q⟩ ∧
      ∀ p', q = some p' → (D.proto r).wp M.exec i p' Q Y w.shared := by
  induction h with
  | refl => exact ⟨some p, hi₀, fun p' hp' => by obtain rfl := Option.some.inj hp'; exact hwp⟩
  | @step l w w' hr ha hstep ih =>
      have hok := hs.ok_of_reach h₀ hr
      obtain ⟨q, hq, hqwp⟩ := ih
      have hlt : i < w.sessions.length := (List.getElem?_eq_some_iff.mp hq).1
      rcases System.step_cases hstep with ⟨r', rfl, rfl⟩ |
        ⟨j, e, r', c, k, v, s, rfl, hj, hx, rfl⟩ | ⟨j, r', p', rfl, hj, rfl⟩ | ⟨x, s, rfl, hx, rfl⟩
      · exact ⟨q, by rw [List.getElem?_append_left hlt]; exact hq, hqwp⟩
      · have hk := hs.exec hok.inv (hok.issued hs hj) (ha r' c k hj) hx
        by_cases hij : j = i
        · subst hij
          obtain ⟨rfl, rfl⟩ := Session.mk.injEq .. |>.mp (Option.some.inj (hj.symm.trans hq))
          refine ⟨some (k v), List.getElem?_set_self hlt, fun p' hp' => ?_⟩
          obtain rfl := Option.some.inj hp'
          exact (hqwp _ rfl w.shared (hs.rely_refl j _) hok.inv).2 e v s
            (ha r' c k hj) hx hk.1
        · refine ⟨q, by rw [List.getElem?_set_ne hij]; exact hq, fun p' hp' => ?_⟩
          exact Proto.wp_rely hs.rely_trans hQ hY (hk.2 i (Ne.symm hij)) (hqwp p' hp')
      · have hk := hs.crash (i := j) hok.inv
        by_cases hij : j = i
        · subst hij
          obtain ⟨rfl, -⟩ := Session.mk.injEq .. |>.mp (Option.some.inj (hj.symm.trans hq))
          exact ⟨none, List.getElem?_set_self hlt, fun p' hp' => by cases hp'⟩
        · refine ⟨q, by rw [List.getElem?_set_ne hij]; exact hq, fun p' hp' => ?_⟩
          exact Proto.wp_rely hs.rely_trans hQ hY (hk.2 i (Ne.symm hij)) (hqwp p' hp')
      · have hk := hs.ext hok.inv ha hx
        exact ⟨q, hq, fun p' hp' =>
          Proto.wp_rely hs.rely_trans hQ hY (hk.2 i) (hqwp p' hp')⟩

end Discipline

end

end Conc
