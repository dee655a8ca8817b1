import Mathlib.Data.List.Basic

/-!
# Programs over a shared state

A process is written as a `Prog`: a tree of *commands*, each of which
reads and writes one shared state atomically and hands an answer - or a
raised exception - to the rest of the process. Everything between two
commands is local computation, so the commands are exactly the points
at which other processes can get in between.

`Proto.wp` is the weakest precondition of such a process under
interference: before every command the state may move along `rely`, the
process has to show `pre` of the command it is about to issue, and it
may use the answer only as far as it stays true under `rely`. With the
trivial rely (nothing moves) this is ordinary sequential reasoning; the
rules are the same in both cases.

The rules at the bottom follow the constructors: one for a sequence,
one for an exception handler, one for a cleanup clause, one for a
command.
-/

namespace Conc

/-- A process that issues commands `c : C`, gets an answer in `Resp c` or
an exception in `ε`, and ends by returning an `α` or raising an `ε`. -/
inductive Prog (C : Type) (Resp : C → Type) (ε α : Type) where
  | ret (a : α)
  | raise (e : ε)
  | call (c : C) (k : Except ε (Resp c) → Prog C Resp ε α)

namespace Prog

variable {C : Type} {Resp : C → Type} {ε α β : Type}

def bind : Prog C Resp ε α → (α → Prog C Resp ε β) → Prog C Resp ε β
  | ret a, f => f a
  | raise e, _ => raise e
  | call c k, f => call c fun r => (k r).bind f

/-- `try p except e: h e`. -/
def tryCatch : Prog C Resp ε α → (ε → Prog C Resp ε α) → Prog C Resp ε α
  | ret a, _ => ret a
  | raise e, h => h e
  | call c k, h => call c fun r => (k r).tryCatch h

/-- `try p finally fin`: the cleanup runs on both ways out of `p`, which then
continues the way it was going. -/
def ensure : Prog C Resp ε α → Prog C Resp ε Unit → Prog C Resp ε α
  | ret a, fin => fin.bind fun _ => ret a
  | raise e, fin => fin.bind fun _ => raise e
  | call c k, fin => call c fun r => (k r).ensure fin

/-- `p`, with either ending as a value. -/
def outcome : Prog C Resp ε α → Prog C Resp ε (Except ε α)
  | ret a => ret (.ok a)
  | raise e => ret (.error e)
  | call c k => call c fun r => (k r).outcome

/-- The process has returned or raised. -/
def ended : Prog C Resp ε α → Bool
  | call _ _ => false
  | _ => true

/-- Issue one command; an exception of the command is raised here. -/
def cmd (c : C) : Prog C Resp ε (Resp c) :=
  call c fun
    | .ok r => ret r
    | .error e => raise e

instance : Monad (Prog C Resp ε) where
  pure := ret
  bind := bind

end Prog

/-! ## The proof obligations of a process -/

/-- What the commands do: process `i`, with the choice `e` of the
environment, issues `c` in state `s`. `none` means the command cannot run
now (it blocks). -/
abbrev Exec (S C E ε : Type) (Resp : C → Type) :=
  Nat → E → (c : C) → S → Option (Except ε (Resp c) × S)

/-- A discipline for one process among others. `inv` holds in every state;
`rely i` is what the state may do between two commands of `i`; `pre i c` is
owed by `i` whenever it is about to issue `c`; `allow` restricts attention
to steps that meet a condition. -/
structure Proto (S C E : Type) where
  inv : S → Prop
  rely : Nat → S → S → Prop
  pre : Nat → C → S → Prop
  allow : Nat → C → E → S → Prop

namespace Proto

variable {S C E ε : Type} {Resp : C → Type} {α β : Type}

/-- From `s` on, process `i` running `p` only issues commands whose `pre`
holds, and ends with `Q` of its result or `X` of its exception. -/
def wp (P : Proto S C E) (exec : Exec S C E ε Resp) (i : Nat) :
    Prog C Resp ε α → (α → S → Prop) → (ε → S → Prop) → S → Prop
  | .ret a, Q, _, s => Q a s
  | .raise e, _, X, s => X e s
  | .call c k, Q, X, s =>
      ∀ s', P.rely i s s' → P.inv s' → P.pre i c s' ∧
        ∀ e r s'', P.allow i c e s' → exec i e c s' = some (r, s'') → P.inv s'' →
          wp P exec i (k r) Q X s''

variable {P : Proto S C E} {exec : Exec S C E ε Resp} {i : Nat}

@[simp] theorem wp_ret {a : α} {Q : α → S → Prop} {X : ε → S → Prop} {s : S} :
    P.wp exec i (.ret a) Q X s ↔ Q a s := Iff.rfl

@[simp] theorem wp_raise {e : ε} {Q : α → S → Prop} {X : ε → S → Prop} {s : S} :
    P.wp exec i (.raise e) Q X s ↔ X e s := Iff.rfl

/-- Sequencing: the continuation's precondition is the first part's
postcondition. -/
theorem wp_bind {p : Prog C Resp ε α} {f : α → Prog C Resp ε β}
    {Q : β → S → Prop} {X : ε → S → Prop} {s : S} :
    P.wp exec i (p.bind f) Q X s ↔
      P.wp exec i p (fun a => P.wp exec i (f a) Q X) X s := by
  induction p generalizing s with
  | ret a => exact Iff.rfl
  | raise e => exact Iff.rfl
  | call c k ih => simp only [Prog.bind, wp, ih]

/-- `wp_bind` for `do` blocks. -/
theorem wp_seq {p : Prog C Resp ε α} {f : α → Prog C Resp ε β} {Q : β → S → Prop}
    {X : ε → S → Prop} {s : S} (h : P.wp exec i p (fun a => P.wp exec i (f a) Q X) X s) :
    P.wp exec i (p >>= f) Q X s :=
  wp_bind.mpr h

/-- A handler: the exceptions of the body become its starting points. -/
theorem wp_tryCatch {p : Prog C Resp ε α} {h : ε → Prog C Resp ε α}
    {Q : α → S → Prop} {X : ε → S → Prop} {s : S} :
    P.wp exec i (p.tryCatch h) Q X s ↔
      P.wp exec i p Q (fun e => P.wp exec i (h e) Q X) s := by
  induction p generalizing s with
  | ret a => exact Iff.rfl
  | raise e => exact Iff.rfl
  | call c k ih => simp only [Prog.tryCatch, wp, ih]

/-- A cleanup clause runs after either ending of the body. -/
theorem wp_ensure {p : Prog C Resp ε α} {fin : Prog C Resp ε Unit}
    {Q : α → S → Prop} {X : ε → S → Prop} {s : S} :
    P.wp exec i (p.ensure fin) Q X s ↔
      P.wp exec i p (fun a => P.wp exec i fin (fun _ => Q a) X)
        (fun e => P.wp exec i fin (fun _ => X e) X) s := by
  induction p generalizing s with
  | ret a => simp only [Prog.ensure, wp_bind, wp]
  | raise e => simp only [Prog.ensure, wp_bind, wp]
  | call c k ih => simp only [Prog.ensure, wp, ih]

theorem wp_outcome {p : Prog C Resp ε α} {Q : Except ε α → S → Prop} {X : ε → S → Prop} {s : S} :
    P.wp exec i p.outcome Q X s ↔
      P.wp exec i p (fun a => Q (.ok a)) (fun e => Q (.error e)) s := by
  induction p generalizing s with
  | ret a => exact Iff.rfl
  | raise e => exact Iff.rfl
  | call c k ih => simp only [Prog.outcome, wp, ih]

/-- A single command. -/
theorem wp_cmd {c : C} {Q : Resp c → S → Prop} {X : ε → S → Prop} {s : S} :
    P.wp exec i (Prog.cmd c) Q X s ↔
      ∀ s', P.rely i s s' → P.inv s' → P.pre i c s' ∧
        ∀ e r s'', P.allow i c e s' → exec i e c s' = some (r, s'') → P.inv s'' →
          (∀ a, r = .ok a → Q a s'') ∧ ∀ x, r = .error x → X x s'' := by
  simp only [Prog.cmd, wp]
  refine forall_congr' fun s' => forall_congr' fun _ => forall_congr' fun _ =>
    and_congr_right fun _ => forall_congr' fun e => forall_congr' fun r =>
      forall_congr' fun s'' => forall_congr' fun _ => forall_congr' fun _ =>
        forall_congr' fun _ => ?_
  cases r with
  | ok a => simp
  | error x => simp

/-- Weakening the postconditions. -/
theorem wp_mono {p : Prog C Resp ε α} {Q Q' : α → S → Prop} {X X' : ε → S → Prop}
    (hQ : ∀ a s, Q a s → Q' a s) (hX : ∀ e s, X e s → X' e s) {s : S}
    (h : P.wp exec i p Q X s) : P.wp exec i p Q' X' s := by
  induction p generalizing s with
  | ret a => exact hQ a s h
  | raise e => exact hX e s h
  | call c k ih =>
      intro s' hr hi
      obtain ⟨hpre, hstep⟩ := h s' hr hi
      exact ⟨hpre, fun e r s'' ha he hi' => ih r (hstep e r s'' ha he hi')⟩

/-- Interference does not invalidate a process: what `wp` demands before the
next command already quantifies over every state the rely leads to. -/
theorem wp_rely (htrans : ∀ {s s' s''}, P.rely i s s' → P.rely i s' s'' → P.rely i s s'')
    {p : Prog C Resp ε α} {Q : α → S → Prop} {X : ε → S → Prop}
    (hQ : ∀ {a s s'}, P.rely i s s' → Q a s → Q a s')
    (hX : ∀ {e s s'}, P.rely i s s' → X e s → X e s') {s s' : S}
    (hr : P.rely i s s') (h : P.wp exec i p Q X s) : P.wp exec i p Q X s' := by
  cases p with
  | ret a => exact hQ hr h
  | raise e => exact hX hr h
  | call c k => exact fun t ht hi => h t (htrans hr ht) hi

end Proto

/-! ## Running one process alone -/

/-- Process `i` running `p` from `s`, with nobody else in between and all its
steps within `allow`, ends with `r` in `s'`. -/
inductive Runs {S C E ε : Type} {Resp : C → Type} {α : Type} (exec : Exec S C E ε Resp)
    (allow : C → E → S → Prop) (i : Nat) : Prog C Resp ε α → S → Except ε α → S → Prop
  | ret (a : α) (s : S) : Runs exec allow i (.ret a) s (.ok a) s
  | raise (e : ε) (s : S) : Runs exec allow i (.raise e) s (.error e) s
  | call {c : C} {k : Except ε (Resp c) → Prog C Resp ε α} {e : E} {v : Except ε (Resp c)}
      {s s' s'' : S} {r : Except ε α} : allow c e s → exec i e c s = some (v, s') →
      Runs exec allow i (k v) s' r s'' → Runs exec allow i (.call c k) s r s''

/-- A process that meets its `wp` ends in its postcondition, and keeps every
property that its commands keep when they are issued under `pre`. -/
theorem Runs.wp {S C E ε : Type} {Resp : C → Type} {α : Type} {exec : Exec S C E ε Resp}
    {P : Proto S C E} {i : Nat} {J : S → Prop} (hrefl : ∀ s, P.rely i s s)
    (hinv : ∀ {c e v s s'}, P.inv s → P.pre i c s → P.allow i c e s →
      exec i e c s = some (v, s') → P.inv s')
    (hJ : ∀ {c e v s s'}, P.inv s → P.pre i c s → P.allow i c e s →
      exec i e c s = some (v, s') → J s → J s')
    {p : Prog C Resp ε α} {s s' : S} {r : Except ε α} {Q : α → S → Prop} {X : ε → S → Prop}
    (h : Runs exec (P.allow i) i p s r s') (hi : P.inv s) (hs : J s)
    (hwp : P.wp exec i p Q X s) :
    P.inv s' ∧ J s' ∧ (∀ a, r = .ok a → Q a s') ∧ ∀ e, r = .error e → X e s' := by
  induction h with
  | ret a s =>
      refine ⟨hi, hs, fun b hb => ?_, fun e he => ?_⟩
      · obtain rfl := Except.ok.inj hb
        exact hwp
      · cases he
  | raise e s =>
      refine ⟨hi, hs, fun b hb => ?_, fun x hx => ?_⟩
      · cases hb
      · obtain rfl := Except.error.inj hx
        exact hwp
  | call ha hx _ ih =>
      obtain ⟨hpre, hk⟩ := hwp _ (hrefl _) hi
      have hi' := hinv hi hpre ha hx
      exact ih hi' (hJ hi hpre ha hx hs) (hk _ _ _ ha hx hi')

theorem Runs.of_call {S C E ε : Type} {Resp : C → Type} {α : Type} {exec : Exec S C E ε Resp}
    {allow : C → E → S → Prop} {i : Nat} {c : C} {k : Except ε (Resp c) → Prog C Resp ε α}
    {s s' : S} {r : Except ε α} (h : Runs exec allow i (.call c k) s r s') :
    ∃ e v s₁, allow c e s ∧ exec i e c s = some (v, s₁) ∧ Runs exec allow i (k v) s₁ r s' := by
  cases h with
  | call ha hx hrest => exact ⟨_, _, _, ha, hx, hrest⟩

/-- A property that every command keeps. -/
theorem Runs.keeps {S C E ε : Type} {Resp : C → Type} {α : Type} {exec : Exec S C E ε Resp}
    {allow : C → E → S → Prop} {i : Nat} {J : S → Prop}
    (hJ : ∀ {c e v s s'}, allow c e s → exec i e c s = some (v, s') → J s → J s')
    {p : Prog C Resp ε α} {s s' : S} {r : Except ε α} (h : Runs exec allow i p s r s')
    (hs : J s) : J s' := by
  induction h with
  | ret a s => exact hs
  | raise e s => exact hs
  | call ha hx _ ih => exact ih (hJ ha hx hs)

theorem Runs.mono {S C E ε : Type} {Resp : C → Type} {α : Type} {exec : Exec S C E ε Resp}
    {allow allow' : C → E → S → Prop} {i : Nat} (hallow : ∀ c e s, allow c e s → allow' c e s)
    {p : Prog C Resp ε α} {s s' : S} {r : Except ε α} (h : Runs exec allow i p s r s') :
    Runs exec allow' i p s r s' := by
  induction h with
  | ret a s => exact .ret a s
  | raise e s => exact .raise e s
  | call ha hx _ ih => exact .call (hallow _ _ _ ha) hx ih

/-- A process that is never blocked, whatever it has to show for its commands,
has a run. -/
theorem Runs.exists_of_wp {S C E ε : Type} {Resp : C → Type} {α : Type}
    {exec : Exec S C E ε Resp} {P : Proto S C E} {i : Nat} {allow : C → E → S → Prop}
    (hrefl : ∀ s, P.rely i s s)
    (hinv : ∀ {c e v s s'}, P.inv s → P.pre i c s → P.allow i c e s →
      exec i e c s = some (v, s') → P.inv s')
    (hrun : ∀ c s, P.inv s → P.pre i c s →
      ∃ e v s', allow c e s ∧ P.allow i c e s ∧ exec i e c s = some (v, s')) :
    ∀ {p : Prog C Resp ε α} {s : S} {Q : α → S → Prop} {X : ε → S → Prop}, P.inv s →
      P.wp exec i p Q X s → ∃ r s', Runs exec allow i p s r s'
  | .ret a, s, _, _, _, _ => ⟨.ok a, s, .ret a s⟩
  | .raise e, s, _, _, _, _ => ⟨.error e, s, .raise e s⟩
  | .call c k, s, _, _, hi, hwp => by
      obtain ⟨hpre, hk⟩ := hwp s (hrefl s) hi
      obtain ⟨e, v, s', ha, ha', hx⟩ := hrun c s hi hpre
      have hi' := hinv hi hpre ha' hx
      obtain ⟨r, s'', hrest⟩ := Runs.exists_of_wp hrefl hinv hrun hi' (hk e v s' ha' hx hi')
      exact ⟨r, s'', .call ha hx hrest⟩

/-! ### What a process can issue -/

/-- Whatever the answers are, the process only issues commands with `P`. -/
def Prog.Only {C : Type} {Resp : C → Type} {ε α : Type} (P : C → Prop) :
    Prog C Resp ε α → Prop
  | .ret _ => True
  | .raise _ => True
  | .call c k => P c ∧ ∀ r, (k r).Only P

namespace Prog.Only

variable {C : Type} {Resp : C → Type} {ε α β : Type} {P : C → Prop}

theorem cmd {c : C} (h : P c) : (Prog.cmd c : Prog C Resp ε (Resp c)).Only P := by
  refine ⟨h, fun r => ?_⟩
  cases r with
  | ok a => trivial
  | error e => trivial

/-- For `do` blocks. -/
theorem seq {p : Prog C Resp ε α} {f : α → Prog C Resp ε β} (hp : p.Only P)
    (hf : ∀ a, (f a).Only P) : (p >>= f).Only P := by
  show (p.bind f).Only P
  induction p with
  | ret a => exact hf a
  | raise e => trivial
  | call c k ih => exact ⟨hp.1, fun r => ih r (hp.2 r)⟩

theorem tryCatch {p : Prog C Resp ε α} {h : ε → Prog C Resp ε α} (hp : p.Only P)
    (hh : ∀ e, (h e).Only P) : (p.tryCatch h).Only P := by
  induction p with
  | ret a => trivial
  | raise e => exact hh e
  | call c k ih => exact ⟨hp.1, fun r => ih r (hp.2 r)⟩

theorem ensure {p : Prog C Resp ε α} {fin : Prog C Resp ε Unit} (hp : p.Only P)
    (hfin : fin.Only P) : (p.ensure fin).Only P := by
  induction p with
  | ret a => exact seq hfin fun _ => trivial
  | raise e => exact seq hfin fun _ => trivial
  | call c k ih => exact ⟨hp.1, fun r => ih r (hp.2 r)⟩

end Prog.Only

theorem Runs.only {S C E ε : Type} {Resp : C → Type} {α : Type} {exec : Exec S C E ε Resp}
    {allow : C → E → S → Prop} {P : C → Prop} {i : Nat} {p : Prog C Resp ε α} {s s' : S}
    {r : Except ε α} (h : Runs exec allow i p s r s') (hp : p.Only P) :
    Runs exec (fun c e s => allow c e s ∧ P c) i p s r s' := by
  induction h with
  | ret a s => exact .ret a s
  | raise e s => exact .raise e s
  | call ha hx _ ih => exact .call ⟨ha, hp.1⟩ hx (ih (hp.2 _))

/-! ### Nobody else, and nothing owed -/

/-- The discipline of a process that runs alone and is only followed. -/
def Proto.alone {S C E : Type} (allow : C → E → S → Prop) : Proto S C E where
  inv := fun _ => True
  rely := fun _ s s' => s' = s
  pre := fun _ _ _ => True
  allow := fun _ => allow

theorem Proto.wp_alone {S C E ε : Type} {Resp : C → Type} {exec : Exec S C E ε Resp}
    {allow : C → E → S → Prop} {i : Nat} {c : C} {Q : Resp c → S → Prop} {X : ε → S → Prop} {s : S}
    (h : ∀ e v s', allow c e s → exec i e c s = some (v, s') →
      (∀ a, v = .ok a → Q a s') ∧ ∀ x, v = .error x → X x s') :
    (Proto.alone allow).wp exec i (Prog.cmd c) Q X s := by
  refine Proto.wp_cmd.mpr fun t ht _ => ⟨trivial, fun e v t' ha hx _ => ?_⟩
  obtain rfl := ht
  exact h e v t' ha hx

theorem Runs.alone {S C E ε : Type} {Resp : C → Type} {α : Type} {exec : Exec S C E ε Resp}
    {allow : C → E → S → Prop} {i : Nat} {p : Prog C Resp ε α} {s s' : S} {r : Except ε α}
    {Q : α → S → Prop} {X : ε → S → Prop} (h : Runs exec allow i p s r s')
    (hwp : (Proto.alone allow).wp exec i p Q X s) :
    (∀ a, r = .ok a → Q a s') ∧ ∀ e, r = .error e → X e s' :=
  (Runs.wp (P := Proto.alone allow) (J := fun _ => True) (fun _ => rfl)
    (fun _ _ _ _ => trivial) (fun _ _ _ _ _ => trivial) h trivial trivial hwp).2.2

/-- Process `i` alone gets from `p` in `s` to `p'` in `s'`, whether or not that is
its end. -/
inductive Steps {S C E ε : Type} {Resp : C → Type} {α : Type} (exec : Exec S C E ε Resp)
    (allow : C → E → S → Prop) (i : Nat) :
    Prog C Resp ε α → S → Prog C Resp ε α → S → Prop
  | refl (p : Prog C Resp ε α) (s : S) : Steps exec allow i p s p s
  | call {c : C} {k : Except ε (Resp c) → Prog C Resp ε α} {e : E} {v : Except ε (Resp c)}
      {p : Prog C Resp ε α} {s s' s'' : S} : allow c e s → exec i e c s = some (v, s') →
      Steps exec allow i (k v) s' p s'' → Steps exec allow i (.call c k) s p s''

/-- `Runs.wp` for a run that is still going: what is left meets its `wp`. -/
theorem Steps.wp {S C E ε : Type} {Resp : C → Type} {α : Type} {exec : Exec S C E ε Resp}
    {P : Proto S C E} {i : Nat} (hrefl : ∀ s, P.rely i s s)
    (hinv : ∀ {c e v s s'}, P.inv s → P.pre i c s → P.allow i c e s →
      exec i e c s = some (v, s') → P.inv s')
    {p p' : Prog C Resp ε α} {s s' : S} {Q : α → S → Prop} {X : ε → S → Prop}
    (h : Steps exec (P.allow i) i p s p' s') (hi : P.inv s) (hwp : P.wp exec i p Q X s) :
    P.inv s' ∧ P.wp exec i p' Q X s' := by
  induction h with
  | refl p s => exact ⟨hi, hwp⟩
  | call ha hx _ ih =>
      obtain ⟨hpre, hk⟩ := hwp _ (hrefl _) hi
      have hi' := hinv hi hpre ha hx
      exact ih hi' (hk _ _ _ ha hx hi')

/-- `Steps` as a function: one environment choice per command, as long as every
step passes a check. -/
def stepsIf {S C E ε : Type} {Resp : C → Type} {α : Type} (exec : Exec S C E ε Resp) (i : Nat)
    (check : C → E → S → Bool) : List E → Prog C Resp ε α → S → Option (Prog C Resp ε α × S)
  | [], p, s => some (p, s)
  | x :: xs, .call c k, s =>
      if check c x s then (exec i x c s).bind fun (r, s') => stepsIf exec i check xs (k r) s'
      else none
  | _ :: _, _, _ => none

theorem Steps.of_stepsIf {S C E ε : Type} {Resp : C → Type} {α : Type}
    {exec : Exec S C E ε Resp} {allow : C → E → S → Prop} {check : C → E → S → Bool} {i : Nat}
    (hcheck : ∀ c e s, check c e s = true → allow c e s) :
    ∀ {xs : List E} {p p' : Prog C Resp ε α} {s s' : S},
      stepsIf exec i check xs p s = some (p', s') → Steps exec allow i p s p' s'
  | [], p, p', s, s', h => by
      obtain ⟨rfl, rfl⟩ := Prod.mk.injEq .. |>.mp (Option.some.inj h)
      exact .refl p s
  | x :: xs, .ret a, p', s, s', h => by cases h
  | x :: xs, .raise e, p', s, s', h => by cases h
  | x :: xs, .call c k, p', s, s', h => by
      simp only [stepsIf] at h
      split at h
      · rename_i hx
        obtain ⟨⟨r, s₁⟩, hexec, hrest⟩ := Option.bind_eq_some_iff.mp h
        exact .call (hcheck c x s hx) hexec (Steps.of_stepsIf hcheck hrest)
      · cases h

/-- The same as a function: one environment choice per command. `none` when a
command blocks or the choices do not fit. -/
def solo {S C E ε : Type} {Resp : C → Type} {α : Type} (exec : Exec S C E ε Resp)
    (i : Nat) : List E → Prog C Resp ε α → S → Option (Except ε α × S)
  | [], .ret a, s => some (.ok a, s)
  | [], .raise e, s => some (.error e, s)
  | x :: xs, .call c k, s =>
      match exec i x c s with
      | some (r, s') => solo exec i xs (k r) s'
      | none => none
  | _, _, _ => none

theorem solo_call {S C E ε : Type} {Resp : C → Type} {α : Type} {exec : Exec S C E ε Resp}
    {i : Nat} {x : E} {xs : List E} {c : C} {k : Except ε (Resp c) → Prog C Resp ε α} {s s' : S}
    {v : Except ε (Resp c)} (h : exec i x c s = some (v, s')) :
    solo exec i (x :: xs) (.call c k) s = solo exec i xs (k v) s' := by
  simp only [solo, h]

theorem Runs.of_solo {S C E ε : Type} {Resp : C → Type} {α : Type} {exec : Exec S C E ε Resp}
    {allow : C → E → S → Prop} {i : Nat} {p : Prog C Resp ε α} :
    ∀ {xs : List E} {s s' : S} {r : Except ε α}, (∀ x ∈ xs, ∀ c s, allow c x s) →
      solo exec i xs p s = some (r, s') → Runs exec allow i p s r s' := by
  induction p with
  | ret a =>
      intro xs s s' r _ h
      cases xs with
      | nil =>
          obtain ⟨rfl, rfl⟩ := Prod.mk.injEq .. |>.mp (Option.some.inj h)
          exact .ret a s
      | cons x xs => cases h
  | raise e =>
      intro xs s s' r _ h
      cases xs with
      | nil =>
          obtain ⟨rfl, rfl⟩ := Prod.mk.injEq .. |>.mp (Option.some.inj h)
          exact .raise e s
      | cons x xs => cases h
  | call c k ih =>
      intro xs s s' r hall h
      cases xs with
      | nil => cases h
      | cons x xs =>
          simp only [solo] at h
          split at h
          · rename_i v s₁ hx
            have hrest := fun y hy => hall y (List.mem_cons_of_mem x hy)
            exact .call (hall x (List.mem_cons_self ..) c s) hx (ih v hrest h)
          · cases h

/-- Up to `n` commands with an environment that answers by a rule; `none` when a command
blocks or an answer does not pass the check. -/
def follow {S C E ε : Type} {Resp : C → Type} {α : Type} (exec : Exec S C E ε Resp) (i : Nat)
    (check : C → E → S → Bool) (answer : C → S → E) :
    Nat → Prog C Resp ε α → S → Option (Prog C Resp ε α × S)
  | n + 1, .call c k, s =>
      if check c (answer c s) s then
        (exec i (answer c s) c s).bind fun (r, s') => follow exec i check answer n (k r) s'
      else none
  | _, p, s => some (p, s)

/-- The environment may rely on an invariant of the states that it makes. -/
theorem Steps.of_follow {S C E ε : Type} {Resp : C → Type} {α : Type} {exec : Exec S C E ε Resp}
    {allow : C → E → S → Prop} {check : C → E → S → Bool} {answer : C → S → E} {i : Nat}
    (J : S → Prop) (hstep : ∀ c s, J s → check c (answer c s) s = true →
      allow c (answer c s) s ∧ ∀ v s', exec i (answer c s) c s = some (v, s') → J s') :
    ∀ {n : Nat} {p p' : Prog C Resp ε α} {s s' : S}, J s →
      follow exec i check answer n p s = some (p', s') → Steps exec allow i p s p' s'
  | n + 1, .call c k, p', s, s', hs, h => by
      simp only [follow] at h
      split at h
      · rename_i hok
        obtain ⟨⟨v, s₁⟩, hexec, hrest⟩ := Option.bind_eq_some_iff.mp h
        obtain ⟨hallow, hkeep⟩ := hstep c s hs hok
        exact .call hallow hexec (Steps.of_follow J hstep (hkeep v s₁ hexec) hrest)
      · cases h
  | 0, p, p', s, s', _, h => by
      obtain ⟨rfl, rfl⟩ := Prod.mk.injEq .. |>.mp (Option.some.inj (by simpa only [follow] using h))
      exact .refl p s
  | n + 1, .ret a, p', s, s', _, h => by
      obtain ⟨rfl, rfl⟩ := Prod.mk.injEq .. |>.mp (Option.some.inj h)
      exact .refl _ s
  | n + 1, .raise e, p', s, s', _, h => by
      obtain ⟨rfl, rfl⟩ := Prod.mk.injEq .. |>.mp (Option.some.inj h)
      exact .refl _ s

/-- Steps that reach the end are a run. -/
theorem Steps.runs {S C E ε : Type} {Resp : C → Type} {α : Type} {exec : Exec S C E ε Resp}
    {allow : C → E → S → Prop} {i : Nat} {p p' : Prog C Resp ε α} {s s' : S} {a : α}
    (h : Steps exec allow i p s p' s') (hp : p' = .ret a) : Runs exec allow i p s (.ok a) s' := by
  induction h with
  | refl p s =>
      rw [hp]
      exact .ret a s
  | call hallow hexec _ ih => exact .call hallow hexec (ih hp)

end Conc
