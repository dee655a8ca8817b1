import Mathlib.Algebra.Order.Ring.Rat
import Mathlib.Tactic.Linarith
import Mathlib.Tactic.Ring
import Sahabino.Lib.Transcript

/-!
# Polling until a deadline

A loop that probes, gives up once the clock has reached the deadline, and
otherwise sleeps - for the interval, or for what is left of the time if
that is less - and probes again. `pollUntil` goes round at most `n` times;
`none` means that it would still go on.

`pollUntil_spec` is its invariant rule. `pollUntil_settles` says how often
is enough: with a clock that does not run backwards and a sleep that takes
as long as it was asked to, a round begins an interval after the one
before it or at the deadline.
-/

namespace Conc

section

variable {C : Type} {Resp : C → Type} {ε W α : Type}

def pollUntil (probe : Prog C Resp ε (Option α)) (clock : Prog C Resp ε ℚ)
    (sleep : ℚ → Prog C Resp ε Unit) (giveUp : Prog C Resp ε α) (interval deadline : ℚ) :
    Nat → Prog C Resp ε (Option α)
  | 0 => pure none
  | n + 1 => do
      match ← probe with
      | some a => pure (some a)
      | none =>
          if deadline ≤ (← clock) then
            let a ← giveUp
            pure (some a)
          else
            sleep (min interval (max 0 (deadline - (← clock))))
            pollUntil probe clock sleep giveUp interval deadline n

variable {A : Audit C Resp ε W} {probe : Prog C Resp ε (Option α)} {clock : Prog C Resp ε ℚ}
  {sleep : ℚ → Prog C Resp ε Unit} {giveUp : Prog C Resp ε α} {interval deadline : ℚ}
  {X : ε → Recorded C Resp ε W → Prop}

open Audit

/-- `I` holds before every round, `J` after a probe that was not enough, and `T` of the time that
is read then. -/
theorem pollUntil_spec {I J : Recorded C Resp ε W → Prop} {T : ℚ → Recorded C Resp ε W → Prop}
    {Q : Option α → Recorded C Resp ε W → Prop}
    (hprobe : ∀ s, I s → A.Meets probe (fun r t => r.elim (J t) fun a => Q (some a) t) X s)
    (hclock : ∀ s, J s → A.Meets clock (fun x t => J t ∧ T x t) X s)
    (hsleep : ∀ s x, J s → A.Meets (sleep x) (fun _ t => I t) X s)
    (hgiveUp : ∀ s x, J s → T x s → deadline ≤ x → A.Meets giveUp (fun a t => Q (some a) t) X s)
    (hnone : ∀ s, I s → Q none s) {n : Nat} : ∀ {s}, I s →
      A.Meets (pollUntil probe clock sleep giveUp interval deadline n) Q X s := by
  induction n with
  | zero => exact fun hs => hnone _ hs
  | succ n ih =>
      intro s hs
      refine meets_seq ((hprobe s hs).mono (fun r t ht => ?_) fun _ _ h => h)
      cases r with
      | some a => exact ht
      | none =>
          refine meets_seq ((hclock t ht).mono (fun x t₁ ht₁ => ?_) fun _ _ h => h)
          split
          · rename_i hdue
            exact meets_seq (hgiveUp t₁ x ht₁.1 ht₁.2 hdue)
          · refine meets_seq ((hclock t₁ ht₁.1).mono (fun y t₂ ht₂ => ?_) fun _ _ h => h)
            exact meets_seq ((hsleep t₂ _ ht₂.1).mono (fun _ t₃ ht₃ => ih ht₃) fun _ _ h => h)

/-- The clock does not run backwards, and a sleep takes its time. -/
structure Timed (A : Audit C Resp ε W) (time : Recorded C Resp ε W → ℚ)
    (probe : Prog C Resp ε (Option α)) (clock : Prog C Resp ε ℚ)
    (sleep : ℚ → Prog C Resp ε Unit) : Prop where
  probe : ∀ s, A.Meets probe (fun _ t => time s ≤ time t) (fun _ _ => True) s
  clock : ∀ s, A.Meets clock (fun x t => time s ≤ x ∧ x ≤ time t) (fun _ _ => True) s
  sleep : ∀ s x, A.Meets (sleep x) (fun _ t => time s + x ≤ time t) (fun _ _ => True) s

/-- It settles within one round more than there are intervals up to the deadline. -/
theorem pollUntil_settles {time : Recorded C Resp ε W → ℚ} (h : Timed A time probe clock sleep)
    (hgiveUp : ∀ s, A.Meets giveUp (fun _ _ => True) (fun _ _ => True) s)
    (hinterval : 0 ≤ interval) {n : Nat} : ∀ {s}, deadline ≤ time s + n * interval →
      A.Meets (pollUntil probe clock sleep giveUp interval deadline (n + 1))
        (fun r _ => r ≠ none) (fun _ _ => True) s := by
  induction n with
  | zero =>
      intro s hs
      refine meets_seq ((h.probe s).mono (fun r t ht => ?_) fun _ _ h => h)
      cases r with
      | some a => exact Option.some_ne_none a
      | none =>
          refine meets_seq ((h.clock t).mono (fun x t₁ ht₁ => ?_) fun _ _ h => h)
          have hdue : deadline ≤ x := by
            have h₁ := ht₁.1
            norm_num at hs
            linarith
          rw [if_pos hdue]
          exact meets_seq ((hgiveUp t₁).mono (fun a _ _ => Option.some_ne_none a) fun _ _ h => h)
  | succ n ih =>
      intro s hs
      refine meets_seq ((h.probe s).mono (fun r t ht => ?_) fun _ _ h => h)
      cases r with
      | some a => exact Option.some_ne_none a
      | none =>
          refine meets_seq ((h.clock t).mono (fun x t₁ ht₁ => ?_) fun _ _ h => h)
          split
          · exact meets_seq ((hgiveUp t₁).mono (fun a _ _ => Option.some_ne_none a) fun _ _ h => h)
          · refine meets_seq ((h.clock t₁).mono (fun y t₂ ht₂ => ?_) fun _ _ h => h)
            refine meets_seq ((h.sleep t₂ _).mono (fun _ t₃ ht₃ => ih ?_) fun _ _ h => h)
            have hy : time s ≤ y := by
              have h₁ := ht₁.1
              have h₁' := ht₁.2
              have h₂ := ht₂.1
              linarith
            have hn : 0 ≤ (n : ℚ) * interval := mul_nonneg (Nat.cast_nonneg n) hinterval
            have hsum : time s + ((n + 1 : Nat) : ℚ) * interval =
                time s + n * interval + interval := by
              rw [Nat.cast_succ]
              ring
            rw [hsum] at hs
            -- either a whole interval has passed, or the deadline has come
            rcases le_total interval (max 0 (deadline - y)) with hle | hle
            · rw [min_eq_left hle] at ht₃
              have h₂ := ht₂.2
              linarith
            · rw [min_eq_right hle] at ht₃
              have h₂ := ht₂.2
              have hmax := le_max_right (0 : ℚ) (deadline - y)
              linarith

end

end Conc
