import Mathlib.Data.List.Basic

/-!
# Computations that note what they find wrong

A check that goes on after an error: it gives a value and the texts of the
errors, unless it raises. `Clean x a` says that `x` gives `a` and notes
nothing; a chain is clean when each of its steps is (`clean_bind`).
-/

def Noted (ε α : Type) : Type := Except ε (α × List String)

namespace Noted

variable {ε α β σ : Type}

instance : Monad (Noted ε) where
  pure a := .ok (a, [])
  bind x f :=
    match x with
    | .error e => .error e
    | .ok (a, texts) =>
        match f a with
        | .error e => .error e
        | .ok (b, texts') => .ok (b, texts ++ texts')

def note (text : String) : Noted ε Unit := .ok ((), [text])

/-- `if c: errors.append(text)`. -/
def noteIf (c : Prop) [Decidable c] (text : String) : Noted ε Unit :=
  if c then note text else pure ()

def raise (e : ε) : Noted ε α := .error e

def lift : Except ε α → Noted ε α
  | .ok a => .ok (a, [])
  | .error e => .error e

def Clean (x : Noted ε α) (a : α) : Prop := x = .ok (a, [])

theorem clean_pure {a b : α} : Clean (pure a : Noted ε α) b ↔ a = b := by
  constructor
  · intro h
    exact congrArg Prod.fst (Except.ok.inj h)
  · rintro rfl
    rfl

theorem clean_bind {x : Noted ε α} {f : α → Noted ε β} {b : β} :
    Clean (x >>= f) b ↔ ∃ a, Clean x a ∧ Clean (f a) b := by
  constructor
  · intro h
    cases x with
    | error e => cases h
    | ok r =>
        obtain ⟨a, texts⟩ := r
        have hbind : (match f a with
          | .error e => .error e
          | .ok (b, texts') => .ok (b, texts ++ texts') : Noted ε β) = .ok (b, []) := h
        cases hf : f a with
        | error e =>
            rw [hf] at hbind
            cases hbind
        | ok r' =>
            obtain ⟨b', texts'⟩ := r'
            rw [hf] at hbind
            obtain ⟨rfl, htexts⟩ := Prod.mk.inj (Except.ok.inj hbind)
            obtain ⟨rfl, rfl⟩ := List.append_eq_nil_iff.mp htexts
            exact ⟨a, rfl, hf⟩
  · rintro ⟨a, rfl, hf⟩
    change (match f a with
      | .error e => .error e
      | .ok (b, texts') => .ok (b, [] ++ texts') : Noted ε β) = .ok (b, [])
    rw [hf]
    rfl

theorem not_clean_note {text : String} {u : Unit} : ¬Clean (note text : Noted ε Unit) u :=
  fun h => by cases h

theorem clean_noteIf {c : Prop} [Decidable c] {text : String} {u : Unit} :
    Clean (noteIf c text : Noted ε Unit) u ↔ ¬c := by
  unfold noteIf
  split
  · rename_i hc
    exact iff_of_false not_clean_note (not_not_intro hc)
  · rename_i hc
    exact iff_of_true rfl hc

theorem not_clean_raise {e : ε} {a : α} : ¬Clean (raise e) a := fun h => by cases h

theorem clean_lift {x : Except ε α} {a : α} : Clean (lift x) a ↔ x = .ok a := by
  cases x with
  | error e => exact iff_of_false (fun h => by cases h) (fun h => by cases h)
  | ok b =>
      constructor
      · intro h
        rw [show b = a from congrArg Prod.fst (Except.ok.inj h)]
      · intro h
        rw [show b = a from Except.ok.inj h]
        rfl

/-! ## Loops -/

theorem clean_forM {f : α → Noted ε Unit} {xs : List α} (h : Clean (xs.forM f) ()) :
    ∀ x ∈ xs, Clean (f x) () := by
  induction xs with
  | nil =>
      intro x hx
      cases hx
  | cons y xs ih =>
      obtain ⟨u, hy, hxs⟩ := clean_bind.mp h
      intro x hx
      rcases List.mem_cons.mp hx with rfl | hx
      · exact hy
      · exact ih hxs x hx

/-- What a clean step preserves, a clean loop preserves. -/
theorem clean_foldlM {f : σ → α → Noted ε σ} {P : σ → Prop} {xs : List α}
    (hstep : ∀ s x s', x ∈ xs → P s → Clean (f s x) s' → P s') :
    ∀ {s t : σ}, Clean (xs.foldlM f s) t → P s → P t := by
  induction xs with
  | nil =>
      intro s t h hs
      rw [List.foldlM_nil, clean_pure] at h
      exact h ▸ hs
  | cons x xs ih =>
      intro s t h hs
      rw [List.foldlM_cons, clean_bind] at h
      obtain ⟨s', hx, hxs⟩ := h
      exact ih (fun s y s' hy => hstep s y s' (List.mem_cons_of_mem _ hy)) hxs
        (hstep s x s' (List.mem_cons_self ..) hs hx)

end Noted
