import Mathlib.Data.List.Pairwise

/-!
# Tables with uniqueness constraints

A table is a list of rows no two of which clash; `clash` is the
disjunction of the table's unique constraints. The constraint is a field,
so a table that violates it cannot be built: `insert` fails instead, and
`modify` is only available for functions that create no clash. That is
what the database enforces, and what the proofs about stored rows start
from (`eq_of_clash`).
-/

namespace Rel

structure Table (ρ : Type) (clash : ρ → ρ → Prop) where
  rows : List ρ
  unique : rows.Pairwise fun a b => ¬clash a b

namespace Table

variable {ρ : Type} {clash : ρ → ρ → Prop}

def empty : Table ρ clash := ⟨[], List.Pairwise.nil⟩

/-- `INSERT`: `none` is the integrity error of a violated constraint. -/
def insert [DecidableRel clash] (t : Table ρ clash) (r : ρ) : Option (Table ρ clash) :=
  if h : ∀ x ∈ t.rows, ¬clash x r then
    some ⟨t.rows ++ [r], List.pairwise_append.mpr
      ⟨t.unique, List.pairwise_singleton _ _, fun a ha b hb => by
        rw [List.mem_singleton.mp hb]
        exact h a ha⟩⟩
  else none

/-- `UPDATE`: every row through `f`, which may not make two rows clash. -/
def modify (t : Table ρ clash) (f : ρ → ρ) (hf : ∀ a b, clash (f a) (f b) → clash a b) :
    Table ρ clash :=
  ⟨t.rows.map f, List.pairwise_map.mpr (t.unique.imp fun h hc => h (hf _ _ hc))⟩

theorem rows_insert [DecidableRel clash] {t t' : Table ρ clash} {r : ρ}
    (h : t.insert r = some t') : t'.rows = t.rows ++ [r] := by
  unfold insert at h
  split at h
  · rw [← Option.some.inj h]
  · cases h

theorem mem_insert [DecidableRel clash] {t t' : Table ρ clash} {r x : ρ}
    (h : t.insert r = some t') : x ∈ t'.rows ↔ x ∈ t.rows ∨ x = r := by
  rw [rows_insert h, List.mem_append, List.mem_singleton]

theorem not_clash_of_insert [DecidableRel clash] {t t' : Table ρ clash} {r x : ρ}
    (h : t.insert r = some t') (hx : x ∈ t.rows) : ¬clash x r := by
  unfold insert at h
  split at h
  · rename_i hc
    exact hc x hx
  · cases h

theorem insert_eq_none [DecidableRel clash] {t : Table ρ clash} {r : ρ} :
    t.insert r = none ↔ ∃ x ∈ t.rows, clash x r := by
  unfold insert
  split
  · rename_i h
    simp only [reduceCtorEq, false_iff, not_exists, not_and]
    exact h
  · rename_i h
    simpa using h

/-- Two stored rows that clash are the same row. -/
theorem eq_of_clash (hsymm : ∀ {a b}, clash a b → clash b a) (t : Table ρ clash)
    {a b : ρ} (ha : a ∈ t.rows) (hb : b ∈ t.rows) (h : clash a b) : a = b := by
  have : Std.Symm fun a b => ¬clash a b := ⟨fun _ _ hab hba => hab (hsymm hba)⟩
  by_contra hne
  exact t.unique.forall ha hb hne h

end Table

/-! ## Transactions

A sequence of statements, the first failing one of which ends it. -/

section

variable {ε α β : Type}

theorem bind_eq_ok {x : Except ε α} {f : α → Except ε β} {b : β} (h : x >>= f = .ok b) :
    ∃ a, x = .ok a ∧ f a = .ok b := by
  cases x with
  | error e => cases h
  | ok a => exact ⟨a, rfl, h⟩

theorem bind_eq_error {x : Except ε α} {f : α → Except ε β} {e : ε} (h : x >>= f = .error e) :
    x = .error e ∨ ∃ a, x = .ok a ∧ f a = .error e := by
  cases x with
  | error e' => exact Or.inl (congrArg Except.error (Except.error.inj h))
  | ok a => exact Or.inr ⟨a, rfl, h⟩

end

end Rel
