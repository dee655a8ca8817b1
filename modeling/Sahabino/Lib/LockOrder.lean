import Mathlib.Logic.Relation

/-!
# Deadlock freedom from a lock order

Parties `ι` hold locks `κ`, each lock held by at most one party, and a
party that wants a lock somebody else holds waits for that party. If locks
can be ranked so that nobody ever wants a lock that does not outrank all
the locks they hold, the wait-for relation has no cycle: along it the rank
of the wanted lock strictly increases.
-/

namespace Conc

section

variable {ι κ : Type}

/-- `i` waits for `j`: it wants a lock that `j` holds. -/
def WaitsFor (wants : ι → Option κ) (holder : κ → Option ι) (i j : ι) : Prop :=
  ∃ k, wants i = some k ∧ holder k = some j ∧ j ≠ i

/-- Nobody wants a lock that does not outrank everything they hold. -/
def Ordered (wants : ι → Option κ) (holder : κ → Option ι) (rank : κ → Nat) : Prop :=
  ∀ i k l, wants i = some k → holder l = some i → rank l < rank k

/-- Along a non-empty wait-for path the rank of the wanted lock increases; the
last party of the path need not want anything, so the bound is stated for the
lock it holds. -/
theorem WaitsFor.rank_lt {wants : ι → Option κ} {holder : κ → Option ι} {rank : κ → Nat}
    (hord : Ordered wants holder rank) {i j : ι}
    (h : Relation.TransGen (WaitsFor wants holder) i j) :
    ∃ k l, wants i = some k ∧ holder l = some j ∧ rank k ≤ rank l := by
  induction h with
  | single h =>
      obtain ⟨k, hk, hj, -⟩ := h
      exact ⟨k, k, hk, hj, Nat.le_refl _⟩
  | tail _ h ih =>
      obtain ⟨k, l, hk, hl, hle⟩ := ih
      obtain ⟨m, hm, hj, -⟩ := h
      exact ⟨k, m, hk, hj, Nat.le_of_lt (Nat.lt_of_le_of_lt hle (hord _ m l hm hl))⟩

/-- No party waits, through any number of others, for itself. -/
theorem Ordered.no_cycle {wants : ι → Option κ} {holder : κ → Option ι} {rank : κ → Nat}
    (hord : Ordered wants holder rank) (i : ι) :
    ¬Relation.TransGen (WaitsFor wants holder) i i := by
  intro h
  obtain ⟨k, l, hk, hl, hle⟩ := WaitsFor.rank_lt hord h
  have hlt := hord i k l hk hl
  omega

end

end Conc
