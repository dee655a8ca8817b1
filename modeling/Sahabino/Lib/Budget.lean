import Mathlib.Algebra.Order.Field.Basic
import Mathlib.Tactic.Linarith
import Mathlib.Tactic.Ring

/-!
# Budgets

A balance between zero and a cap that grows by at most `rate` per unit of
time, and from which units are spent one by one. However the growth and
the spending are mixed, the units spent in a window of time are at most
the cap and what can grow in the window (`Budget.spent_le`).

The argument is amortised: of every unit spent so far, what has been spent
since together with the balance is within the bound of the window that is
still open (`open_windows`). Growing widens all these windows, and
spending moves a unit from the balance to the other side.
-/

/-- The balance, the time, and the time of each unit that was spent. -/
structure Budget {α : Type} [Field α] [LinearOrder α] (cap rate balance now : α)
    (spent : List α) : Prop where
  nonneg : 0 ≤ balance
  le_cap : balance ≤ cap
  open_windows : ∀ i t, spent[i]? = some t →
    balance + ((spent.length - i : Nat) : α) ≤ cap + rate * (now - t)
  spent_le : ∀ i j t u, i ≤ j → spent[i]? = some t → spent[j]? = some u →
    ((j - i + 1 : Nat) : α) ≤ cap + rate * (u - t)

namespace Budget

variable {α : Type} [Field α] [LinearOrder α] {cap rate balance balance' now now' : α}
  {spent : List α}

theorem full (hcap : 0 ≤ cap) (now : α) : Budget cap rate cap now [] :=
  ⟨hcap, le_refl cap, fun i t h => by simp at h, fun i j t u _ h => by simp at h⟩

variable [IsStrictOrderedRing α]

theorem grow (h : Budget cap rate balance now spent) (hle : balance ≤ balance')
    (hcap : balance' ≤ cap) (hgrowth : balance' ≤ balance + rate * (now' - now)) :
    Budget cap rate balance' now' spent := by
  refine ⟨h.nonneg.trans hle, hcap, fun i t hi => ?_, h.spent_le⟩
  have hwindow := h.open_windows i t hi
  calc balance' + ((spent.length - i : Nat) : α)
      ≤ balance + ((spent.length - i : Nat) : α) + rate * (now' - now) := by linarith
    _ ≤ cap + rate * (now - t) + rate * (now' - now) := by linarith
    _ = cap + rate * (now' - t) := by ring

theorem spend (h : Budget cap rate balance now spent) (hone : 1 ≤ balance) :
    Budget cap rate (balance - 1) now (spent ++ [now]) := by
  have hopen : ∀ i t, (spent ++ [now])[i]? = some t →
      balance - 1 + (((spent ++ [now]).length - i : Nat) : α) ≤ cap + rate * (now - t) := by
    intro i t hi
    rcases Nat.lt_trichotomy i spent.length with hlt | rfl | hgt
    · rw [List.getElem?_append_left hlt] at hi
      have hwindow := h.open_windows i t hi
      have hlength : (spent ++ [now]).length - i = spent.length - i + 1 := by
        rw [List.length_append, List.length_singleton]
        omega
      rw [hlength]
      push_cast
      linarith
    · obtain rfl : now = t := by simpa using hi
      have hcap := h.le_cap
      simp only [List.length_append, List.length_singleton, Nat.add_sub_cancel_left, sub_self,
        mul_zero, Nat.cast_one]
      linarith
    · rw [List.getElem?_eq_none (by rw [List.length_append, List.length_singleton]; omega)] at hi
      cases hi
  refine ⟨sub_nonneg.mpr hone, ?_, hopen, fun i j t u hij hi hj => ?_⟩
  · exact (sub_le_self balance zero_le_one).trans h.le_cap
  · rcases Nat.lt_trichotomy j spent.length with hlt | rfl | hgt
    · rw [List.getElem?_append_left hlt] at hj
      rw [List.getElem?_append_left (Nat.lt_of_le_of_lt hij hlt)] at hi
      exact h.spent_le i j t u hij hi hj
    · -- the window that this unit closes
      obtain rfl : now = u := by simpa using hj
      have hwindow := hopen i t hi
      have hlength : (spent ++ [now]).length - i = spent.length - i + 1 := by
        rw [List.length_append, List.length_singleton]
        omega
      rw [hlength] at hwindow
      linarith
    · rw [List.getElem?_eq_none (by rw [List.length_append, List.length_singleton]; omega)] at hj
      cases hj

end Budget
