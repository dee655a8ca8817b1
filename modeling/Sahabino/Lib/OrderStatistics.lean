import Mathlib.Data.List.Sort
import Mathlib.Order.Bounds.Basic

/-!
# Order statistics

The `k`-th smallest element of a list is the least element that at least
`k` elements do not exceed. Sorting finds it at index `k - 1`; which
element it is depends only on how often each value occurs, so it is the
same for every order of the list, and it grows with `k`.
-/

namespace OrderStat

variable {α : Type} [LinearOrder α]

/-- How many elements are at most `v`. -/
def upTo (xs : List α) (v : α) : ℕ := xs.countP (· ≤ v)

theorem upTo_perm {xs ys : List α} (h : xs.Perm ys) (v : α) : upTo xs v = upTo ys v :=
  h.countP_eq _

theorem upTo_pos {xs : List α} {v : α} (h : v ∈ xs) : 0 < upTo xs v :=
  List.countP_pos_iff.mpr ⟨v, h, decide_eq_true le_rfl⟩

/-- In an ascending list, everything up to index `i` is at most the element there. -/
theorem lt_upTo_getElem {xs : List α} (hsorted : xs.Pairwise (· ≤ ·)) {i : ℕ}
    (hi : i < xs.length) : i < upTo xs xs[i] := by
  have hfirst : ∀ x ∈ xs.take (i + 1), decide (x ≤ xs[i]) = true := by
    intro x hx
    obtain ⟨j, hj, rfl⟩ := List.getElem_of_mem hx
    rw [List.length_take] at hj
    rw [List.getElem_take]
    refine decide_eq_true ?_
    rcases Nat.lt_or_ge j i with hlt | hge
    · exact List.pairwise_iff_getElem.mp hsorted j i (by omega) hi hlt
    · obtain rfl : j = i := by omega
      exact le_rfl
  have hcount := (List.take_sublist (i + 1) xs).countP_le (p := fun x => decide (x ≤ xs[i]))
  rw [List.countP_eq_length.mpr hfirst, List.length_take] at hcount
  have hle : min (i + 1) xs.length ≤ upTo xs xs[i] := hcount
  omega

/-- Only the elements before index `i` can be at most something smaller. -/
theorem upTo_le_of_lt {xs : List α} (hsorted : xs.Pairwise (· ≤ ·)) {i : ℕ} (hi : i < xs.length)
    {w : α} (hw : w < xs[i]) : upTo xs w ≤ i := by
  have hrest : (xs.drop i).countP (· ≤ w) = 0 := by
    refine List.countP_eq_zero.mpr fun x hx => ?_
    obtain ⟨j, hj, rfl⟩ := List.getElem_of_mem hx
    rw [List.length_drop] at hj
    rw [List.getElem_drop]
    have hle : xs[i] ≤ xs[i + j] := by
      rcases Nat.eq_zero_or_pos j with rfl | hpos
      · exact le_rfl
      · exact List.pairwise_iff_getElem.mp hsorted i (i + j) hi (by omega) (by omega)
    exact fun hx => absurd (of_decide_eq_true hx) (not_le.mpr (hw.trans_le hle))
  calc upTo xs w
      = (xs.take i).countP (· ≤ w) + (xs.drop i).countP (· ≤ w) := by
        rw [← List.countP_append, List.take_append_drop]
        rfl
    _ ≤ (xs.take i).length + 0 := Nat.add_le_add List.countP_le_length hrest.le
    _ ≤ i := List.length_take_le i xs

/-- The elements that at least `k` elements do not exceed. -/
def reached (xs : List α) (k : ℕ) : Set α := {v | v ∈ xs ∧ k ≤ upTo xs v}

theorem reached_antitone (xs : List α) {j k : ℕ} (h : j ≤ k) : reached xs k ⊆ reached xs j :=
  fun _ hv => ⟨hv.1, h.trans hv.2⟩

theorem reached_perm {xs ys : List α} (h : xs.Perm ys) (k : ℕ) : reached xs k = reached ys k := by
  ext v
  simp only [reached, Set.mem_ofPred_eq, h.mem_iff, upTo_perm h]

/-- Sorting puts the `k`-th smallest element at index `k - 1`. -/
theorem isLeast_getElem_insertionSort {xs : List α} {k : ℕ} (hpos : 1 ≤ k) (hk : k ≤ xs.length) :
    ∃ v, (xs.insertionSort (· ≤ ·))[k - 1]? = some v ∧ IsLeast (reached xs k) v := by
  have hperm := List.perm_insertionSort (· ≤ ·) xs
  have hsorted := List.pairwise_insertionSort (· ≤ ·) xs
  have hi : k - 1 < (xs.insertionSort (· ≤ ·)).length := by
    rw [List.length_insertionSort]
    omega
  refine ⟨_, List.getElem?_eq_getElem hi, ⟨?_, ?_⟩, fun w hw => ?_⟩
  · exact hperm.mem_iff.mp (List.getElem_mem hi)
  · have hlt := lt_upTo_getElem hsorted hi
    rw [upTo_perm hperm] at hlt
    omega
  · refine not_lt.mp fun hlt => ?_
    have hle := upTo_le_of_lt hsorted hi hlt
    rw [upTo_perm hperm] at hle
    have hreached : k ≤ upTo xs w := hw.2
    omega

end OrderStat
