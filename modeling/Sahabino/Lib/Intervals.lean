import Mathlib.MeasureTheory.Measure.Lebesgue.Basic

/-!
# Merging intervals

Closed intervals as pairs of endpoints, in any order and overlapping as
they like. The merge walks over them by their left endpoints and either
appends an interval or extends the last one. What it keeps is separated
and covers what the proper intervals covered (`covered_merge`), so its
total length is the measure of the union.

The endpoints come from any linear order; lengths and measures are those
of their images under a strictly increasing map into the reals.
-/

namespace Intervals

open MeasureTheory

section Covered

variable {α β : Type}

/-- The points of `β` that an interval covers, through `φ`. -/
def covered [LE β] (φ : α → β) (intervals : List (α × α)) : Set β :=
  { x | ∃ i ∈ intervals, φ i.1 ≤ x ∧ x ≤ φ i.2 }

theorem mem_covered [LE β] {φ : α → β} {intervals : List (α × α)} {x : β} :
    x ∈ covered φ intervals ↔ ∃ i ∈ intervals, φ i.1 ≤ x ∧ x ≤ φ i.2 :=
  Iff.rfl

theorem covered_append [LE β] (φ : α → β) (l₁ l₂ : List (α × α)) :
    covered φ (l₁ ++ l₂) = covered φ l₁ ∪ covered φ l₂ := by
  ext x
  simp only [Set.mem_union, mem_covered, List.mem_append, or_and_right, exists_or]

theorem covered_singleton [Preorder β] (φ : α → β) (i : α × α) :
    covered φ [i] = Set.Icc (φ i.1) (φ i.2) := by
  ext x
  simp [mem_covered, Set.mem_Icc]

theorem covered_cons [Preorder β] (φ : α → β) (i : α × α) (intervals : List (α × α)) :
    covered φ (i :: intervals) = Set.Icc (φ i.1) (φ i.2) ∪ covered φ intervals := by
  rw [← covered_singleton, ← covered_append]
  rfl

end Covered

section Merge

variable {α : Type} [LinearOrder α]

/-- One round of the loop: an interval of no length is skipped, one that begins
behind the last is appended, and any other extends the last. -/
def mergeStep (merged : List (α × α)) (i : α × α) : List (α × α) :=
  if i.2 ≤ i.1 then merged
  else
    match merged.getLast? with
    | none => merged ++ [i]
    | some last =>
        if last.2 < i.1 then merged ++ [i]
        else merged.dropLast ++ [(last.1, max last.2 i.2)]

def merge (intervals : List (α × α)) : List (α × α) :=
  intervals.foldl mergeStep []

/-- Each interval lies strictly before the next ones. -/
def Separated (intervals : List (α × α)) : Prop :=
  intervals.Pairwise fun i j => i.2 < j.1

/-- What the merged intervals are after a part of the loop, when everything still
to come begins at `bound` or later. -/
structure Merged (bound lo hi : α) (merged : List (α × α)) : Prop where
  separated : Separated merged
  proper : ∀ i ∈ merged, i.1 < i.2
  begun : ∀ i ∈ merged, i.1 ≤ bound
  within : ∀ i ∈ merged, lo ≤ i.1 ∧ i.2 ≤ hi

namespace Merged

variable {bound bound' lo hi : α} {merged : List (α × α)} {last i : α × α}

theorem concat (h : Merged bound lo hi merged) (hle : bound ≤ bound')
    (hbefore : ∀ j ∈ merged, j.2 < i.1) (hproper : i.1 < i.2) (hbegun : i.1 ≤ bound')
    (hwithin : lo ≤ i.1 ∧ i.2 ≤ hi) : Merged bound' lo hi (merged ++ [i]) := by
  refine ⟨?_, fun j hj => ?_, fun j hj => ?_, fun j hj => ?_⟩
  · refine List.pairwise_append.mpr ⟨h.separated, List.pairwise_singleton _ _, ?_⟩
    intro j hj j' hj'
    rw [List.mem_singleton.mp hj']
    exact hbefore j hj
  · rcases List.mem_append.mp hj with hj | hj
    · exact h.proper j hj
    · rw [List.mem_singleton.mp hj]
      exact hproper
  · rcases List.mem_append.mp hj with hj | hj
    · exact le_trans (h.begun j hj) hle
    · rw [List.mem_singleton.mp hj]
      exact hbegun
  · rcases List.mem_append.mp hj with hj | hj
    · exact h.within j hj
    · rw [List.mem_singleton.mp hj]
      exact hwithin

/-- The intervals before the last one. -/
theorem init (h : Merged bound lo hi (merged ++ [last])) :
    Merged bound lo hi merged ∧ ∀ j ∈ merged, j.2 < last.1 := by
  obtain ⟨hseparated, -, hcross⟩ := List.pairwise_append.mp h.separated
  exact ⟨⟨hseparated, fun j hj => h.proper j (List.mem_append_left _ hj),
    fun j hj => h.begun j (List.mem_append_left _ hj),
    fun j hj => h.within j (List.mem_append_left _ hj)⟩,
    fun j hj => hcross j hj last (List.mem_singleton_self _)⟩

end Merged

/-- Extending an interval by one that begins inside it. -/
theorem covered_extend {β : Type} [LinearOrder β] {φ : α → β} (hφ : StrictMono φ) {last i : α × α}
    (hbegun : last.1 ≤ i.1) (htouch : i.1 ≤ last.2) (hproper : i.1 < i.2) :
    covered φ [(last.1, max last.2 i.2)] = covered φ [last] ∪ covered φ [i] := by
  have hend : φ last.1 ≤ φ i.2 := hφ.monotone (le_trans hbegun hproper.le)
  rw [covered_singleton, covered_singleton, covered_singleton, hφ.monotone.map_max,
    Set.Icc_union_Icc' (hφ.monotone htouch) hend, min_eq_left (hφ.monotone hbegun)]

/-- The loop keeps the intervals merged, and adds what the interval covers. -/
theorem Merged.step {bound lo hi : α} {merged : List (α × α)} (h : Merged bound lo hi merged)
    {i : α × α} (hbound : bound ≤ i.1) (hwithin : lo ≤ i.1 ∧ i.2 ≤ hi)
    {β : Type} [LinearOrder β] {φ : α → β} (hφ : StrictMono φ) :
    Merged i.1 lo hi (mergeStep merged i) ∧
      covered φ (mergeStep merged i) =
        covered φ merged ∪ covered φ ([i].filter fun i => i.1 < i.2) := by
  rw [mergeStep]
  split
  · rename_i hempty
    refine ⟨⟨h.separated, h.proper, fun j hj => le_trans (h.begun j hj) hbound, h.within⟩, ?_⟩
    rw [List.filter_cons_of_neg (by simpa using hempty)]
    simp [covered]
  rename_i hlt
  rw [not_le] at hlt
  rw [List.filter_cons_of_pos (by simpa using hlt), List.filter_nil]
  have happend : (∀ j ∈ merged, j.2 < i.1) → Merged i.1 lo hi (merged ++ [i]) ∧
      covered φ (merged ++ [i]) = covered φ merged ∪ covered φ [i] := fun hbefore =>
    ⟨h.concat hbound hbefore hlt le_rfl hwithin, covered_append ..⟩
  split
  · rename_i hnone
    rw [List.getLast?_eq_none_iff.mp hnone] at happend ⊢
    exact happend fun j hj => absurd hj List.not_mem_nil
  · rename_i last hlast
    obtain ⟨init, rfl⟩ := List.getLast?_eq_some_iff.mp hlast
    obtain ⟨hinit, hbefore⟩ := h.init
    have hmem : last ∈ init ++ [last] := List.mem_append_right _ (List.mem_singleton_self _)
    have hproper := h.proper last hmem
    have hbegun := le_trans (h.begun last hmem) hbound
    split
    · rename_i hgap
      refine happend fun j hj => ?_
      rcases List.mem_append.mp hj with hj | hj
      · exact lt_trans (hbefore j hj) (lt_trans hproper hgap)
      · rw [List.mem_singleton.mp hj]
        exact hgap
    · rename_i htouch
      rw [not_lt] at htouch
      rw [List.dropLast_concat]
      refine ⟨hinit.concat hbound hbefore (lt_of_lt_of_le hproper (le_max_left _ _)) hbegun
        ⟨(h.within last hmem).1, max_le (h.within last hmem).2 hwithin.2⟩, ?_⟩
      rw [covered_append, covered_append, covered_extend hφ hbegun htouch hlt, Set.union_assoc]

/-- The whole loop, over intervals sorted by their left endpoints. -/
theorem Merged.foldl {lo hi : α} {β : Type} [LinearOrder β] {φ : α → β} (hφ : StrictMono φ)
    (intervals : List (α × α)) :
    ∀ {bound : α} {merged : List (α × α)}, Merged bound lo hi merged →
      (∀ i ∈ intervals, bound ≤ i.1) → intervals.Pairwise (fun i j => i.1 ≤ j.1) →
      (∀ i ∈ intervals, lo ≤ i.1 ∧ i.2 ≤ hi) →
      (∃ bound', Merged bound' lo hi (intervals.foldl mergeStep merged)) ∧
        covered φ (intervals.foldl mergeStep merged) =
          covered φ merged ∪ covered φ (intervals.filter fun i => i.1 < i.2) := by
  induction intervals with
  | nil =>
      intro bound merged h _ _ _
      refine ⟨⟨bound, h⟩, ?_⟩
      simp [covered]
  | cons i intervals ih =>
      intro bound merged h hbound hsorted hwithin
      rw [List.pairwise_cons] at hsorted
      obtain ⟨hstep, hcovered⟩ := h.step (hbound i (List.mem_cons_self ..))
        (hwithin i (List.mem_cons_self ..)) hφ
      obtain ⟨hmerged, hrest⟩ := ih hstep (fun j hj => hsorted.1 j hj) hsorted.2
        (fun j hj => hwithin j (List.mem_cons_of_mem _ hj))
      refine ⟨hmerged, ?_⟩
      rw [List.foldl_cons, hrest, hcovered, Set.union_assoc, ← covered_append, ← List.filter_append]
      rfl

theorem covered_merge {lo hi : α} {β : Type} [LinearOrder β] {φ : α → β} (hφ : StrictMono φ)
    {intervals : List (α × α)} (hsorted : intervals.Pairwise fun i j => i.1 ≤ j.1)
    (hwithin : ∀ i ∈ intervals, lo ≤ i.1 ∧ i.2 ≤ hi) :
    (∃ bound, Merged bound lo hi (merge intervals)) ∧
      covered φ (merge intervals) = covered φ (intervals.filter fun i => i.1 < i.2) := by
  have hempty : Merged lo lo hi ([] : List (α × α)) :=
    ⟨List.Pairwise.nil, by simp, by simp, by simp⟩
  have hloop := Merged.foldl hφ intervals hempty (fun i hi => (hwithin i hi).1) hsorted hwithin
  refine ⟨hloop.1, hloop.2.trans ?_⟩
  simp [covered]

end Merge

/-! ## Lengths -/

section Length

variable {α : Type} [AddCommGroup α] [LinearOrder α] [IsOrderedAddMonoid α]

def length (intervals : List (α × α)) : α := (intervals.map fun i => i.2 - i.1).sum

theorem length_nonneg {intervals : List (α × α)} (h : ∀ i ∈ intervals, i.1 ≤ i.2) :
    0 ≤ length intervals := by
  refine List.sum_nonneg fun x hx => ?_
  obtain ⟨i, hi, rfl⟩ := List.mem_map.mp hx
  exact sub_nonneg.mpr (h i hi)

/-- Separated intervals are together no longer than what they lie in. -/
theorem length_le {hi : α} {intervals : List (α × α)} : ∀ {lo : α}, Separated intervals →
    lo ≤ hi → (∀ i ∈ intervals, lo ≤ i.1 ∧ i.1 ≤ i.2 ∧ i.2 ≤ hi) →
    length intervals ≤ hi - lo := by
  induction intervals with
  | nil =>
      intro lo _ hle _
      exact sub_nonneg.mpr hle
  | cons i intervals ih =>
      intro lo hsep hle hwithin
      rw [Separated, List.pairwise_cons] at hsep
      obtain ⟨hlo, hi₁, hhi⟩ := hwithin i (List.mem_cons_self ..)
      have hrest : length intervals ≤ hi - i.2 := by
        refine ih hsep.2 hhi fun j hj => ?_
        exact ⟨(hsep.1 j hj).le, (hwithin j (List.mem_cons_of_mem _ hj)).2⟩
      calc length (i :: intervals) = (i.2 - i.1) + length intervals := by
            simp [length]
        _ ≤ (i.2 - i.1) + (hi - i.2) := by gcongr
        _ = hi - i.1 := by abel
        _ ≤ hi - lo := by gcongr

end Length

/-! ## Measure -/

section Measure

variable {α : Type}

theorem measurableSet_covered (φ : α → ℝ) (intervals : List (α × α)) :
    MeasurableSet (covered φ intervals) := by
  induction intervals with
  | nil => simp [covered]
  | cons i intervals ih =>
      rw [covered_cons]
      exact measurableSet_Icc.union ih

variable [LinearOrder α] {φ : α → ℝ}

/-- A point that only intervals of no length cover is an endpoint. -/
theorem volume_covered_diff (hφ : StrictMono φ) (intervals : List (α × α)) :
    volume (covered φ intervals \ covered φ (intervals.filter fun i => i.1 < i.2)) = 0 := by
  have hfinite : {x | ∃ i ∈ intervals, x = φ i.1}.Finite := by
    refine Set.Finite.subset (List.finite_toSet (intervals.map fun i => φ i.1)) ?_
    rintro x ⟨i, hi, rfl⟩
    exact List.mem_map.mpr ⟨i, hi, rfl⟩
  refine measure_mono_null ?_ (hfinite.measure_zero _)
  rintro x ⟨⟨i, hi, hlo, hhi⟩, hnot⟩
  refine ⟨i, hi, le_antisymm ?_ hlo⟩
  by_contra hlt
  have hproper : i.1 < i.2 := hφ.lt_iff_lt.mp (lt_of_lt_of_le (not_le.mp hlt) hhi)
  exact hnot ⟨i, List.mem_filter.mpr ⟨hi, decide_eq_true hproper⟩, hlo, hhi⟩

theorem volume_covered_filter (hφ : StrictMono φ) (intervals : List (α × α)) :
    volume (covered φ (intervals.filter fun i => i.1 < i.2)) = volume (covered φ intervals) := by
  refine measure_eq_measure_of_null_sdiff ?_ (volume_covered_diff hφ intervals)
  rintro x ⟨i, hi, hx⟩
  exact ⟨i, List.mem_of_mem_filter hi, hx⟩

/-- Separated intervals are disjoint, so their lengths add up. -/
theorem volume_covered (hφ : StrictMono φ) {intervals : List (α × α)}
    (hsep : Separated intervals) (hproper : ∀ i ∈ intervals, i.1 < i.2) :
    volume (covered φ intervals) =
      ENNReal.ofReal ((intervals.map fun i => φ i.2 - φ i.1).sum) := by
  induction intervals with
  | nil => simp [covered]
  | cons i intervals ih =>
      rw [Separated, List.pairwise_cons] at hsep
      have hi := hproper i (List.mem_cons_self ..)
      have hrest := fun j hj => hproper j (List.mem_cons_of_mem _ hj)
      have hdisjoint : Disjoint (Set.Icc (φ i.1) (φ i.2)) (covered φ intervals) := by
        rw [Set.disjoint_left]
        rintro x ⟨-, hx⟩ ⟨j, hj, hlo, -⟩
        exact absurd (le_trans hlo hx) (not_le.mpr (hφ (hsep.1 j hj)))
      have hnonneg : 0 ≤ (intervals.map fun i => φ i.2 - φ i.1).sum := by
        refine List.sum_nonneg fun x hx => ?_
        obtain ⟨j, hj, rfl⟩ := List.mem_map.mp hx
        exact sub_nonneg.mpr (hφ (hrest j hj)).le
      rw [covered_cons, measure_union hdisjoint (measurableSet_covered φ _), Real.volume_Icc,
        ih hsep.2 hrest, List.map_cons, List.sum_cons,
        ENNReal.ofReal_add (sub_nonneg.mpr (hφ hi).le) hnonneg]

end Measure

end Intervals
