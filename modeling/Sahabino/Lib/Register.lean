import Mathlib.Data.List.Pairwise
import Mathlib.Data.List.Perm.Basic
import Mathlib.Order.Bounds.Basic
import Mathlib.Order.MinMax

/-!
# Last-writer registers

A register is written to in any order of time stamps and keeps the entry
with the greatest stamp; of several such entries the one that was written
last wins. `Latest` says this of the list of all writes. It is a fact
about the list only, so what a register holds after a sequence of writes
can be compared with it, one write at a time (`Latest.newer`,
`Latest.older`), and two sequences with the same writes can be compared
with each other (`Latest.eq_of_perm`).
-/

namespace Reg

variable {α τ : Type} [LinearOrder τ] {stamp : α → τ} {ps qs : List α} {p q : α} {m : τ}

/-- `p` is the last of the writes with the greatest stamp. -/
def Latest (stamp : α → τ) (ps : List α) (p : α) : Prop :=
  ∃ l₁ l₂, ps = l₁ ++ p :: l₂ ∧ (∀ q ∈ l₁, stamp q ≤ stamp p) ∧ ∀ q ∈ l₂, stamp q < stamp p

/-- The stamps of the writes. -/
def stamps (stamp : α → τ) (ps : List α) : Set τ := {t | ∃ p ∈ ps, stamp p = t}

theorem Latest.singleton (stamp : α → τ) (p : α) : Latest stamp [p] p :=
  ⟨[], [], rfl, fun _ h => absurd h List.not_mem_nil, fun _ h => absurd h List.not_mem_nil⟩

theorem Latest.mem (h : Latest stamp ps p) : p ∈ ps := by
  obtain ⟨l₁, l₂, rfl, -, -⟩ := h
  exact List.mem_append_right _ (List.mem_cons_self ..)

theorem Latest.le (h : Latest stamp ps p) (hq : q ∈ ps) : stamp q ≤ stamp p := by
  obtain ⟨l₁, l₂, rfl, hbefore, hafter⟩ := h
  rcases List.mem_append.mp hq with hq | hq
  · exact hbefore q hq
  · rcases List.mem_cons.mp hq with rfl | hq
    · exact le_rfl
    · exact (hafter q hq).le

theorem Latest.newer (h : Latest stamp ps p) (hq : stamp p ≤ stamp q) :
    Latest stamp (ps ++ [q]) q :=
  ⟨ps, [], rfl, fun _ hr => (h.le hr).trans hq, fun _ hr => absurd hr List.not_mem_nil⟩

theorem Latest.older (h : Latest stamp ps p) (hq : stamp q < stamp p) :
    Latest stamp (ps ++ [q]) p := by
  obtain ⟨l₁, l₂, rfl, hbefore, hafter⟩ := h
  refine ⟨l₁, l₂ ++ [q], by simp, hbefore, fun r hr => ?_⟩
  rcases List.mem_append.mp hr with hr | hr
  · exact hafter r hr
  · rw [List.mem_singleton.mp hr]
    exact hq

theorem Latest.isGreatest (h : Latest stamp ps p) : IsGreatest (stamps stamp ps) (stamp p) := by
  refine ⟨⟨p, h.mem, rfl⟩, ?_⟩
  rintro _ ⟨q, hq, rfl⟩
  exact h.le hq

theorem isLeast_singleton (stamp : α → τ) (p : α) : IsLeast (stamps stamp [p]) (stamp p) := by
  refine ⟨⟨p, List.mem_singleton_self p, rfl⟩, ?_⟩
  rintro _ ⟨q, hq, rfl⟩
  rw [List.mem_singleton.mp hq]

theorem isLeast_concat (h : IsLeast (stamps stamp ps) m) :
    IsLeast (stamps stamp (ps ++ [q])) (min m (stamp q)) := by
  obtain ⟨⟨p, hp, hm⟩, hlower⟩ := h
  refine ⟨?_, ?_⟩
  · rcases min_choice m (stamp q) with hmin | hmin
    · rw [hmin]
      exact ⟨p, List.mem_append_left _ hp, hm⟩
    · rw [hmin]
      exact ⟨q, List.mem_append_right _ (List.mem_singleton_self q), rfl⟩
  · rintro _ ⟨r, hr, rfl⟩
    rcases List.mem_append.mp hr with hr | hr
    · exact (min_le_left _ _).trans (hlower ⟨r, hr, rfl⟩)
    · rw [List.mem_singleton.mp hr]
      exact min_le_right _ _

omit [LinearOrder τ] in
theorem stamps_perm (h : ps.Perm qs) : stamps stamp ps = stamps stamp qs := by
  ext t
  exact exists_congr fun p => and_congr_left fun _ => h.mem_iff

/-- With distinct stamps, the order of the writes does not matter. -/
theorem Latest.eq_of_perm (h : ps.Perm qs) (hdistinct : ps.Pairwise fun a b => stamp a ≠ stamp b)
    (hp : Latest stamp ps p) (hq : Latest stamp qs q) : p = q := by
  have hq' : q ∈ ps := h.mem_iff.mpr hq.mem
  have hstamp : stamp p = stamp q :=
    le_antisymm (hq.le (h.mem_iff.mp hp.mem)) (hp.le hq')
  have : Std.Symm fun a b => stamp a ≠ stamp b := ⟨fun _ _ hab => Ne.symm hab⟩
  by_contra hne
  exact hdistinct.forall hp.mem hq' hne hstamp

end Reg
