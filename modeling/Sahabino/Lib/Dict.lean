import Mathlib.Algebra.BigOperators.Group.List.Basic
import Mathlib.Data.List.Dedup
import Mathlib.Data.List.Induction
import Mathlib.Data.List.Nodup
import Mathlib.Data.List.Perm.Basic

/-!
# Dictionaries in insertion order

A `defaultdict` that a loop fills from a list: every element is added to
the entry of its key, if it has one. The entries stand in the order in
which their keys came up, so two lists with the same elements fill two
dictionaries with the same entries in another order (`collect_perm`).

What an entry holds is the fold over the elements of its key alone
(`mem_collect`); nothing else about the order of insertion is used.
-/

namespace Dict

variable {κ ν α : Type} [DecidableEq κ]

/-- `d[k] = f(d[k])`: a key keeps its place, a new one goes to the end. -/
def modify (k : κ) (dflt : ν) (f : ν → ν) : List (κ × ν) → List (κ × ν)
  | [] => [(k, f dflt)]
  | (k', v) :: d => if k' = k then (k', f v) :: d else (k', v) :: modify k dflt f d

def insert (key : α → Option κ) (dflt : ν) (step : ν → α → ν) (d : List (κ × ν)) (x : α) :
    List (κ × ν) :=
  match key x with
  | some k => modify k dflt (fun v => step v x) d
  | none => d

/-- The dictionary after the loop over `xs`. -/
def collect (key : α → Option κ) (dflt : ν) (step : ν → α → ν) (xs : List α) : List (κ × ν) :=
  xs.foldl (insert key dflt step) []

/-- The elements of one key. -/
def ofKey (key : α → Option κ) (k : κ) (xs : List α) : List α :=
  xs.filter fun x => key x = some k

/-! ## One entry -/

theorem keys_modify (k : κ) (dflt : ν) (f : ν → ν) (d : List (κ × ν)) :
    (modify k dflt f d).map Prod.fst =
      if k ∈ d.map Prod.fst then d.map Prod.fst else d.map Prod.fst ++ [k] := by
  induction d with
  | nil => rfl
  | cons e d ih =>
      obtain ⟨k', v⟩ := e
      rw [modify]
      split
      · rename_i heq
        simp [heq]
      · rename_i hne
        have hne' : ¬k = k' := fun h => hne h.symm
        rw [List.map_cons, ih, List.map_cons]
        by_cases hmem : k ∈ d.map Prod.fst
        · rw [if_pos hmem, if_pos (List.mem_cons_of_mem _ hmem)]
        · rw [if_neg hmem, if_neg (by simpa [hne'] using hmem)]
          rfl

theorem nodup_modify (k : κ) (dflt : ν) (f : ν → ν) {d : List (κ × ν)}
    (h : (d.map Prod.fst).Nodup) : ((modify k dflt f d).map Prod.fst).Nodup := by
  rw [keys_modify]
  split
  · exact h
  · rename_i hnot
    refine List.nodup_append.mpr ⟨h, List.nodup_singleton k, ?_⟩
    intro a ha b hb hab
    rw [List.mem_singleton.mp hb] at hab
    exact hnot (hab ▸ ha)

theorem mem_modify (k : κ) (dflt : ν) (f : ν → ν) {d : List (κ × ν)}
    (h : (d.map Prod.fst).Nodup) (k' : κ) (v' : ν) :
    (k', v') ∈ modify k dflt f d ↔ if k' = k then
      (∃ v, (k, v) ∈ d ∧ v' = f v) ∨ (k ∉ d.map Prod.fst ∧ v' = f dflt) else (k', v') ∈ d := by
  induction d with
  | nil =>
      by_cases hk : k' = k
      · simp [modify, hk]
      · simp [modify, hk]
  | cons e d ih =>
      obtain ⟨k₀, v₀⟩ := e
      rw [List.map_cons, List.nodup_cons] at h
      rw [modify]
      by_cases hk₀ : k₀ = k
      · subst hk₀
        rw [if_pos rfl]
        by_cases hk : k' = k₀
        · subst hk
          rw [if_pos rfl, List.mem_cons]
          constructor
          · rintro (heq | hmem)
            · exact Or.inl ⟨v₀, List.mem_cons_self .., (Prod.mk.inj heq).2⟩
            · exact absurd (List.mem_map.mpr ⟨_, hmem, rfl⟩) h.1
          · rintro (⟨v, hmem, rfl⟩ | ⟨hnot, -⟩)
            · rcases List.mem_cons.mp hmem with heq | hmem
              · rw [(Prod.mk.inj heq).2]
                exact Or.inl rfl
              · exact absurd (List.mem_map.mpr ⟨_, hmem, rfl⟩) h.1
            · exact absurd (List.mem_cons_self ..) hnot
        · rw [if_neg hk, List.mem_cons, List.mem_cons]
          simp [hk]
      · rw [if_neg hk₀, List.mem_cons, ih h.2]
        by_cases hk : k' = k
        · subst hk
          have hne : k' ≠ k₀ := fun heq => hk₀ heq.symm
          simp [hne]
        · simp [hk]

/-! ## The whole dictionary -/

section Collect

variable (key : α → Option κ) (dflt : ν) (step : ν → α → ν)

theorem collect_append (xs : List α) (x : α) :
    collect key dflt step (xs ++ [x]) = insert key dflt step (collect key dflt step xs) x := by
  rw [collect, List.foldl_append]
  rfl

theorem ofKey_append (k : κ) (xs : List α) (x : α) :
    ofKey key k (xs ++ [x]) = if key x = some k then ofKey key k xs ++ [x] else ofKey key k xs := by
  rw [ofKey, List.filter_append]
  by_cases hx : key x = some k
  · simp [ofKey, hx]
  · simp [ofKey, hx]

theorem nodup_keys (xs : List α) : ((collect key dflt step xs).map Prod.fst).Nodup := by
  induction xs using List.reverseRecOn with
  | nil => exact List.nodup_nil
  | append_singleton xs x ih =>
      rw [collect_append, insert]
      split
      · exact nodup_modify _ _ _ ih
      · exact ih

/-- The keys are those of the elements. -/
theorem mem_keys (xs : List α) (k : κ) :
    k ∈ (collect key dflt step xs).map Prod.fst ↔ ∃ x ∈ xs, key x = some k := by
  induction xs using List.reverseRecOn with
  | nil => simp [collect]
  | append_singleton xs x ih =>
      have hsplit : (∃ y ∈ xs ++ [x], key y = some k) ↔
          (∃ y ∈ xs, key y = some k) ∨ key x = some k := by
        simp [or_and_right, exists_or]
      rw [hsplit, ← ih, collect_append, insert]
      split
      · rename_i k' hx
        rw [keys_modify, hx]
        split
        · rename_i hmem
          refine ⟨Or.inl, fun h => h.elim id fun heq => ?_⟩
          rw [← Option.some.inj heq]
          exact hmem
        · rw [List.mem_append, List.mem_singleton, Option.some.injEq, eq_comm (a := k)]
      · rename_i hx
        simp [hx]

/-- As many entries as there are different keys. -/
theorem length_collect (xs : List α) :
    (collect key dflt step xs).length = (xs.filterMap key).dedup.length := by
  rw [← List.length_map Prod.fst]
  refine List.Perm.length_eq ((List.perm_ext_iff_of_nodup (nodup_keys ..)
    (List.nodup_dedup _)).mpr fun k => ?_)
  rw [mem_keys, List.mem_dedup, List.mem_filterMap]

/-- An entry holds the fold over the elements of its key. -/
theorem mem_collect (xs : List α) (k : κ) (v : ν) : (k, v) ∈ collect key dflt step xs ↔
    (∃ x ∈ xs, key x = some k) ∧ v = (ofKey key k xs).foldl step dflt := by
  induction xs using List.reverseRecOn generalizing v with
  | nil => simp [collect]
  | append_singleton xs x ih =>
      have hsplit : (∃ y ∈ xs ++ [x], key y = some k) ↔
          (∃ y ∈ xs, key y = some k) ∨ key x = some k := by
        simp [or_and_right, exists_or]
      rw [hsplit, ofKey_append, collect_append, insert]
      split
      · rename_i k' hx
        rw [mem_modify _ _ _ (nodup_keys key dflt step xs), mem_keys]
        by_cases hk : k = k'
        · subst hk
          rw [if_pos rfl, if_pos hx, List.foldl_append]
          simp only [ih, hx, or_true, true_and]
          constructor
          · rintro (⟨w, ⟨-, rfl⟩, rfl⟩ | ⟨hnot, rfl⟩)
            · rfl
            · have hnil : ofKey key k xs = [] := by
                refine List.filter_eq_nil_iff.mpr fun y hy hkey => hnot ⟨y, hy, ?_⟩
                exact of_decide_eq_true hkey
              rw [hnil]
              rfl
          · rintro rfl
            by_cases hsome : ∃ y ∈ xs, key y = some k
            · exact Or.inl ⟨_, ⟨hsome, rfl⟩, rfl⟩
            · have hnil : ofKey key k xs = [] := by
                refine List.filter_eq_nil_iff.mpr fun y hy hkey => hsome ⟨y, hy, ?_⟩
                exact of_decide_eq_true hkey
              exact Or.inr ⟨hsome, by rw [hnil]; rfl⟩
        · have hne : key x ≠ some k := by
            rw [hx]
            exact fun heq => hk (Option.some.inj heq).symm
          rw [if_neg hk, if_neg hne, ih]
          simp [hne]
      · rename_i hx
        have hne : key x ≠ some k := by simp [hx]
        rw [ih, if_neg hne]
        simp [hne]

/-- One entry for each key. -/
theorem collect_nodup (xs : List α) : (collect key dflt step xs).Nodup :=
  List.Nodup.of_map _ (nodup_keys key dflt step xs)

/-- The dictionaries of two lists whose keys agree, entry by entry. -/
theorem collect_perm {ν' : Type} (dflt' : ν') (step' : ν' → α → ν') {xs ys : List α}
    (hperm : xs.Perm ys) {β : Type} (f : κ × ν → β) (f' : κ × ν' → β)
    (hvalue : ∀ k, (∃ x ∈ xs, key x = some k) →
      f (k, (ofKey key k xs).foldl step dflt) = f' (k, (ofKey key k ys).foldl step' dflt')) :
    ((collect key dflt step xs).map f).Perm ((collect key dflt' step' ys).map f') := by
  have hkeys : ((collect key dflt step xs).map Prod.fst).Perm
      ((collect key dflt' step' ys).map Prod.fst) := by
    refine (List.perm_ext_iff_of_nodup (nodup_keys ..) (nodup_keys ..)).mpr fun k => ?_
    rw [mem_keys, mem_keys]
    simp only [hperm.mem_iff]
  have hleft : (collect key dflt step xs).map f = ((collect key dflt step xs).map Prod.fst).map
      fun k => f (k, (ofKey key k xs).foldl step dflt) := by
    rw [List.map_map]
    refine List.map_congr_left fun e he => ?_
    obtain ⟨k, v⟩ := e
    rw [((mem_collect key dflt step xs k v).mp he).2]
    rfl
  have hright : (collect key dflt' step' ys).map f' =
      ((collect key dflt' step' ys).map Prod.fst).map
        fun k => f' (k, (ofKey key k ys).foldl step' dflt') := by
    rw [List.map_map]
    refine List.map_congr_left fun e he => ?_
    obtain ⟨k, v⟩ := e
    rw [((mem_collect key dflt' step' ys k v).mp he).2]
    rfl
  rw [hleft, hright]
  have hmap : ((collect key dflt step xs).map Prod.fst).map
      (fun k => f (k, (ofKey key k xs).foldl step dflt)) =
        ((collect key dflt step xs).map Prod.fst).map
          fun k => f' (k, (ofKey key k ys).foldl step' dflt') :=
    List.map_congr_left fun k hk => hvalue k ((mem_keys key dflt step xs k).mp hk)
  rw [hmap]
  exact hkeys.map _

end Collect

/-! ## Groups and totals -/

/-- `d[key(x)].append(x)`. -/
def groups (key : α → Option κ) (xs : List α) : List (κ × List α) :=
  collect key [] (fun group x => group ++ [x]) xs

theorem foldl_concat (xs ys : List α) :
    ys.foldl (fun group x => group ++ [x]) xs = xs ++ ys := by
  induction ys generalizing xs with
  | nil => simp
  | cons y ys ih =>
      rw [List.foldl_cons, ih]
      simp

theorem mem_groups (key : α → Option κ) (xs : List α) (k : κ) (group : List α) :
    (k, group) ∈ groups key xs ↔ (∃ x ∈ xs, key x = some k) ∧ group = ofKey key k xs := by
  rw [groups, mem_collect, foldl_concat, List.nil_append]

theorem mem_of_mem_group {key : α → Option κ} {xs : List α} {e : κ × List α}
    (he : e ∈ groups key xs) {x : α} (hx : x ∈ e.2) : x ∈ xs := by
  rw [((mem_groups key xs e.1 e.2).mp he).2] at hx
  exact List.mem_of_mem_filter hx

section Totals

variable {β : Type} [AddCommMonoid β]

/-- `d[key(x)] += f(x)`. -/
def totals (key : α → Option κ) (f : α → β) (xs : List α) : List (κ × β) :=
  collect key 0 (fun total x => total + f x) xs

theorem foldl_add (f : α → β) (b : β) (xs : List α) :
    xs.foldl (fun total x => total + f x) b = b + (xs.map f).sum := by
  induction xs generalizing b with
  | nil => simp
  | cons x xs ih => rw [List.foldl_cons, ih, List.map_cons, List.sum_cons, add_assoc]

theorem mem_totals (key : α → Option κ) (f : α → β) (xs : List α) (k : κ) (b : β) :
    (k, b) ∈ totals key f xs ↔
      (∃ x ∈ xs, key x = some k) ∧ b = ((ofKey key k xs).map f).sum := by
  rw [totals, mem_collect, foldl_add, zero_add]

theorem sum_modify (k : κ) (b : β) (d : List (κ × β)) :
    ((modify k 0 (fun total => total + b) d).map Prod.snd).sum = (d.map Prod.snd).sum + b := by
  induction d with
  | nil => simp [modify]
  | cons e d ih =>
      rw [modify]
      split
      · rw [List.map_cons, List.map_cons, List.sum_cons, List.sum_cons]
        exact add_right_comm ..
      · rw [List.map_cons, List.map_cons, List.sum_cons, List.sum_cons, ih, add_assoc]

/-- The totals add up to the total of the elements that have a key. -/
theorem sum_totals (key : α → Option κ) (f : α → β) (xs : List α) :
    ((totals key f xs).map Prod.snd).sum = ((xs.filter fun x => (key x).isSome).map f).sum := by
  induction xs using List.reverseRecOn with
  | nil => rfl
  | append_singleton xs x ih =>
      rw [totals, collect_append, insert, List.filter_append, List.map_append, List.sum_append]
      split
      · rename_i k hx
        rw [sum_modify, ← ih]
        simp [hx, totals]
      · rename_i hx
        rw [← ih]
        simp [hx, totals]

end Totals

end Dict
