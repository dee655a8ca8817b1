import Mathlib.Data.List.Basic
import Mathlib.Data.List.Infix

/-!
# Searching a text

`in`, `index`, `count` and `replace` of a text in a text. What a search
finds is an occurrence; a character that the searched text does not have
separates its occurrences, so none of them reaches across it
(`occurrence_split`).

Texts are lists of characters.
-/

namespace Py

/-- What stands before and after the first occurrence. -/
def find (pat : List Char) : List Char → Option (List Char × List Char)
  | [] => if pat.isPrefixOf [] then some ([], []) else none
  | c :: s =>
      if pat.isPrefixOf (c :: s) then some ([], (c :: s).drop pat.length)
      else (find pat s).map fun r => (c :: r.1, r.2)

/-- `text.count(pat)`, which counts what does not overlap; the first argument is how much
of the last occurrence is still ahead. -/
def countFrom (pat : List Char) : Nat → List Char → Nat
  | _, [] => 0
  | ahead + 1, _ :: s => countFrom pat ahead s
  | 0, c :: s =>
      if pat.isPrefixOf (c :: s) then countFrom pat (pat.length - 1) s + 1 else countFrom pat 0 s

def count (pat s : List Char) : Nat := countFrom pat 0 s

/-- `text.replace(pat, new)`, counted in the same way. -/
def replaceFrom (pat new : List Char) : Nat → List Char → List Char
  | _, [] => []
  | ahead + 1, _ :: s => replaceFrom pat new ahead s
  | 0, c :: s =>
      if pat.isPrefixOf (c :: s) then new ++ replaceFrom pat new (pat.length - 1) s
      else c :: replaceFrom pat new 0 s

def replace (pat new s : List Char) : List Char := replaceFrom pat new 0 s

/-! ## Finding -/

theorem find_eq_some {pat s before after : List Char} (h : find pat s = some (before, after)) :
    s = before ++ pat ++ after := by
  induction s generalizing before after with
  | nil =>
      rw [find] at h
      split at h
      · rename_i hpre
        obtain ⟨rfl, rfl⟩ := Prod.mk.inj (Option.some.inj h)
        rw [List.isPrefixOf_iff_prefix, List.prefix_nil] at hpre
        rw [hpre]
        rfl
      · cases h
  | cons c s ih =>
      rw [find] at h
      split at h
      · rename_i hpre
        obtain ⟨rfl, rfl⟩ := Prod.mk.inj (Option.some.inj h)
        obtain ⟨t, ht⟩ := List.isPrefixOf_iff_prefix.mp hpre
        rw [← ht, List.drop_left]
        rfl
      · obtain ⟨⟨b, a⟩, hfind, hpair⟩ := Option.map_eq_some_iff.mp h
        obtain ⟨rfl, rfl⟩ := Prod.mk.inj hpair
        rw [ih hfind]
        rfl

theorem find_eq_none_iff {pat s : List Char} : find pat s = none ↔ ¬pat <:+: s := by
  induction s with
  | nil =>
      rw [find, List.infix_nil]
      cases pat with
      | nil => simp
      | cons p pat => simp
  | cons c s ih =>
      rw [find, List.infix_cons_iff]
      by_cases hpre : pat.isPrefixOf (c :: s) = true
      · rw [if_pos hpre]
        exact iff_of_false (Option.some_ne_none _)
          (not_not_intro (Or.inl (List.isPrefixOf_iff_prefix.mp hpre)))
      · rw [if_neg hpre, Option.map_eq_none_iff, ih]
        rw [List.isPrefixOf_iff_prefix] at hpre
        exact ⟨fun h => not_or.mpr ⟨hpre, h⟩, fun h => fun hin => h (Or.inr hin)⟩

/-- Where something occurs that does not have `c`, it stands before or after it. -/
theorem occurrence_split {α : Type} {c : α} {pat s t u v : List α} (hc : c ∉ pat)
    (h : s ++ c :: t = u ++ pat ++ v) :
    (∃ w, s = u ++ pat ++ w ∧ v = w ++ c :: t) ∨ ∃ w, t = w ++ pat ++ v ∧ u = s ++ c :: w := by
  rw [List.append_assoc] at h
  rcases List.append_eq_append_iff.mp h with ⟨w, hu, hw⟩ | ⟨w, hs, hw⟩
  · cases w with
    | nil =>
        rw [List.nil_append] at hw
        cases pat with
        | nil =>
            refine Or.inl ⟨[], by simpa using hu.symm, ?_⟩
            simpa using hw.symm
        | cons p pat =>
            exact absurd (List.head_eq_of_cons_eq hw) fun heq => hc (heq ▸ List.mem_cons_self ..)
    | cons d w =>
        obtain ⟨rfl, rfl⟩ := List.cons.inj hw
        exact Or.inr ⟨w, (List.append_assoc w pat v).symm, hu⟩
  · rcases List.append_eq_append_iff.mp hw with ⟨z, hz, hv⟩ | ⟨z, hz, hv⟩
    · exact Or.inl ⟨z, by rw [hs, hz, List.append_assoc], hv⟩
    · cases z with
      | nil =>
          refine Or.inl ⟨[], by rw [hs, hz]; simp, ?_⟩
          simpa using hv.symm
      | cons d z =>
          obtain ⟨rfl, -⟩ := List.cons.inj hv
          exact absurd (hz ▸ List.mem_append_right w (List.mem_cons_self ..)) hc

theorem infix_split {α : Type} {c : α} {pat s t : List α} (hc : c ∉ pat) (h : pat <:+: s ++ c :: t) :
    pat <:+: s ∨ pat <:+: t := by
  obtain ⟨u, v, huv⟩ := h
  rcases occurrence_split hc huv.symm with ⟨w, hs, -⟩ | ⟨w, ht, -⟩
  · exact Or.inl ⟨u, w, hs.symm⟩
  · exact Or.inr ⟨w, v, ht.symm⟩

theorem mem_intercalate {α : Type} {sep : List α} {parts : List (List α)} {c : α}
    (h : c ∈ sep.intercalate parts) : c ∈ sep ∨ ∃ part ∈ parts, c ∈ part := by
  induction parts with
  | nil => cases h
  | cons part parts ih =>
      cases parts with
      | nil =>
          rw [List.intercalate_singleton] at h
          exact Or.inr ⟨part, List.mem_singleton_self _, h⟩
      | cons part' parts =>
          rw [List.intercalate_cons_cons, List.mem_append, List.mem_append] at h
          rcases h with (h | h) | h
          · exact Or.inr ⟨part, List.mem_cons_self .., h⟩
          · exact Or.inl h
          · rcases ih h with h | ⟨other, hother, h⟩
            · exact Or.inl h
            · exact Or.inr ⟨other, List.mem_cons_of_mem _ hother, h⟩

/-! ## Replacing -/

theorem replaceFrom_append_of_not_mem {p : Char} {pat new s t : List Char} (h : p ∉ s) :
    replaceFrom (p :: pat) new 0 (s ++ t) = s ++ replaceFrom (p :: pat) new 0 t := by
  induction s with
  | nil => rfl
  | cons c s ih =>
      have hc : ¬(p :: pat).isPrefixOf (c :: (s ++ t)) = true := by
        rw [List.isPrefixOf_iff_prefix]
        intro hpre
        obtain ⟨rfl, -⟩ := List.cons_prefix_cons.mp hpre
        exact h (List.mem_cons_self ..)
      rw [List.cons_append, replaceFrom, if_neg hc,
        ih fun hs => h (List.mem_cons_of_mem _ hs), List.cons_append]

/-- A text that begins with a character found nowhere else. -/
theorem replace_append {p : Char} {pat new s : List Char} (h : p ∉ s) :
    replace (p :: pat) new (s ++ p :: pat) = s ++ new := by
  have hskip : ∀ t : List Char, replaceFrom (p :: pat) new t.length t = [] := by
    intro t
    induction t with
    | nil => rfl
    | cons c t ih => exact ih
  rw [replace, replaceFrom_append_of_not_mem h, replaceFrom,
    if_pos (List.isPrefixOf_iff_prefix.mpr (List.prefix_refl _)), List.length_cons,
    Nat.add_sub_cancel, hskip, List.append_nil]

theorem replace_of_not_mem {p : Char} {pat new s : List Char} (h : p ∉ s) :
    replace (p :: pat) new s = s := by
  have happend : replaceFrom (p :: pat) new 0 (s ++ []) = s ++ replaceFrom (p :: pat) new 0 [] :=
    replaceFrom_append_of_not_mem h
  rw [List.append_nil] at happend
  rw [replace, happend]
  exact List.append_nil s

theorem replace_singleton_cons (p c : Char) (new s : List Char) :
    replace [p] new (c :: s) = (if c = p then new else [c]) ++ replace [p] new s := by
  have hpre : [p].isPrefixOf (c :: s) = true ↔ c = p := by
    rw [List.isPrefixOf_iff_prefix, List.cons_prefix_cons]
    exact ⟨fun h => h.1.symm, fun h => ⟨h.symm, List.nil_prefix⟩⟩
  rw [replace, replaceFrom]
  by_cases hc : c = p
  · rw [if_pos (hpre.mpr hc), if_pos hc]
    rfl
  · rw [if_neg fun h => hc (hpre.mp h), if_neg hc]
    rfl

end Py

/-! ## Deciding about the characters of a text

All characters can be enumerated; where a list bounds them, the list is to be gone through. -/

namespace Py.Bounded

variable {α : Type} (p : α → Prop) [DecidablePred p] (l : List α)

scoped instance (priority := high) forallMem : Decidable (∀ x, x ∈ l → p x) :=
  List.decidableBAll p l

scoped instance (priority := high) existsMem : Decidable (∃ x, x ∈ l ∧ p x) :=
  List.decidableBEx p l

end Py.Bounded
