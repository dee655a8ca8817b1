import Mathlib.Data.List.Basic

/-!
# Slots filled out of order

A list of slots, empty at first, which a program fills at whatever indexes
it comes to. `Fills good filled s s'` is what a part of it has done: all
it wrote is good for the slot it is in, and the slots of `filled` have
something. A part that breaks off has written good values nevertheless, so
parts compose (`Fills.trans`, `Fills.foldl`) whichever of them is done
again.

`slices` is what a loop in steps over a list comes to.
-/

namespace Slots

variable {α β : Type}

/-! ## Filling -/

def blank (n : Nat) : List (Option β) := List.replicate n none

def put (i : Nat) (b : β) (s : List (Option β)) : List (Option β) := s.set i (some b)

/-- What is read at the end, with a default for the slots nothing was put in. -/
def collect (missing : β) (s : List (Option β)) : List β := s.map (·.getD missing)

structure Fills (good : Nat → β → Prop) (filled : Nat → Prop) (s s' : List (Option β)) :
    Prop where
  length : s'.length = s.length
  slot : ∀ i, s'[i]? = s[i]? ∨ ∃ b, s'[i]? = some (some b) ∧ good i b
  put : ∀ i, i < s.length → filled i → ∃ b, s'[i]? = some (some b) ∧ good i b

namespace Fills

variable {good : Nat → β → Prop} {p q : Nat → Prop} {s s' s'' : List (Option β)}

theorem refl (good : Nat → β → Prop) (s : List (Option β)) : Fills good (fun _ => False) s s :=
  ⟨rfl, fun _ => Or.inl rfl, fun _ _ h => h.elim⟩

theorem mono (h : Fills good p s s') (hq : ∀ i, q i → p i) : Fills good q s s' :=
  ⟨h.length, h.slot, fun i hi hqi => h.put i hi (hq i hqi)⟩

theorem trans (h : Fills good p s s') (h' : Fills good q s' s'') :
    Fills good (fun i => p i ∨ q i) s s'' := by
  refine ⟨h'.length.trans h.length, fun i => ?_, fun i hi hfilled => ?_⟩
  · rcases h'.slot i with heq | hgood
    · rw [heq]
      exact h.slot i
    · exact Or.inr hgood
  · rcases hfilled with hp | hq
    · rcases h'.slot i with heq | hgood
      · rw [heq]
        exact h.put i hi hp
      · exact hgood
    · exact h'.put i (h.length ▸ hi) hq

theorem set {i : Nat} {b : β} (h : good i b) : Fills good (· = i) s (Slots.put i b s) := by
  unfold Slots.put
  refine ⟨List.length_set, fun j => ?_, fun j hj hji => ?_⟩
  · rcases eq_or_ne i j with rfl | hne
    · rcases Nat.lt_or_ge i s.length with hlt | hge
      · exact Or.inr ⟨b, List.getElem?_set_self hlt, h⟩
      · rw [List.set_eq_of_length_le hge]
        exact Or.inl rfl
    · exact Or.inl (List.getElem?_set_ne hne)
  · subst hji
    exact ⟨b, List.getElem?_set_self hj, h⟩

/-- A loop, by what each of its turns does from wherever it starts. -/
theorem foldl {f : List (Option β) → α → List (Option β)} {filled : α → Nat → Prop}
    (xs : List α) (h : ∀ x ∈ xs, ∀ s, Fills good (filled x) s (f s x)) :
    ∀ s, Fills good (fun i => ∃ x ∈ xs, filled x i) s (xs.foldl f s) := by
  induction xs with
  | nil =>
      intro s
      exact (refl good s).mono fun i hi => by
        obtain ⟨x, hx, -⟩ := hi
        cases hx
  | cons x xs ih =>
      intro s
      have hrest := ih (fun y hy => h y (List.mem_cons_of_mem x hy)) (f s x)
      refine ((h x List.mem_cons_self s).trans hrest).mono fun i hi => ?_
      obtain ⟨y, hy, hfilled⟩ := hi
      rcases List.mem_cons.mp hy with rfl | hy
      · exact Or.inl hfilled
      · exact Or.inr ⟨y, hy, hfilled⟩

theorem collect {n : Nat} (h : Fills good p (blank n) s) (hp : ∀ i, i < n → p i) (missing : β) :
    (Slots.collect missing s).length = n ∧
      ∀ i, i < n → ∃ b, (Slots.collect missing s)[i]? = some b ∧ good i b := by
  unfold Slots.collect
  have hblank : (blank n : List (Option β)).length = n := List.length_replicate
  refine ⟨by rw [List.length_map, h.length, hblank], fun i hi => ?_⟩
  obtain ⟨b, hb, hgood⟩ := h.put i (hblank.symm ▸ hi) (hp i hi)
  exact ⟨b, by rw [List.getElem?_map, hb]; rfl, hgood⟩

end Fills

/-! ## Loops in steps -/

/-- `range(0, stop, step)`. -/
def steps (stop step : Nat) : List Nat := (List.range ((stop + step - 1) / step)).map (· * step)

/-- `xs[start : start + size]` for every `start` of the range. -/
def slices (size : Nat) (xs : List α) : List (List α) :=
  (steps xs.length size).map fun start => (xs.drop start).take size

theorem mem_of_mem_slices {size : Nat} {xs slice : List α} {x : α} (h : slice ∈ slices size xs)
    (hx : x ∈ slice) : x ∈ xs := by
  obtain ⟨start, -, rfl⟩ := List.mem_map.mp h
  exact List.mem_of_mem_drop (List.mem_of_mem_take hx)

/-- No element is left out. -/
theorem exists_mem_slices {size : Nat} {xs : List α} {x : α} (hsize : 1 ≤ size) (hx : x ∈ xs) :
    ∃ slice ∈ slices size xs, x ∈ slice := by
  obtain ⟨i, hi, rfl⟩ := List.getElem_of_mem hx
  -- the start of its slice and its place there
  have hplace : i / size * size + i % size = i := Nat.div_add_mod' i size
  have hmod : i % size < size := Nat.mod_lt i hsize
  have hstart : i / size < (xs.length + size - 1) / size := by
    rw [← Nat.add_one_le_iff, Nat.le_div_iff_mul_le hsize, Nat.add_one_mul]
    have hle : i / size * size ≤ i := Nat.div_mul_le_self i size
    omega
  refine ⟨(xs.drop (i / size * size)).take size,
    List.mem_map.mpr ⟨i / size * size, List.mem_map.mpr ⟨i / size, List.mem_range.mpr hstart, rfl⟩,
      rfl⟩, List.mem_of_getElem? (i := i % size) ?_⟩
  rw [List.getElem?_take_of_lt hmod, List.getElem?_drop, hplace, List.getElem?_eq_getElem hi]

end Slots
