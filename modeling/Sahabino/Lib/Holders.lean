import Mathlib.Order.Basic

/-!
# Who holds a key

Places hold keys, a key at most one place (`OneHolder`). Others may take keys
away from places but give none (`GainsOnly` of nothing). Who wants to give a
key to a place either looks at a list of the keys that are held, made
earlier, which this key is not on (`Listed.not_held`), or saw the place hold
it already (`OneHolder.heldOnlyAt`); what was seen stays true for as long as
nobody else gives keys.
-/

namespace Own

variable {π κ : Type} {h h' h'' : π → κ → Prop} {own own' shown shown' : κ → Prop} {k : κ} {p : π}

def OneHolder (h : π → κ → Prop) : Prop := ∀ k p q, h p k → h q k → p = q

/-- No place gains a key but these. -/
def GainsOnly (own : κ → Prop) (h h' : π → κ → Prop) : Prop := ∀ k, ¬own k → ∀ p, h' p k → h p k

/-- No other place has the key. -/
def HeldOnlyAt (h : π → κ → Prop) (k : κ) (p : π) : Prop := ∀ q, h q k → q = p

/-- Every key that is held is on the list. -/
def Listed (shown : κ → Prop) (h : π → κ → Prop) : Prop := ∀ k p, h p k → shown k

namespace GainsOnly

theorem refl (own : κ → Prop) (h : π → κ → Prop) : GainsOnly own h h := fun _ _ _ hp => hp

theorem trans (hg : GainsOnly own h h') (hg' : GainsOnly own h' h'') : GainsOnly own h h'' :=
  fun k hk p hp => hg k hk p (hg' k hk p hp)

theorem mono (hg : GainsOnly own h h') (hown : ∀ k, own k → own' k) : GainsOnly own' h h' :=
  fun k hk p hp => hg k (fun ho => hk (hown k ho)) p hp

end GainsOnly

theorem OneHolder.heldOnlyAt (hone : OneHolder h) (hp : h p k) : HeldOnlyAt h k p :=
  fun q hq => hone k q p hq hp

theorem HeldOnlyAt.after (hk : HeldOnlyAt h k p) (hg : GainsOnly own h h') (hown : ¬own k) :
    HeldOnlyAt h' k p := fun q hq => hk q (hg k hown q hq)

theorem OneHolder.after (hone : OneHolder h) (hg : GainsOnly (fun _ => False) h h') : OneHolder h' :=
  fun k p q hp hq => hone k p q (hg k id p hp) (hg k id q hq)

/-- One key changes hands. -/
theorem OneHolder.give (hone : OneHolder h) (hg : GainsOnly (· = k) h h') (hk : HeldOnlyAt h' k p) :
    OneHolder h' := by
  intro k' q q' hq hq'
  by_cases hk' : k' = k
  · subst hk'
    exact (hk q hq).trans (hk q' hq').symm
  · exact hone k' q q' (hg k' hk' q hq) (hg k' hk' q' hq')

theorem Listed.not_held (hl : Listed shown h) (hk : ¬shown k) (p : π) : ¬h p k :=
  fun hp => hk (hl k p hp)

/-- The list still is one when it has what is gained. -/
theorem Listed.after (hl : Listed shown h) (hg : GainsOnly own h h')
    (hshown : ∀ k, shown k → shown' k) (hown : ∀ k, own k → shown' k) : Listed shown' h' := by
  intro k p hp
  by_cases hk : own k
  · exact hown k hk
  · exact hshown k (hl k p (hg k hk p hp))

end Own
