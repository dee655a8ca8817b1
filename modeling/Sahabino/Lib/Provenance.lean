import Sahabino.Lib.Substring

/-!
# Where the characters of a text come from

A text in which other texts are put, with a line break on both sides of
each. `Apart patterns s` says of every piece of `s` within a line that it
was given, or that it was inserted and has none of the patterns. When the
patterns have no line break, they occur only where the text was given
(`Apart.occurrence`); this is kept by an insertion (`Apart.insert`) and by
taking out what stands between two given characters (`Apart.join`).
-/

namespace Py

inductive Source where
  | given
  | inserted
deriving DecidableEq

/-- A text that knows its sources. -/
abbrev Marked := List (Char × Source)

def chars (s : Marked) : List Char := s.map Prod.fst

def given (s : List Char) : Marked := s.map fun c => (c, .given)

def inserted (s : List Char) : Marked := s.map fun c => (c, .inserted)

theorem chars_append (s t : Marked) : chars (s ++ t) = chars s ++ chars t := List.map_append

theorem chars_given (s : List Char) : chars (given s) = s := by
  rw [chars, given, List.map_map]
  exact List.map_id s

theorem chars_inserted (s : List Char) : chars (inserted s) = s := by
  rw [chars, inserted, List.map_map]
  exact List.map_id s

theorem chars_eq_append {s : Marked} {u v : List Char} (h : chars s = u ++ v) :
    ∃ a b, s = a ++ b ∧ chars a = u ∧ chars b = v := List.map_eq_append_iff.mp h

theorem chars_infix {m s : Marked} (h : m <:+: s) : chars m <:+: chars s := h.map Prod.fst

/-- Within one line. -/
def OneLine (m : Marked) : Prop := ∀ x ∈ m, x.1 ≠ '\n'

def AllGiven (m : Marked) : Prop := ∀ x ∈ m, x.2 = .given

variable {patterns : List (List Char)}

def Apart (patterns : List (List Char)) (s : Marked) : Prop :=
  ∀ m, m <:+: s → OneLine m →
    AllGiven m ∨ (∀ x ∈ m, x.2 = .inserted) ∧ ∀ p ∈ patterns, ¬p <:+: chars m

theorem Apart.infix {s t : Marked} (h : Apart patterns t) (hst : s <:+: t) : Apart patterns s :=
  fun m hm => h m (hm.trans hst)

theorem apart_given (s : List Char) : Apart patterns (given s) := by
  intro m hm _
  refine Or.inl fun x hx => ?_
  obtain ⟨c, -, rfl⟩ := List.mem_map.mp (hm.subset hx)
  rfl

/-- A pattern is found in what was given only. -/
theorem Apart.occurrence {s m : Marked} (h : Apart patterns s) (hm : m <:+: s)
    (hp : chars m ∈ patterns) (hline : '\n' ∉ chars m) : AllGiven m := by
  have hone : OneLine m := by
    intro x hx heq
    exact hline (heq ▸ List.mem_map_of_mem hx)
  rcases h m hm hone with hgiven | ⟨-, hfree⟩
  · exact hgiven
  · exact absurd List.infix_rfl (hfree _ hp)

/-! ## Insertion -/

theorem infix_of_oneLine {m s t : Marked} {source : Source} (hone : OneLine m)
    (h : m <:+: s ++ ('\n', source) :: t) : m <:+: s ∨ m <:+: t :=
  infix_split (fun hmem => hone _ hmem rfl) h

theorem Apart.insert {s t : Marked} {new : List Char} (hs : Apart patterns s)
    (ht : Apart patterns t) (hnew : ∀ p ∈ patterns, ¬p <:+: new) :
    Apart patterns (s ++ inserted ('\n' :: new ++ ['\n']) ++ t) := by
  intro m hm hone
  have hshape : s ++ inserted ('\n' :: new ++ ['\n']) ++ t =
      s ++ ('\n', Source.inserted) :: (inserted new ++ ('\n', Source.inserted) :: t) := by
    simp [inserted]
  rw [hshape] at hm
  rcases infix_of_oneLine hone hm with hm | hm
  · exact hs m hm hone
  · rcases infix_of_oneLine hone hm with hm | hm
    · refine Or.inr ⟨fun x hx => ?_, fun p hp hin => ?_⟩
      · obtain ⟨c, -, rfl⟩ := List.mem_map.mp (hm.subset hx)
        rfl
      · have hchars := chars_infix hm
        rw [chars_inserted] at hchars
        exact hnew p hp (hin.trans hchars)
    · exact ht m hm hone

/-! ## Taking out -/

/-- What reaches the end of the text within a line was given. -/
def EndsGiven (s : Marked) : Prop := ∀ m, m <:+ s → OneLine m → AllGiven m

def StartsGiven (s : Marked) : Prop := ∀ m, m <+: s → OneLine m → AllGiven m

/-- A piece within a line that has a given character was given. -/
theorem Apart.given_of_mem {s m : Marked} (h : Apart patterns s) (hm : m <:+: s) (hone : OneLine m)
    {c : Char} (hc : (c, Source.given) ∈ m) : AllGiven m := by
  rcases h m hm hone with hgiven | ⟨hinserted, -⟩
  · exact hgiven
  · cases hinserted _ hc

theorem Apart.endsGiven {s t : Marked} {c : Char} (h : Apart patterns (s ++ (c, .given) :: t))
    (hc : c ≠ '\n') : EndsGiven s := by
  rintro m ⟨u, rfl⟩ hone
  have hin : m ++ [(c, Source.given)] <:+: u ++ m ++ (c, Source.given) :: t :=
    ⟨u, t, by simp⟩
  have hone' : OneLine (m ++ [(c, Source.given)]) := by
    intro x hx
    rcases List.mem_append.mp hx with hx | hx
    · exact hone x hx
    · rw [List.mem_singleton.mp hx]
      exact hc
  have hgiven := h.given_of_mem hin hone' (List.mem_append_right m (List.mem_singleton_self _))
  exact fun x hx => hgiven x (List.mem_append_left _ hx)

theorem Apart.startsGiven {s t : Marked} {c : Char} (h : Apart patterns (s ++ (c, .given) :: t))
    (hc : c ≠ '\n') : StartsGiven t := by
  rintro m ⟨u, rfl⟩ hone
  have hin : (c, Source.given) :: m <:+: s ++ (c, Source.given) :: (m ++ u) :=
    ⟨s, u, by simp⟩
  have hone' : OneLine ((c, Source.given) :: m) := by
    intro x hx
    rcases List.mem_cons.mp hx with rfl | hx
    · exact hc
    · exact hone x hx
  have hgiven := h.given_of_mem hin hone' (List.mem_cons_self ..)
  exact fun x hx => hgiven x (List.mem_cons_of_mem _ hx)

/-- Two texts one after the other, where they were cut at given characters. -/
theorem Apart.join {s t : Marked} (hs : Apart patterns s) (ht : Apart patterns t)
    (hends : EndsGiven s) (hstarts : StartsGiven t) : Apart patterns (s ++ t) := by
  intro m hm hone
  rcases List.infix_append_iff.mp hm with hm | hm | ⟨m₁, m₂, rfl, hm₁, hm₂⟩
  · exact hs m hm hone
  · exact ht m hm hone
  · refine Or.inl fun x hx => ?_
    rcases List.mem_append.mp hx with hx | hx
    · exact hends m₁ hm₁ (fun y hy => hone y (List.mem_append_left _ hy)) x hx
    · exact hstarts m₂ hm₂ (fun y hy => hone y (List.mem_append_right _ hy)) x hx

end Py
