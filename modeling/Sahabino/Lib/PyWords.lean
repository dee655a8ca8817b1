import Sahabino.Lib.PyText

/-!
# Words of Python texts

`str.split()` without a separator and `" ".join`: together they fold runs
of white space into single blanks. A text is split in two at any white
space (`split_append_space`), and what stands before it decides what comes
out before the rest.
-/

namespace Py

/-- `str.split()`, in the middle of a word. -/
def splitFrom (word : List Char) : List Char → List (List Char)
  | [] => if word = [] then [] else [word]
  | c :: cs =>
      if isSpace c then if word = [] then splitFrom [] cs else word :: splitFrom [] cs
      else splitFrom (word ++ [c]) cs

/-- `str.split()`. -/
def split (s : List Char) : List (List Char) := splitFrom [] s

/-- `" ".join(words)`. -/
def joinWords : List (List Char) → List Char
  | [] => []
  | [word] => word
  | word :: words => word ++ ' ' :: joinWords words

/-- The words with a blank after each of them. -/
def spaced (words : List (List Char)) : List Char := (words.map (· ++ [' '])).flatten

/-- No white space at all. -/
def Solid (s : List Char) : Prop := ∀ c ∈ s, isSpace c = false

-- by the list: there is also an instance that goes through all characters
instance (s : List Char) : Decidable (Solid s) := List.decidableBAll (isSpace · = false) s

theorem Solid.append {s t : List Char} (hs : Solid s) (ht : Solid t) : Solid (s ++ t) := by
  intro c hc
  rcases List.mem_append.mp hc with hc | hc
  · exact hs c hc
  · exact ht c hc

theorem Solid.cons {c : Char} {s : List Char} (hc : isSpace c = false) (hs : Solid s) :
    Solid (c :: s) := by
  intro d hd
  rcases List.mem_cons.mp hd with rfl | hd
  · exact hc
  · exact hs d hd

theorem splitFrom_append_space {c : Char} (hc : isSpace c = true) (s t : List Char) :
    ∀ word, splitFrom word (s ++ c :: t) = splitFrom word s ++ split t := by
  induction s with
  | nil =>
      intro word
      simp only [List.nil_append, splitFrom, hc, if_true, split]
      split <;> rfl
  | cons a s ih =>
      intro word
      simp only [List.cons_append, splitFrom]
      split
      · split
        · exact ih []
        · rw [ih [], List.cons_append]
      · exact ih (word ++ [a])

theorem split_append_space {c : Char} (hc : isSpace c = true) (s t : List Char) :
    split (s ++ c :: t) = split s ++ split t :=
  splitFrom_append_space hc s t []

theorem splitFrom_solid {s : List Char} (hs : Solid s) (t : List Char) :
    ∀ word, splitFrom word (s ++ t) = splitFrom (word ++ s) t := by
  induction s with
  | nil =>
      intro word
      rw [List.nil_append, List.append_nil]
  | cons a s ih =>
      intro word
      have ha := hs a List.mem_cons_self
      simp only [List.cons_append, splitFrom, ha, Bool.false_eq_true, if_false]
      rw [ih (fun c hc => hs c (List.mem_cons_of_mem a hc)), List.append_assoc,
        List.singleton_append]

theorem splitFrom_of_ne_nil (s : List Char) : ∀ {word}, word ≠ [] →
    ∃ rest words, splitFrom word s = (word ++ rest) :: words := by
  induction s with
  | nil =>
      intro word hword
      exact ⟨[], [], by rw [splitFrom, if_neg hword, List.append_nil]⟩
  | cons a s ih =>
      intro word hword
      rw [splitFrom]
      split
      · exact ⟨[], splitFrom [] s, by rw [List.append_nil]⟩
      · obtain ⟨rest, words, heq⟩ := ih (List.append_ne_nil_of_left_ne_nil hword [a])
        exact ⟨a :: rest, words, by rw [heq, List.append_assoc, List.singleton_append]⟩

/-- A text that begins with something solid has it at the front of its first word. -/
theorem split_solid {s : List Char} (hs : Solid s) (hne : s ≠ []) (t : List Char) :
    ∃ rest words, split (s ++ t) = (s ++ rest) :: words := by
  rw [split, splitFrom_solid hs, List.nil_append]
  exact splitFrom_of_ne_nil t hne

theorem joinWords_cons_cons (first second : List Char) (words : List (List Char)) :
    joinWords (first :: second :: words) = first ++ ' ' :: joinWords (second :: words) := rfl

theorem joinWords_cons_prefix (s rest : List Char) (words : List (List Char)) :
    ∃ t, joinWords ((s ++ rest) :: words) = s ++ t := by
  cases words with
  | nil => exact ⟨rest, rfl⟩
  | cons word words =>
      exact ⟨rest ++ ' ' :: joinWords (word :: words), by rw [joinWords_cons_cons, List.append_assoc]⟩

theorem joinWords_append (words : List (List Char)) (word : List Char)
    (words' : List (List Char)) :
    joinWords (words ++ word :: words') = spaced words ++ joinWords (word :: words') := by
  induction words with
  | nil => rfl
  | cons first words ih =>
      have hne : words ++ word :: words' ≠ [] := List.append_ne_nil_of_right_ne_nil _ (by simp)
      obtain ⟨second, rest, heq⟩ := List.exists_cons_of_ne_nil hne
      rw [List.cons_append, heq, joinWords_cons_cons, ← heq, ih]
      simp [spaced]

end Py
