import Mathlib.Data.List.Basic

/-!
# The tokens of an SQL text

A reader of SQL as far as constants need it: words, digits, string
constants in standard quoting (a quote in a string is doubled, a backslash
is a character like any other), casts, comments of both kinds. What
changes how a string is read - a prefix before the quote, a dollar quote,
a quoted identifier - is not read at all.

The reader goes from character to character, so it can be run on a text
piece by piece. `Reads s ts` says that `s` gives the tokens `ts` wherever
a blank, a comma or a colon follows it; such pieces can be put together
(`Reads.append`). String constants that SQL joins across lines are
separate tokens here.
-/

namespace Sql

inductive Token where
  | word (w : List Char)
  | number (digits : List Char)
  | text (s : List Char)
  | cast
  | symbol (c : Char)
deriving DecidableEq

/-- What has been read of the token that is not complete. -/
inductive Mode where
  | blank
  | word (w : List Char)
  | number (digits : List Char)
  | text (s : List Char)
  /-- after a quote in or at the end of a string -/
  | quote (s : List Char)
  | colon
  | slash
  | dash
  | lineComment
  | blockComment (depth : Nat)
  | commentStar (depth : Nat)
  | commentSlash (depth : Nat)

def isBlank (c : Char) : Bool := c = ' ' || c = '\n' || c = '\t' || c = '\r'

/-- Letters of other scripts may start a word, too. -/
def isWordStart (c : Char) : Bool := c.isAlpha || c = '_' || 128 ≤ c.toNat

def isWordChar (c : Char) : Bool := isWordStart c || c.isDigit

/-- A character between two tokens. -/
def enter (c : Char) : Option (List Token × Mode) :=
  if isBlank c then some ([], .blank)
  else if c = '\'' then some ([], .text [])
  else if c = ':' then some ([], .colon)
  else if c = '/' then some ([], .slash)
  else if c = '-' then some ([], .dash)
  else if isWordStart c then some ([], .word [c])
  else if c.isDigit then some ([], .number [c])
  else if c = '\x22' || c = '$' || c = '\x5c' || c = '\x00' then none
  else some ([.symbol c], .blank)

/-- A character after a complete token. -/
def after (token : Token) (c : Char) : Option (List Token × Mode) :=
  (enter c).map fun r => (token :: r.1, r.2)

def step : Mode → Char → Option (List Token × Mode)
  | .blank, c => enter c
  | .word w, c =>
      if isWordChar c then some ([], .word (w ++ [c]))
      else if c = '\'' || c = '$' then none
      else after (.word w) c
  | .number digits, c =>
      if c.isDigit then some ([], .number (digits ++ [c]))
      else if isWordStart c || c = '.' then none
      else after (.number digits) c
  | .text s, c => if c = '\'' then some ([], .quote s) else some ([], .text (s ++ [c]))
  | .quote s, c => if c = '\'' then some ([], .text (s ++ ['\''])) else after (.text s) c
  | .colon, c => if c = ':' then some ([.cast], .blank) else after (.symbol ':') c
  | .slash, c => if c = '*' then some ([], .blockComment 0) else after (.symbol '/') c
  | .dash, c => if c = '-' then some ([], .lineComment) else after (.symbol '-') c
  | .lineComment, c => some ([], if c = '\n' then .blank else .lineComment)
  | .blockComment depth, c =>
      some ([], if c = '*' then .commentStar depth
        else if c = '/' then .commentSlash depth else .blockComment depth)
  | .commentStar depth, c =>
      some ([], if c = '/' then (if depth = 0 then .blank else .blockComment (depth - 1))
        else if c = '*' then .commentStar depth else .blockComment depth)
  | .commentSlash depth, c =>
      some ([], if c = '*' then .blockComment (depth + 1)
        else if c = '/' then .commentSlash depth else .blockComment depth)

/-- The tokens that are completed by the end of a text; a string or a comment must not be
open there. -/
def finish : Mode → Option (List Token)
  | .blank | .lineComment => some []
  | .word w => some [.word w]
  | .number digits => some [.number digits]
  | .quote s => some [.text s]
  | .colon => some [.symbol ':']
  | .slash => some [.symbol '/']
  | .dash => some [.symbol '-']
  | .text _ | .blockComment _ | .commentStar _ | .commentSlash _ => none

def run : Mode → List Char → Option (List Token × Mode)
  | m, [] => some ([], m)
  | m, c :: s => (step m c).bind fun r => (run r.2 s).map fun r' => (r.1 ++ r'.1, r'.2)

/-- The tokens of a text. -/
def lex (s : List Char) : Option (List Token) :=
  (run .blank s).bind fun r => (finish r.2).map (r.1 ++ ·)

theorem run_append (s t : List Char) : ∀ m, run m (s ++ t) =
    (run m s).bind fun r => (run r.2 t).map fun r' => (r.1 ++ r'.1, r'.2) := by
  induction s with
  | nil =>
      intro m
      simp [run]
  | cons c s ih =>
      intro m
      rw [List.cons_append, run, run]
      cases step m c with
      | none => rfl
      | some r =>
          simp only [Option.bind_some, ih]
          cases run r.2 s with
          | none => rfl
          | some r' => simp [Function.comp_def, List.append_assoc]

/-! ## Pieces -/

/-- What may follow a piece: it completes a word, a number or a string. -/
def isBreak (c : Char) : Bool := c = ' ' || c = '\n' || c = ',' || c = ':'

/-- What a break completes. -/
def pending : Mode → Option (List Token)
  | .blank => some []
  | .word w => some [.word w]
  | .number digits => some [.number digits]
  | .quote s => some [.text s]
  | _ => none

theorem finish_of_pending {m : Mode} {ts : List Token} (h : pending m = some ts) :
    finish m = some ts := by
  cases m <;> first | exact h | cases h

theorem step_of_pending {m : Mode} {ts : List Token} (h : pending m = some ts) {c : Char}
    (hc : isBreak c = true) : step m c = (enter c).map fun r => (ts ++ r.1, r.2) := by
  have hcases : c = ' ' ∨ c = '\n' ∨ c = ',' ∨ c = ':' := by
    simpa [isBreak, or_assoc] using hc
  cases m with
  | blank =>
      obtain rfl := Option.some.inj h
      simp [step]
  | word w =>
      obtain rfl := Option.some.inj h
      rcases hcases with rfl | rfl | rfl | rfl <;> rfl
  | number digits =>
      obtain rfl := Option.some.inj h
      rcases hcases with rfl | rfl | rfl | rfl <;> rfl
  | quote s =>
      obtain rfl := Option.some.inj h
      rcases hcases with rfl | rfl | rfl | rfl <;> rfl
  | _ => cases h

/-- A piece that gives these tokens when a break follows. -/
def Reads (s : List Char) (ts : List Token) : Prop :=
  ∃ done m rest, run .blank s = some (done, m) ∧ pending m = some rest ∧ ts = done ++ rest

theorem Reads.lex {s : List Char} {ts : List Token} (h : Reads s ts) : lex s = some ts := by
  obtain ⟨done, m, rest, hrun, hpending, rfl⟩ := h
  rw [Sql.lex, hrun, Option.bind_some, finish_of_pending hpending]
  rfl

theorem Reads.append {s t : List Char} {ts us : List Token} (hs : Reads s ts) {c : Char}
    (hc : isBreak c = true) (ht : Reads (c :: t) us) : Reads (s ++ c :: t) (ts ++ us) := by
  obtain ⟨done, m, rest, hrun, hpending, rfl⟩ := hs
  obtain ⟨done', m', rest', hrun', hpending', rfl⟩ := ht
  refine ⟨done ++ rest ++ done', m', rest', ?_, hpending', (List.append_assoc ..).symm⟩
  rw [run_append, hrun, Option.bind_some, run, step_of_pending hpending hc]
  rw [run, step] at hrun'
  cases henter : enter c with
  | none =>
      rw [henter] at hrun'
      cases hrun'
  | some r =>
      rw [henter, Option.bind_some] at hrun'
      obtain ⟨r', hr', hpair⟩ := Option.map_eq_some_iff.mp hrun'
      obtain ⟨rfl, rfl⟩ := Prod.mk.inj hpair
      simp [hr', List.append_assoc]

theorem Reads.blank {s : List Char} {ts : List Token} (h : Reads s ts) {c : Char}
    (hc : isBlank c = true) : Reads (c :: s) ts := by
  obtain ⟨done, m, rest, hrun, hpending, hts⟩ := h
  refine ⟨done, m, rest, ?_, hpending, hts⟩
  rw [run, step, enter, if_pos hc, Option.bind_some, hrun]
  rfl

theorem Reads.comma {s : List Char} {ts : List Token} (h : Reads s ts) :
    Reads (',' :: s) (.symbol ',' :: ts) := by
  obtain ⟨done, m, rest, hrun, hpending, rfl⟩ := h
  refine ⟨.symbol ',' :: done, m, rest, ?_, hpending, rfl⟩
  rw [run, show step .blank ',' = some ([.symbol ','], .blank) from rfl, Option.bind_some, hrun]
  rfl

theorem Reads.cast {s : List Char} {ts : List Token} (h : Reads s ts) :
    Reads (':' :: ':' :: s) (.cast :: ts) := by
  obtain ⟨done, m, rest, hrun, hpending, rfl⟩ := h
  refine ⟨.cast :: done, m, rest, ?_, hpending, rfl⟩
  rw [run, show step .blank ':' = some ([], .colon) from rfl, Option.bind_some, run,
    show step .colon ':' = some ([.cast], .blank) from rfl, Option.bind_some, hrun]
  rfl

/-- Pieces with the same separator between them, which begins with a break. -/
theorem Reads.intercalate {c : Char} {sep : List Char} {seps : List Token} (hc : isBreak c = true)
    (hsep : ∀ t us, Reads t us → Reads (c :: (sep ++ t)) (seps ++ us)) {pieces : List (List Char)}
    {tokens : List (List Token)} (h : List.Forall₂ Reads pieces tokens) (hne : pieces ≠ []) :
    Reads ((c :: sep).intercalate pieces) (seps.intercalate tokens) := by
  induction h with
  | nil => exact absurd rfl hne
  | @cons piece ts pieces tokens hpiece hrest ih =>
      cases hrest with
      | nil =>
          rw [List.intercalate_singleton, List.intercalate_singleton]
          exact hpiece
      | cons hpiece' hrest' =>
          rw [List.intercalate_cons_cons, List.intercalate_cons_cons, List.append_assoc,
            List.append_assoc, List.cons_append]
          exact hpiece.append hc (hsep _ _ (ih (List.cons_ne_nil _ _)))

/-- A name. -/
def isWord : List Char → Bool
  | [] => false
  | c :: s => isWordStart c && s.all isWordChar

theorem run_word {s : List Char} (h : s.all isWordChar = true) : ∀ w,
    run (.word w) s = some ([], .word (w ++ s)) := by
  induction s with
  | nil =>
      intro w
      simp [run]
  | cons c s ih =>
      intro w
      rw [List.all_cons, Bool.and_eq_true] at h
      rw [run, step, if_pos h.1, Option.bind_some, ih h.2]
      simp

theorem enter_wordStart {c : Char} (h : isWordStart c = true) :
    enter c = some ([], .word [c]) := by
  have hne : ∀ d : Char, isWordStart d = false → c ≠ d := by
    intro d hd hcd
    rw [hcd, hd] at h
    cases h
  have hblank : isBlank c = false := by
    simp [isBlank, hne ' ' rfl, hne '\n' rfl, hne '\t' rfl, hne '\r' rfl]
  simp [enter, h, hblank, hne '\'' rfl, hne ':' rfl, hne '/' rfl, hne '-' rfl]

theorem reads_word {w : List Char} (h : isWord w = true) : Reads w [.word w] := by
  cases w with
  | nil => cases h
  | cons c s =>
      rw [isWord, Bool.and_eq_true] at h
      refine ⟨[], .word (c :: s), [.word (c :: s)], ?_, rfl, rfl⟩
      rw [run, step, enter_wordStart h.1, Option.bind_some, run_word h.2]
      rfl

theorem run_number {s : List Char} (h : s.all Char.isDigit = true) : ∀ digits,
    run (.number digits) s = some ([], .number (digits ++ s)) := by
  induction s with
  | nil =>
      intro digits
      simp [run]
  | cons c s ih =>
      intro digits
      rw [List.all_cons, Bool.and_eq_true] at h
      rw [run, step, if_pos h.1, Option.bind_some, ih h.2]
      simp

theorem enter_digit {c : Char} (h : c.isDigit = true) : enter c = some ([], .number [c]) := by
  have hne : ∀ d : Char, d.isDigit = false → c ≠ d := by
    intro d hd hcd
    rw [hcd, hd] at h
    cases h
  have hblank : isBlank c = false := by
    simp [isBlank, hne ' ' rfl, hne '\n' rfl, hne '\t' rfl, hne '\r' rfl]
  have hstart : isWordStart c = false := by
    have hnat : c.toNat = c.val.toNat := rfl
    have hconst : 'A'.val.toNat = 65 ∧ 'a'.val.toNat = 97 ∧ '9'.val.toNat = 57 := ⟨rfl, rfl, rfl⟩
    have hunder : c ≠ '_' := hne '_' rfl
    simp only [Char.isDigit, ge_iff_le, UInt32.le_iff_toNat_le, Bool.and_eq_true,
      decide_eq_true_eq] at h
    delta isWordStart Char.isAlpha Char.isUpper Char.isLower
    simp only [ge_iff_le, UInt32.le_iff_toNat_le, Bool.or_eq_false_iff, Bool.and_eq_false_iff,
      decide_eq_false_iff_not]
    refine ⟨⟨?_, hunder⟩, ?_⟩ <;> omega
  simp [enter, h, hblank, hstart, hne '\'' rfl, hne ':' rfl, hne '/' rfl, hne '-' rfl]

theorem reads_number {digits : List Char} (hne : digits ≠ []) (h : digits.all Char.isDigit = true) :
    Reads digits [.number digits] := by
  cases digits with
  | nil => exact absurd rfl hne
  | cons c s =>
      rw [List.all_cons, Bool.and_eq_true] at h
      refine ⟨[], .number (c :: s), [.number (c :: s)], ?_, rfl, rfl⟩
      rw [run, step, enter_digit h.1, Option.bind_some, run_number h.2]
      rfl

/-! ## Strings -/

/-- Every quote twice. -/
def doubled (s : List Char) : List Char := s.flatMap fun c => if c = '\'' then ['\'', '\''] else [c]

/-- A string constant. -/
def quoted (s : List Char) : List Char := '\'' :: doubled s ++ ['\'']

theorem run_doubled (s : List Char) : ∀ before,
    run (.text before) (doubled s) = some ([], .text (before ++ s)) := by
  induction s with
  | nil =>
      intro before
      simp [doubled, run]
  | cons c s ih =>
      intro before
      have hcons : doubled (c :: s) = (if c = '\'' then ['\'', '\''] else [c]) ++ doubled s := rfl
      rw [hcons, run_append]
      by_cases hc : c = '\''
      · subst hc
        have hstep : run (.text before) ['\'', '\''] = some ([], .text (before ++ ['\''])) := rfl
        rw [if_pos rfl, hstep, Option.bind_some, ih]
        simp
      · have hstep : run (.text before) [c] = some ([], .text (before ++ [c])) := by
          simp [run, step, hc]
        rw [if_neg hc, hstep, Option.bind_some, ih]
        simp

/-- A quoted text is one token, and it is that text. -/
theorem reads_quoted (s : List Char) : Reads (quoted s) [.text s] := by
  refine ⟨[], .quote s, [.text s], ?_, rfl, rfl⟩
  rw [quoted, List.cons_append, run, show step .blank '\'' = some ([], .text []) from rfl,
    Option.bind_some, run_append, run_doubled, Option.bind_some, List.nil_append]
  rfl

/-- A constant with its type. -/
theorem Reads.typed {s w : List Char} {token : Token} (hs : Reads s [token])
    (hw : isWord w = true) : Reads (s ++ ':' :: ':' :: w) [token, .cast, .word w] :=
  hs.append rfl (reads_word hw).cast

end Sql
