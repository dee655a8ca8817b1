import Sahabino.MetadataRows

/-!
# Relations of constants, as SQL reads them

What is written for the rows of an accepted manifest, read back: each
value is one constant with its type, the constant denotes the value, and
no reserved text stands anywhere in the relation (`SafeSelect`).
-/

namespace Sahabino

open Py (JsonVal Date DateTime)
open Sql (Token Reads isWord isBreak)
open scoped Py.Bounded

variable {lib : Stdlib}

/-! ## Denotation -/

inductive Constant where
  | null
  | number (n : ℤ)
  | truth (b : Bool)
  | text (s : List Char)
  | date (d : Date)
  | moment (t : DateTime)
deriving DecidableEq

/-- What SQL takes a constant of a type for. -/
def constant : SqlCast → Token → Option Constant
  | type, .word w =>
      if w = "NULL".toList then some .null
      else if type = .boolean ∧ w = "true".toList then some (.truth true)
      else if type = .boolean ∧ w = "false".toList then some (.truth false)
      else none
  | .integer, .number digits | .bigint, .number digits => some (.number (Py.number digits))
  | .text, .text s | .uuid, .text s => some (.text s)
  | .date, .text s => (Date.read s).map .date
  | .timestamptz, .text s => (DateTime.read s).map .moment
  | _, _ => none

/-- The constant that a checked value stands for. -/
def meaning (lib : Stdlib) : SqlCast → Cell → Option Constant
  | _, .json .null => some .null
  | .integer, .json (.int n) | .bigint, .json (.int n) => some (.number n)
  | .boolean, .json (.bool b) => some (.truth b)
  | .text, .json j | .uuid, .json j => some (.text (lib.str j).toList)
  | .date, .date d => some (.date d)
  | .timestamptz, .datetime t => some (.moment t)
  | _, _ => none

/-! ## Literals -/

theorem typeName_word (type : SqlCast) : isWord type.name = true := by
  cases type <;> decide

theorem typeName_plain (type : SqlCast) : ∀ c ∈ type.name, c ∉ special := by
  cases type <;> decide

theorem free_castTo (type : SqlCast) : Free (castTo type) :=
  ((free_of_plain (typeName_plain type)).cons separates_colon).cons separates_colon

theorem free_cast {s : List Char} (hs : Free s) (type : SqlCast) : Free (s ++ castTo type) :=
  hs.append ((free_of_plain (typeName_plain type)).cons separates_colon) separates_colon

theorem reads_cast {s : List Char} {token : Token} (hs : Reads s [token]) (type : SqlCast) :
    Reads (s ++ castTo type) [token, .cast, .word type.name] := hs.typed (typeName_word type)

theorem replace_quotes (s : List Char) : Py.replace "'".toList "''".toList s = Sql.doubled s := by
  induction s with
  | nil => rfl
  | cons c s ih =>
      change Py.replace ['\''] ['\'', '\''] (c :: s) = _
      rw [Py.replace_singleton_cons]
      change (if c = '\'' then ['\'', '\''] else [c]) ++ Py.replace "'".toList "''".toList s = _
      rw [ih]
      rfl

theorem prefix_of_doubled {p : List Char} (hp : '\'' ∉ p) {s : List Char}
    (h : p <+: Sql.doubled s) : p <+: s := by
  induction s generalizing p with
  | nil => exact h
  | cons c s ih =>
      cases p with
      | nil => exact List.nil_prefix
      | cons d p =>
          have hdoubled : Sql.doubled (c :: s) =
              (if c = '\'' then ['\'', '\''] else [c]) ++ Sql.doubled s := rfl
          rw [hdoubled] at h
          by_cases hc : c = '\''
          · rw [if_pos hc] at h
            have hd : d = '\'' := (List.cons_prefix_cons.mp h).1
            exact absurd (hd ▸ List.mem_cons_self ..) hp
          · rw [if_neg hc] at h
            obtain ⟨rfl, hrest⟩ := List.cons_prefix_cons.mp h
            exact List.cons_prefix_cons.mpr
              ⟨rfl, ih (fun hmem => hp (List.mem_cons_of_mem _ hmem)) hrest⟩

/-- A text without quotes that stands in a quoted text stands in the text itself. -/
theorem infix_of_doubled {p : List Char} (hp : '\'' ∉ p) {s : List Char}
    (h : p <:+: Sql.doubled s) : p <:+: s := by
  induction s with
  | nil => exact h
  | cons c s ih =>
      have hdoubled : Sql.doubled (c :: s) =
          (if c = '\'' then ['\'', '\''] else [c]) ++ Sql.doubled s := rfl
      rw [hdoubled] at h
      by_cases hc : c = '\''
      · rw [if_pos hc] at h
        rcases Py.infix_split (s := [] ++ ['\'']) hp h with h | h
        · rcases Py.infix_split hp h with h | h
          · exact h.trans (List.nil_infix)
          · exact h.trans (List.nil_infix)
        · exact (ih h).trans (List.suffix_cons c s).isInfix
      · rw [if_neg hc] at h
        rcases List.infix_cons_iff.mp h with hprefix | hinfix
        · have hhead : p <+: Sql.doubled (c :: s) := by
            rw [hdoubled, if_neg hc]
            exact hprefix
          exact (prefix_of_doubled hp hhead).isInfix
        · exact (ih hinfix).trans (List.suffix_cons c s).isInfix

theorem free_quoted {s : List Char} (h : Free s) : Free (Sql.quoted s) := by
  have hdoubled : Free (Sql.doubled s) := by
    intro p hp hin
    exact h p hp (infix_of_doubled (not_mem_pattern separates_quote hp) hin)
  have hnil : Free [] := free_of_plain (List.forall_mem_nil _)
  exact (hdoubled.append hnil separates_quote).cons separates_quote

theorem date_textOf (d : Date) : textOf lib (.date d) = d.isoformat := by
  refine Py.replace_of_not_mem fun hmem => ?_
  rcases Date.mem_isoformat hmem with h | h <;> cases h

theorem datetime_textOf (t : DateTime) : textOf lib (.datetime t) = t.clock ++ ['Z'] := by
  refine Py.replace_append fun hmem => ?_
  rcases DateTime.mem_clock hmem with h | h | h | h | h <;> cases h

theorem digit_plain {c : Char} (h : c.isDigit = true) : c ∉ special := by
  intro hmem
  revert h
  revert hmem c
  decide

theorem wordChar_plain {c : Char} (h : Sql.isWordChar c = true) : c ∉ special := by
  intro hmem
  revert h
  revert hmem c
  decide

theorem free_textOf {value : Cell} {type : SqlCast} (h : value.Fits lib type)
    (htype : type ∈ [.text, .uuid, .date, .timestamptz]) (hnull : value ≠ .null) :
    Free (textOf lib value) := by
  cases type with
  | text =>
      obtain ⟨j, rfl, hfree⟩ := h.resolve_left hnull
      exact hfree
  | uuid =>
      obtain ⟨u, rfl⟩ := h.resolve_left hnull
      refine free_of_plain fun c hc => ?_
      rw [textOf, Stdlib.str, JsonVal.toText, String.toList_ofList] at hc
      obtain ⟨i, -, hc⟩ := List.mem_flatMap.mp hc
      split at hc
      · rcases List.mem_cons.mp hc with rfl | hc
        · decide
        · exact List.mem_singleton.mp hc ▸ hexDigit_plain _
      · exact List.mem_singleton.mp hc ▸ hexDigit_plain _
  | date =>
      obtain ⟨d, rfl⟩ := h.resolve_left hnull
      rw [date_textOf]
      refine free_of_plain fun c hc => ?_
      rcases Date.mem_isoformat hc with h | rfl
      · exact digit_plain h
      · decide
  | timestamptz =>
      obtain ⟨t, rfl⟩ := h
      rw [datetime_textOf]
      refine free_of_plain fun c hc => ?_
      rcases List.mem_append.mp hc with hc | hc
      · rcases DateTime.mem_clock hc with h | rfl | rfl | rfl | rfl
        · exact digit_plain h
        all_goals decide
      · rw [List.mem_singleton.mp hc]
        decide
  | integer => exact absurd htype (by decide)
  | bigint => exact absurd htype (by decide)
  | boolean => exact absurd htype (by decide)

/-- A literal of a value that fits its type: one constant, which denotes the value. -/
structure SafeLiteral (lib : Stdlib) (value : Cell) (type : SqlCast) (s : List Char) : Prop where
  written : literal lib value type = .ok s
  reads : Reads s [literalToken lib value type, .cast, .word type.name]
  denotes : ∃ c, meaning lib type value = some c ∧
    constant type (literalToken lib value type) = some c
  free : Free s

theorem literalToken_null (type : SqlCast) :
    literalToken lib .null type = .word "NULL".toList := if_pos rfl

theorem safeLiteral_null (type : SqlCast) :
    SafeLiteral lib .null type ("NULL".toList ++ castTo type) where
  written := if_pos rfl
  reads := by
    rw [literalToken_null]
    exact reads_cast (Sql.reads_word rfl) type
  denotes := by
    rw [literalToken_null]
    refine ⟨.null, ?_, ?_⟩ <;> cases type <;> rfl
  free := free_cast (free_of_plain (by decide)) type

theorem toList_toString_int {n : ℤ} (h : 1 ≤ n) :
    (toString n).toList = Nat.toDigits 10 n.toNat := by
  obtain ⟨m, rfl⟩ := Int.eq_ofNat_of_zero_le (show 0 ≤ n by omega)
  change (toString m).toList = Nat.toDigits 10 m
  rw [Nat.toString_eq_ofList_toDigits, String.toList_ofList]

theorem safeLiteral_int {type : SqlCast} (htype : type = .integer ∨ type = .bigint) {n : ℤ}
    (hn : 1 ≤ n) : SafeLiteral lib (.json (.int n)) type ((toString n).toList ++ castTo type) := by
  have hdigits : (Nat.toDigits 10 n.toNat).all Char.isDigit = true := by
    rw [List.all_eq_true]
    intro c hc
    exact Nat.isDigit_of_mem_toDigits (by decide) (by decide) hc
  have htoken : literalToken lib (.json (.int n)) type = .number (Nat.toDigits 10 n.toNat) := by
    rcases htype with rfl | rfl <;> rfl
  have hreads : Reads (toString n).toList [.number (Nat.toDigits 10 n.toNat)] := by
    rw [toList_toString_int hn]
    exact Sql.reads_number Nat.toDigits_ne_nil hdigits
  have hfree : Free (toString n).toList := by
    rw [toList_toString_int hn]
    exact free_of_plain fun c hc => digit_plain (List.all_eq_true.mp hdigits c hc)
  refine ⟨?_, htoken ▸ reads_cast hreads type, ⟨.number n, ?_, ?_⟩, free_cast hfree type⟩
  · rcases htype with rfl | rfl <;> rfl
  · rcases htype with rfl | rfl <;> rfl
  · have hnumber : (Py.number (Nat.toDigits 10 n.toNat) : ℤ) = n := by
      rw [Py.number_toDigits, Int.toNat_of_nonneg (by omega)]
    rw [htoken]
    rcases htype with rfl | rfl <;> rw [constant, hnumber]

theorem safeLiteral_bool (b : Bool) : SafeLiteral lib (.json (.bool b)) .boolean
    ((if b then "true" else "false").toList ++ castTo .boolean) := by
  cases b with
  | true => exact ⟨rfl, reads_cast (Sql.reads_word rfl) .boolean, ⟨.truth true, rfl, rfl⟩,
      free_cast (free_of_plain (by decide)) .boolean⟩
  | false => exact ⟨rfl, reads_cast (Sql.reads_word rfl) .boolean,
      ⟨.truth false, rfl, rfl⟩, free_cast (free_of_plain (by decide)) .boolean⟩

theorem safeLiteral_quoted {value : Cell} {type : SqlCast}
    (htype : type ∈ [.text, .uuid, .date, .timestamptz]) (h : value.Fits lib type)
    (hnull : value ≠ .null) :
    SafeLiteral lib value type (Sql.quoted (textOf lib value) ++ castTo type) := by
  have htoken : literalToken lib value type = .text (textOf lib value) := by
    cases type <;> first | exact if_neg hnull | exact absurd htype (by decide)
  refine ⟨?_, htoken ▸ reads_cast (Sql.reads_quoted _) type, ?_,
    free_cast (free_quoted (free_textOf h htype hnull)) type⟩
  · have hquoted : "'".toList ++ Py.replace "'".toList "''".toList (textOf lib value) ++ "'".toList =
        Sql.quoted (textOf lib value) := by
      rw [replace_quotes]
      rfl
    rw [← hquoted]
    cases type <;> first | exact if_neg hnull | exact absurd htype (by decide)
  · rw [htoken]
    cases type with
    | text =>
        obtain ⟨j, rfl, -⟩ := h.resolve_left hnull
        refine ⟨.text (lib.str j).toList, ?_, rfl⟩
        cases j <;> first | rfl | exact absurd rfl hnull
    | uuid =>
        obtain ⟨u, rfl⟩ := h.resolve_left hnull
        exact ⟨_, rfl, rfl⟩
    | date =>
        obtain ⟨d, rfl⟩ := h.resolve_left hnull
        refine ⟨.date d, rfl, ?_⟩
        rw [date_textOf, constant, Date.read_isoformat, Option.map_some]
    | timestamptz =>
        obtain ⟨t, rfl⟩ := h
        refine ⟨.moment t, rfl, ?_⟩
        rw [datetime_textOf, constant, DateTime.read_clock, Option.map_some]
    | integer => exact absurd htype (by decide)
    | bigint => exact absurd htype (by decide)
    | boolean => exact absurd htype (by decide)

theorem safeLiteral {value : Cell} {type : SqlCast} (h : value.Fits lib type) :
    ∃ s, SafeLiteral lib value type s := by
  by_cases hnull : value = .null
  · rw [hnull]
    exact ⟨_, safeLiteral_null type⟩
  · cases type with
    | integer =>
        obtain ⟨n, hn, rfl⟩ := h
        exact ⟨_, safeLiteral_int (Or.inl rfl) hn⟩
    | bigint =>
        obtain ⟨n, hn, rfl⟩ := h
        exact ⟨_, safeLiteral_int (Or.inr rfl) hn⟩
    | boolean =>
        obtain ⟨b, rfl⟩ := h
        exact ⟨_, safeLiteral_bool b⟩
    | text => exact ⟨_, safeLiteral_quoted (by decide) h hnull⟩
    | uuid => exact ⟨_, safeLiteral_quoted (by decide) h hnull⟩
    | date => exact ⟨_, safeLiteral_quoted (by decide) h hnull⟩
    | timestamptz => exact ⟨_, safeLiteral_quoted (by decide) h hnull⟩

/-! ## Relations -/

theorem mapM_ok {ε α β : Type} {f : α → Except ε β} {P : α → β → Prop} {xs : List α}
    (h : ∀ x ∈ xs, ∃ y, f x = .ok y ∧ P x y) :
    ∃ ys, xs.mapM f = .ok ys ∧ List.Forall₂ P xs ys := by
  induction xs with
  | nil => exact ⟨[], rfl, .nil⟩
  | cons x xs ih =>
      obtain ⟨y, hy, hP⟩ := h x (List.mem_cons_self ..)
      obtain ⟨ys, hys, hrest⟩ := ih fun z hz => h z (List.mem_cons_of_mem _ hz)
      refine ⟨y :: ys, ?_, .cons hP hrest⟩
      rw [List.mapM_cons, hy, hys]
      rfl

/-- A piece of SQL without reserved texts. -/
def SafePiece (ts : List Token) (s : List Char) : Prop := Reads s ts ∧ Free s

theorem forall₂_safePiece {α : Type} {f : α → List Token} {xs : List α} {ys : List (List Char)}
    (h : List.Forall₂ (fun x y => SafePiece (f x) y) xs ys) :
    List.Forall₂ Reads ys (xs.map f) ∧ ∀ y ∈ ys, Free y := by
  induction h with
  | nil => exact ⟨.nil, List.forall_mem_nil _⟩
  | cons hpiece _ ih =>
      exact ⟨.cons hpiece.1 ih.1, List.forall_mem_cons.mpr ⟨hpiece.2, ih.2⟩⟩

theorem Free.intercalate {c : Char} {sep : List Char} (hc : separates c = true)
    (hsep : ∀ t, Free t → Free (sep ++ t)) {pieces : List (List Char)}
    (h : ∀ piece ∈ pieces, Free piece) : Free ((c :: sep).intercalate pieces) := by
  induction pieces with
  | nil => exact free_of_plain (List.forall_mem_nil _)
  | cons piece pieces ih =>
      cases pieces with
      | nil =>
          rw [List.intercalate_singleton]
          exact h piece (List.mem_singleton_self _)
      | cons piece' pieces =>
          rw [List.intercalate_cons_cons, List.append_assoc, List.cons_append]
          exact (h piece (List.mem_cons_self ..)).append
            (hsep _ (ih fun q hq => h q (List.mem_cons_of_mem _ hq))) hc

theorem free_name {name : String} (h : isWord name.toList = true) : Free name.toList := by
  refine free_of_plain fun c hc => wordChar_plain ?_
  cases hname : name.toList with
  | nil =>
      rw [hname] at hc
      cases hc
  | cons d s =>
      rw [hname] at hc h
      rw [isWord, Bool.and_eq_true] at h
      rcases List.mem_cons.mp hc with rfl | hc
      · rw [Sql.isWordChar, h.1, Bool.true_or]
      · exact List.all_eq_true.mp h.2 c hc

theorem safe_column {s : List Char} {ts : List Token} (h : SafePiece ts s) {name : String}
    (hname : isWord name.toList = true) :
    SafePiece (ts ++ [.word "AS".toList, .word name.toList]) (column s name) := by
  have hshape : column s name = s ++ ' ' :: ("AS".toList ++ ' ' :: name.toList) := by
    simp [column]
  rw [hshape]
  have hreads : Reads ("AS".toList ++ ' ' :: name.toList) [.word "AS".toList, .word name.toList] :=
    Reads.append (Sql.reads_word rfl) rfl ((Sql.reads_word hname).blank rfl)
  have hfree : Free ("AS".toList ++ ' ' :: name.toList) :=
    Free.append (free_of_plain (by decide)) (free_name hname) separates_blank
  exact ⟨h.1.append rfl (hreads.blank rfl), h.2.append hfree separates_blank⟩

theorem safe_columns {columns : List (List Char)} {tokens : List (List Token)}
    (hreads : List.Forall₂ Reads columns tokens) (hfree : ∀ s ∈ columns, Free s)
    (hne : columns ≠ []) :
    SafePiece (.word "SELECT".toList :: [Token.symbol ','].intercalate tokens)
      ("SELECT ".toList ++ join ", " columns) := by
  have hjoined : Reads (join ", " columns) ([Token.symbol ','].intercalate tokens) :=
    Reads.intercalate rfl (fun _ _ h => (h.blank rfl).comma) hreads hne
  have hjoinedFree : Free (join ", " columns) :=
    Free.intercalate separates_comma (fun _ h => h.cons separates_blank) hfree
  have hshape : "SELECT ".toList ++ join ", " columns = "SELECT".toList ++ ' ' :: join ", " columns := by
    simp
  rw [hshape]
  have hselect : Reads "SELECT".toList [.word "SELECT".toList] := Sql.reads_word rfl
  exact ⟨hselect.append rfl (hjoined.blank rfl),
    Free.append (free_of_plain (by decide)) hjoinedFree separates_blank⟩

variable {fields : List String} {types : String → SqlCast}

theorem safe_rowSelect (hfields : fields ≠ []) (hnames : ∀ name ∈ fields, isWord name.toList = true)
    {row : ReportRow} (h : row.Fits lib fields types) :
    ∃ s, rowSelect lib fields types row = .ok s ∧ SafePiece (rowTokens lib fields types row) s := by
  have hcolumn : ∀ name ∈ fields, ∃ s,
      (literal lib (row.get name) (types name)).map (column · name) = .ok s ∧
      SafePiece (columnTokens lib types row name) s := by
    intro name hname
    obtain ⟨s, hs⟩ := safeLiteral (h name hname)
    refine ⟨column s name, ?_, safe_column ⟨hs.reads, hs.free⟩ (hnames name hname)⟩
    rw [hs.written]
    rfl
  obtain ⟨columns, hcolumns, hsafe⟩ := mapM_ok hcolumn
  obtain ⟨hreads, hfree⟩ := forall₂_safePiece hsafe
  have hne : columns ≠ [] := by
    rintro rfl
    cases hsafe
    exact hfields rfl
  exact ⟨_, by rw [rowSelect, hcolumns]; rfl, safe_columns hreads hfree hne⟩

/-- A relation for rows: it is read as these constants, each of them denotes the value of its
row, and it has no reserved text. -/
structure SafeSelect (lib : Stdlib) (records : List ReportRow) (fields : List String)
    (types : String → SqlCast) (sql : List Char) : Prop where
  written : typedSelect lib records fields types = .ok sql
  lexed : Sql.lex sql = some (selectTokens lib records fields types)
  literals : ∀ row ∈ records, ∀ name ∈ fields, ∃ s,
    literal lib (row.get name) (types name) = .ok s ∧
    Sql.lex s = some [literalToken lib (row.get name) (types name), .cast, .word (types name).name] ∧
    ∃ c, meaning lib (types name) (row.get name) = some c ∧
      constant (types name) (literalToken lib (row.get name) (types name)) = some c
  free : Free sql

theorem safe_emptySelect (hfields : fields ≠ [])
    (hnames : ∀ name ∈ fields, isWord name.toList = true) :
    ∃ s, typedSelect lib [] fields types = .ok s ∧
      SafePiece (selectTokens lib [] fields types) s := by
  have hsafe : List.Forall₂ (fun name s => SafePiece (columnTokens lib types [] name) s) fields
      (fields.map fun name => column ("NULL".toList ++ castTo (types name)) name) := by
    rw [List.forall₂_map_right_iff, List.forall₂_same]
    intro name hname
    have hnull : SafeLiteral lib (ReportRow.get [] name) (types name) _ := safeLiteral_null (types name)
    exact safe_column ⟨hnull.reads, hnull.free⟩ (hnames name hname)
  obtain ⟨hreads, hfree⟩ := forall₂_safePiece hsafe
  obtain ⟨hrow, hrowFree⟩ := safe_columns hreads hfree (by simpa using hfields)
  refine ⟨_, if_pos rfl, ?_⟩
  have hshape : ∀ s : List Char, s ++ " WHERE false".toList =
      s ++ ' ' :: ("WHERE".toList ++ ' ' :: "false".toList) := fun s => by simp
  have hwhere : Reads ("WHERE".toList ++ ' ' :: "false".toList)
      [.word "WHERE".toList, .word "false".toList] :=
    Reads.append (Sql.reads_word rfl) rfl ((Sql.reads_word rfl).blank rfl)
  rw [hshape]
  exact ⟨hrow.append rfl (hwhere.blank rfl),
    hrowFree.append (free_of_plain (by decide)) separates_blank⟩

theorem safe_typedSelect (hfields : fields ≠ [])
    (hnames : ∀ name ∈ fields, isWord name.toList = true) {records : List ReportRow}
    (h : RowsFit lib fields types records) : ∃ sql, SafeSelect lib records fields types sql := by
  have hliterals : ∀ row ∈ records, ∀ name ∈ fields, ∃ s,
      literal lib (row.get name) (types name) = .ok s ∧
      Sql.lex s = some [literalToken lib (row.get name) (types name), .cast,
        .word (types name).name] ∧
      ∃ c, meaning lib (types name) (row.get name) = some c ∧
        constant (types name) (literalToken lib (row.get name) (types name)) = some c := by
    intro row hrow name hname
    obtain ⟨s, hs⟩ := safeLiteral (h row hrow name hname)
    exact ⟨s, hs.written, hs.reads.lex, hs.denotes⟩
  by_cases hnil : records = []
  · subst hnil
    obtain ⟨sql, hwritten, hreads, hfree⟩ := safe_emptySelect hfields hnames
    exact ⟨sql, hwritten, hreads.lex, hliterals, hfree⟩
  · obtain ⟨rows, hrows, hsafe⟩ := mapM_ok fun row hrow =>
      safe_rowSelect hfields hnames (h row hrow)
    obtain ⟨hreads, hfree⟩ := forall₂_safePiece hsafe
    have hne : rows ≠ [] := by
      rintro rfl
      cases hsafe
      exact hnil rfl
    have hunion : ∀ t us, Reads t us →
        Reads ("\nUNION ALL\n".toList ++ t) ([.word "UNION".toList, .word "ALL".toList] ++ us) := by
      intro t us ht
      have hall : Reads ("UNION".toList ++ ' ' :: ("ALL".toList ++ '\n' :: t))
          ([.word "UNION".toList] ++ ([.word "ALL".toList] ++ us)) :=
        Reads.append (Sql.reads_word rfl) rfl
          ((Reads.append (Sql.reads_word rfl) rfl (ht.blank rfl)).blank rfl)
      have hshape : "\nUNION ALL\n".toList ++ t =
          '\n' :: ("UNION".toList ++ ' ' :: ("ALL".toList ++ '\n' :: t)) := by simp
      rw [hshape]
      exact hall.blank rfl
    have hunionFree : ∀ t, Free t → Free ("UNION ALL\n".toList ++ t) := by
      intro t ht
      have hshape : "UNION ALL\n".toList ++ t = "UNION ALL".toList ++ '\n' :: t := by simp
      rw [hshape]
      exact Free.append (free_of_plain (by decide)) ht separates_newline
    have hwritten : typedSelect lib records fields types = .ok (join "\nUNION ALL\n" rows) := by
      rw [typedSelect, if_neg hnil, hrows]
      rfl
    have hlexed : Reads (join "\nUNION ALL\n" rows) (selectTokens lib records fields types) := by
      rw [selectTokens, if_neg hnil]
      exact Reads.intercalate rfl hunion hreads hne
    exact ⟨_, hwritten, hlexed.lex, hliterals, Free.intercalate separates_newline hunionFree hfree⟩

end Sahabino
