import Mathlib.Algebra.Order.Ring.Rat
import Mathlib.Data.List.Infix
import Mathlib.Data.List.TakeWhile
import Sahabino.Lib.Columns

/-!
# Numbers in Python texts

What `str.strip`, `int` and `float` make of a text. `int(s, 0)` reads a
literal of the language (`0x1f`, `0b1`, no leading zeros), `int(s)` a
decimal with leading zeros; both take a sign, single underscores between
digits and the decimal digits of any script. `float` is exact here except
that a value too large for a double is an infinity.

Texts are lists of characters.
-/

namespace Py

/-! ## White space -/

/-- The Unicode property `White_Space`. -/
def isWhite (c : Char) : Bool :=
  (0x9 ≤ c.toNat && c.toNat ≤ 0xD)
    || [0x20, 0x85, 0xA0, 0x1680, 0x2028, 0x2029, 0x202F, 0x205F, 0x3000].contains c.toNat
    || (0x2000 ≤ c.toNat && c.toNat ≤ 0x200A)

/-- `str.isspace`, which also has the four separators of ASCII. -/
def isSpace (c : Char) : Bool := isWhite c || (0x1C ≤ c.toNat && c.toNat ≤ 0x1F)

def trim (blank : Char → Bool) (s : List Char) : List Char :=
  ((s.dropWhile blank).reverse.dropWhile blank).reverse

/-- `str.strip`. -/
def strip (s : List Char) : List Char := trim isSpace s

/-- `s.split(",", 1)[0]`. -/
def beforeComma (s : List Char) : List Char := s.takeWhile (· ≠ ',')

theorem mem_dropWhile_or (blank : Char → Bool) {s : List Char} {c : Char} (h : c ∈ s) :
    blank c = true ∨ c ∈ s.dropWhile blank := by
  induction s with
  | nil => cases h
  | cons a s ih =>
      rw [List.dropWhile_cons]
      split
      · rename_i ha
        rcases List.mem_cons.mp h with rfl | h
        · exact Or.inl ha
        · exact ih h
      · exact Or.inr h

/-- Only blanks are taken away. -/
theorem mem_trim_or (blank : Char → Bool) {s : List Char} {c : Char} (h : c ∈ s) :
    blank c = true ∨ c ∈ trim blank s := by
  rcases mem_dropWhile_or blank h with hblank | h
  · exact Or.inl hblank
  · rw [trim, List.mem_reverse]
    exact mem_dropWhile_or blank (List.mem_reverse.mpr h)

/-- A text whose stripped form has no comma is one value. -/
theorem infix_dropWhile {blank : Char → Bool} {pat s : List Char}
    (hhead : ∀ c ∈ pat.head?, blank c = false) (h : pat <:+: s) : pat <:+: s.dropWhile blank := by
  induction s with
  | nil => exact h
  | cons c s ih =>
      rw [List.dropWhile_cons]
      split
      · rename_i hblank
        rcases List.infix_cons_iff.mp h with hpre | hinfix
        · cases pat with
          | nil => exact List.nil_infix
          | cons p pat =>
              obtain ⟨rfl, -⟩ := List.cons_prefix_cons.mp hpre
              rw [hhead p rfl] at hblank
              cases hblank
        · exact ih hinfix
      · exact h

/-- What neither begins nor ends with a blank survives. -/
theorem infix_trim {blank : Char → Bool} {pat s : List Char}
    (hhead : ∀ c ∈ pat.head?, blank c = false) (hlast : ∀ c ∈ pat.getLast?, blank c = false)
    (h : pat <:+: s) : pat <:+: trim blank s := by
  rw [trim, ← List.reverse_reverse pat, List.reverse_infix]
  refine infix_dropWhile (fun c hc => hlast c ?_) (List.reverse_infix.mpr (infix_dropWhile hhead h))
  rwa [List.head?_reverse] at hc

theorem beforeComma_eq_self {s : List Char} (h : ',' ∉ strip s) : beforeComma s = s := by
  refine List.takeWhile_eq_self_iff.mpr fun c hc => ?_
  refine decide_eq_true fun heq => ?_
  subst heq
  rcases mem_trim_or isSpace hc with hblank | hmem
  · exact absurd hblank (by decide)
  · exact h hmem

/-! ## Digits -/

/-- The zeros of the decimal digits of all scripts (Unicode 15.0); each is followed
by its nine other digits. -/
def decimalZeros : List Nat :=
  [0x30, 0x660, 0x6F0, 0x7C0, 0x966, 0x9E6, 0xA66, 0xAE6, 0xB66, 0xBE6, 0xC66, 0xCE6, 0xD66, 0xDE6,
    0xE50, 0xED0, 0xF20, 0x1040, 0x1090, 0x17E0, 0x1810, 0x1946, 0x19D0, 0x1A80, 0x1A90, 0x1B50,
    0x1BB0, 0x1C40, 0x1C50, 0xA620, 0xA8D0, 0xA900, 0xA9D0, 0xA9F0, 0xAA50, 0xABF0, 0xFF10, 0x104A0,
    0x10D30, 0x11066, 0x110F0, 0x11136, 0x111D0, 0x112F0, 0x11450, 0x114D0, 0x11650, 0x116C0,
    0x11730, 0x118E0, 0x11950, 0x11C50, 0x11D50, 0x11DA0, 0x11F50, 0x16A60, 0x16AC0, 0x16B50,
    0x1D7CE, 0x1D7D8, 0x1D7E2, 0x1D7EC, 0x1D7F6, 0x1E140, 0x1E2F0, 0x1E4F0, 0x1E950, 0x1FBF0]

def decimalValue (c : Char) : Option Nat :=
  (decimalZeros.find? fun first => first ≤ c.toNat && c.toNat < first + 10).map (c.toNat - ·)

/-- Digits of other scripts are read as those of ASCII. -/
def toAsciiDigit (c : Char) : Char :=
  match decimalValue c with
  | some d => Char.ofNat (0x30 + d)
  | none => c

/-- The value of an ASCII digit or letter, if the base has it. -/
def digitValue (base : Nat) (c : Char) : Option Nat :=
  (if '0' ≤ c && c ≤ '9' then some (c.toNat - 0x30)
    else if 'a' ≤ c && c ≤ 'z' then some (c.toNat - 0x61 + 10)
    else if 'A' ≤ c && c ≤ 'Z' then some (c.toNat - 0x41 + 10)
    else none).filter (· < base)

/-- At least one digit, with single underscores between digits. -/
def digits (base : Nat) : List Char → Option (List Nat)
  | [] => none
  | [c] => (digitValue base c).map ([·])
  | c :: '_' :: rest =>
      (digitValue base c).bind fun d => (digits base rest).map (d :: ·)
  | c :: c' :: rest =>
      (digitValue base c).bind fun d => (digits base (c' :: rest)).map (d :: ·)

def ofDigits (base : Nat) (ds : List Nat) : Nat := ds.foldl (fun n d => n * base + d) 0

/-! ## Integers -/

/-- A sign and a magnitude. -/
def signed {α β : Type} (negate : β → β) (f : α → β) (read : List Char → Option α) :
    List Char → Option β
  | '+' :: s => (read s).map f
  | '-' :: s => (read s).map fun x => negate (f x)
  | s => (read s).map f

/-- `sys.get_int_max_str_digits()`, for bases that are not a power of two. -/
def maxStrDigits : Nat := 4300

def decimal (s : List Char) : Option Nat :=
  (digits 10 s).bind fun ds => if maxStrDigits < ds.length then none else some (ofDigits 10 ds)

/-- The digits after `0x`, `0o` or `0b`; one underscore may come first. -/
def prefixed (base : Nat) (s : List Char) : Option Nat :=
  let s := match s with
    | '_' :: rest => rest
    | s => s
  (digits base s).map (ofDigits base)

/-- An unsigned integer literal. A decimal one starts with `0` only if it is zero. -/
def literal : List Char → Option Nat
  | '0' :: 'x' :: s | '0' :: 'X' :: s => prefixed 16 s
  | '0' :: 'o' :: s | '0' :: 'O' :: s => prefixed 8 s
  | '0' :: 'b' :: s | '0' :: 'B' :: s => prefixed 2 s
  | '0' :: s => (decimal ('0' :: s)).filter (· = 0)
  | s => decimal s

/-- `int(s, 0)` of a stripped text. -/
def intLiteral (s : List Char) : Option ℤ :=
  signed (- ·) (fun n : Nat => (n : ℤ)) literal (s.map toAsciiDigit)

/-- `int(s)` of a stripped text. -/
def intDecimal (s : List Char) : Option ℤ :=
  signed (- ·) (fun n : Nat => (n : ℤ)) decimal (s.map toAsciiDigit)

/-! ## Floats -/

open Rel (Double)

namespace Double

/-- Half a unit in the last place above the largest double. -/
def overflow : ℚ := 2 ^ 1024 - 2 ^ 970

end Double

/-- A magnitude as a double. -/
def toDouble (x : ℚ) : Double := if x < Double.overflow then .finite x else .posInf

def negateDouble : Double → Double
  | .finite x => .finite (-x)
  | .posInf => .negInf
  | .negInf => .posInf
  | .nan => .nan

/-- An optional run of digits, and whether it is well formed. -/
def optionalDigits (s : List Char) : Option (List Nat) :=
  if s = [] then some [] else digits 10 s

/-- The digits of `12.5` and how many of them stand after the point. -/
def pointFloat (s : List Char) : Option (List Nat × Nat) :=
  let whole := s.takeWhile (· ≠ '.')
  match s.dropWhile (· ≠ '.') with
  | [] => (digits 10 whole).map (·, 0)
  | _ :: fraction =>
      (optionalDigits whole).bind fun w => (optionalDigits fraction).bind fun f =>
        if w = [] ∧ f = [] then none else some (w ++ f, f.length)

def isExponent (c : Char) : Bool := c = 'e' || c = 'E'

/-- An unsigned number with a point or an exponent. -/
def floatNumber (s : List Char) : Option Double :=
  (pointFloat (s.takeWhile fun c => !isExponent c)).bind fun m =>
    (match s.dropWhile fun c => !isExponent c with
      | [] => some 0
      | _ :: e => signed (- ·) (fun ds => (ofDigits 10 ds : ℤ)) (digits 10) e).map fun e : ℤ =>
        toDouble (ofDigits 10 m.1 * (10 : ℚ) ^ (e - m.2))

/-- An unsigned float, or one of its words in any case. -/
def floatMagnitude (s : List Char) : Option Double :=
  let word := s.map Char.toLower
  if word = "inf".toList ∨ word = "infinity".toList then some .posInf
  else if word = "nan".toList then some .nan
  else floatNumber s

/-- `float(s)`. -/
def float (s : List Char) : Option Double :=
  signed negateDouble id floatMagnitude ((trim isWhite s).map toAsciiDigit)

end Py
