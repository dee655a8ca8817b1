import Mathlib.Algebra.Order.Ring.Rat

/-!
# Column domains

What a PostgreSQL column takes: the values of its type, `NULL` if it is
nullable, and of these the ones its `CHECK` constraints hold for. A check
of `NULL` is unknown, and an unknown check passes.

Doubles are ordered twice. A comparison with a NaN is false in IEEE
arithmetic, so a test for a value that is *too small* or *too large* lets
it through; PostgreSQL sorts NaN above everything.
-/

namespace Rel

/-! ## Doubles -/

/-- Every finite double is a rational; nothing here rounds. -/
inductive Double where
  | finite (x : ℚ)
  | posInf
  | negInf
  | nan
deriving DecidableEq

namespace Double

/-- IEEE `x < b`. -/
def below (b : ℚ) : Double → Bool
  | finite x => decide (x < b)
  | negInf => true
  | posInf | nan => false

/-- IEEE `x > b`. -/
def above (b : ℚ) : Double → Bool
  | finite x => decide (b < x)
  | posInf => true
  | negInf | nan => false

/-- IEEE `x >= b`. -/
def atLeast (b : ℚ) (x : Double) : Bool := x.above b || x = finite b

/-- IEEE `x <= b`. -/
def atMost (b : ℚ) (x : Double) : Bool := x.below b || x = finite b

/-- IEEE `x < y`. -/
def less : Double → Double → Bool
  | finite x, y => y.above x
  | negInf, y => y ≠ negInf && y ≠ nan
  | posInf, _ | nan, _ => false

/-- `x >= b` in PostgreSQL. -/
def sqlAtLeast (b : ℚ) : Double → Bool
  | finite x => decide (b ≤ x)
  | posInf | nan => true
  | negInf => false

/-- `x <= b` in PostgreSQL. -/
def sqlAtMost (b : ℚ) : Double → Bool
  | finite x => decide (x ≤ b)
  | negInf => true
  | posInf | nan => false

end Double

/-! ## Types, checks and columns -/

inductive SqlType where
  | uuid
  | text
  | boolean
  | smallint
  | integer
  | bigint
  | double
  | date
  | timestamptz
  | jsonb
deriving DecidableEq

/-- A value to be stored. `scalar` stands for any value of a type that the
program's own type does not exceed, such as a UUID or a date; `json` for an
array of strings. -/
inductive Value where
  | null
  | int (n : Int)
  | double (x : Double)
  | text (s : String)
  | json (strings : List String)
  | scalar (type : SqlType)

/-- Without U+0000, which neither `text` nor `jsonb` can hold. -/
def nulFree (s : String) : Bool := !s.toList.contains (Char.ofNat 0)

def SqlType.holds : SqlType → Value → Bool
  | smallint, .int n => decide (-2 ^ 15 ≤ n ∧ n < 2 ^ 15)
  | integer, .int n => decide (-2 ^ 31 ≤ n ∧ n < 2 ^ 31)
  | bigint, .int n => decide (-2 ^ 63 ≤ n ∧ n < 2 ^ 63)
  | double, .double _ => true
  | text, .text s => nulFree s
  | jsonb, .json strings => strings.all nulFree
  | type, .scalar type' => type = type'
  | _, _ => false

inductive Check where
  | atLeast (lo : Int)
  | above (lo : Int)
  | between (lo hi : Int)
  | oneOf (texts : List String)

def Check.holds : Check → Value → Bool
  | _, .null => true
  | atLeast lo, .int n => decide (lo ≤ n)
  | atLeast lo, .double x => x.sqlAtLeast lo
  | above lo, .int n => decide (lo < n)
  | between lo hi, .int n => decide (lo ≤ n ∧ n ≤ hi)
  | between lo hi, .double x => x.sqlAtLeast lo && x.sqlAtMost hi
  | oneOf texts, .text s => texts.contains s
  | _, _ => false

structure Column where
  name : String
  type : SqlType
  nullable : Bool
  checks : List Check

def Column.accepts (c : Column) : Value → Bool
  | .null => c.nullable
  | v => c.type.holds v && c.checks.all fun k => k.holds v

/-- A tuple for these columns, value by value under the columns' names. -/
def accepted : List Column → List (String × Value) → Bool
  | [], [] => true
  | c :: columns, (name, v) :: tuple => c.name = name && c.accepts v && accepted columns tuple
  | _, _ => false

end Rel
