import Mathlib.Data.List.Sort
import Mathlib.Data.String.Basic
import Sahabino.Lib.PyText
import Sahabino.Lib.Substring

/-!
# JSON values

What `json.loads` gives, with the operations of Python on it. A dict is a
list of entries with different keys. Two values are equal (`Same`) when
they have the same canonical form: the entries of a dict in the order of
their keys, and every number, `True` and `False` included, by its value.
A float carries the text that `repr` gives for it. `NaN` of `json.loads`
is one object: it is in a list or a set that has it (`Same`), but it does
not equal itself (`Equal`).
-/

namespace Py

open Rel (Double)

/-- What the built-in operations below raise. -/
inductive Exc where
  | typeError
  | valueError
  | overflowError
  | keyError
  | attributeError
deriving DecidableEq

inductive JsonVal where
  | null
  | bool (b : Bool)
  | int (n : ℤ)
  | float (x : Double) (repr : String)
  | str (s : String)
  | arr (items : List JsonVal)
  | obj (fields : List (String × JsonVal))

namespace JsonVal

/-! ## Equality -/

mutual

def beq : JsonVal → JsonVal → Bool
  | null, null => true
  | bool a, bool b => a = b
  | int a, int b => a = b
  | float a r, float b s => a = b && r = s
  | str a, str b => a = b
  | arr a, arr b => beqItems a b
  | obj a, obj b => beqFields a b
  | _, _ => false
termination_by structural a => a

def beqItems : List JsonVal → List JsonVal → Bool
  | [], [] => true
  | a :: as, b :: bs => beq a b && beqItems as bs
  | _, _ => false
termination_by structural as => as

def beqFields : List (String × JsonVal) → List (String × JsonVal) → Bool
  | [], [] => true
  | (k, a) :: as, (l, b) :: bs => k = l && beq a b && beqFields as bs
  | _, _ => false
termination_by structural as => as

end

mutual

theorem beq_iff : ∀ a b : JsonVal, beq a b = true ↔ a = b
  | null, b => by cases b <;> simp [beq]
  | bool a, b => by cases b <;> simp [beq]
  | int a, b => by cases b <;> simp [beq]
  | float a r, b => by cases b <;> simp [beq]
  | str a, b => by cases b <;> simp [beq]
  | arr a, b => by cases b <;> simp [beq, beqItems_iff a]
  | obj a, b => by cases b <;> simp [beq, beqFields_iff a]

theorem beqItems_iff : ∀ as bs : List JsonVal, beqItems as bs = true ↔ as = bs
  | [], bs => by cases bs <;> simp [beqItems]
  | a :: as, bs => by cases bs <;> simp [beqItems, beq_iff a, beqItems_iff as]

theorem beqFields_iff : ∀ as bs : List (String × JsonVal), beqFields as bs = true ↔ as = bs
  | [], bs => by cases bs <;> simp [beqFields]
  | (k, a) :: as, bs => by
      cases bs <;> simp [beqFields, beq_iff a, beqFields_iff as, Prod.ext_iff, and_assoc]

end

instance : DecidableEq JsonVal := fun a b => decidable_of_iff _ (beq_iff a b)

mutual

/-- The canonical form. -/
def canon : JsonVal → JsonVal
  | bool b => float (.finite (if b then 1 else 0)) ""
  | int n => float (.finite n) ""
  | float x _ => float x ""
  | arr items => arr (canonItems items)
  | obj fields => obj ((canonFields fields).insertionSort fun a b => a.1 ≤ b.1)
  | j => j
termination_by structural j => j

def canonItems : List JsonVal → List JsonVal
  | [] => []
  | a :: as => canon a :: canonItems as
termination_by structural as => as

def canonFields : List (String × JsonVal) → List (String × JsonVal)
  | [] => []
  | (k, a) :: as => (k, canon a) :: canonFields as
termination_by structural as => as

end

/-- `a is b or a == b`, which is how `in` compares. -/
def Same (a b : JsonVal) : Prop := canon a = canon b

instance (a b : JsonVal) : Decidable (Same a b) := inferInstanceAs (Decidable (canon a = canon b))

theorem Same.refl (a : JsonVal) : Same a a := rfl

theorem Same.symm {a b : JsonVal} (h : Same a b) : Same b a := Eq.symm h

theorem Same.trans {a b c : JsonVal} (hab : Same a b) (hbc : Same b c) : Same a c := Eq.trans hab hbc

/-- `a == b`. -/
def Equal (a b : JsonVal) : Prop := Same a b ∧ canon a ≠ float .nan ""

instance (a b : JsonVal) : Decidable (Equal a b) :=
  inferInstanceAs (Decidable (Same a b ∧ canon a ≠ float .nan ""))

theorem same_str {a : JsonVal} {s : String} (h : Same a (str s)) : a = str s := by
  cases a <;> first | exact h | cases h

/-! ## Parts -/

def field (fields : List (String × JsonVal)) (name : String) : Option JsonVal := fields.lookup name

/-- `d.get(name)` of a dict. -/
def getD (fields : List (String × JsonVal)) (name : String) : JsonVal := (field fields name).getD null

/-- `if value`. -/
def truthy : JsonVal → Bool
  | null => false
  | bool b => b
  | int n => n ≠ 0
  | float x _ => x ≠ .finite 0
  | str s => s ≠ ""
  | arr items => !items.isEmpty
  | obj fields => !fields.isEmpty

/-- A list or a dict is not hashable. -/
def hashable : JsonVal → Bool
  | arr _ | obj _ => false
  | _ => true

/-- `str(value)`; `repr` is that of lists and dicts. -/
def toText (repr : JsonVal → String) : JsonVal → String
  | null => "None"
  | bool b => if b then "True" else "False"
  | int n => toString n
  | float _ text => text
  | str s => s
  | j => repr j

/-- `int(value)`. -/
def toInt : JsonVal → Except Exc ℤ
  | bool b => .ok (if b then 1 else 0)
  | int n => .ok n
  | float (.finite x) _ => .ok (x.num.tdiv x.den)
  | float .nan _ => .error .valueError
  | float .posInf _ | float .negInf _ => .error .overflowError
  | str s =>
      match intDecimal (strip s.toList) with
      | some n => .ok n
      | none => .error .valueError
  | null | arr _ | obj _ => .error .typeError

/-- A number as the order of numbers has it, the infinities outermost. -/
def rank : Double → Option (ℤ × ℚ)
  | .finite x => some (0, x)
  | .posInf => some (1, 0)
  | .negInf => some (-1, 0)
  | .nan => none

mutual

/-- `a < b` -/
def less : JsonVal → JsonVal → Except Exc Bool
  | str s, b =>
      match b with
      | str t => .ok (s < t)
      | _ => .error .typeError
  | arr items, b =>
      match b with
      | arr items' => lessItems items items'
      | _ => .error .typeError
  | a, b =>
      match canon a, canon b with
      | float x _, float y _ =>
          match rank x, rank y with
          | some (i, x), some (j, y) => .ok (i < j || (i = j && x < y))
          | _, _ => .ok false
      | _, _ => .error .typeError
termination_by structural a => a

def lessItems : List JsonVal → List JsonVal → Except Exc Bool
  | [], items => .ok (!items.isEmpty)
  | a :: as, items =>
      match items with
      | [] => .ok false
      | b :: bs => if Same a b then lessItems as bs else less a b
termination_by structural as => as

end

/-! ## Access -/

/-- `value.get(name)` -/
def get (value : JsonVal) (name : String) : Except Exc JsonVal :=
  match value with
  | obj fields => .ok (getD fields name)
  | _ => .error .attributeError

/-- `value.get(name, other)` -/
def getOr (value : JsonVal) (name : String) (other : JsonVal) : Except Exc JsonVal :=
  match value with
  | obj fields => .ok ((field fields name).getD other)
  | _ => .error .attributeError

/-- `value[name]` -/
def index (value : JsonVal) (name : String) : Except Exc JsonVal :=
  match value with
  | obj fields =>
      match field fields name with
      | some v => .ok v
      | none => .error .keyError
  | _ => .error .typeError

/-- `for x in value` -/
def elements : JsonVal → Except Exc (List JsonVal)
  | arr items => .ok items
  | obj fields => .ok (fields.map fun entry => str entry.1)
  | str s => .ok (s.toList.map fun c => str (String.ofList [c]))
  | _ => .error .typeError

/-- `text in value` -/
def textIn (text : String) : JsonVal → Except Exc Bool
  | str s => .ok (find text.toList s.toList).isSome
  | arr items => .ok (items.any fun item => Same item (str text))
  | obj fields => .ok (field fields text).isSome
  | _ => .error .typeError

/-- `value or other` -/
def orElse (value other : JsonVal) : JsonVal := if value.truthy then value else other

/-- `d[name] = value` -/
def set (name : String) (value : JsonVal) : List (String × JsonVal) → List (String × JsonVal)
  | [] => [(name, value)]
  | (k, v) :: fields =>
      if k = name then (k, value) :: fields else (k, v) :: set name value fields

theorem field_set_self (name : String) (value : JsonVal) (fields : List (String × JsonVal)) :
    field (set name value fields) name = some value := by
  induction fields with
  | nil => exact List.lookup_cons_self
  | cons entry fields ih =>
      obtain ⟨k, v⟩ := entry
      rw [set]
      split
      · rename_i hk
        rw [hk]
        exact List.lookup_cons_self
      · rename_i hk
        rw [field, List.lookup_cons, beq_eq_false_iff_ne.mpr (Ne.symm hk)]
        exact ih

theorem field_set_of_ne {name other : String} (h : other ≠ name) (value : JsonVal)
    (fields : List (String × JsonVal)) : field (set name value fields) other = field fields other := by
  induction fields with
  | nil =>
      rw [set, field, List.lookup_cons, beq_eq_false_iff_ne.mpr h]
      rfl
  | cons entry fields ih =>
      obtain ⟨k, v⟩ := entry
      rw [set]
      split
      · rename_i hk
        rw [field, field, List.lookup_cons, List.lookup_cons, hk, beq_eq_false_iff_ne.mpr h]
      · rw [field, field, List.lookup_cons, List.lookup_cons]
        split
        · rfl
        · exact ih

end JsonVal

end Py
