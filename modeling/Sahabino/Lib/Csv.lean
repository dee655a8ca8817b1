import Mathlib.Data.List.Basic

/-!
# Python's `csv.reader`

The reader of the standard library with `doublequote` and without
`strict`: a state machine that is fed a line at a time. A record ends with
a line unless a quoted field is open, so a record may take several lines.

`takeLine_printRow` is the round trip: a row whose fields are all quoted,
with the quotes in them doubled, is read as what it was.
-/

namespace Csv

structure Dialect where
  delimiter : Char
  quotechar : Char
  /-- `csv.field_size_limit()` -/
  fieldLimit : Nat

/-- A delimiter and a quote that can be told apart, from each other and from a line end. -/
structure Dialect.Valid (d : Dialect) : Prop where
  delimiter_ne : d.delimiter ≠ d.quotechar
  delimiter_line : d.delimiter ≠ '\n' ∧ d.delimiter ≠ '\r'
  quote_line : d.quotechar ≠ '\n' ∧ d.quotechar ≠ '\r'

inductive ReaderState where
  | startRecord
  | startField
  | inField
  | inQuotedField
  | quoteInQuotedField
  | eatCrnl
deriving DecidableEq

structure Reader where
  state : ReaderState
  field : List Char
  fields : List String

inductive CsvError where
  | fieldLimit
  | newlineInField
deriving DecidableEq

/-- Before a record. -/
def Reader.fresh : Reader := ⟨.startRecord, [], []⟩

variable (d : Dialect)

/-- `parse_save_field` -/
def Reader.save (r : Reader) (state : ReaderState) : Reader :=
  ⟨state, [], r.fields ++ [String.ofList r.field]⟩

/-- `parse_add_char` -/
def Reader.add (r : Reader) (c : Char) (state : ReaderState) : Except CsvError Reader :=
  if d.fieldLimit ≤ r.field.length then .error .fieldLimit
  else .ok ⟨state, r.field ++ [c], r.fields⟩

def isLineEnd (c : Char) : Bool := c = '\n' || c = '\r'

/-- The first character of a field. -/
def Reader.stepField (r : Reader) (c : Char) : Except CsvError Reader :=
  if isLineEnd c then .ok (r.save .eatCrnl)
  else if c = d.quotechar then .ok { r with state := .inQuotedField }
  else if c = d.delimiter then .ok (r.save .startField)
  else r.add d c .inField

/-- `parse_process_char` -/
def Reader.step (r : Reader) (c : Char) : Except CsvError Reader :=
  match r.state with
  | .startRecord => if isLineEnd c then .ok { r with state := .eatCrnl } else r.stepField d c
  | .startField => r.stepField d c
  | .inField =>
      if isLineEnd c then .ok (r.save .eatCrnl)
      else if c = d.delimiter then .ok (r.save .startField)
      else r.add d c .inField
  | .inQuotedField =>
      if c = d.quotechar then .ok { r with state := .quoteInQuotedField }
      else r.add d c .inQuotedField
  | .quoteInQuotedField =>
      if c = d.quotechar then r.add d c .inQuotedField
      else if c = d.delimiter then .ok (r.save .startField)
      else if isLineEnd c then .ok (r.save .eatCrnl)
      else r.add d c .inField
  | .eatCrnl => if isLineEnd c then .ok r else .error .newlineInField

/-- The end of a line, after its characters. -/
def Reader.endLine (r : Reader) : Reader :=
  match r.state with
  | .startRecord | .inQuotedField => r
  | .startField | .inField | .quoteInQuotedField => r.save .startRecord
  | .eatCrnl => { r with state := .startRecord }

def Reader.feed (r : Reader) : List Char → Except CsvError Reader
  | [] => .ok r
  | c :: cs => (r.step d c).bind fun r' => r'.feed cs

/-- One more line: the record that it completes, if it does. -/
def Reader.takeLine (r : Reader) (line : String) :
    Except CsvError (Option (List String) × Reader) :=
  (r.feed d line.toList).bind fun r' =>
    if r'.endLine.state = .startRecord then .ok (some r'.endLine.fields, .fresh)
    else .ok (none, r'.endLine)

/-- The record that the end of the input leaves. -/
def Reader.finish (r : Reader) : Option (List String) :=
  if r.field ≠ [] ∨ r.state = .inQuotedField then some (r.save .startRecord).fields else none

/-- All records of some lines. -/
def Reader.records (r : Reader) : List String → Except CsvError (List (List String))
  | [] => .ok r.finish.toList
  | line :: lines =>
      (r.takeLine d line).bind fun (found, r') =>
        (r'.records lines).map fun rest => found.toList ++ rest

/-! ## Printing -/

/-- The characters of a field, with its quotes doubled. -/
def escaped (cs : List Char) : List Char :=
  cs.flatMap fun c => if c = d.quotechar then [c, c] else [c]

def quoted (value : String) : List Char :=
  d.quotechar :: escaped d value.toList ++ [d.quotechar]

/-- The fields of a row, quoted. -/
def joined : List String → List Char
  | [] => []
  | [value] => quoted d value
  | value :: rest => quoted d value ++ d.delimiter :: joined rest

def printRow (values : List String) : String := String.ofList (joined d values ++ ['\n'])

variable {d}

theorem escaped_of_noQuote {cs : List Char} (h : d.quotechar ∉ cs) : escaped d cs = cs := by
  induction cs with
  | nil => rfl
  | cons c cs ih =>
      have hc : c ≠ d.quotechar := fun hc => h (hc ▸ List.mem_cons_self ..)
      have hcs := ih fun hmem => h (List.mem_cons_of_mem c hmem)
      rw [escaped, List.flatMap_cons, if_neg hc]
      exact congrArg (c :: ·) hcs

/-! ## The round trip -/

theorem feed_append {r : Reader} {xs ys : List Char} :
    r.feed d (xs ++ ys) = (r.feed d xs).bind fun r' => r'.feed d ys := by
  induction xs generalizing r with
  | nil => rfl
  | cons c xs ih =>
      show (r.step d c).bind (fun r' => r'.feed d (xs ++ ys)) = _
      rw [Reader.feed]
      cases r.step d c with
      | error e => rfl
      | ok r' => exact ih

theorem feed_of_feed {r r' : Reader} {xs ys : List Char} (h : r.feed d xs = .ok r') :
    r.feed d (xs ++ ys) = r'.feed d ys := by
  rw [feed_append, h]
  rfl

/-- Within quotes every character is taken as it is. -/
theorem feed_escaped {cs : List Char} : ∀ {before : List Char} {fields : List String},
    before.length + cs.length ≤ d.fieldLimit →
      Reader.feed d ⟨.inQuotedField, before, fields⟩ (escaped d cs) =
        .ok ⟨.inQuotedField, before ++ cs, fields⟩ := by
  induction cs with
  | nil =>
      intro before fields _
      rw [List.append_nil]
      rfl
  | cons c cs ih =>
      intro before fields hlimit
      rw [List.length_cons] at hlimit
      have hroom : ¬d.fieldLimit ≤ before.length := by omega
      have hrest : Reader.feed d ⟨.inQuotedField, before ++ [c], fields⟩ (escaped d cs) =
          .ok ⟨.inQuotedField, before ++ c :: cs, fields⟩ := by
        rw [ih (by rw [List.length_append, List.length_singleton]; omega), List.append_assoc,
          List.singleton_append]
      rw [escaped, List.flatMap_cons, feed_append]
      by_cases hc : c = d.quotechar
      · have hstep : Reader.feed d ⟨.inQuotedField, before, fields⟩ [c, c] =
            .ok ⟨.inQuotedField, before ++ [c], fields⟩ := by
          simp [Reader.feed, Reader.step, Reader.add, hc, hroom, Except.bind]
        rw [if_pos hc, hstep]
        exact hrest
      · have hstep : Reader.feed d ⟨.inQuotedField, before, fields⟩ [c] =
            .ok ⟨.inQuotedField, before ++ [c], fields⟩ := by
          simp [Reader.feed, Reader.step, Reader.add, hc, hroom, Except.bind]
        rw [if_neg hc, hstep]
        exact hrest

/-- A quoted field, at the start of one. -/
theorem feed_quoted (hd : d.Valid) {value : String} (hlimit : value.length ≤ d.fieldLimit)
    {state : ReaderState} (hstate : state = .startRecord ∨ state = .startField)
    {fields : List String} :
    Reader.feed d ⟨state, [], fields⟩ (quoted d value) =
      .ok ⟨.quoteInQuotedField, value.toList, fields⟩ := by
  have hline : isLineEnd d.quotechar = false := by
    simp [isLineEnd, hd.quote_line]
  have hopen : Reader.step d ⟨state, [], fields⟩ d.quotechar =
      .ok ⟨.inQuotedField, [], fields⟩ := by
    rcases hstate with rfl | rfl
    · simp [Reader.step, Reader.stepField, hline]
    · simp [Reader.step, Reader.stepField, hline]
  have hbody : Reader.feed d ⟨.inQuotedField, [], fields⟩ (escaped d value.toList) =
      .ok ⟨.inQuotedField, [] ++ value.toList, fields⟩ :=
    feed_escaped (by rwa [List.length_nil, Nat.zero_add, String.length_toList])
  show (Reader.step d ⟨state, [], fields⟩ d.quotechar).bind
    (fun r' => r'.feed d (escaped d value.toList ++ [d.quotechar])) = _
  rw [hopen]
  show Reader.feed d _ (escaped d value.toList ++ [d.quotechar]) = _
  rw [feed_of_feed hbody]
  simp [Reader.feed, Reader.step, Except.bind]

theorem feed_joined (hd : d.Valid) {values : List String}
    (hlimit : ∀ value ∈ values, value.length ≤ d.fieldLimit) (hne : values ≠ [])
    {state : ReaderState} {fields : List String}
    (hstate : state = .startRecord ∨ state = .startField) :
    Reader.feed d ⟨state, [], fields⟩ (joined d values ++ ['\n']) =
      .ok ⟨.eatCrnl, [], fields ++ values⟩ := by
  induction values generalizing state fields with
  | nil => exact absurd rfl hne
  | cons value values ih =>
      have hfirst : Reader.feed d ⟨state, [], fields⟩ (quoted d value) =
          .ok ⟨.quoteInQuotedField, value.toList, fields⟩ :=
        feed_quoted hd (hlimit value (List.mem_cons_self ..)) hstate
      cases values with
      | nil =>
          have hquote : '\n' ≠ d.quotechar := hd.quote_line.1.symm
          have hdelimiter : '\n' ≠ d.delimiter := hd.delimiter_line.1.symm
          rw [joined, feed_of_feed hfirst]
          simp [Reader.feed, Reader.step, Reader.save, hquote, hdelimiter, isLineEnd, Except.bind]
      | cons next rest =>
          have hdelimiter : Reader.step d ⟨.quoteInQuotedField, value.toList, fields⟩ d.delimiter =
              .ok ⟨.startField, [], fields ++ [value]⟩ := by
            simp [Reader.step, Reader.save, hd.delimiter_ne]
          have hrest : Reader.feed d ⟨.startField, [], fields ++ [value]⟩
              (joined d (next :: rest) ++ ['\n']) =
                .ok ⟨.eatCrnl, [], (fields ++ [value]) ++ next :: rest⟩ :=
            ih (fun v hv => hlimit v (List.mem_cons_of_mem value hv)) (by simp) (Or.inr rfl)
          show Reader.feed d _ ((quoted d value ++ d.delimiter :: joined d (next :: rest)) ++
            ['\n']) = _
          rw [List.append_assoc, feed_of_feed hfirst]
          show (Reader.step d ⟨.quoteInQuotedField, value.toList, fields⟩ d.delimiter).bind
            (fun r' => r'.feed d (joined d (next :: rest) ++ ['\n'])) = _
          rw [hdelimiter]
          show Reader.feed d ⟨.startField, [], fields ++ [value]⟩
            (joined d (next :: rest) ++ ['\n']) = _
          rw [hrest, List.append_assoc, List.singleton_append]

/-- A printed row is read as its values. -/
theorem takeLine_printRow (hd : d.Valid) {values : List String}
    (hlimit : ∀ value ∈ values, value.length ≤ d.fieldLimit) :
    Reader.fresh.takeLine d (printRow d values) = .ok (some values, .fresh) := by
  unfold Reader.takeLine printRow
  rw [String.toList_ofList]
  cases values with
  | nil => rfl
  | cons value rest =>
      rw [Reader.fresh, feed_joined hd hlimit (by simp) (Or.inl rfl)]
      simp [Except.bind, Reader.endLine]

end Csv
