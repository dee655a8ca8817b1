import Sahabino.RenderSql

/-!
# What an accepted manifest gives

A check that notes nothing leaves a value of the kind its column has
(`Fits`): a canonical UUID, a positive number, a truth value, a moment, a
day, or a text that has none of the reserved texts. Whatever the rest of
a manifest looks like, every row of a report without errors has such a
value in every column that is reported (`experimentRows_fit`,
`releaseRows_fit`).
-/

namespace Sahabino

open Py (JsonVal Date DateTime)
open Noted (note noteIf Clean clean_bind clean_noteIf clean_pure)
open scoped Py.Bounded

/-! ## Reserved texts -/

def patterns : List (List Char) := forbidden.map String.toList

/-- No reserved text stands in it. -/
def Free (s : List Char) : Prop := ∀ p ∈ patterns, ¬p <:+: s

/-- Every reserved text has one of these characters. -/
def special : List Char := "\x00\x7b\x7d[]/".toList

theorem patterns_special : ∀ p ∈ patterns, ∃ c ∈ p, c ∈ special := by decide

theorem free_of_plain {s : List Char} (h : ∀ c ∈ s, c ∉ special) : Free s := by
  intro p hp hin
  obtain ⟨c, hc, hspecial⟩ := patterns_special p hp
  exact h c (hin.subset hc) hspecial

theorem free_of_hasForbidden {s : List Char} (h : hasForbidden s = false) : Free s := by
  intro p hp hin
  obtain ⟨token, htoken, rfl⟩ := List.mem_map.mp hp
  have hnone := List.any_eq_false.mp h token htoken
  rw [Bool.not_eq_true, Option.isSome_eq_false_iff, Option.isNone_iff_eq_none,
    Py.find_eq_none_iff] at hnone
  exact hnone hin

/-- What no reserved text has may separate two texts. -/
def separates (c : Char) : Bool := patterns.all fun p => !p.contains c

theorem separators : ∀ c ∈ " \n,:'".toList, separates c = true := by decide +kernel

theorem separates_blank : separates ' ' = true := separators _ (by decide)

theorem separates_newline : separates '\n' = true := separators _ (by decide)

theorem separates_comma : separates ',' = true := separators _ (by decide)

theorem separates_colon : separates ':' = true := separators _ (by decide)

theorem separates_quote : separates '\'' = true := separators _ (by decide)

theorem not_mem_pattern {c : Char} (hc : separates c = true) {p : List Char} (hp : p ∈ patterns) :
    c ∉ p := by
  have hnot := List.all_eq_true.mp hc p hp
  simpa using hnot

theorem Free.append {s t : List Char} (hs : Free s) (ht : Free t) {c : Char}
    (hc : separates c = true) : Free (s ++ c :: t) := by
  intro p hp hin
  rcases Py.infix_split (not_mem_pattern hc hp) hin with hin | hin
  · exact hs p hp hin
  · exact ht p hp hin

theorem Free.cons {t : List Char} (ht : Free t) {c : Char} (hc : separates c = true) :
    Free (c :: t) := by
  have hnil : Free [] := free_of_plain (List.forall_mem_nil _)
  exact hnil.append ht hc

/-! ## Values -/

/-- What a column of a type may hold. -/
def Cell.Fits (lib : Stdlib) (value : Cell) : SqlCast → Prop
  | .text => value = .null ∨ ∃ j, value = .json j ∧ Free (lib.str j).toList
  | .uuid => value = .null ∨ ∃ u : UuidDigits, value = .json (.str (String.ofList u.text))
  | .integer | .bigint => ∃ n : ℤ, 1 ≤ n ∧ value = .json (.int n)
  | .boolean => ∃ b, value = .json (.bool b)
  | .timestamptz => ∃ t, value = .datetime t
  | .date => value = .null ∨ ∃ d, value = .date d

def ReportRow.Fits (lib : Stdlib) (fields : List String) (types : String → SqlCast) (row : ReportRow) : Prop :=
  ∀ name ∈ fields, (row.get name).Fits lib (types name)

variable {lib : Stdlib}

theorem fits_uuid {value : JsonVal} {label : String} {required : Bool} {j : JsonVal}
    (h : Clean (uuidField lib value label required) j) : (Cell.json j).Fits lib .uuid := by
  unfold uuidField at h
  split at h
  · rw [clean_pure] at h
    exact Or.inl (h ▸ rfl)
  · split at h
    · rename_i u _
      rw [clean_pure] at h
      exact Or.inr ⟨u, h ▸ rfl⟩
    · obtain ⟨_, hnote, -⟩ := clean_bind.mp h
      exact absurd hnote Noted.not_clean_note

theorem fits_positive {value : JsonVal} {text : String} {j : JsonVal}
    (h : Clean (positive value text) j) : ∃ n : ℤ, 1 ≤ n ∧ j = .int n := by
  unfold positive at h
  split at h
  · rename_i n _
    split at h
    · obtain ⟨_, hnote, -⟩ := clean_bind.mp h
      exact absurd hnote Noted.not_clean_note
    · rename_i hn
      rw [clean_pure] at h
      exact ⟨n, by omega, h.symm⟩
  · exact absurd h Noted.not_clean_raise
  · obtain ⟨_, hnote, -⟩ := clean_bind.mp h
    exact absurd hnote Noted.not_clean_note

theorem fits_utc {value : JsonVal} {label : String} {t : Option DateTime}
    (h : Clean (utcTime lib value label) t) : (Cell.ofDateTime t).Fits lib .timestamptz := by
  unfold utcTime at h
  simp only at h
  split at h
  · rename_i t' _
    rw [clean_pure] at h
    exact ⟨t', h ▸ rfl⟩
  · obtain ⟨_, hnote, -⟩ := clean_bind.mp h
    exact absurd hnote Noted.not_clean_note

theorem fits_ofDate (d : Option Date) : (Cell.ofDate d).Fits lib .date := by
  cases d with
  | none => exact Or.inl rfl
  | some d => exact Or.inr ⟨d, rfl⟩

theorem fits_bool (b : Bool) : (Cell.json (.bool b)).Fits lib .boolean := ⟨b, rfl⟩

theorem hexDigit_plain : ∀ d : Fin 16, hexDigit d ∉ special := by decide

/-- A name with a digest has no reserved text. -/
theorem fits_opaqueId {kind : String} (hkind : ∀ c ∈ kind.toList, c ∉ special)
    (values : List String) : (Cell.json (.str (opaqueId lib kind values))).Fits lib .text := by
  refine Or.inr ⟨_, rfl, free_of_plain ?_⟩
  intro c hc
  rw [Stdlib.str, JsonVal.toText, opaqueId, String.toList_append, String.toList_append,
    List.mem_append, List.mem_append] at hc
  rcases hc with (hc | hc) | hc
  · exact hkind c hc
  · revert c
    decide
  · rw [String.toList_ofList] at hc
    obtain ⟨i, -, rfl⟩ := List.mem_map.mp hc
    exact hexDigit_plain _

/-! ## Texts of a manifest -/

theorem rowOf_get (raw : Fields) (name : String) : (rowOf raw).get name = .json (JsonVal.getD raw name) := by
  unfold ReportRow.get JsonVal.getD JsonVal.field rowOf
  induction raw with
  | nil => rfl
  | cons entry raw ih =>
      rw [List.map_cons, List.lookup_cons, List.lookup_cons]
      split
      · rfl
      · exact ih

theorem mem_of_getD {raw : Fields} {name s : String} (h : JsonVal.getD raw name = .str s) :
    (name, JsonVal.str s) ∈ raw := by
  unfold JsonVal.getD JsonVal.field at h
  cases hlookup : raw.lookup name with
  | none =>
      rw [hlookup] at h
      cases h
  | some j =>
      rw [hlookup] at h
      obtain ⟨before, after, rfl, -⟩ := List.lookup_eq_some_iff.mp hlookup
      rw [show j = JsonVal.str s from h]
      exact List.mem_append_right _ (List.mem_cons_self ..)

theorem free_of_reject {raw : Fields} {place : String}
    (h : Clean (rejectTemplateControls raw place) ()) {name s : String}
    (hs : JsonVal.getD raw name = .str s) : Free s.toList := by
  have hentry := Noted.clean_forM h _ (mem_of_getD hs)
  simp only [clean_noteIf, Bool.not_eq_true] at hentry
  exact free_of_hasForbidden hentry

theorem fits_str {raw : Fields} {place : String} (h : Clean (rejectTemplateControls raw place) ())
    {name s : String} (hs : JsonVal.getD raw name = .str s) :
    ((rowOf raw).get name).Fits lib .text := by
  rw [rowOf_get, hs]
  exact Or.inr ⟨.str s, rfl, free_of_reject h hs⟩

theorem fits_filled {raw : Fields} {place : String}
    (h : Clean (rejectTemplateControls raw place) ()) {name : String}
    (hfilled : isFilled (JsonVal.getD raw name) = true) : ((rowOf raw).get name).Fits lib .text := by
  unfold isFilled at hfilled
  split at hfilled
  · rename_i s hs
    exact fits_str h hs
  · cases hfilled

theorem fits_isOneOf {raw : Fields} {place : String}
    (h : Clean (rejectTemplateControls raw place) ()) {names : List String} {name : String}
    (hone : isOneOf names (JsonVal.getD raw name) = true) : ((rowOf raw).get name).Fits lib .text := by
  unfold isOneOf at hone
  split at hone
  · rename_i s hs
    exact fits_str h hs
  · cases hone

theorem packageChar_plain {c : Char} (h : isPackageChar c = true) : c ∉ special := by
  intro hmem
  revert h
  revert hmem c
  decide

/-- A package has letters, digits, underscores and dots only. -/
theorem mem_package {s : List Char} (h : isPackage s = true) : ∀ c ∈ s, c ∉ special := by
  intro c hc
  unfold isPackage at h
  rw [Bool.and_eq_true] at h
  have hparts := List.all_eq_true.mp h.2
  have hjoin : ['.'].intercalate (s.splitOn '.') = s := List.intercalate_splitOn '.'
  rw [← hjoin] at hc
  rcases Py.mem_intercalate hc with hc | ⟨part, hpart, hc⟩
  · rw [List.mem_singleton.mp hc]
    decide
  · have hwords := hparts part hpart
    rw [Bool.and_eq_true] at hwords
    exact packageChar_plain (List.all_eq_true.mp hwords.2 c hc)

theorem fits_package {raw : Fields} {name : String}
    (h : isPackage (lib.str (JsonVal.getD raw name)).toList = true) :
    ((rowOf raw).get name).Fits lib .text := by
  rw [rowOf_get]
  exact Or.inr ⟨_, rfl, free_of_plain (mem_package h)⟩

/-! ## Rows -/

theorem fits_front {front row : ReportRow} {name : String} {v : Cell} {type : SqlCast}
    (hlookup : front.lookup name = some v) (h : v.Fits lib type) :
    (ReportRow.get (front ++ row) name).Fits lib type := by
  rw [ReportRow.get, List.lookup_append, hlookup, Option.some_or, Option.getD_some]
  exact h

theorem fits_rest {front row : ReportRow} {name : String} {type : SqlCast}
    (hlookup : front.lookup name = none) (h : (row.get name).Fits lib type) :
    (ReportRow.get (front ++ row) name).Fits lib type := by
  rw [ReportRow.get, List.lookup_append, hlookup, Option.none_or]
  exact h

theorem captureRow_fits {devices profiles : List String} {place : String} {raw : Fields} {row : ReportRow}
    (h : Clean (captureRow lib devices profiles place raw) row) :
    row.Fits lib experimentReportFields expTypes := by
  simp only [captureRow, clean_bind, clean_noteIf, clean_pure, not_not] at h
  obtain ⟨_, hreject, captureId, hcapture, experimentId, hexperiment, sessionId, hsession, pairId,
    hpair, trialNumber, htrial, size, hsize, started, hstarted, finished, hfinished, _, _, completed,
    _, isolated, _, verified, _, _, _, _, _, _, _, _, _, _, hphase, _, _, _, _, _, _, _, _, _, _, _,
    htexts, rfl⟩ := h
  obtain ⟨trial, htrialPos, rfl⟩ := fits_positive htrial
  obtain ⟨bytes, hbytesPos, rfl⟩ := fits_positive hsize
  have htext : ∀ name ∈ captureTexts, ((rowOf raw).get name).Fits lib .text := by
    intro name hname
    have hfilled := Noted.clean_forM htexts name hname
    rw [clean_noteIf, not_not] at hfilled
    exact fits_filled hreject hfilled
  simp only [captureTexts, List.forall_mem_cons] at htext
  obtain ⟨hpackage, hscenario, hversion, hdevice, handroid, hnetwork, hprofile, htool, htoolVersion,
    -, -⟩ := htext
  simp only [ReportRow.Fits, experimentReportFields, List.forall_mem_cons]
  exact ⟨fits_front rfl (fits_uuid hcapture), fits_front rfl (fits_uuid hexperiment),
    fits_front rfl (fits_uuid hsession), fits_front rfl ⟨trial, htrialPos, rfl⟩,
    fits_front rfl (fits_uuid hpair), fits_front rfl (Or.inl rfl),
    fits_front rfl (fits_opaqueId (by decide) _), fits_rest rfl hpackage, fits_rest rfl hscenario,
    fits_front rfl (fits_utc hstarted), fits_front rfl (fits_utc hfinished),
    fits_front rfl (fits_bool completed), fits_front rfl ⟨bytes, hbytesPos, rfl⟩,
    fits_rest rfl hversion, fits_rest rfl hdevice, fits_rest rfl handroid, fits_rest rfl hnetwork,
    fits_rest rfl hprofile, fits_rest rfl htool, fits_rest rfl htoolVersion,
    fits_front rfl (fits_bool isolated), fits_front rfl (fits_bool verified),
    fits_rest rfl (fits_isOneOf hreject hphase), List.forall_mem_nil _⟩

theorem releaseRow_fits {seen : List JsonVal} {place : String} {raw : Fields} {row : ReportRow}
    (h : Clean (releaseRow lib seen place raw) row) : row.Fits lib releaseReportFields relTypes := by
  simp only [releaseRow, clean_bind, clean_noteIf, clean_pure, not_not] at h
  obtain ⟨_, hreject, eventId, hevent, _, _, before, hbefore, after, hafter, release, _, verified, _,
    _, hprecision, _, hpackage, _, _, _, htexts, h⟩ := h
  obtain ⟨_, _, _, _, _, _, _, _, _, _, _, _, _, _, windows, _, _, _, rfl⟩ := h
  have htext : ∀ name ∈ releaseTexts, ((rowOf raw).get name).Fits lib .text := by
    intro name hname
    have hfilled := Noted.clean_forM htexts name hname
    rw [clean_noteIf, not_not] at hfilled
    exact fits_filled hreject hfilled
  simp only [releaseTexts, List.forall_mem_cons] at htext
  obtain ⟨hprevious, hnew, -, -, -⟩ := htext
  simp only [ReportRow.Fits, releaseReportFields, List.forall_mem_cons]
  exact ⟨fits_front rfl (fits_uuid hevent), fits_rest rfl (fits_package hpackage),
    fits_rest rfl hprevious, fits_rest rfl hnew, fits_front rfl (fits_ofDate release),
    fits_rest rfl (fits_isOneOf hreject hprecision), fits_front rfl (fits_bool verified),
    fits_front rfl (fits_ofDate _), fits_front rfl (fits_ofDate _), fits_front rfl (fits_ofDate _),
    fits_front rfl (fits_ofDate _), fits_front rfl (fits_ofDate _), fits_front rfl (fits_ofDate _),
    fits_front rfl (fits_uuid hbefore), fits_front rfl (fits_uuid hafter), List.forall_mem_nil _⟩

/-! ## Reports -/

def RowsFit (lib : Stdlib) (fields : List String) (types : String → SqlCast) (rows : List ReportRow) :
    Prop := ∀ row ∈ rows, row.Fits lib fields types

theorem RowsFit.concat {fields : List String} {types : String → SqlCast} {rows : List ReportRow} {row : ReportRow}
    (h : RowsFit lib fields types rows) (hrow : row.Fits lib fields types) :
    RowsFit lib fields types (rows ++ [row]) := by
  intro row' hrow'
  rcases List.mem_append.mp hrow' with hrow' | hrow'
  · exact h row' hrow'
  · rw [List.mem_singleton.mp hrow']
    exact hrow

theorem captureStep_fits {devices profiles : List String} {st st' : CaptureState} {entry : Nat × JsonVal}
    (hst : RowsFit lib experimentReportFields expTypes st.normalized)
    (h : Clean (captureStep lib devices profiles st entry) st') :
    RowsFit lib experimentReportFields expTypes st'.normalized := by
  unfold captureStep at h
  simp only at h
  split at h
  · split at h
    · obtain ⟨_, hnote, -⟩ := clean_bind.mp h
      exact absurd hnote Noted.not_clean_note
    · simp only [clean_bind] at h
      obtain ⟨row, hrow, _, _, _, _, _, _, h⟩ := h
      rw [clean_pure] at h
      rw [← h]
      exact hst.concat (captureRow_fits hrow)
  · obtain ⟨_, hnote, -⟩ := clean_bind.mp h
    exact absurd hnote Noted.not_clean_note

theorem ReportRow.get_set_self (row : ReportRow) (name : String) (v : Cell) : (row.set name v).get name = v := by
  rw [ReportRow.set, ReportRow.get, List.lookup_cons_self, Option.getD_some]

theorem ReportRow.get_set_of_ne (row : ReportRow) {name other : String} (v : Cell) (h : other ≠ name) :
    (row.set name v).get other = row.get other := by
  rw [ReportRow.set, ReportRow.get, List.lookup_cons, beq_eq_false_iff_ne.mpr h, ReportRow.get]

/-- The cohort of a pair is put into both rows. -/
theorem ReportRow.Fits.mark {row : ReportRow} (h : row.Fits lib experimentReportFields expTypes)
    (values : List String) :
    (row.set "comparison_cohort_id" (.json (.str (opaqueId lib "cohort" values)))).Fits lib
      experimentReportFields expTypes := by
  intro name hname
  by_cases heq : name = "comparison_cohort_id"
  · subst heq
    rw [ReportRow.get_set_self]
    exact fits_opaqueId (by decide) values
  · rw [ReportRow.get_set_of_ne _ _ heq]
    exact h name hname

theorem RowsFit.modify {fields : List String} {types : String → SqlCast} {rows : List ReportRow}
    (h : RowsFit lib fields types rows) {f : ReportRow → ReportRow}
    (hf : ∀ row : ReportRow, row.Fits lib fields types → (f row).Fits lib fields types) (i : Nat) :
    RowsFit lib fields types (rows.modify i f) := by
  intro row hrow
  obtain ⟨j, hj, rfl⟩ := List.mem_iff_getElem.mp hrow
  rw [List.getElem_modify]
  rw [List.length_modify] at hj
  split
  · exact hf _ (h _ (List.getElem_mem hj))
  · exact h _ (List.getElem_mem hj)

theorem pairStep_fits {cohorts : List Cohort} {rows rows' : List ReportRow} {pair : String × List Nat}
    (hrows : RowsFit lib experimentReportFields expTypes rows)
    (h : Clean (pairStep lib cohorts rows pair) rows') :
    RowsFit lib experimentReportFields expTypes rows' := by
  unfold pairStep at h
  simp only at h
  split at h
  · simp only [clean_bind] at h
    obtain ⟨_, _, cohort, _, h⟩ := h
    split at h
    · obtain ⟨_, hnote, -⟩ := clean_bind.mp h
      exact absurd hnote Noted.not_clean_note
    · split at h
      · split at h
        · rw [clean_pure] at h
          rw [← h]
          exact (hrows.modify (fun _ hrow => hrow.mark _) _).modify (fun _ hrow => hrow.mark _) _
        · obtain ⟨_, hnote, -⟩ := clean_bind.mp h
          exact absurd hnote Noted.not_clean_note
      · obtain ⟨_, hnote, -⟩ := clean_bind.mp h
        exact absurd hnote Noted.not_clean_note
  · obtain ⟨_, hnote, -⟩ := clean_bind.mp h
    exact absurd hnote Noted.not_clean_note

theorem experimentOutcome_fits {payload : Fields} {dbRecords : Option (List Fields)} {o : ReportOutcome}
    (h : Clean (experimentOutcome lib payload dbRecords) o) :
    RowsFit lib experimentReportFields expTypes o.records := by
  unfold experimentOutcome at h
  split at h
  · simp only [clean_bind] at h
    obtain ⟨devices, _, profiles, _, cohorts, _, st, hst, rows, hrows, h⟩ := h
    have hnormalized : RowsFit lib experimentReportFields expTypes st.normalized := by
      refine Noted.clean_foldlM (P := fun s => RowsFit lib experimentReportFields expTypes s.normalized)
        (fun _ _ _ _ hs hstep => captureStep_fits hs hstep) hst ?_
      intro row hrow
      cases hrow
    have hfit : RowsFit lib experimentReportFields expTypes rows :=
      Noted.clean_foldlM (fun _ _ _ _ hs hstep => pairStep_fits hs hstep) hrows hnormalized
    split at h
    · obtain ⟨_, _, h⟩ := clean_bind.mp h
      rw [clean_pure] at h
      exact h ▸ hfit
    · rw [clean_pure] at h
      exact h ▸ hfit
  · obtain ⟨_, hnote, -⟩ := clean_bind.mp h
    exact absurd hnote Noted.not_clean_note

theorem releaseStep_fits {st st' : ReleaseState} {entry : Nat × JsonVal}
    (hst : RowsFit lib releaseReportFields relTypes st.normalized)
    (h : Clean (releaseStep lib st entry) st') :
    RowsFit lib releaseReportFields relTypes st'.normalized := by
  unfold releaseStep at h
  simp only at h
  split at h
  · split at h
    · obtain ⟨_, hnote, -⟩ := clean_bind.mp h
      exact absurd hnote Noted.not_clean_note
    · obtain ⟨row, hrow, h⟩ := clean_bind.mp h
      have hfit := hst.concat (releaseRow_fits hrow)
      split at h
      · rw [clean_pure] at h
        exact h ▸ hfit
      · rw [clean_pure] at h
        exact h ▸ hfit
  · obtain ⟨_, hnote, -⟩ := clean_bind.mp h
    exact absurd hnote Noted.not_clean_note

theorem releaseOutcome_fits {payload : Fields} {o : ReportOutcome}
    (h : Clean (releaseOutcome lib payload) o) :
    RowsFit lib releaseReportFields relTypes o.records := by
  unfold releaseOutcome at h
  split at h
  · simp only [clean_bind, clean_pure] at h
    obtain ⟨st, hst, _, _, rfl⟩ := h
    refine Noted.clean_foldlM (P := fun s => RowsFit lib releaseReportFields relTypes s.normalized)
      (fun _ _ _ _ hs hstep => releaseStep_fits hs hstep) hst ?_
    intro row hrow
    cases hrow
  · obtain ⟨_, hnote, -⟩ := clean_bind.mp h
    exact absurd hnote Noted.not_clean_note

theorem report_valid {kind source : String} {outcome : Checked ReportOutcome} {r : ValidationReport}
    (h : makeReport kind source outcome = .ok r) (hvalid : r.valid) :
    ∃ o, Clean outcome o ∧ r.records = o.records := by
  unfold makeReport at h
  split at h
  · rename_i o errors
    rw [← Except.ok.inj h] at hvalid ⊢
    rw [show errors = [] from hvalid]
    exact ⟨o, rfl, rfl⟩
  · cases h

/-- Every row of an accepted experiment manifest. -/
theorem experimentRows_fit {file : Option ManifestFile} {dbRecords : Option (List Fields)}
    {r : ValidationReport} (h : validateExperiment lib file dbRecords = .ok r) (hvalid : r.valid) :
    RowsFit lib experimentReportFields expTypes r.records := by
  unfold validateExperiment at h
  split at h
  · cases h
  · obtain ⟨o, ho, hrecords⟩ := report_valid h hvalid
    rw [hrecords, ← clean_pure.mp ho]
    exact List.forall_mem_nil _
  · obtain ⟨o, ho, hrecords⟩ := report_valid h hvalid
    rw [hrecords]
    exact experimentOutcome_fits ho

theorem releaseRows_fit {file : Option ManifestFile} {r : ValidationReport}
    (h : validateRelease lib file = .ok r) (hvalid : r.valid) :
    RowsFit lib releaseReportFields relTypes r.records := by
  unfold validateRelease at h
  split at h
  · cases h
  · obtain ⟨o, ho, hrecords⟩ := report_valid h hvalid
    rw [hrecords, ← clean_pure.mp ho]
    exact List.forall_mem_nil _
  · obtain ⟨o, ho, hrecords⟩ := report_valid h hvalid
    rw [hrecords]
    exact releaseOutcome_fits ho

end Sahabino
