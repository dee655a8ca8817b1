import Sahabino.Lib.Provenance
import Sahabino.Lib.Table
import Sahabino.LiteralSql

/-!
# Injection safety of compiled SQL

The five substitutions of `render_sql`, on texts that know which of their
characters the template gave. Each of them takes the text it is given as
it is outside the pair of markers it looks for, and the characters of
these markers come from the template (`Replaced`, `OptionalBlock`): no
marker, and in the end no Metabase token, is ever found in a relation or
across one.

The text outside the pairs of the *template* can change, too: taking out
the optional markers puts the characters around them together, and these
may be a marker that a later step finds (`renderSql_joins_marker`).
-/

namespace Sahabino

open Py (JsonVal Marked Source Apart AllGiven EndsGiven StartsGiven chars given inserted)
open scoped Py.Bounded

/-! ## Markers in a text -/

theorem locate_eq_none {text : List Char} {markers : String × String}
    (h : locate text markers = .ok none) :
    ¬markers.1.toList <:+: text ∧ ¬markers.2.toList <:+: text := by
  unfold locate at h
  simp only at h
  split at h
  · rename_i hstart hstop
    exact ⟨Py.find_eq_none_iff.mp hstart, Py.find_eq_none_iff.mp hstop⟩
  · split at h <;> cases h
  · cases h

theorem locate_eq_some {text : List Char} {markers : String × String}
    {a r l b : List Char} (h : locate text markers = .ok (some ((a, r), (l, b)))) :
    text = a ++ markers.1.toList ++ r ∧ text = l ++ markers.2.toList ++ b ∧
      a.length ≤ l.length := by
  unfold locate at h
  simp only at h
  split at h
  · cases h
  · rename_i atStart atStop hstart hstop
    split at h
    · cases h
    · rename_i hcounts
      obtain ⟨rfl, rfl⟩ := Prod.mk.inj (Option.some.inj (Except.ok.inj h))
      refine ⟨Py.find_eq_some hstart, Py.find_eq_some hstop, ?_⟩
      have hlength : ¬l.length < a.length := fun hlt => hcounts (Or.inr (Or.inr hlt))
      omega
  · cases h

/-- The two markers in a text, written with characters of the template. -/
structure Pair (markers : String × String) (s a m r l m' b : Marked) : Prop where
  start : s = a ++ m ++ r
  stop : s = l ++ m' ++ b
  ordered : a.length ≤ l.length
  start_chars : chars m = markers.1.toList
  stop_chars : chars m' = markers.2.toList
  start_given : AllGiven m
  stop_given : AllGiven m'

/-- What `_replace` makes of a text. -/
inductive Replaced (markers : String × String) (new : List Char) (s : Marked) : Marked → Prop
  | absent : ¬markers.1.toList <:+: chars s → ¬markers.2.toList <:+: chars s → Replaced markers new s s
  | pair {a m r l m' b : Marked} : Pair markers s a m r l m' b →
      Replaced markers new s (a ++ m ++ inserted ('\n' :: new ++ ['\n']) ++ (m' ++ b))

/-- What `_optional_block` makes of a text. -/
inductive OptionalBlock (markers : String × String) (enabled : Bool) (new : List Char) (s : Marked) :
    Marked → Prop
  | absent : ¬markers.1.toList <:+: chars s → ¬markers.2.toList <:+: chars s →
      OptionalBlock markers enabled new s s
  | kept {a m r l m' b : Marked} : enabled = true → Pair markers s a m r l m' b →
      OptionalBlock markers enabled new s
        (a ++ (s.take l.length).drop (a.length + m.length) ++ b)
  | dropped {a m r l m' b : Marked} : enabled = false → Pair markers s a m r l m' b →
      OptionalBlock markers enabled new s (a ++ inserted ('\n' :: new ++ ['\n']) ++ b)

/-- The five pairs. -/
def markerPairs : List (String × String) :=
  [expMarkers, relMarkers, capMarkers, optionalNetworkMarkers, sentMarkers]

theorem markers_mem {markers : String × String} (h : markers ∈ markerPairs) :
    markers.1.toList ∈ patterns ∧ markers.2.toList ∈ patterns := by
  revert markers
  decide +kernel

theorem length_chars (s : Marked) : (chars s).length = s.length := List.length_map ..

/-- The markers that are found, back in the text that knows its sources. -/
theorem pair_of_locate {s : Marked} {markers : String × String} (hs : Apart patterns s)
    (hmarkers : markers ∈ markerPairs) {a r l b : List Char}
    (h : locate (chars s) markers = .ok (some ((a, r), (l, b)))) :
    ∃ a' m r' l' m' b', Pair markers s a' m r' l' m' b' ∧ chars a' = a ∧ chars l' = l ∧
      chars b' = b := by
  obtain ⟨hstart, hstop, hordered⟩ := locate_eq_some h
  obtain ⟨am, r', rfl, ham, -⟩ := Py.chars_eq_append hstart
  obtain ⟨a', m, rfl, ha, hm⟩ := Py.chars_eq_append ham
  obtain ⟨lm, b', hs', hlm, hb⟩ := Py.chars_eq_append hstop
  obtain ⟨l', m', rfl, hl, hm'⟩ := Py.chars_eq_append hlm
  obtain ⟨hstartMem, hstopMem⟩ := markers_mem hmarkers
  have hm_given : AllGiven m := hs.occurrence ⟨a', r', rfl⟩ (hm ▸ hstartMem)
    (hm ▸ not_mem_pattern separates_newline hstartMem)
  have hm'_given : AllGiven m' := hs.occurrence ⟨l', b', hs'.symm⟩ (hm' ▸ hstopMem)
    (hm' ▸ not_mem_pattern separates_newline hstopMem)
  refine ⟨a', m, r', l', m', b', ⟨rfl, hs', ?_, hm, hm', hm_given, hm'_given⟩, ha, hl, hb⟩
  rw [← length_chars a', ← length_chars l', ha, hl]
  exact hordered

/-! ## One substitution -/

theorem replaced_of_replace {s : Marked} {markers : String × String} (hs : Apart patterns s)
    (hmarkers : markers ∈ markerPairs) {new out : List Char}
    (h : replace (chars s) markers new = .ok out) :
    ∃ t, chars t = out ∧ Replaced markers new s t := by
  unfold replace at h
  cases hlocate : locate (chars s) markers with
  | error e =>
      rw [hlocate] at h
      cases h
  | ok found =>
      rw [hlocate] at h
      have hout := Except.ok.inj h
      cases found with
      | none =>
          obtain ⟨hstart, hstop⟩ := locate_eq_none hlocate
          exact ⟨s, hout, .absent hstart hstop⟩
      | some places =>
          obtain ⟨⟨a, r⟩, l, b⟩ := places
          obtain ⟨a', m, r', l', m', b', hpair, ha, hl, hb⟩ := pair_of_locate hs hmarkers hlocate
          refine ⟨_, ?_, .pair hpair⟩
          rw [← hout]
          simp [Py.chars_append, Py.chars_inserted, hpair.start_chars, hpair.stop_chars, ha, hb]

theorem optionalBlock_of_ok {s : Marked} {markers : String × String} (hs : Apart patterns s)
    (hmarkers : markers ∈ markerPairs) {enabled : Bool} {new out : List Char}
    (h : optionalBlock (chars s) markers enabled new = .ok out) :
    ∃ t, chars t = out ∧ OptionalBlock markers enabled new s t := by
  unfold optionalBlock at h
  cases hlocate : locate (chars s) markers with
  | error e =>
      rw [hlocate] at h
      cases h
  | ok found =>
      rw [hlocate] at h
      have hout := Except.ok.inj h
      cases found with
      | none =>
          obtain ⟨hstart, hstop⟩ := locate_eq_none hlocate
          exact ⟨s, hout, .absent hstart hstop⟩
      | some places =>
          obtain ⟨⟨a, r⟩, l, b⟩ := places
          obtain ⟨a', m, r', l', m', b', hpair, ha, hl, hb⟩ := pair_of_locate hs hmarkers hlocate
          have hbody : chars ((s.take l'.length).drop (a'.length + m.length)) =
              ((chars s).take l.length).drop (a.length + markers.1.toList.length) := by
            rw [← ha, ← hl, ← hpair.start_chars, length_chars, length_chars, length_chars, chars,
              List.map_drop, List.map_take]
            rfl
          cases enabled with
          | true =>
              refine ⟨_, ?_, .kept rfl hpair⟩
              rw [← hout, Py.chars_append, Py.chars_append, hbody, ha, hb]
              rfl
          | false =>
              refine ⟨_, ?_, .dropped rfl hpair⟩
              rw [← hout]
              simp [Py.chars_append, Py.chars_inserted, ha, hb]

/-! ## What a substitution keeps -/

theorem marker_ends {m : Marked} (hgiven : AllGiven m) (hm : chars m ∈ patterns) :
    (∃ c m₀, m = (c, Source.given) :: m₀ ∧ c ≠ '\n') ∧
      ∃ m₀ c, m = m₀ ++ [(c, Source.given)] ∧ c ≠ '\n' := by
  have hline : ∀ x ∈ m, x.1 ≠ '\n' := by
    intro x hx heq
    exact not_mem_pattern separates_newline hm (heq ▸ List.mem_map_of_mem hx)
  have hne : m ≠ [] := by
    rintro rfl
    have hpatterns : [] ∉ patterns := by decide
    exact hpatterns hm
  constructor
  · cases m with
    | nil => exact absurd rfl hne
    | cons x m₀ =>
        have hx := List.mem_cons_self (a := x) (l := m₀)
        refine ⟨x.1, m₀, ?_, hline x hx⟩
        rw [← hgiven x hx]
  · obtain ⟨m₀, x, rfl⟩ := (List.eq_nil_or_concat' m).resolve_left hne
    have hx : x ∈ m₀ ++ [x] := List.mem_append_right _ (List.mem_singleton_self _)
    refine ⟨m₀, x.1, ?_, hline x hx⟩
    rw [← hgiven x hx]

/-- A text can be cut where a marker begins and where it ends. -/
theorem cut_at_marker {a m r : Marked} (h : Apart patterns (a ++ m ++ r)) (hgiven : AllGiven m)
    (hm : chars m ∈ patterns) : EndsGiven a ∧ StartsGiven r := by
  obtain ⟨⟨c, m₁, hhead, hc⟩, m₂, d, hlast, hd⟩ := marker_ends hgiven hm
  constructor
  · rw [hhead, List.append_assoc, List.cons_append] at h
    exact h.endsGiven hc
  · have hshape : a ++ m ++ r = (a ++ m₂) ++ (d, Source.given) :: r := by
      rw [hlast]
      simp
    rw [hshape] at h
    exact h.startsGiven hd

theorem Pair.apart {markers : String × String} {s a m r l m' b : Marked}
    (h : Pair markers s a m r l m' b) (hs : Apart patterns s) :
    Apart patterns (a ++ m) ∧ Apart patterns (m' ++ b) ∧ Apart patterns a ∧ Apart patterns b := by
  have hstart : a ++ m <:+: s := ⟨[], r, by rw [h.start]; simp⟩
  have hstop : m' ++ b <:+: s := ⟨l, [], by rw [h.stop]; simp⟩
  have ha : a <:+: a ++ m := ⟨[], m, by simp⟩
  have hb : b <:+: m' ++ b := ⟨m', [], by simp⟩
  exact ⟨ hs.infix hstart, hs.infix hstop, hs.infix (ha.trans hstart), hs.infix (hb.trans hstop)⟩

/-- What stands between markers that do not overlap. -/
theorem Pair.body {markers : String × String} {s a m r l m' b : Marked}
    (h : Pair markers s a m r l m' b) (hlength : (a ++ m).length ≤ l.length) :
    ∃ body, l = a ++ m ++ body ∧ (s.take l.length).drop (a.length + m.length) = body := by
  have hl : s.take l.length = l := by
    rw [h.stop, List.append_assoc, List.take_left]
  have ham : l.take (a ++ m).length = a ++ m := by
    rw [← hl, List.take_take, Nat.min_eq_left hlength, h.start, List.take_left]
  refine ⟨l.drop (a ++ m).length, ?_, ?_⟩
  · rw [← List.take_append_drop (a ++ m).length l, ham, List.drop_left]
  · rw [hl, List.length_append]

theorem Replaced.apart {markers : String × String} {new : List Char} {s t : Marked}
    (h : Replaced markers new s t) (hs : Apart patterns s) (hnew : Free new) : Apart patterns t := by
  cases h with
  | absent _ _ => exact hs
  | pair hpair =>
      obtain ⟨hstart, hstop, -, -⟩ := hpair.apart hs
      exact hstart.insert hstop hnew

theorem OptionalBlock.apart {markers : String × String} {enabled : Bool} {new : List Char}
    {s t : Marked} (h : OptionalBlock markers enabled new s t) (hmarkers : markers ∈ markerPairs)
    (hs : Apart patterns s) (hnew : Free new) : Apart patterns t := by
  cases h with
  | absent _ _ => exact hs
  | @kept a m r l m' b _ hpair =>
      obtain ⟨-, -, ha, hb⟩ := hpair.apart hs
      obtain ⟨hstart, hstop⟩ := markers_mem hmarkers
      have hcut := cut_at_marker (hpair.start ▸ hs) hpair.start_given (hpair.start_chars ▸ hstart)
      have hcut' := cut_at_marker (hpair.stop ▸ hs) hpair.stop_given (hpair.stop_chars ▸ hstop)
      by_cases hlength : (a ++ m).length ≤ l.length
      · -- the body stands between the markers: both cuts are made one after the other
        obtain ⟨body, hl, hbody⟩ := hpair.body hlength
        rw [hbody]
        have hshape : s = a ++ m ++ (body ++ m' ++ b) := by
          rw [hpair.stop, hl]
          simp
        have hrest : Apart patterns (body ++ m' ++ b) :=
          hs.infix ⟨a ++ m, [], by rw [hshape]; simp⟩
        have hcutStart :=
          cut_at_marker (hshape ▸ hs) hpair.start_given (hpair.start_chars ▸ hstart)
        have hjoined := ha.join hrest hcutStart.1 hcutStart.2
        have hjoinedShape : a ++ (body ++ m' ++ b) = (a ++ body) ++ m' ++ b := by simp
        rw [hjoinedShape] at hjoined
        have hcutStop := cut_at_marker hjoined hpair.stop_given (hpair.stop_chars ▸ hstop)
        exact ( hjoined.infix ⟨[], m' ++ b, by simp⟩).join hb hcutStop.1 hcutStop.2
      · -- the markers overlap, and nothing is between them
        have hnil : (s.take l.length).drop (a.length + m.length) = [] := by
          rw [List.drop_eq_nil_iff, List.length_take]
          rw [List.length_append] at hlength
          omega
        rw [hnil, List.append_nil]
        exact ha.join hb hcut.1 hcut'.2
  | dropped _ hpair =>
      obtain ⟨-, -, ha, hb⟩ := hpair.apart hs
      exact ha.insert hb hnew

/-! ## The whole of it -/

theorem stateText_fits {lib : Stdlib} {σ : Type} {text : σ → String}
    (h : ∀ state, ∀ c ∈ (text state).toList, c ∉ special) (state : Option σ) :
    (stateText text state).Fits lib .text := by
  refine Or.inr ⟨_, rfl, free_of_plain ?_⟩
  cases state with
  | none =>
      change ∀ c ∈ "NOT_CHECKED".toList, c ∉ special
      decide
  | some state => exact h state

theorem capabilityRow_fits (lib : Stdlib) (c : Capabilities) :
    (capabilityRow c).Fits lib capabilityFields fun _ => .text := by
  simp only [ReportRow.Fits, capabilityFields, List.forall_mem_cons]
  exact ⟨stateText_fits (fun state => by cases state <;> decide) c.network,
    stateText_fits (fun state => by cases state <;> decide) c.experiment,
    stateText_fits (fun state => by cases state <;> decide) c.release,
    stateText_fits (fun state => by cases state <;> decide) c.sentiment,
    stateText_fits (fun state => by cases state; decide) c.topic, List.forall_mem_nil _⟩

theorem free_lines {lines : List String} (h : ∀ line ∈ lines, Free line.toList) :
    Free (join "\n" (lines.map String.toList)) := by
  have hsep : ∀ t : List Char, Free t → Free ([] ++ t) := fun _ ht => ht
  refine Free.intercalate separates_newline hsep fun piece hpiece => ?_
  obtain ⟨line, hline, rfl⟩ := List.mem_map.mp hpiece
  exact h line hline

theorem free_emptyNetwork : Free emptyNetwork := by
  refine free_lines fun line hline => free_of_plain ?_
  simp only [List.mem_cons, List.not_mem_nil, or_false] at hline
  rcases hline with
    rfl | rfl | rfl | rfl | rfl | rfl | rfl | rfl | rfl | rfl | rfl | rfl | rfl
  -- as a list of characters, which is quicker to go through
  all_goals
    rw [String.toList_ofList]
    decide +kernel

theorem free_sentimentColumns (ready : Bool) : Free (sentimentColumns ready) := by
  have hsep : ∀ t : List Char, Free t → Free ([' '] ++ t) := fun _ ht => ht.cons separates_blank
  cases ready with
  | true =>
      refine Free.intercalate separates_comma hsep fun piece hpiece => free_of_plain ?_
      simp only [if_true, List.map_cons, List.map_nil, List.mem_cons, List.not_mem_nil,
        or_false] at hpiece
      rcases hpiece with rfl | rfl | rfl
      all_goals
        rw [String.toList_ofList]
        decide +kernel
  | false =>
      refine Free.intercalate separates_comma hsep fun piece hpiece => free_of_plain ?_
      simp only [Bool.false_eq_true, if_false, List.map_cons, List.map_nil, List.mem_cons,
        List.not_mem_nil, or_false] at hpiece
      rcases hpiece with rfl | rfl | rfl
      all_goals
        rw [String.toList_ofList]
        decide +kernel

theorem renderSql_eq_ok {lib : Stdlib} {text out : List Char} {experiment release : ValidationReport}
    {c : Capabilities} (h : renderSql lib text experiment release c = .ok out) :
    (experiment.valid ∧ release.valid) ∧
    ∃ experimentRows releaseRows capabilityRows t₁ t₂ t₃ t₄,
      typedSelect lib experiment.records experimentReportFields expTypes = .ok experimentRows ∧
      replace text expMarkers experimentRows = .ok t₁ ∧
      typedSelect lib release.records releaseReportFields relTypes = .ok releaseRows ∧
      replace t₁ relMarkers releaseRows = .ok t₂ ∧
      capabilitySelect lib c = .ok capabilityRows ∧
      replace t₂ capMarkers capabilityRows = .ok t₃ ∧
      optionalBlock t₃ optionalNetworkMarkers c.networkReady emptyNetwork = .ok t₄ ∧
      replace t₄ sentMarkers (sentimentColumns c.sentimentReady) = .ok out := by
  unfold renderSql at h
  by_cases hvalid : ¬experiment.valid ∨ ¬release.valid
  · rw [if_pos hvalid] at h
    cases h
  · rw [if_neg hvalid] at h
    rw [not_or, not_not, not_not] at hvalid
    obtain ⟨experimentRows, hexperiment, h⟩ := Rel.bind_eq_ok h
    obtain ⟨t₁, ht₁, h⟩ := Rel.bind_eq_ok h
    obtain ⟨releaseRows, hrelease, h⟩ := Rel.bind_eq_ok h
    obtain ⟨t₂, ht₂, h⟩ := Rel.bind_eq_ok h
    obtain ⟨capabilityRows, hcapability, h⟩ := Rel.bind_eq_ok h
    obtain ⟨t₃, ht₃, h⟩ := Rel.bind_eq_ok h
    obtain ⟨t₄, ht₄, h⟩ := Rel.bind_eq_ok h
    exact ⟨hvalid, experimentRows, releaseRows, capabilityRows, t₁, t₂, t₃, t₄, hexperiment, ht₁,
      hrelease, ht₂, hcapability, ht₃, ht₄, h⟩

/-- Compiling accepted manifests into a template: each relation is read as the constants that
denote the rows; each step changes its own pair only; and whatever text of the compiled SQL is
reserved was in the template. -/
theorem renderSql_injectionSafe (lib : Stdlib) (experimentFile releaseFile : Option ManifestFile)
    (dbRecords : Option (List Fields)) (c : Capabilities) (text out : List Char)
    (experiment release : ValidationReport)
    (hexperiment : validateExperiment lib experimentFile dbRecords = .ok experiment)
    (hrelease : validateRelease lib releaseFile = .ok release)
    (hrender : renderSql lib text experiment release c = .ok out) :
    ∃ experimentRows releaseRows capabilityRows : List Char,
      SafeSelect lib experiment.records experimentReportFields expTypes experimentRows ∧
      SafeSelect lib release.records releaseReportFields relTypes releaseRows ∧
      SafeSelect lib [capabilityRow c] capabilityFields (fun _ => .text) capabilityRows ∧
      ∃ s₁ s₂ s₃ s₄ s₅ : Marked,
        Replaced expMarkers experimentRows (given text) s₁ ∧
        Replaced relMarkers releaseRows s₁ s₂ ∧
        Replaced capMarkers capabilityRows s₂ s₃ ∧
        OptionalBlock optionalNetworkMarkers c.networkReady emptyNetwork s₃ s₄ ∧
        Replaced sentMarkers (sentimentColumns c.sentimentReady) s₄ s₅ ∧
        chars s₅ = out ∧
        ∀ m, m <:+: s₅ → chars m ∈ patterns → AllGiven m := by
  obtain ⟨⟨hvalid, hvalid'⟩, experimentRows, releaseRows, capabilityRows, t₁, t₂, t₃, t₄, hrows, ht₁,
    hrows', ht₂, hrows'', ht₃, ht₄, hout⟩ := renderSql_eq_ok hrender
  have hsafe : SafeSelect lib experiment.records experimentReportFields expTypes experimentRows := by
    obtain ⟨sql, hsql⟩ := safe_typedSelect (by decide) (by decide +kernel)
      (experimentRows_fit hexperiment hvalid)
    rwa [← Except.ok.inj (hsql.written.symm.trans hrows)]
  have hsafe' : SafeSelect lib release.records releaseReportFields relTypes releaseRows := by
    obtain ⟨sql, hsql⟩ := safe_typedSelect (by decide) (by decide +kernel)
      (releaseRows_fit hrelease hvalid')
    rwa [← Except.ok.inj (hsql.written.symm.trans hrows')]
  have hsafe'' : SafeSelect lib [capabilityRow c] capabilityFields (fun _ => .text)
      capabilityRows := by
    have hfit : RowsFit lib capabilityFields (fun _ => .text) [capabilityRow c] := by
      intro row hrow
      rw [List.mem_singleton.mp hrow]
      exact capabilityRow_fits lib c
    obtain ⟨sql, hsql⟩ := safe_typedSelect (by decide) (by decide +kernel) hfit
    rwa [← Except.ok.inj (hsql.written.symm.trans hrows'')]
  have hs₀ : Apart patterns (given text) := Py.apart_given text
  rw [← Py.chars_given text] at ht₁
  obtain ⟨s₁, rfl, hstep₁⟩ := replaced_of_replace hs₀ (by decide) ht₁
  have hs₁ := hstep₁.apart hs₀ hsafe.free
  obtain ⟨s₂, rfl, hstep₂⟩ := replaced_of_replace hs₁ (by decide) ht₂
  have hs₂ := hstep₂.apart hs₁ hsafe'.free
  obtain ⟨s₃, rfl, hstep₃⟩ := replaced_of_replace hs₂ (by decide) ht₃
  have hs₃ := hstep₃.apart hs₂ hsafe''.free
  obtain ⟨s₄, rfl, hstep₄⟩ := optionalBlock_of_ok hs₃ (by decide) ht₄
  have hs₄ := hstep₄.apart (by decide) hs₃ free_emptyNetwork
  obtain ⟨s₅, hs₅out, hstep₅⟩ := replaced_of_replace hs₄ (by decide) hout
  have hs₅ := hstep₅.apart hs₄ (free_sentimentColumns _)
  exact ⟨experimentRows, releaseRows, capabilityRows, hsafe, hsafe', hsafe'', s₁, s₂, s₃, s₄, s₅,
    hstep₁, hstep₂, hstep₃, hstep₄, hstep₅, hs₅out, fun m hm hp =>
      hs₅.occurrence hm hp (not_mem_pattern separates_newline hp)⟩

/-! ## A release with a quote in its version -/

namespace RenderSample

def readUuid (s : String) : Option UuidDigits :=
  let digits := (s.toList.filter (· ≠ '-')).filterMap (Py.digitValue 16)
  if digits.length = 32 then some ⟨fun i => Fin.ofNat 16 (digits.getD i 0)⟩ else none

/-- The functions on the texts below: the canonical UUIDs and dates. -/
def lib : Stdlib where
  uuid := readUuid
  datetime _ := none
  date s := Py.Date.read s.toList
  sha256 _ _ := 0
  lower s := s
  repr _ := ""

def event : Fields :=
  [("release_event_id", .str "0b7c1c9e-52a4-4a52-9d3a-6f0f3c8f2f10"),
    ("application_package", .str "ir.example.app"),
    ("previous_version", .str "1.0'; DROP TABLE reviews; --"),
    ("new_version", .str "1.1"),
    ("release_date", .str "2026-03-15"),
    ("release_date_precision", .str "day"),
    ("release_date_source", .str "store"),
    ("release_evidence_reference", .str "page"),
    ("release_date_verified", .bool true),
    ("baseline_start", .null), ("baseline_end", .null), ("followup_start", .null),
    ("followup_end", .null), ("transition_period_start", .null), ("transition_period_end", .null),
    ("experiment_id_before", .null), ("experiment_id_after", .str ""), ("notes", .str "")]

def releaseFile : ManifestFile :=
  .content "releases.json" (.obj [("schema_version", .int 1), ("release_events", .arr [.obj event])])

def capabilities : Capabilities :=
  ⟨some .dataAvailable, some .notSupplied, some .verifiedAvailable, some .dataAvailable,
    some .annotationsUnavailable⟩

def template : List Char :=
  "SELECT 1 /*__RELEASE_ROWS_START__*/old/*__RELEASE_ROWS_END__*/;".toList

def rendered : Except MetadataRaise (ValidationReport × ValidationReport × List Char) := do
  let experiment ← validateExperiment lib none none
  let release ← validateRelease lib (some releaseFile)
  let out ← renderSql lib template experiment release capabilities
  pure (experiment, release, out)

end RenderSample

/-- The quote stays in its constant, and the semicolon in it is none of the statement. -/
theorem renderSql_injectionSafe_release :
    ∃ experiment release out, RenderSample.rendered = .ok (experiment, release, out) ∧
      release.records.length = 1 ∧
      ∃ releaseRows, SafeSelect RenderSample.lib release.records releaseReportFields relTypes releaseRows ∧
        ∃ s₅ : Marked, chars s₅ = out ∧ ∀ m, m <:+: s₅ → chars m ∈ patterns → AllGiven m := by
  have hok : (match RenderSample.rendered with
      | .ok (_, release, _) => release.records.length
      | .error _ => 0) = 1 := by
    decide +kernel
  cases hrendered : RenderSample.rendered with
  | error e =>
      rw [hrendered] at hok
      cases hok
  | ok r =>
      obtain ⟨experiment, release, out⟩ := r
      rw [hrendered] at hok
      obtain ⟨experiment', hexperiment, h⟩ := Rel.bind_eq_ok hrendered
      obtain ⟨release', hrelease, h⟩ := Rel.bind_eq_ok h
      obtain ⟨out', hout, h⟩ := Rel.bind_eq_ok h
      cases h
      obtain ⟨_, releaseRows, _, _, hsafe, _, _, _, _, _, s₅, _, _, _, _, _, hchars, hgiven⟩ :=
        renderSql_injectionSafe RenderSample.lib none (some RenderSample.releaseFile) none
          RenderSample.capabilities RenderSample.template out experiment release hexperiment hrelease
          hout
      exact ⟨experiment, release, out, rfl, hok, releaseRows, hsafe, s₅, hchars, hgiven⟩

/-! ## A marker that a step puts together -/

namespace JoinedMarker

def before : List Char := "/*__SENTIMENT_COLUMNS_".toList

def after : List Char := "START__*/#/*__SENTIMENT_COLUMNS_END__*/".toList

/-- The optional markers, with nothing between them, stand in a word. -/
def template : List Char :=
  before ++ optionalNetworkMarkers.1.toList ++ optionalNetworkMarkers.2.toList ++ after

def experiment : ValidationReport :=
  ⟨"experiment", "experiment:not-supplied", [], [],
    ["experiment manifest not supplied; typed empty relation will be used"], false⟩

def release : ValidationReport :=
  ⟨"release", "release:not-supplied", [], [],
    ["release manifest not supplied; typed empty relation will be used"], false⟩

def out : List Char :=
  sentMarkers.1.toList ++ '\n' :: sentimentColumns true ++ '\n' :: sentMarkers.2.toList

end JoinedMarker

/-- The optional pair is the only pair of the template, but what comes out is not the text
around it. -/
theorem renderSql_joins_marker :
    validateExperiment RenderSample.lib none none = .ok JoinedMarker.experiment ∧
    validateRelease RenderSample.lib none = .ok JoinedMarker.release ∧
    (∀ markers ∈ [expMarkers, relMarkers, capMarkers, sentMarkers],
      Py.find markers.1.toList JoinedMarker.template = none) ∧
    renderSql RenderSample.lib JoinedMarker.template JoinedMarker.experiment JoinedMarker.release
      RenderSample.capabilities = .ok JoinedMarker.out ∧
    JoinedMarker.out ≠ JoinedMarker.before ++ JoinedMarker.after ∧
    '#' ∈ JoinedMarker.after ∧ '#' ∉ JoinedMarker.out := by
  refine ⟨rfl, rfl, ?_⟩
  decide +kernel

end Sahabino
