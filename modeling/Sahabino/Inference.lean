import Sahabino.Lib.PyText
import Sahabino.Lib.Slots
import Sahabino.SentimentRefinement

/-!
# Batched inference

`SentimentInference.analyze_batch`: every text is given to the analysis of
its language, and the Persian ones in chunks to a model that may fail a
chunk as a whole. The chunk is then done again text by text, also where
some of its outcomes were written already.

A model that works text by text or fails (`Compositional`) makes all this
invisible: what was written before a chunk failed is what the text has
alone (`analyzeChunk_fills`), so a batch has the outcomes of its texts
analyzed one at a time (`batch_is_single`).
-/

namespace Sahabino

open Rel (Double)

/-! ## Languages and labels -/

/-- The languages of `SUPPORTED_LANGUAGES`. -/
def Language.ofText? (text : String) : Option Language :=
  if text = Language.fa.text then some .fa
  else if text = Language.en.text then some .en
  else none

def SentimentLabel.ofText? (text : String) : Option SentimentLabel :=
  if text = "positive" then some .positive
  else if text = "neutral" then some .neutral
  else if text = "negative" then some .negative
  else none

namespace AnalysisResult

/-- A result of status `done` where the label is any text. -/
def doneRaw (language : Language) (rawLabel : String) : Except SentimentError AnalysisResult :=
  match SentimentLabel.ofText? rawLabel with
  | none => .error (.valueError "sentiment label is invalid")
  | some label => .ok (done language label)

/-- Neither of them fails a check of the class. -/
theorem make_skipped : make none none .skipped = .ok skipped := rfl

theorem make_done (language : Language) (label : SentimentLabel) :
    make (some language.text) (some label) .done = .ok (done language label) := by
  cases language <;> rfl

end AnalysisResult

/-- `ε` are the exceptions of the detector, the scorer and the model. -/
inductive InferenceError (ε : Type) where
  | raised (e : ε)
  | runtimeError (message : String)
  | invalid (e : SentimentError)

abbrev Outcome (ε : Type) := Except (InferenceError ε) AnalysisResult

variable {ε : Type}

/-- The same result, or a failure of both. -/
def Outcome.Agrees : Outcome ε → Outcome ε → Prop
  | .ok r, .ok r' => r = r'
  | .error _, .error _ => True
  | .ok _, .error _ | .error _, .ok _ => False

namespace Outcome.Agrees

variable {a b c : Outcome ε}

theorem refl : ∀ a : Outcome ε, a.Agrees a
  | .ok _ => rfl
  | .error _ => trivial

theorem symm (h : a.Agrees b) : b.Agrees a := by
  cases a with
  | ok r =>
      cases b with
      | ok r' => exact Eq.symm h
      | error e => exact h
  | error e =>
      cases b with
      | ok r' => exact h
      | error e' => trivial

theorem trans (h : a.Agrees b) (h' : b.Agrees c) : a.Agrees c := by
  cases b with
  | ok r =>
      cases a with
      | ok r' => exact (show r' = r from h) ▸ h'
      | error e => exact h.elim
  | error e =>
      cases a with
      | ok r' => exact h.elim
      | error e' =>
          cases c with
          | ok r' => exact h'
          | error e'' => trivial

end Outcome.Agrees

/-! ## The detected language -/

/-- An item of the detector's answer. -/
structure Candidate where
  lang : String
  prob : Double

section Detection

variable (alpha : Char → Bool)

/-- `str.isalpha`; the letters beyond ASCII are looked up in a table. -/
def isAlphaChar (c : Char) : Bool := if c.toNat < 128 then c.isAlpha else alpha c

/-- `max(candidates, key=prob)`: the first of the greatest. -/
def mostProbable (first : Candidate) (rest : List Candidate) : Candidate :=
  rest.foldl (fun best c => if best.prob.less c.prob then c else best) first

def detectSupportedLanguage (minimumConfidence : ℚ)
    (detector : String → Except ε (List Candidate)) (content : Option String) : Option Language :=
  match content with
  | none => none
  | some content =>
      let text := Py.strip content.toList
      if text.countP (isAlphaChar alpha) < 3 then none
      else match detector (String.ofList text) with
        | .error _ | .ok [] => none
        | .ok (first :: rest) =>
            let candidate := mostProbable first rest
            match Language.ofText? candidate.lang with
            | none => none
            | some language =>
                if candidate.prob.below minimumConfidence then none else some language

/-- The `assert` of `analyze_batch`. -/
theorem exists_of_detectSupportedLanguage {minimumConfidence : ℚ}
    {detector : String → Except ε (List Candidate)} {content : Option String} {language : Language}
    (h : detectSupportedLanguage alpha minimumConfidence detector content = some language) :
    ∃ text, content = some text := by
  cases content with
  | none => cases h
  | some text => exact ⟨text, rfl⟩

end Detection

/-! ## The analysis of a batch -/

/-- What the constructor has checked of its arguments. -/
structure SentimentInference (ε : Type) where
  modelBatchSize : Nat
  minimumLanguageConfidence : ℚ
  detector : String → Except ε (List Candidate)
  persian : List String → Except ε (List String)
  english : String → Except ε Double
  batchSize_pos : 1 ≤ modelBatchSize
  confidence_le : 0 ≤ minimumLanguageConfidence ∧ minimumLanguageConfidence ≤ 1

def englishLabel (compound : Double) : SentimentLabel :=
  if compound.atLeast (5 / 100) then .positive
  else if compound.atMost (-5 / 100) then .negative
  else .neutral

def unexpectedBatchSize : InferenceError ε :=
  .runtimeError "Persian model returned an unexpected batch size"

abbrev Outcomes (ε : Type) := List (Option (Outcome ε))

abbrev PersianItem := Nat × String

/-- The locals of `analyze_batch` in its first loop. -/
structure RoutedBatch (ε : Type) where
  outcomes : Outcomes ε
  persianItems : List PersianItem

/-- The loop over a chunk and its labels, up to the first label that is none; also returns
whether it came to the end. -/
def writeLabels : List (PersianItem × String) → Outcomes ε → Bool × Outcomes ε
  | [], outcomes => (true, outcomes)
  | ((index, _), rawLabel) :: rest, outcomes =>
      match AnalysisResult.doneRaw .fa rawLabel with
      | .error _ => (false, outcomes)
      | .ok result => writeLabels rest (Slots.put index (.ok result) outcomes)

namespace SentimentInference

variable (inference : SentimentInference ε)

def analyzeEnglish (content : String) : Outcome ε :=
  match inference.english content with
  | .error e => .error (.raised e)
  | .ok compound => .ok (.done .en (englishLabel compound))

/-- The body of the loop of `_analyze_persian_individually`. -/
def analyzePersian (content : String) : Outcome ε :=
  match inference.persian [content] with
  | .error e => .error (.raised e)
  | .ok [rawLabel] => (AnalysisResult.doneRaw .fa rawLabel).mapError .invalid
  | .ok _ => .error unexpectedBatchSize

def analyzePersianIndividually (items : List PersianItem) (outcomes : Outcomes ε) : Outcomes ε :=
  items.foldl (fun outcomes item =>
    Slots.put item.1 (inference.analyzePersian item.2) outcomes) outcomes

/-- The body of the loop over the chunks. -/
def analyzeChunk (outcomes : Outcomes ε) (chunk : List PersianItem) : Outcomes ε :=
  match inference.persian (chunk.map (·.2)) with
  | .error _ => inference.analyzePersianIndividually chunk outcomes
  | .ok labels =>
      if labels.length ≠ chunk.length then inference.analyzePersianIndividually chunk outcomes
      else match writeLabels (chunk.zip labels) outcomes with
        | (true, outcomes) => outcomes
        | (false, outcomes) => inference.analyzePersianIndividually chunk outcomes

variable (alpha : Char → Bool)

def detect (content : Option String) : Option Language :=
  detectSupportedLanguage alpha inference.minimumLanguageConfidence inference.detector content

/-- The body of the first loop; a content with a language is a text. -/
def routeItem (s : RoutedBatch ε) (item : Option String × Nat) : RoutedBatch ε :=
  let text := item.1.getD ""
  match inference.detect alpha item.1 with
  | none => { s with outcomes := Slots.put item.2 (.ok .skipped) s.outcomes }
  | some .en => { s with outcomes := Slots.put item.2 (inference.analyzeEnglish text) s.outcomes }
  | some .fa => { s with persianItems := s.persianItems ++ [(item.2, text)] }

def route (contents : List (Option String)) : RoutedBatch ε :=
  contents.zipIdx.foldl (inference.routeItem alpha) ⟨Slots.blank contents.length, []⟩

def analyzeBatch (contents : List (Option String)) : List (Outcome ε) :=
  let routed := inference.route alpha contents
  let outcomes := (Slots.slices inference.modelBatchSize routed.persianItems).foldl
    inference.analyzeChunk routed.outcomes
  Slots.collect (.error (.runtimeError "missing inference outcome")) outcomes

end SentimentInference

/-! ## One text alone -/

/-- On any list of texts the model fails, or it has the labels it has for each of the
texts alone. -/
def Compositional (persian : List String → Except ε (List String)) : Prop :=
  ∀ texts, (∃ e, persian texts = .error e) ∨
    ∃ labels, persian texts = .ok labels ∧
      (labels.length ≠ texts.length ∨
        List.Forall₂ (fun text label => persian [text] = .ok [label]) texts labels)

namespace SentimentInference

variable (inference : SentimentInference ε) (alpha : Char → Bool)

/-- What a text has of its own: no batch, no chunks and no index. -/
def analyzeAlone (content : Option String) : Outcome ε :=
  match inference.detect alpha content, content with
  | none, _ | _, none => .ok .skipped
  | some .en, some text => inference.analyzeEnglish text
  | some .fa, some text => inference.analyzePersian text

variable {inference alpha}

theorem analyzePersian_of_label {text label : String} {result : AnalysisResult}
    (h : inference.persian [text] = .ok [label])
    (hresult : AnalysisResult.doneRaw .fa label = .ok result) :
    inference.analyzePersian text = .ok result := by
  unfold analyzePersian
  rw [h]
  simp only [hresult, Except.mapError]

/-! ## Chunks -/

variable {good : Nat → Outcome ε → Prop}

theorem writeLabels_fills {items : List PersianItem} {labels : List String}
    (h : List.Forall₂ (fun text label => inference.persian [text] = .ok [label])
      (items.map (·.2)) labels)
    (hgood : ∀ item ∈ items, ∀ o, o.Agrees (inference.analyzePersian item.2) → good item.1 o) :
    ∀ outcomes : Outcomes ε, Slots.Fills good
      (fun i => (writeLabels (items.zip labels) outcomes).1 = true ∧ ∃ item ∈ items, item.1 = i)
      outcomes (writeLabels (items.zip labels) outcomes).2 := by
  induction items generalizing labels with
  | nil =>
      intro outcomes
      refine (Slots.Fills.refl good outcomes).mono fun i hi => ?_
      obtain ⟨-, item, hitem, -⟩ := hi
      cases hitem
  | cons item items ih =>
      intro outcomes
      cases h with
      | cons hlabel hlabels =>
          rename_i label labels
          rw [List.zip_cons_cons]
          unfold writeLabels
          split
          · -- the label is none, and the chunk breaks off here
            exact (Slots.Fills.refl good outcomes).mono fun i hi => (Bool.false_ne_true hi.1).elim
          · rename_i result hresult
            have hwrite : good item.1 (.ok result) := by
              refine hgood item List.mem_cons_self _ ?_
              rw [analyzePersian_of_label hlabel hresult]
              exact .refl _
            have hrest := ih hlabels
              (fun other hother => hgood other (List.mem_cons_of_mem item hother))
              (Slots.put item.1 (.ok result) outcomes)
            refine ((Slots.Fills.set hwrite).trans hrest).mono fun i hi => ?_
            obtain ⟨hend, other, hother, heq⟩ := hi
            rcases List.mem_cons.mp hother with rfl | hother
            · exact Or.inl heq.symm
            · exact Or.inr ⟨hend, other, hother, heq⟩

theorem analyzePersianIndividually_fills {items : List PersianItem}
    (hgood : ∀ item ∈ items, ∀ o, o.Agrees (inference.analyzePersian item.2) → good item.1 o)
    (outcomes : Outcomes ε) :
    Slots.Fills good (fun i => ∃ item ∈ items, item.1 = i) outcomes
      (inference.analyzePersianIndividually items outcomes) := by
  refine (Slots.Fills.foldl items (fun item hitem s => Slots.Fills.set
    (hgood item hitem _ (.refl _))) outcomes).mono fun i hi => ?_
  obtain ⟨item, hitem, heq⟩ := hi
  exact ⟨item, hitem, heq.symm⟩

/-- However a chunk ends, its items have their own outcomes and nobody else's slot is
touched. -/
theorem analyzeChunk_fills (h : Compositional inference.persian) {chunk : List PersianItem}
    (hgood : ∀ item ∈ chunk, ∀ o, o.Agrees (inference.analyzePersian item.2) → good item.1 o)
    (outcomes : Outcomes ε) :
    Slots.Fills good (fun i => ∃ item ∈ chunk, item.1 = i) outcomes
      (inference.analyzeChunk outcomes chunk) := by
  have hagain := analyzePersianIndividually_fills hgood
  unfold analyzeChunk
  split
  case h_1 => exact hagain outcomes
  rename_i labels hlabels
  split
  case isTrue => exact hagain outcomes
  rename_i hlength
  have hown : List.Forall₂ (fun text label => inference.persian [text] = .ok [label])
      (chunk.map (·.2)) labels := by
    rcases h (chunk.map (·.2)) with ⟨e, he⟩ | ⟨labels', hlabels', hown⟩
    · rw [hlabels] at he
      cases he
    · obtain rfl := Except.ok.inj (hlabels.symm.trans hlabels')
      refine hown.resolve_left fun hne => hlength fun heq => hne ?_
      rw [heq, List.length_map]
  have hwritten := writeLabels_fills hown hgood outcomes
  split
  · rename_i written heq
    rw [heq] at hwritten
    exact hwritten.mono fun i hi => ⟨rfl, hi⟩
  · rename_i written heq
    rw [heq] at hwritten
    exact (hwritten.trans (hagain written)).mono fun i hi => Or.inr hi

/-! ## Routing -/

/-- The first loop from `s` to `s'`: what it has put aside for the model are texts whose
own outcomes are the model's, and of the indexes of `filled` it has put aside those it has
put nothing in. -/
structure Routes (inference : SentimentInference ε) (good : Nat → Outcome ε → Prop)
    (filled : Nat → Prop) (s s' : RoutedBatch ε) : Prop where
  kept : s.persianItems ⊆ s'.persianItems
  aside : ∀ item ∈ s'.persianItems, item ∈ s.persianItems ∨
    ∀ o, o.Agrees (inference.analyzePersian item.2) → good item.1 o
  fills : Slots.Fills good (fun i => filled i ∧ ∀ item ∈ s'.persianItems, item.1 ≠ i)
    s.outcomes s'.outcomes

variable (inference) in
theorem Routes.refl (good : Nat → Outcome ε → Prop) (s : RoutedBatch ε) :
    Routes inference good (fun _ => False) s s :=
  ⟨fun _ h => h, fun _ h => Or.inl h,
    (Slots.Fills.refl good s.outcomes).mono fun _ h => h.1⟩

theorem Routes.trans {p q : Nat → Prop} {s s' s'' : RoutedBatch ε}
    (h : Routes inference good p s s') (h' : Routes inference good q s' s'') :
    Routes inference good (fun i => p i ∨ q i) s s'' := by
  refine ⟨fun item hitem => h'.kept (h.kept hitem), fun item hitem => ?_,
    (h.fills.trans h'.fills).mono fun i hi => ?_⟩
  · rcases h'.aside item hitem with hitem | hgood
    · exact h.aside item hitem
    · exact Or.inr hgood
  · obtain ⟨hfilled, hnone⟩ := hi
    rcases hfilled with hp | hq
    · exact Or.inl ⟨hp, fun item hitem => hnone item (h'.kept hitem)⟩
    · exact Or.inr ⟨hq, hnone⟩

theorem Routes.put {i : Nat} {o : Outcome ε} (h : good i o) (s : RoutedBatch ε) :
    Routes inference good (· = i) s { s with outcomes := Slots.put i o s.outcomes } :=
  ⟨fun _ hitem => hitem, fun _ hitem => Or.inl hitem,
    (Slots.Fills.set h).mono fun _ hi => hi.1⟩

theorem routeItem_routes {item : Option String × Nat}
    (hgood : ∀ o, o.Agrees (inference.analyzeAlone alpha item.1) → good item.2 o)
    (s : RoutedBatch ε) :
    Routes inference good (· = item.2) s (inference.routeItem alpha s item) := by
  obtain ⟨content, index⟩ := item
  unfold routeItem
  unfold analyzeAlone at hgood
  split
  · rename_i hlanguage
    refine .put (hgood _ ?_) s
    simp only [hlanguage]
    exact .refl _
  · rename_i hlanguage
    obtain ⟨text, rfl⟩ := exists_of_detectSupportedLanguage alpha hlanguage
    simp only [hlanguage] at hgood
    exact .put (hgood _ (.refl _)) s
  · rename_i hlanguage
    obtain ⟨text, rfl⟩ := exists_of_detectSupportedLanguage alpha hlanguage
    simp only [hlanguage] at hgood
    refine ⟨fun other hother => List.mem_append_left _ hother, fun other hother => ?_,
      (Slots.Fills.refl good s.outcomes).mono fun i hi => ?_⟩
    · rcases List.mem_append.mp hother with hother | hother
      · exact Or.inl hother
      · rw [List.mem_singleton.mp hother]
        exact Or.inr hgood
    · exact hi.2 _ (List.mem_append_right _ (List.mem_singleton.mpr rfl)) hi.1.symm

theorem foldl_routeItem_routes {items : List (Option String × Nat)}
    (hgood : ∀ item ∈ items, ∀ o, o.Agrees (inference.analyzeAlone alpha item.1) →
      good item.2 o) :
    ∀ s, Routes inference good (fun i => ∃ item ∈ items, item.2 = i) s
      (items.foldl (inference.routeItem alpha) s) := by
  induction items with
  | nil =>
      intro s
      obtain ⟨hkept, haside, hfills⟩ := Routes.refl inference good s
      refine ⟨hkept, haside, hfills.mono fun i hi => ?_⟩
      obtain ⟨⟨item, hitem, -⟩, -⟩ := hi
      cases hitem
  | cons item items ih =>
      intro s
      have hfirst := routeItem_routes (hgood item List.mem_cons_self) s
      have hrest := ih (fun other hother => hgood other (List.mem_cons_of_mem item hother))
        (inference.routeItem alpha s item)
      obtain ⟨hkept, haside, hfills⟩ := hfirst.trans hrest
      refine ⟨hkept, haside, hfills.mono fun i hi => ⟨?_, hi.2⟩⟩
      obtain ⟨⟨other, hother, heq⟩, -⟩ := hi
      rcases List.mem_cons.mp hother with rfl | hother
      · exact Or.inl heq.symm
      · exact Or.inr ⟨other, hother, heq⟩

/-! ## The whole batch -/

/-- An outcome fit for an index: that of its text alone. -/
def OwnOutcome (inference : SentimentInference ε) (alpha : Char → Bool)
    (contents : List (Option String)) (i : Nat) (o : Outcome ε) : Prop :=
  ∃ content, contents[i]? = some content ∧ o.Agrees (inference.analyzeAlone alpha content)

variable (inference alpha) in
theorem analyzeBatch_alone (h : Compositional inference.persian)
    (contents : List (Option String)) :
    List.Forall₂ (fun o content => o.Agrees (inference.analyzeAlone alpha content))
      (inference.analyzeBatch alpha contents) contents := by
  have hroutes : Routes inference (OwnOutcome inference alpha contents)
      (fun i => ∃ item ∈ contents.zipIdx, item.2 = i) ⟨Slots.blank contents.length, []⟩
      (inference.route alpha contents) :=
    foldl_routeItem_routes (fun item hitem _ ho =>
      ⟨item.1, List.mk_mem_zipIdx_iff_getElem?.mp hitem, ho⟩) _
  have hchunks := Slots.Fills.foldl
    (Slots.slices inference.modelBatchSize (inference.route alpha contents).persianItems)
    (fun chunk hchunk => analyzeChunk_fills h fun item hitem =>
      (hroutes.aside item (Slots.mem_of_mem_slices hchunk hitem)).resolve_left List.not_mem_nil)
    (inference.route alpha contents).outcomes
  have hall : ∀ i, i < contents.length →
      ((∃ item ∈ contents.zipIdx, item.2 = i) ∧
        ∀ item ∈ (inference.route alpha contents).persianItems, item.1 ≠ i) ∨
      ∃ chunk ∈ Slots.slices inference.modelBatchSize
        (inference.route alpha contents).persianItems, ∃ item ∈ chunk, item.1 = i := by
    intro i hi
    by_cases hmodel : ∃ item ∈ (inference.route alpha contents).persianItems, item.1 = i
    · obtain ⟨item, hitem, heq⟩ := hmodel
      obtain ⟨chunk, hchunk, hmem⟩ := Slots.exists_mem_slices inference.batchSize_pos hitem
      exact Or.inr ⟨chunk, hchunk, item, hmem, heq⟩
    · refine Or.inl ⟨⟨(contents[i], i), ?_, rfl⟩, fun item hitem heq => hmodel ⟨item, hitem, heq⟩⟩
      exact List.mk_mem_zipIdx_iff_getElem?.mpr (List.getElem?_eq_getElem hi)
  obtain ⟨hlength, hown⟩ := (hroutes.fills.trans hchunks).collect hall
    (.error (.runtimeError "missing inference outcome"))
  refine List.forall₂_iff_get.mpr ⟨hlength, fun i hi hi' => ?_⟩
  obtain ⟨o, ho, content, hcontent, hagrees⟩ := hown i hi'
  rw [List.getElem?_eq_getElem hi'] at hcontent
  obtain rfl := Option.some.inj hcontent
  obtain ⟨_, rfl⟩ := List.getElem?_eq_some_iff.mp ho
  exact hagrees

/-- A batch of one. -/
theorem analyzeBatch_singleton (h : Compositional inference.persian) (content : Option String) :
    ∃ o, inference.analyzeBatch alpha [content] = [o] ∧
      o.Agrees (inference.analyzeAlone alpha content) := by
  obtain ⟨o, rest, hagrees, hrest, heq⟩ :=
    List.forall₂_cons_right_iff.mp (analyzeBatch_alone inference alpha h [content])
  obtain rfl := List.forall₂_nil_right_iff.mp hrest
  exact ⟨o, heq, hagrees⟩

end SentimentInference

theorem Outcome.Agrees.of_forall₂ {contents : List (Option String)}
    {alone : Option String → Outcome ε} {outcomes outcomes' : List (Outcome ε)}
    (h : List.Forall₂ (fun o content => o.Agrees (alone content)) outcomes contents)
    (h' : List.Forall₂ (fun o content => o.Agrees (alone content)) outcomes' contents) :
    List.Forall₂ Outcome.Agrees outcomes outcomes' := by
  induction h generalizing outcomes' with
  | nil =>
      cases h'
      exact .nil
  | cons hagrees _ ih =>
      cases h' with
      | cons hagrees' hrest => exact .cons (hagrees.trans hagrees'.symm) (ih hrest)

/-- A batch has an outcome for every content, which is the one of a batch of this content
alone: the same result, or a failure too. The size of the chunks does not show. -/
theorem batch_is_single (inference : SentimentInference ε) (alpha : Char → Bool)
    (h : Compositional inference.persian) (contents : List (Option String)) :
    (inference.analyzeBatch alpha contents).length = contents.length ∧
    (∀ (i : Nat) content, contents[i]? = some content → ∃ outcome single : Outcome ε,
      (inference.analyzeBatch alpha contents)[i]? = some outcome ∧
      inference.analyzeBatch alpha [content] = [single] ∧ outcome.Agrees single) ∧
    ∀ size (hsize : 1 ≤ size), List.Forall₂ Outcome.Agrees
      (inference.analyzeBatch alpha contents)
      ({ inference with modelBatchSize := size, batchSize_pos := hsize }.analyzeBatch alpha
        contents) := by
  have halone := inference.analyzeBatch_alone alpha h contents
  refine ⟨halone.length_eq, fun i content hi => ?_, fun size hsize => ?_⟩
  · obtain ⟨hlt, rfl⟩ := List.getElem?_eq_some_iff.mp hi
    have hlt' : i < (inference.analyzeBatch alpha contents).length := halone.length_eq ▸ hlt
    obtain ⟨single, hsingle, hown⟩ := SentimentInference.analyzeBatch_singleton h contents[i]
    exact ⟨_, single, List.getElem?_eq_getElem hlt', hsingle, (halone.get hlt' hlt).trans hown.symm⟩
  · exact Outcome.Agrees.of_forall₂ halone (SentimentInference.analyzeBatch_alone
      { inference with modelBatchSize := size, batchSize_pos := hsize } alpha h contents)

/-! ## The worker's analyzer -/

/-- What `drain` makes of an entry. -/
def Outcome.answer : Outcome ε → AnalysisOutcome
  | .ok result => .result result
  | .error _ => .failure

theorem Outcome.Agrees.answer_eq {a b : Outcome ε} (h : a.Agrees b) : a.answer = b.answer := by
  cases a with
  | ok r =>
      cases b with
      | ok r' => exact congrArg AnalysisOutcome.result h
      | error e => exact h.elim
  | error e =>
      cases b with
      | ok r' => exact h.elim
      | error e' => rfl

namespace SentimentInference

variable {inference : SentimentInference ε} {alpha : Char → Bool}

def analyzer (inference : SentimentInference ε) (alpha : Char → Bool) : Analyzer :=
  fun _ contents => some ((inference.analyzeBatch alpha contents).map Outcome.answer)

theorem analyzer_eq_pointwise (h : Compositional inference.persian) :
    inference.analyzer alpha =
      pointwise fun content => (inference.analyzeAlone alpha content).answer := by
  funext n contents
  refine congrArg some (List.forall₂_eq_eq_eq ▸ ?_)
  rw [List.forall₂_map_left_iff, List.forall₂_map_right_iff]
  exact (analyzeBatch_alone inference alpha h contents).imp fun _ _ hagrees => hagrees.answer_eq

/-- A drain with this inference leaves, but for the times, what analyzing every pending
row by itself leaves. -/
theorem drain_eq_naive (h : Compositional inference.persian) {t : ObservationTable}
    (ht : Analyzed (fun content => (inference.analyzeAlone alpha content).answer) t)
    (maxAttempts : Nat) (clock : Nat → Timestamp) (now : Timestamp) {batchSize fuel : Nat}
    (hbatch : 1 ≤ batchSize) (hfuel : t.rows.length < fuel) :
    (drain (inference.analyzer alpha) batchSize maxAttempts clock fuel t).map finalRows =
      some ((naive (fun content => (inference.analyzeAlone alpha content).answer) maxAttempts now
        t).map (List.map untimed)) := by
  rw [analyzer_eq_pointwise h]
  exact finalRows_drain ht maxAttempts clock now hbatch hfuel

end SentimentInference

namespace Sample

/-- A model with a label of its own for one text, and too little memory for another. -/
def persianModel (texts : List String) : Except String (List String) :=
  if "matn-e boland" ∈ texts then .error "out of memory"
  else .ok (texts.map fun text =>
    if text = "kheyli khoob" then "positive" else if text = "kharab" then "furious" else "negative")

/-- Texts in Latin letters; "good app" and "what is this" are English. -/
def latinInference : SentimentInference String where
  modelBatchSize := 2
  minimumLanguageConfidence := 85 / 100
  detector := fun text =>
    if text = "good app" ∨ text = "what is this" then
      .ok [⟨"fr", .finite (10 / 100)⟩, ⟨"en", .finite (90 / 100)⟩]
    else .ok [⟨"fa", .finite (99 / 100)⟩]
  persian := persianModel
  english := fun text =>
    if text = "good app" then .ok (.finite (44 / 100)) else .error "no score"
  batchSize_pos := Nat.two_pos
  confidence_le := by decide +kernel

def mixedContents : List (Option String) :=
  [some "kheyli khoob", some "good app", some "kharab", none, some "matn-e boland",
    some "what is this", some " eftezah "]

theorem persianModel_compositional : Compositional persianModel := by
  intro texts
  unfold persianModel
  by_cases hlong : "matn-e boland" ∈ texts
  · exact Or.inl ⟨_, if_pos hlong⟩
  · refine Or.inr ⟨_, if_neg hlong, Or.inr ?_⟩
    rw [List.forall₂_map_right_iff]
    refine List.forall₂_same.mpr fun text htext => if_neg fun hmem => hlong ?_
    exact List.mem_singleton.mp hmem ▸ htext

end Sample

open Sample SentimentInference in
/-- A bad label in the first chunk, a model that fails in the second. -/
theorem batch_is_single_mixed :
    (latinInference.analyzeBatch (fun _ => true) mixedContents).map Except.toOption =
      [some (.done .fa .positive), some (.done .en .positive), none, some .skipped, none, none,
        some (.done .fa .negative)] ∧
    ∃ outcome single,
      (latinInference.analyzeBatch (fun _ => true) mixedContents)[0]? = some outcome ∧
      latinInference.analyzeBatch (fun _ => true) [some "kheyli khoob"] = [single] ∧
      outcome.Agrees single :=
  ⟨by decide +kernel, (batch_is_single latinInference (fun _ => true) persianModel_compositional
    mixedContents).2.1 0 _ rfl⟩

end Sahabino
