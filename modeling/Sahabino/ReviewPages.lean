import Mathlib.Data.List.Nodup
import Sahabino.ReviewBatch

/-!
# Fetching reviews page by page

`_default_review_fetcher`: it asks upstream for page after page until it
has as many reviews as were wanted. Upstream decides when there are no
more pages, and it can send anything; what is proved here does not depend
on it. A page that lets the loop go on has brought a review, so there are
no more pages than reviews wanted, and its token is one that was not used
before.
-/

namespace Sahabino

namespace GooglePlayScraperAdapter

/-- What a page says about the next one: nothing, a text, or something else. -/
inductive NextToken where
  | null
  | text (s : String)
  | other
deriving DecidableEq

/-- What `_fetch_review_items` gives; the items may be no list. -/
structure ReviewPage (ι : Type) where
  items : Option (List ι)
  nextToken : NextToken

/-- The arguments that change from page to page. -/
structure PageRequest where
  fetchCount : Nat
  token : Option String
deriving DecidableEq

/-- `_fetch_review_items`; what it answers may depend on all requests before. -/
abbrev PageSource (ι : Type) := List PageRequest → PageRequest → ReviewPage ι

/-- The variables of the loop, and the requests that it has made. -/
structure Paging (ρ : Type) where
  sent : List PageRequest
  result : List (ReviewRecord ρ)
  token : Option String
  seenTokens : List String

section

variable {ι ρ : Type}

def parseFailure (message : String) : PyError := .crawler ⟨.parseFailure, message, false, none⟩

def Paging.start : Paging ρ := ⟨[], [], none, []⟩

variable (maxCountEachFetch : Nat) (source : PageSource ι)
  (extract : ι → Except PyError (ReviewRecord ρ)) (count : Nat)

def Paging.request (p : Paging ρ) : PageRequest :=
  ⟨min (count - p.result.length) maxCountEachFetch, p.token⟩

/-- One page, and whether to go on with the next. -/
def fetchPage (p : Paging ρ) : Except PyError (Bool × Paging ρ) :=
  let request := p.request maxCountEachFetch count
  let page := source p.sent request
  match page.items with
  | none => .error (parseFailure "secondary reviews parser returned an invalid page")
  | some items => do
      let records ← (items.take request.fetchCount).mapM extract
      let p' : Paging ρ := { p with sent := p.sent ++ [request], result := p.result ++ records }
      if items.isEmpty ∨ count ≤ p'.result.length ∨ page.nextToken = .null then .ok (false, p')
      else
        match page.nextToken with
        | .text token =>
            if token = "" ∨ token ∈ p.seenTokens then
              .error (parseFailure "secondary reviews pagination token is invalid")
            else .ok (true, { p' with
              token := some token, seenTokens := p.seenTokens ++ [token] })
        | _ => .error (parseFailure "secondary reviews pagination token is invalid")

/-- The loop with at most so many pages: the requests made and how it ended, or nothing
when it would ask for one more. -/
def fetchPages : Nat → Paging ρ →
    Option (List PageRequest × Except PyError (List (ReviewRecord ρ)))
  | pages, p =>
      if p.result.length < count then
        match pages with
        | 0 => none
        | pages + 1 =>
            match fetchPage maxCountEachFetch source extract count p with
            | .error error => some (p.sent ++ [p.request maxCountEachFetch count], .error error)
            | .ok (true, p') => fetchPages pages p'
            | .ok (false, p') => some (p'.sent, .ok p'.result)
      else some (p.sent, .ok p.result)

/-- `_default_review_fetcher`. -/
def defaultReviewFetcher {ν : Type} (specs : List (ElementSpec ι ν))
    (sourceAt : ι → Except PyError ν) (pages : Nat) :
    Option (List PageRequest × Except PyError (List (ReviewRecord (List (String × ν))))) :=
  fetchPages maxCountEachFetch source (fun item => extractReviewItem sourceAt item specs []) count
    pages Paging.start

/-! ## What has been fetched -/

/-- The items of the pages, each cut at the size asked for; `before` are the requests
before these. -/
def received : List PageRequest → List PageRequest → List ι
  | _, [] => []
  | before, request :: requests =>
      ((source before request).items.getD []).take request.fetchCount
        ++ received (before ++ [request]) requests

theorem received_append (requests : List PageRequest) (request : PageRequest) :
    ∀ before, received source before (requests ++ [request]) =
      received source before requests ++
        ((source (before ++ requests) request).items.getD []).take request.fetchCount := by
  induction requests with
  | nil =>
      intro before
      simp [received]
  | cons first requests ih =>
      intro before
      simp [received, ih]

/-- What the loop keeps: every page so far brought a review, and the tokens used are the
tokens seen. -/
structure Paging.Inv (p : Paging ρ) : Prop where
  room : p.result.length ≤ count
  pages : p.sent.length ≤ p.result.length
  records : (received source [] p.sent).mapM extract = .ok p.result
  tokens : p.sent.filterMap (·.token) ++ p.token.toList = p.seenTokens
  nodup : p.seenTokens.Nodup

/-- How the loop may end. -/
structure Ended (requests : List PageRequest)
    (outcome : Except PyError (List (ReviewRecord ρ))) : Prop where
  pages : requests.length ≤ count
  tokens : (requests.filterMap (·.token)).Nodup
  records : ∀ records, outcome = .ok records → records.length ≤ count ∧
    (received source [] requests).mapM extract = .ok records
  failure : ∀ error, outcome = .error error →
    ∃ failure, error = .crawler failure ∧ failure.cls = .parseFailure

variable {maxCountEachFetch : Nat} {source : PageSource ι}
  {extract : ι → Except PyError (ReviewRecord ρ)} {count : Nat}

theorem mapM_ok {α β : Type} {f : α → Except PyError β} (h : ∀ a, ∃ b, f a = .ok b) (xs : List α) :
    ∃ ys, xs.mapM f = .ok ys ∧ ys.length = xs.length := by
  induction xs with
  | nil => exact ⟨[], rfl, rfl⟩
  | cons x xs ih =>
      obtain ⟨y, hy⟩ := h x
      obtain ⟨ys, hys, hlength⟩ := ih
      refine ⟨y :: ys, ?_, congrArg (· + 1) hlength⟩
      rw [List.mapM_cons, hy, hys]
      rfl

theorem Paging.inv_start : (Paging.start : Paging ρ).Inv source extract count where
  room := Nat.zero_le _
  pages := Nat.le_refl 0
  records := rfl
  tokens := rfl
  nodup := List.nodup_nil

theorem Paging.Inv.requested {p : Paging ρ} (hinv : p.Inv source extract count) :
    ((p.sent ++ [p.request maxCountEachFetch count]).filterMap (·.token)) = p.seenTokens := by
  have hused : [p.request maxCountEachFetch count].filterMap (·.token) = p.token.toList := by
    rw [Paging.request]
    cases p.token <;> rfl
  rw [List.filterMap_append, hused, hinv.tokens]

theorem Paging.Inv.ended {p : Paging ρ} (hinv : p.Inv source extract count) :
    Ended source extract count p.sent (.ok p.result) where
  pages := hinv.pages.trans hinv.room
  tokens := by
    have hnodup := hinv.nodup
    rw [← hinv.tokens] at hnodup
    exact (List.nodup_append.mp hnodup).1
  records := by
    intro records h
    obtain rfl := Except.ok.inj h
    exact ⟨hinv.room, hinv.records⟩
  failure := fun error h => by cases h

section

variable (hmax : 1 ≤ maxCountEachFetch) (hextract : ∀ item, ∃ record, extract item = .ok record)
include hmax hextract

/-- One page: it is rejected, or its records are added; if the loop goes on, there is at
least one of them and the next token is a new one. -/
theorem fetchPage_spec {p : Paging ρ} (hinv : p.Inv source extract count)
    (hroom : p.result.length < count) :
    (∃ message, fetchPage maxCountEachFetch source extract count p =
      .error (parseFailure message)) ∨
    ∃ more p', fetchPage maxCountEachFetch source extract count p = .ok (more, p') ∧
      p'.sent = p.sent ++ [p.request maxCountEachFetch count] ∧ p'.result.length ≤ count ∧
      (received source [] p'.sent).mapM extract = .ok p'.result ∧
      (more = true → p.result.length < p'.result.length ∧ p'.Inv source extract count) := by
  have hsize : 1 ≤ (p.request maxCountEachFetch count).fetchCount ∧
      p.result.length + (p.request maxCountEachFetch count).fetchCount ≤ count := by
    simp only [Paging.request]
    omega
  simp only [fetchPage]
  generalize hrequest : p.request maxCountEachFetch count = request at hsize ⊢
  cases hitems : (source p.sent request).items with
  | none => exact Or.inl ⟨_, rfl⟩
  | some items =>
      obtain ⟨records, hmap, hlength⟩ := mapM_ok hextract (items.take request.fetchCount)
      rw [List.length_take] at hlength
      have hreceived : (received source [] (p.sent ++ [request])).mapM extract =
          .ok (p.result ++ records) := by
        rw [received_append, List.mapM_append, List.nil_append, hitems, Option.getD_some,
          hinv.records, hmap]
        rfl
      have hcount : (p.result ++ records).length ≤ count := by
        rw [List.length_append]
        omega
      simp only [hmap, bind, Except.bind]
      split
      · exact Or.inr ⟨false, _, rfl, rfl, hcount, hreceived, fun h => by cases h⟩
      · rename_i hgoes
        have hadded : p.result.length < (p.result ++ records).length := by
          have hne : items ≠ [] := fun h => hgoes (Or.inl (List.isEmpty_iff.mpr h))
          have hpos := List.length_pos_of_ne_nil hne
          rw [List.length_append]
          omega
        split
        · rename_i token hnext
          split
          · exact Or.inl ⟨_, rfl⟩
          · rename_i hfresh
            have htoken : token ∉ p.seenTokens := fun h => hfresh (Or.inr h)
            refine Or.inr ⟨true, _, rfl, rfl, hcount, hreceived, fun _ => ⟨hadded, ?_⟩⟩
            -- the token used here was seen already, the next one was not
            refine ⟨hcount, ?_, hreceived, ?_, ?_⟩
            · have hpages := hinv.pages
              change (p.sent ++ [request]).length ≤ (p.result ++ records).length
              rw [List.length_append, List.length_singleton]
              omega
            · exact congrArg (· ++ [token]) (hrequest ▸ hinv.requested)
            · exact List.nodup_append.mpr ⟨hinv.nodup, List.nodup_singleton token,
                fun a ha b hb hab => htoken (List.mem_singleton.mp hb ▸ hab ▸ ha)⟩
        · exact Or.inl ⟨_, rfl⟩

/-- The loop ends within one page for each record that is still wanted. -/
theorem fetchPages_spec : ∀ (pages : Nat) {p : Paging ρ}, p.Inv source extract count →
    count ≤ pages + p.result.length →
    ∃ requests outcome, fetchPages maxCountEachFetch source extract count pages p =
      some (requests, outcome) ∧ Ended source extract count requests outcome := by
  intro pages
  induction pages with
  | zero =>
      intro p hinv henough
      have hdone : ¬p.result.length < count := by omega
      exact ⟨p.sent, .ok p.result, by rw [fetchPages, if_neg hdone], hinv.ended⟩
  | succ pages ih =>
      intro p hinv henough
      by_cases hroom : p.result.length < count
      · have hpages : (p.sent ++ [p.request maxCountEachFetch count]).length ≤ count := by
          have hsent := hinv.pages
          rw [List.length_append, List.length_singleton]
          omega
        have htokens : ((p.sent ++ [p.request maxCountEachFetch count]).filterMap
            (·.token)).Nodup := by
          rw [hinv.requested]
          exact hinv.nodup
        rw [fetchPages, if_pos hroom]
        rcases fetchPage_spec hmax hextract hinv hroom with ⟨message, hpage⟩ |
          ⟨more, p', hpage, hsent, hcount, hrecords, hmore⟩
        · rw [hpage]
          refine ⟨_, _, rfl, hpages, htokens, fun records h => (by cases h), fun error h => ?_⟩
          obtain rfl := Except.error.inj h
          exact ⟨_, rfl, rfl⟩
        · rw [hpage]
          cases more with
          | true =>
              obtain ⟨hadded, hinv'⟩ := hmore rfl
              exact ih hinv' (by omega)
          | false =>
              refine ⟨_, _, rfl, hsent ▸ hpages, hsent ▸ htokens, fun records h => ?_,
                fun error h => by cases h⟩
              obtain rfl := Except.ok.inj h
              exact ⟨hcount, hrecords⟩
      · exact ⟨p.sent, .ok p.result, by rw [fetchPages, if_neg hroom], hinv.ended⟩

end

/-- One page more than is needed changes nothing. -/
theorem fetchPages_succ : ∀ {pages : Nat} {p : Paging ρ}
    {r : List PageRequest × Except PyError (List (ReviewRecord ρ))},
    fetchPages maxCountEachFetch source extract count pages p = some r →
    fetchPages maxCountEachFetch source extract count (pages + 1) p = some r := by
  intro pages
  induction pages with
  | zero =>
      intro p r h
      rw [fetchPages] at h
      split at h
      · cases h
      · rename_i hdone
        rw [fetchPages, if_neg hdone]
        exact h
  | succ pages ih =>
      intro p r h
      rw [fetchPages] at h ⊢
      split at h
      · rename_i hroom
        rw [if_pos hroom]
        cases hpage : fetchPage maxCountEachFetch source extract count p with
        | error error =>
            rw [hpage] at h
            exact h
        | ok next =>
            rw [hpage] at h
            obtain ⟨more, p'⟩ := next
            cases more with
            | true => exact ih h
            | false => exact h
      · rename_i hdone
        rw [if_neg hdone]
        exact h

theorem fetchPages_mono {pages more : Nat} (hle : pages ≤ more) {p : Paging ρ}
    {r : List PageRequest × Except PyError (List (ReviewRecord ρ))}
    (h : fetchPages maxCountEachFetch source extract count pages p = some r) :
    fetchPages maxCountEachFetch source extract count more p = some r := by
  induction hle with
  | refl => exact h
  | step _ ih => exact fetchPages_succ ih

end

/-! ## Extraction -/

section

variable {ι ν : Type} {specs : List (ElementSpec ι ν)} {sourceAt : ι → Except PyError ν}

/-- The exceptions that an item may raise while its fields or its timestamp are read. -/
structure ExtractionRaises (specs : List (ElementSpec ι ν)) (sourceAt : ι → Except PyError ν) :
    Prop where
  field : ∀ spec ∈ specs, ∀ item error, spec.extractContent item = .error error →
    ∃ name message, error = .other name message ∧
      name ∈ ["AttributeError", "IndexError", "KeyError", "TypeError", "ValueError"]
  timestamp : ∀ item error, sourceAt item = .error error →
    ∃ name message, error = .other name message ∧
      name ∈ ["IndexError", "KeyError", "TypeError", "ValueError", "OverflowError", "OSError"]

theorem among_of_mem {classes : List String} {name message : String} (h : name ∈ classes) :
    (PyError.other name message).among classes = some name := by
  rw [PyError.among, if_pos (List.contains_iff_mem.mpr h)]

/-- Extraction that raises nothing else gives a record of every item. -/
theorem extractReviewItem_ok (hraises : ExtractionRaises specs sourceAt) (item : ι) :
    ∀ raw, ∃ record, extractReviewItem sourceAt item specs raw = .ok record := by
  obtain ⟨hfield, htimestamp⟩ := hraises
  induction specs with
  | nil =>
      intro raw
      rw [extractReviewItem]
      cases hsource : sourceAt item with
      | ok timestamp => exact ⟨_, rfl⟩
      | error error =>
          obtain ⟨name, message, rfl, hmem⟩ := htimestamp item error hsource
          simp only [among_of_mem hmem]
          exact ⟨_, rfl⟩
  | cons spec specs ih =>
      intro raw
      have hrest := ih fun spec hspec => hfield spec (List.mem_cons_of_mem _ hspec)
      rw [extractReviewItem]
      cases normalizedFieldName spec.key with
      | none => exact hrest raw
      | some fieldName =>
          cases hcontent : spec.extractContent item with
          | ok value => exact hrest _
          | error error =>
              obtain ⟨name, message, rfl, hmem⟩ :=
                hfield spec (List.mem_cons_self ..) item error hcontent
              simp only [among_of_mem hmem]
              exact ⟨_, rfl⟩

end

/-- Whatever upstream answers, the fetcher is done after at most as many pages as reviews
were wanted; it never sends a token twice, returns at most the wanted number of records -
those of the items received, each page cut at the size asked for - and raises nothing but a
`ParseFailure`. -/
theorem reviewPages_bounded {ι ν : Type} (maxCountEachFetch : Nat) (hmax : 1 ≤ maxCountEachFetch)
    (source : PageSource ι) (specs : List (ElementSpec ι ν)) (sourceAt : ι → Except PyError ν)
    (hraises : ExtractionRaises specs sourceAt) (count : Nat) :
    ∃ requests outcome,
      (∀ pages, count ≤ pages → defaultReviewFetcher maxCountEachFetch source count specs sourceAt
        pages = some (requests, outcome)) ∧
      requests.length ≤ count ∧
      (requests.filterMap (·.token)).Nodup ∧
      (∀ records, outcome = .ok records → records.length ≤ count ∧
        (received source [] requests).mapM (fun item => extractReviewItem sourceAt item specs []) =
          .ok records) ∧
      ∀ error, outcome = .error error →
        ∃ failure, error = .crawler failure ∧ failure.cls = .parseFailure := by
  have hextract := fun item => extractReviewItem_ok hraises item []
  obtain ⟨requests, outcome, hfetch, hended⟩ :=
    fetchPages_spec hmax hextract count Paging.inv_start (Nat.le_add_right count _)
  refine ⟨requests, outcome, fun pages hle => fetchPages_mono hle hfetch, hended.pages,
    hended.tokens, hended.records, hended.failure⟩

namespace Sample

/-- Every page has the same two items, and leads to the same next page. -/
def samePage : PageSource Nat := fun _ _ => ⟨some [0, 1], .text "next"⟩

def reviewIdSpec : ElementSpec Nat String := ⟨"reviewId", fun _ => .ok "id"⟩

/-- The second item has no timestamp. -/
def firstHasTimestamp (item : Nat) : Except PyError String :=
  if item = 0 then .ok "at" else .error (.other "IndexError" "list index out of range")

theorem sampleRaises : ExtractionRaises [reviewIdSpec] firstHasTimestamp where
  field := by
    intro spec hspec item error h
    obtain rfl := List.mem_singleton.mp hspec
    cases h
  timestamp := by
    intro item error h
    rw [firstHasTimestamp] at h
    split at h
    · cases h
    · obtain rfl := Except.error.inj h
      exact ⟨_, _, rfl, by decide⟩

end Sample

/-- Three reviews take two pages, the second cut at one item. -/
theorem reviewPages_bounded_same_page :
    ∃ requests outcome,
      defaultReviewFetcher 199 Sample.samePage 3 [Sample.reviewIdSpec] Sample.firstHasTimestamp 3 =
        some (requests, outcome) ∧
      requests = [⟨3, none⟩, ⟨1, some "next"⟩] ∧ requests.length ≤ 3 ∧
      (requests.filterMap (·.token)).Nodup := by
  obtain ⟨requests, outcome, hfetch, hpages, htokens, -⟩ := reviewPages_bounded 199 (by decide)
    Sample.samePage [Sample.reviewIdSpec] Sample.firstHasTimestamp Sample.sampleRaises 3
  have hrun := hfetch 3 (Nat.le_refl 3)
  refine ⟨requests, outcome, hrun, ?_, hpages, htokens⟩
  have hsent : (defaultReviewFetcher 199 Sample.samePage 3 [Sample.reviewIdSpec]
      Sample.firstHasTimestamp 3).map Prod.fst = some [⟨3, none⟩, ⟨1, some "next"⟩] := by
    decide +kernel
  rw [hrun] at hsent
  exact Option.some.inj hsent

end GooglePlayScraperAdapter

end Sahabino
