import Mathlib.Data.List.Infix
import Sahabino.Lib.PyWords

/-!
# Error texts

`safe_error_message`, which makes of an exception the text that is stored
with a failed task: one regular expression takes endpoints out, white
space is folded, and the rest is cut off.

The expression is a scan from left to right (`redactFrom`). Nothing it
looks for has white space in it, so a text can be redacted in parts, cut
at white space (`redactFrom_append_space`). A proxy URL is such a part. If
the expression knows its scheme the whole of it goes; otherwise it stays,
and with it the credentials, unless the text is cut off before them
(`credentials_hidden_iff`).
-/

namespace Sahabino

/-! ## The redaction -/

/-- `\\w` in a pattern for texts: the characters beyond ASCII are looked up in a
table. No white space is among them. -/
def isWordChar (alnum : Char → Bool) (c : Char) : Bool :=
  !Py.isSpace c && (c.isAlphanum || c = '_' || (128 ≤ c.toNat && alnum c))

/-- What `(?:https?|socks[45]?)` matches. -/
def redactedSchemes : List (List Char) :=
  ["http".toList, "https".toList, "socks".toList, "socks4".toList, "socks5".toList]

def afterScheme : List Char := "://".toList

/-- The expression matches here, apart from the word boundary. -/
def startsEndpoint (s : List Char) : Bool :=
  redactedSchemes.any fun scheme =>
    (scheme ++ afterScheme).isPrefixOf s &&
      (s.drop (scheme ++ afterScheme).length).head?.any fun c => !Py.isSpace c

def redactedEndpoint : List Char := "[redacted endpoint]".toList

/-- `re.sub`, from a place on. Inside a match everything up to the next white space is
dropped; elsewhere a match needs a character before it that is not a word's, as each
scheme starts with one that is. -/
def redactFrom (alnum : Char → Bool) (inMatch afterWord : Bool) : List Char → List Char
  | [] => []
  | c :: cs =>
      if inMatch && !Py.isSpace c then redactFrom alnum true (isWordChar alnum c) cs
      else if !afterWord && startsEndpoint (c :: cs) then
        redactedEndpoint ++ redactFrom alnum true (isWordChar alnum c) cs
      else c :: redactFrom alnum false (isWordChar alnum c) cs

def redact (alnum : Char → Bool) (s : List Char) : List Char := redactFrom alnum false false s

/-- `safe_error_message` of an exception of this class with this text. -/
def safeErrorMessage (alnum : Char → Bool) (className message : String) (maximumLength : Nat) :
    String :=
  let folded := Py.joinWords (Py.split (redact alnum message.toList))
  String.ofList ((if folded = [] then className.toList else folded).take maximumLength)

/-- The default of `maximum_length`, which `_mark_failed` leaves as it is. -/
def errorMessageLength : Nat := 500

/-! ## Redacting in parts -/

variable {alnum : Char → Bool}

theorem redactedSchemes_solid {scheme : List Char} (h : scheme ∈ redactedSchemes) :
    Py.Solid (scheme ++ afterScheme) := by
  have hall : ∀ scheme ∈ redactedSchemes, Py.Solid (scheme ++ afterScheme) := by
    decide
  exact hall scheme h

theorem startsEndpoint_iff {s : List Char} : startsEndpoint s = true ↔
    ∃ scheme ∈ redactedSchemes, ∃ c, Py.isSpace c = false ∧
      scheme ++ afterScheme ++ [c] <+: s := by
  unfold startsEndpoint
  rw [List.any_eq_true]
  refine exists_congr fun scheme => and_congr_right fun _ => ?_
  rw [Bool.and_eq_true, List.isPrefixOf_iff_prefix]
  constructor
  · rintro ⟨⟨rest, rfl⟩, hnext⟩
    rw [List.drop_left] at hnext
    cases rest with
    | nil => cases hnext
    | cons c rest => exact ⟨c, by simpa using hnext, rest, by simp⟩
  · rintro ⟨c, hc, rest, rfl⟩
    rw [List.append_assoc]
    exact ⟨List.prefix_append _ _, by simp [hc]⟩

/-- A solid text at the front is in the part before the white space. -/
theorem prefix_append_space {p : List Char} (hp : Py.Solid p) {c : Char}
    (hc : Py.isSpace c = true) {s t : List Char} : p <+: s ++ c :: t ↔ p <+: s := by
  refine ⟨fun h => ?_, fun h => h.trans (List.prefix_append _ _)⟩
  rcases List.prefix_or_prefix_of_prefix h (List.prefix_append s (c :: t)) with hps | ⟨rest, rfl⟩
  · exact hps
  · cases rest with
    | nil => simp
    | cons a rest =>
        rw [List.prefix_append_right_inj, List.cons_prefix_cons] at h
        have ha := hp a (by simp)
        rw [h.1, hc] at ha
        cases ha

theorem startsEndpoint_append_space {c : Char} (hc : Py.isSpace c = true) (s t : List Char) :
    startsEndpoint (s ++ c :: t) = startsEndpoint s := by
  rw [Bool.eq_iff_iff, startsEndpoint_iff, startsEndpoint_iff]
  refine exists_congr fun scheme => and_congr_right fun hscheme => exists_congr fun a =>
    and_congr_right fun ha => prefix_append_space ?_ hc
  refine (redactedSchemes_solid hscheme).append fun b hb => ?_
  rw [List.mem_singleton.mp hb]
  exact ha

theorem startsEndpoint_space {c : Char} (hc : Py.isSpace c = true) (t : List Char) :
    startsEndpoint (c :: t) = false :=
  startsEndpoint_append_space hc [] t

variable (alnum) in
theorem redactFrom_space {c : Char} (hc : Py.isSpace c = true) (t : List Char)
    (inMatch afterWord : Bool) :
    redactFrom alnum inMatch afterWord (c :: t) = c :: redact alnum t := by
  have hword : isWordChar alnum c = false := by simp [isWordChar, hc]
  simp [redactFrom, hc, startsEndpoint_space hc, hword, redact]

variable (alnum) in
/-- A text can be cut at white space. -/
theorem redactFrom_append_space {c : Char} (hc : Py.isSpace c = true) (s t : List Char) :
    ∀ inMatch afterWord, redactFrom alnum inMatch afterWord (s ++ c :: t) =
      redactFrom alnum inMatch afterWord s ++ c :: redact alnum t := by
  induction s with
  | nil => exact redactFrom_space alnum hc t
  | cons a s ih =>
      intro inMatch afterWord
      have hstarts := startsEndpoint_append_space hc (a :: s) t
      rw [List.cons_append] at hstarts
      simp only [List.cons_append, redactFrom, hstarts, ih]
      split
      · rfl
      · split
        · rw [List.append_assoc]
        · rfl

variable (alnum) in
/-- Inside a match nothing comes out. -/
theorem redactFrom_inMatch {s : List Char} (hs : Py.Solid s) :
    ∀ afterWord, redactFrom alnum true afterWord s = [] := by
  induction s with
  | nil =>
      intro afterWord
      rfl
  | cons a s ih =>
      intro afterWord
      simp only [redactFrom, hs a List.mem_cons_self, Bool.not_false, Bool.and_self, if_true]
      exact ih (fun c hc => hs c (List.mem_cons_of_mem a hc)) _

/-- A solid text that starts like an endpoint is one. -/
theorem redact_endpoint {s : List Char} (hs : Py.Solid s) (hstarts : startsEndpoint s = true) :
    redact alnum s = redactedEndpoint := by
  cases s with
  | nil => exact absurd hstarts (by decide)
  | cons a s =>
      have hrest := redactFrom_inMatch alnum
        (fun c hc => hs c (List.mem_cons_of_mem a hc)) (isWordChar alnum a)
      simp [redact, redactFrom, hstarts, hrest]

/-! ## What a text is stored as -/

/-- A text that can be put before a word. -/
def EndsInSpace (s : List Char) : Prop := s = [] ∨ ∃ s' c, Py.isSpace c = true ∧ s = s' ++ [c]

/-- A text that can be put after a word. -/
def StartsWithSpace (s : List Char) : Prop := s = [] ∨ ∃ c s', Py.isSpace c = true ∧ s = c :: s'

/-- The words that are stored for a text. -/
def storedWords (alnum : Char → Bool) (s : List Char) : List (List Char) :=
  Py.split (redact alnum s)

theorem storedWords_initial {s : List Char} (hs : EndsInSpace s) (t : List Char) :
    storedWords alnum (s ++ t) = storedWords alnum s ++ storedWords alnum t := by
  rcases hs with rfl | ⟨s', c, hc, rfl⟩
  · rfl
  · have hparts : ∀ t, redact alnum (s' ++ [c] ++ t) = redact alnum s' ++ c :: redact alnum t := by
      intro t
      rw [List.append_assoc, List.singleton_append]
      exact redactFrom_append_space alnum hc s' t false false
    have hprefix := hparts []
    rw [List.append_nil] at hprefix
    rw [storedWords, storedWords, storedWords, hparts, hprefix, Py.split_append_space hc,
      Py.split_append_space hc]
    simp [redact, redactFrom, Py.split, Py.splitFrom]

variable (alnum) in
theorem storedWords_suffix {t : List Char} (ht : StartsWithSpace t) (s : List Char) :
    storedWords alnum (s ++ t) = storedWords alnum s ++ storedWords alnum t := by
  rcases ht with rfl | ⟨c, t', hc, rfl⟩
  · simp [storedWords, redact, redactFrom, Py.split, Py.splitFrom]
  · have hparts : redact alnum (s ++ c :: t') = redact alnum s ++ c :: redact alnum t' :=
      redactFrom_append_space alnum hc s t' false false
    have hsuffix : redact alnum (c :: t') = [] ++ c :: redact alnum t' :=
      redactFrom_space alnum hc t' false false
    rw [storedWords, storedWords, storedWords, hparts, hsuffix, Py.split_append_space hc,
      Py.split_append_space hc]
    rfl

/-! ## Proxy URLs -/

/-- The schemes of the proxies that the transport takes. -/
def proxySchemes : List (List Char) :=
  ["http".toList, "https".toList, "socks4".toList, "socks4a".toList, "socks5".toList,
    "socks5h".toList]

/-- `user:password@host:port`, of which the first two are secret. -/
structure ProxyAddress where
  user : List Char
  password : List Char
  host : List Char
  port : List Char

def ProxyAddress.text (a : ProxyAddress) : List Char :=
  a.user ++ ':' :: a.password ++ '@' :: a.host ++ ':' :: a.port

def proxyUrl (scheme : List Char) (a : ProxyAddress) : List Char :=
  scheme ++ afterScheme ++ a.text

/-- What is stored of a text around a proxy URL. -/
def storedText (alnum : Char → Bool) (className : String) (before scheme after : List Char)
    (a : ProxyAddress) : String :=
  safeErrorMessage alnum className (String.ofList (before ++ proxyUrl scheme a ++ after))
    errorMessageLength

/-- The words of the text before the URL, as they are stored. -/
def shownBefore (alnum : Char → Bool) (before : List Char) : List Char :=
  Py.spaced (storedWords alnum before)

theorem ProxyAddress.text_ne_nil (a : ProxyAddress) : a.text ≠ [] := by
  simp [text]

theorem ProxyAddress.text_solid {user password host port : List Char} (huser : Py.Solid user)
    (hpassword : Py.Solid password) (hhost : Py.Solid host) (hport : Py.Solid port) :
    Py.Solid (ProxyAddress.mk user password host port).text :=
  ((huser.append (hpassword.cons (by decide))).append (hhost.cons (by decide))).append
    (hport.cons (by decide))

theorem redacted_of_scheme {scheme : List Char} (hknown : scheme ∈ redactedSchemes) {a : ProxyAddress} (ha : Py.Solid a.text) :
    redact alnum (proxyUrl scheme a) = redactedEndpoint := by
  have hsolid : Py.Solid (proxyUrl scheme a) := (redactedSchemes_solid hknown).append ha
  refine redact_endpoint hsolid (startsEndpoint_iff.mpr ?_)
  obtain ⟨c, rest, heq⟩ := List.exists_cons_of_ne_nil a.text_ne_nil
  refine ⟨scheme, hknown, c, ha c (by rw [heq]; exact List.mem_cons_self), rest, ?_⟩
  rw [proxyUrl, heq, List.append_assoc _ [c], List.singleton_append]

/-- No match starts in this text, whatever follows it. -/
def NoEndpointIn (p : List Char) : Prop :=
  ∀ q ∈ p.tails, q ≠ [] → ∀ scheme ∈ redactedSchemes,
    ¬q <+: scheme ++ afterScheme ∧ ¬scheme ++ afterScheme <+: q

instance (p : List Char) : Decidable (NoEndpointIn p) := by
  unfold NoEndpointIn
  infer_instance

theorem startsEndpoint_eq_false {p : List Char} (hp : NoEndpointIn p) (hne : p ≠ [])
    (t : List Char) : startsEndpoint (p ++ t) = false := by
  refine Bool.eq_false_iff.mpr fun hstarts => ?_
  obtain ⟨scheme, hscheme, c, -, hprefix⟩ := startsEndpoint_iff.mp hstarts
  obtain ⟨hshort, hlong⟩ := hp p ((List.mem_tails p p).mpr (List.suffix_refl p)) hne scheme hscheme
  rcases List.prefix_or_prefix_of_prefix (List.prefix_append p t)
    ((List.prefix_append _ [c]).trans hprefix) with h | h
  · exact hshort h
  · exact hlong h

variable (alnum) in
/-- A text in which no match starts stays. -/
theorem redactFrom_kept {p : List Char} (hp : NoEndpointIn p) (t : List Char) :
    ∀ afterWord, ∃ afterWord', redactFrom alnum false afterWord (p ++ t) =
      p ++ redactFrom alnum false afterWord' t := by
  induction p with
  | nil =>
      intro afterWord
      exact ⟨afterWord, rfl⟩
  | cons a p ih =>
      intro afterWord
      have hstarts := startsEndpoint_eq_false hp (List.cons_ne_nil a p) t
      have hrest : NoEndpointIn p := by
        intro q hq
        refine hp q ?_
        rw [List.tails_cons]
        exact List.mem_cons_of_mem _ hq
      obtain ⟨afterWord', heq⟩ := ih hrest (isWordChar alnum a)
      refine ⟨afterWord', ?_⟩
      rw [List.cons_append] at hstarts ⊢
      simp [redactFrom, hstarts, heq]

theorem toList_storedText (className : String) {before scheme after : List Char}
    (hbefore : EndsInSpace before) (hafter : StartsWithSpace after) (a : ProxyAddress) :
    (storedText alnum className before scheme after a).toList =
      (let folded := Py.joinWords (storedWords alnum before ++
        storedWords alnum (proxyUrl scheme a) ++ storedWords alnum after)
      if folded = [] then className.toList else folded).take errorMessageLength := by
  have hwords := storedWords_suffix alnum hafter (before ++ proxyUrl scheme a)
  rw [storedWords_initial hbefore] at hwords
  rw [← hwords, storedText, safeErrorMessage, String.toList_ofList, String.toList_ofList]
  rfl

variable (alnum) in
/-- What is stored of a text whose URL stays: the words before it, and then the URL up to
some point. -/
theorem storedText_kept (className : String) {before scheme after p t : List Char}
    (hbefore : EndsInSpace before) (hafter : StartsWithSpace after) {a : ProxyAddress}
    (hurl : proxyUrl scheme a = p ++ t) (hp : NoEndpointIn p) (hsolid : Py.Solid p)
    (hne : p ≠ []) :
    ∃ rest, (storedText alnum className before scheme after a).toList =
      (shownBefore alnum before ++ p ++ rest).take errorMessageLength := by
  obtain ⟨afterWord, hredacted⟩ := redactFrom_kept alnum hp t false
  obtain ⟨rest, words, hsplit⟩ := Py.split_solid hsolid hne (redactFrom alnum false afterWord t)
  have hwords : storedWords alnum (proxyUrl scheme a) = (p ++ rest) :: words := by
    rw [storedWords, hurl, redact, hredacted, hsplit]
  obtain ⟨rest', hjoin⟩ :=
    Py.joinWords_cons_prefix p rest (words ++ storedWords alnum after)
  refine ⟨rest', ?_⟩
  rw [toList_storedText className hbefore hafter, hwords, List.append_assoc, List.cons_append,
    Py.joinWords_append, hjoin, ← List.append_assoc]
  have hfolded : Py.spaced (storedWords alnum before) ++ p ++ rest' ≠ [] := by
    simp [hne]
  simp only [if_neg hfolded]
  rfl

/-- The schemes that are not redacted: no match starts in a URL with one of them, up to the
first character of the user. -/
theorem unknown_schemes {scheme : List Char} (hscheme : scheme ∈ proxySchemes)
    (hunknown : scheme ∉ redactedSchemes) : Py.Solid (scheme ++ afterScheme) ∧
      NoEndpointIn (scheme ++ afterScheme) ∧ NoEndpointIn (scheme ++ afterScheme ++ ['a']) ∧
      NoEndpointIn (scheme ++ afterScheme ++ ['b']) := by
  have hall : ∀ scheme ∈ proxySchemes, scheme ∉ redactedSchemes →
      Py.Solid (scheme ++ afterScheme) ∧
      NoEndpointIn (scheme ++ afterScheme) ∧ NoEndpointIn (scheme ++ afterScheme ++ ['a']) ∧
      NoEndpointIn (scheme ++ afterScheme ++ ['b']) := by
    decide +kernel
  exact hall scheme hscheme hunknown

/-- The text shown up to the credentials. -/
def lengthBefore (alnum : Char → Bool) (before scheme : List Char) : Nat :=
  (shownBefore alnum before).length + (scheme ++ afterScheme).length

variable (alnum) in
/-- A URL that starts with a user of one letter shows it, unless the text is cut off. -/
theorem storedText_user (className : String) {before scheme after : List Char}
    (hbefore : EndsInSpace before) (hafter : StartsWithSpace after)
    (hlength : lengthBefore alnum before scheme < errorMessageLength) {a : ProxyAddress}
    {user : Char} (huser : a.user = [user]) (hp : NoEndpointIn (scheme ++ afterScheme ++ [user]))
    (hsolid : Py.Solid (scheme ++ afterScheme ++ [user])) :
    (storedText alnum className before scheme after a).toList[lengthBefore alnum before scheme]? =
      some user := by
  have hurl : proxyUrl scheme a = scheme ++ afterScheme ++ [user] ++
      (':' :: a.password ++ '@' :: a.host ++ ':' :: a.port) := by
    simp [proxyUrl, ProxyAddress.text, huser]
  obtain ⟨rest, heq⟩ := storedText_kept alnum className hbefore hafter hurl hp hsolid
    (by simp)
  rw [heq, List.getElem?_take_of_lt hlength, ← List.append_assoc, List.append_assoc,
    List.getElem?_append_right (by rw [lengthBefore, List.length_append])]
  simp [lengthBefore]

/-- Two choices of credentials are stored alike exactly when the scheme is redacted, or the
text before the credentials fills the message. -/
theorem credentials_hidden_iff (alnum : Char → Bool) (className : String)
    {before scheme after : List Char} (hscheme : scheme ∈ proxySchemes)
    (hbefore : EndsInSpace before) (hafter : StartsWithSpace after) {host port : List Char}
    (hhost : Py.Solid host) (hport : Py.Solid port) :
    (∀ user password user' password', Py.Solid user → Py.Solid password → Py.Solid user' →
      Py.Solid password' →
      storedText alnum className before scheme after ⟨user, password, host, port⟩ =
        storedText alnum className before scheme after ⟨user', password', host, port⟩) ↔
    scheme ∈ redactedSchemes ∨ errorMessageLength ≤ lengthBefore alnum before scheme := by
  constructor
  · intro hsame
    refine or_iff_not_imp_left.mpr fun hunknown => not_lt.mp fun hlength => ?_
    obtain ⟨hsolid, -, ha, hb⟩ := unknown_schemes hscheme hunknown
    have hletter : ∀ c, Py.isSpace c = false → Py.Solid [c] := fun c hc => Py.Solid.cons hc nofun
    have heq := hsame ['a'] ['x'] ['b'] ['x'] (hletter 'a' (by decide)) (hletter 'x' (by decide))
      (hletter 'b' (by decide)) (hletter 'x' (by decide))
    have hfirst := storedText_user alnum className (a := ⟨['a'], ['x'], host, port⟩)
      hbefore hafter hlength rfl ha (hsolid.append (hletter 'a' (by decide)))
    have hsecond := storedText_user alnum className (a := ⟨['b'], ['x'], host, port⟩)
      hbefore hafter hlength rfl hb (hsolid.append (hletter 'b' (by decide)))
    rw [heq, hsecond] at hfirst
    exact absurd hfirst (by decide)
  · intro hcases user password user' password' huser hpassword huser' hpassword'
    refine String.toList_inj.mp ?_
    by_cases hknown : scheme ∈ redactedSchemes
    · have hwords : ∀ {user password}, Py.Solid user → Py.Solid password →
          storedWords alnum (proxyUrl scheme ⟨user, password, host, port⟩) =
            Py.split redactedEndpoint := by
        intro user password hu hp
        rw [storedWords, redacted_of_scheme hknown (ProxyAddress.text_solid hu hp hhost hport)]
      rw [toList_storedText className hbefore hafter, toList_storedText className hbefore hafter,
        hwords huser hpassword, hwords huser' hpassword']
    · have hlength := hcases.resolve_left hknown
      obtain ⟨hsolid, hstarts, -, -⟩ := unknown_schemes hscheme hknown
      have hcut : ∀ a, (storedText alnum className before scheme after a).toList =
          (shownBefore alnum before ++ (scheme ++ afterScheme)).take errorMessageLength := by
        intro a
        obtain ⟨rest, heq⟩ := storedText_kept alnum className hbefore hafter
          (a := a) rfl hstarts hsolid (by simp [afterScheme])
        rw [heq, List.take_append_of_le_length (by rw [List.length_append]; exact hlength)]
      rw [hcut, hcut]

namespace Sample

/-- No character beyond ASCII is alphanumeric in the sample texts. -/
def asciiOnly : Char → Bool := fun _ => false

def failedConnect : List Char := "curl: (97) could not connect to proxy ".toList

end Sample

open Sample in
theorem credentials_hidden_https :
    storedText asciiOnly "ProxyConnectionFailure" failedConnect "https".toList []
        ⟨"alice".toList, "s3cret".toList, "10.0.0.1".toList, "3128".toList⟩ =
      storedText asciiOnly "ProxyConnectionFailure" failedConnect "https".toList []
        ⟨"bob".toList, "hunter2".toList, "10.0.0.1".toList, "3128".toList⟩ := by
  have hsolid : ∀ s ∈ ["alice", "s3cret", "bob", "hunter2", "10.0.0.1", "3128"],
      Py.Solid s.toList := by
    decide
  have hbefore : EndsInSpace failedConnect :=
    Or.inr ⟨"curl: (97) could not connect to proxy".toList, ' ', by decide, by decide⟩
  exact (credentials_hidden_iff asciiOnly "ProxyConnectionFailure" (by decide) hbefore
    (Or.inl rfl) (hsolid "10.0.0.1" (by simp)) (hsolid "3128" (by simp))).mpr
    (Or.inl (by decide)) _ _ _ _ (hsolid "alice" (by simp)) (hsolid "s3cret" (by simp))
    (hsolid "bob" (by simp)) (hsolid "hunter2" (by simp))

open Sample in
theorem credentials_shown_socks5h :
    ¬∀ (alnum : Char → Bool) (className : String) (before scheme after : List Char),
      scheme ∈ proxySchemes → EndsInSpace before → StartsWithSpace after →
      ∀ host port, Py.Solid host → Py.Solid port →
      ∀ user password user' password', Py.Solid user → Py.Solid password → Py.Solid user' →
        Py.Solid password' →
        storedText alnum className before scheme after ⟨user, password, host, port⟩ =
          storedText alnum className before scheme after ⟨user', password', host, port⟩ := by
  intro hclaim
  have hsolid : ∀ s ∈ ["alice", "s3cret", "bob", "hunter2", "10.0.0.1", "1080"],
      Py.Solid s.toList := by
    decide
  have heq := hclaim asciiOnly "ProxyConnectionFailure" failedConnect "socks5h".toList []
    (by decide) (Or.inr ⟨"curl: (97) could not connect to proxy".toList, ' ', by decide,
      by decide⟩) (Or.inl rfl) "10.0.0.1".toList "1080".toList (hsolid "10.0.0.1" (by simp))
    (hsolid "1080" (by simp)) "alice".toList "s3cret".toList "bob".toList "hunter2".toList
    (hsolid "alice" (by simp)) (hsolid "s3cret" (by simp)) (hsolid "bob" (by simp))
    (hsolid "hunter2" (by simp))
  revert heq
  decide +kernel

end Sahabino
