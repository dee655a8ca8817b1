import Mathlib.Tactic.Linarith
import Sahabino.Lib.Polling
import Sahabino.ReleaseHost

/-!
# Waiting for the crawler, and for a consumer group

`crawler_drain.py` and `kafka_group_health.py`. Both go round until what
they ask for has been answered or their time is up, so both are
`pollUntil` with their own probe. A count of unfinished crawl runs comes
from the database alone, and what the exit codes of the drain are about is
the latest one on record.
-/

namespace Sahabino

namespace Deploy

open Conc (Prog Audit Grown Said Evident Lasting Upon Just lasting_just Timed pollUntil log_step)
open ReleaseBackup (CompletedProcess)

/-! ## The drain -/

def NO_CRAWLER : ℤ := 4

/-- `_default_runner` -/
def defaultRunner (c : DockerCommand) : Tool CompletedProcess :=
  (runner c).tryCatch fun
    | .timeoutExpired => .raise (.crawlState "crawler-state command timed out after 35 seconds")
    | .osError message =>
        .raise (.crawlState ("Unable to execute crawler-state command: " ++ message))
    | e => .raise e

/-- `text[-500:]` -/
def last500 (text : String) : String := String.ofList (text.toList.drop (text.length - 500))

/-- `crawler_is_running` -/
def crawlerIsRunning (compose : List String) : Tool Bool := do
  let result ← defaultRunner (.psCrawler compose)
  if result.returncode ≠ 0 then
    .raise (.crawlState ("Compose could not determine whether crawler is running: "
      ++ "                " ++ last500 (ReleaseBackup.stripped result.stderr)))
  else pure (ReleaseBackup.stripped result.stdout ≠ "")

/-- `active_crawl_count` -/
def activeCrawlCount (compose : List String) : Tool Nat := do
  let result ← defaultRunner (.crawlCount compose)
  if result.returncode ≠ 0 then
    .raise (.crawlState ("authoritative crawler-state database query failed: "
      ++ last500 (ReleaseBackup.stripped result.stderr)))
  else
    match Py.intDecimal (ReleaseBackup.stripped result.stdout).toList with
    | none => .raise (.crawlState "crawler-state query returned an invalid count")
    | some (.negSucc _) =>
        .raise (.crawlState
          "crawler-state schema is incomplete (crawl_runs missing in nonempty database)")
    | some (.ofNat n) => pure n

/-- One round of the loop: the exit code, once nothing is active. -/
def drainProbe (compose : List String) : Tool (Option ℤ) := do
  if (← activeCrawlCount compose) = 0 then pure (some 0) else pure none

/-- `wait_for_drain`; `none` when it has not ended within `rounds`. -/
def waitForDrain (compose : List String) (timeout poll : ℚ) (rounds : Nat) : Tool (Option ℤ) := do
  if !(← crawlerIsRunning compose) then
    if (← activeCrawlCount compose) ≠ 0 then pure (some 3) else pure (some NO_CRAWLER)
  else
    let deadline := (← monotonic) + timeout
    pollUntil (drainProbe compose) monotonic sleep (pure 3) poll deadline rounds

/-- `final_check` -/
def finalCheck (compose : List String) (allowActiveInterruption : Bool) : Tool ℤ := do
  if (← activeCrawlCount compose) = 0 then pure 0
  else if allowActiveInterruption then pure 0
  else pure 3

/-! ## The consumer group -/

def isGroupState (word : List Char) : Bool :=
  ["Stable", "PreparingRebalance", "CompletingRebalance", "Empty", "Dead", "Unknown"].any
    fun state => word = state.toList

section

/- Which characters beyond ASCII are letters or digits. -/
variable (isLetter : Char → Bool)

/-- `\w` -/
def isWordChar (c : Char) : Bool := c.isAlphanum || c = '_' || (0x80 ≤ c.toNat && isLetter c)

/-- `STATE_PATTERN.search(line)` of a line that is stripped: a state and a number at its end. The
words of the pattern consist of letters, so the one that is matched is the whole run of word
characters before the blanks. -/
def matchState (line : List Char) : Option (String × Nat) :=
  let back := line.reverse
  let digits := (back.takeWhile fun c => (Py.decimalValue c).isSome).reverse
  let rest := back.drop digits.length
  let word := ((rest.dropWhile Py.isSpace).takeWhile (isWordChar isLetter)).reverse
  if digits ≠ [] ∧ (rest.head?.any Py.isSpace) ∧ isGroupState word then
    match Py.intDecimal digits with
    | some (.ofNat n) => some (String.ofList word, n)
    | _ => none
  else none

/-- `parse_group_state` -/
def parseGroupState (output : String) : Option (String × Nat) :=
  (Py.textLines output).reverse.findSome? fun line => matchState isLetter (Py.strip line.toList)

/-- The state that a healthy group has. -/
def isHealthy (state : String × Nat) : Bool := state.1 = "Stable" && 1 ≤ state.2

/-- One round of the loop. -/
def groupProbe (command : List String) : Tool (Option Bool) := do
  match ← (runner (.groupState command)).outcome with
  | .error .timeoutExpired => pure none
  | .error (.osError _) => pure (some false)
  | .error e => .raise e
  | .ok result =>
      if result.returncode = 0 then
        match parseGroupState isLetter result.stdout with
        | some state => if isHealthy state then pure (some true) else pure none
        | none => pure none
      else pure none

/-- `wait_for_healthy_group` -/
def waitForHealthyGroup (command : List String) (timeout interval : ℚ) (rounds : Nat) :
    Tool (Option Bool) := do
  let deadline := (← monotonic) + timeout
  pollUntil (groupProbe isLetter command) monotonic sleep (pure false) interval deadline rounds

end

/-! ## What the exit codes of the drain stand for -/

section

variable {W : Type} {A : Audit HostCommand HostReply ToolRaise W} {s t : HostState W}
  {compose : List String}

/-- The database counted `n` unfinished crawl runs. -/
def Counted (compose : List String) (n : Nat)
    (e : Conc.Event HostCommand HostReply ToolRaise) : Prop :=
  ∃ r : CompletedProcess, e = ⟨.docker (.crawlCount compose), .ok r⟩ ∧ r.returncode = 0 ∧
    Py.intDecimal (ReleaseBackup.stripped r.stdout).toList = some (n : ℤ)

/-- That was the latest count. -/
def LastCount (compose : List String) (n : Nat) : HostState W → Prop :=
  Upon (Just (· ≠ .docker (.crawlCount compose))) (Counted compose n) fun _ => True

/-- That was the latest command of all. -/
def JustCounted (compose : List String) (n : Nat) : HostState W → Prop :=
  Upon (Just fun _ => False) (Counted compose n) fun _ => True

/-- Compose listed no crawler. -/
def CrawlerAbsent (compose : List String) (s : HostState W) : Prop :=
  ∃ r, Told (.psCrawler compose) r s ∧ r.returncode = 0 ∧ ReleaseBackup.stripped r.stdout = ""

/-- What an exit code of `wait` says. -/
def DrainMeans (compose : List String) (code : ℤ) (s : HostState W) : Prop :=
  (code = 0 ∧ JustCounted compose 0 s) ∨
  (code = NO_CRAWLER ∧ JustCounted compose 0 s ∧ CrawlerAbsent compose s) ∨
  (code = 3 ∧ ∃ n, n ≠ 0 ∧ LastCount compose n s)

theorem JustCounted.last {n : Nat} (h : JustCounted compose n s) : LastCount compose n s :=
  Upon.mono h fun _ hjust e he => (hjust e he).elim

theorem LastCount.grown {n : Nat} (h : LastCount compose n s)
    (ht : Grown (· ≠ .docker (.crawlCount compose)) s t) : LastCount compose n t :=
  Lasting.upon lasting_just (Evident.lasting (P := fun _ => True) (.const True)) s t ht h

theorem safe_defaultRunner {c : DockerCommand} (hpre : A.pre (.docker c) s)
    {Q : CompletedProcess → HostState W → Prop}
    (h : ∀ r t, t.log = ⟨.docker c, .ok r⟩ :: s.log → Q r t) : Safe A (defaultRunner c) Q s := by
  refine Conc.Proto.wp_tryCatch.mpr (Audit.meets_cmd hpre (fun e r _ hr => ?_) fun e x _ _ => ?_)
  · exact h r _ (log_step hr)
  · cases x <;> trivial

theorem safe_activeCrawlCount (hpre : A.pre (.docker (.crawlCount compose)) s)
    {Q : Nat → HostState W → Prop}
    (h : ∀ n t, Later s t → JustCounted compose n t → Q n t) :
    Safe A (activeCrawlCount compose) Q s := by
  refine Audit.meets_seq (safe_defaultRunner hpre fun r t ht => ?_)
  split
  · exact safe_raise
  rename_i hcode
  split
  · exact safe_raise
  · exact safe_raise
  · rename_i n hint
    refine h n t ⟨[_], ht, fun _ _ => trivial⟩ ⟨[], _, s.log, ht, ?_, ?_, trivial⟩
    · exact fun e he => by cases he
    · exact ⟨r, rfl, not_not.mp hcode, hint⟩

theorem safe_drainProbe (hA : Lenient A) :
    Safe A (drainProbe compose) (fun r t => r.elim (∃ n, n ≠ 0 ∧ LastCount compose n t)
      fun code => DrainMeans compose code t) s := by
  refine Audit.meets_seq (safe_activeCrawlCount (hA _ _ rfl) fun n t _ hcount => ?_)
  split
  · rename_i hn
    exact Or.inl ⟨rfl, hn ▸ hcount⟩
  · rename_i hn
    exact ⟨n, hn, hcount.last⟩

/-- Commands other than the count leave the latest count as it is. -/
theorem safe_keepsCount (hA : Lenient A) {c : HostCommand} (hc : c.isQuiet = true)
    (hne : c ≠ .docker (.crawlCount compose)) (hs : ∃ n, n ≠ 0 ∧ LastCount compose n s) :
    Safe A (Prog.cmd c) (fun _ t => ∃ n, n ≠ 0 ∧ LastCount compose n t) s := by
  obtain ⟨n, hn, hcount⟩ := hs
  exact Audit.meets_cmd (hA c s hc) (fun e _ _ _ => ⟨n, hn, hcount.grown (.step hne)⟩)
    fun _ _ _ _ => trivial

theorem safe_crawlerIsRunning (hA : Lenient A) :
    Safe A (crawlerIsRunning compose) (fun b t => b = false → CrawlerAbsent compose t) s := by
  refine Audit.meets_seq (safe_defaultRunner (hA _ _ rfl) fun r t ht => ?_)
  split
  · exact safe_raise
  rename_i hcode
  refine Audit.meets_pure fun hempty => ⟨r, ?_, not_not.mp hcode, by simpa using hempty⟩
  unfold Told Said
  rw [ht]
  exact List.mem_cons_self ..

theorem safe_waitForDrain (hA : Lenient A) {timeout poll : ℚ} {rounds : Nat} :
    Safe A (waitForDrain compose timeout poll rounds)
      (fun r t => ∀ code, r = some code → DrainMeans compose code t) s := by
  refine Audit.meets_seq ((safe_crawlerIsRunning hA).mono (fun b t hb => ?_) fun _ _ h => h)
  split
  · rename_i hempty
    obtain ⟨r, htold, hcode, habsent⟩ := hb (by simpa using hempty)
    refine Audit.meets_seq (safe_activeCrawlCount (hA _ _ rfl) fun n t' ht' hcount => ?_)
    split
    · rename_i hn
      rintro code ⟨⟩
      exact Or.inr (Or.inr ⟨rfl, n, hn, hcount.last⟩)
    · rename_i hn
      rintro code ⟨⟩
      exact Or.inr (Or.inl ⟨rfl, not_not.mp hn ▸ hcount, r, evident_told t t' ht' htold, hcode,
        habsent⟩)
  · refine Audit.meets_seq (safe_quiet hA rfl fun (now : ℚ) t' _ _ => ?_)
    refine Conc.pollUntil_spec (I := fun _ => True) (T := fun _ _ => True)
      (J := fun t => ∃ n, n ≠ 0 ∧ LastCount compose n t) ?_ ?_ ?_ ?_ ?_ trivial
    · intro s _
      refine (safe_drainProbe hA).mono (fun r t h => ?_) fun _ _ h => h
      cases r with
      | none => exact h
      | some code =>
          rintro _ ⟨⟩
          exact h
    · exact fun s hs => (safe_keepsCount hA rfl (by simp) hs).mono (fun _ _ h => ⟨h, trivial⟩)
        fun _ _ h => h
    · exact fun s x hs => (safe_keepsCount hA rfl (by simp) hs).mono (fun _ _ _ => trivial)
        fun _ _ h => h
    · rintro s x hs - - _ ⟨⟩
      exact Or.inr (Or.inr ⟨rfl, hs⟩)
    · rintro s - code ⟨⟩

theorem safe_finalCheck (hA : Lenient A) {allowed : Bool} :
    Safe A (finalCheck compose allowed)
      (fun code t => (code = 0 ∧ (JustCounted compose 0 t ∨ allowed = true)) ∨ code = 3) s := by
  refine Audit.meets_seq (safe_activeCrawlCount (hA _ _ rfl) fun n t _ hcount => ?_)
  split
  · rename_i hn
    exact Or.inl ⟨rfl, Or.inl (hn ▸ hcount)⟩
  split
  · rename_i hallowed
    exact Or.inl ⟨rfl, Or.inr hallowed⟩
  · exact Or.inr rfl

end

/-! ## In time -/

/-- The world is the time. It does not run backwards, and a sleep takes as long as it was asked
to; all else is free. -/
def ticking : Audit HostCommand HostReply ToolRaise ℚ where
  pre _ _ := True
  allow c e s := s.world ≤ e.after ∧
    match c with
    | .monotonic => ∃ x : ℚ, e.answer .monotonic = .ok x ∧ s.world ≤ x ∧ x ≤ e.after
    | .sleep x => s.world + x ≤ e.after
    | _ => True

section

variable {α : Type} {s : HostState ℚ}

theorem lenient_ticking : Lenient ticking := fun _ _ _ => trivial

/-- No time is lost. -/
theorem ticking_later {p : Tool α} {Q : α → HostState ℚ → Prop} {X : ToolRaise → HostState ℚ → Prop}
    {x : ℚ} (hs : x ≤ s.world) (h : ticking.Meets p Q X s) :
    ticking.Meets p (fun a t => Q a t ∧ x ≤ t.world) (fun e t => X e t ∧ x ≤ t.world) s := by
  induction p generalizing s with
  | ret a => exact ⟨h, hs⟩
  | raise e => exact ⟨h, hs⟩
  | call c k ih =>
      obtain ⟨hpre, hk⟩ := Audit.meets_call.mp h
      exact Audit.meets_call.mpr ⟨hpre, fun e he => ih _ (hs.trans he.1) (hk e he)⟩

theorem safe_trivial (p : Tool α) : Safe ticking p (fun _ _ => True) s := by
  induction p generalizing s with
  | ret a => trivial
  | raise e => trivial
  | call c k ih => exact Audit.meets_call.mpr ⟨trivial, fun e _ => ih _⟩

theorem safe_monotonic :
    Safe ticking monotonic (fun x t => s.world ≤ x ∧ x ≤ t.world) s := by
  refine Audit.meets_cmd trivial (fun e a he ha => ?_) fun _ _ _ _ => trivial
  obtain ⟨-, x, hx, hlow, hhigh⟩ := he
  obtain rfl : x = a := Except.ok.inj (hx.symm.trans ha)
  exact ⟨hlow, hhigh⟩

theorem safe_sleep {x : ℚ} : Safe ticking (sleep x) (fun _ t => s.world + x ≤ t.world) s :=
  Audit.meets_cmd trivial (fun _ _ he _ => he.2) fun _ _ _ _ => trivial

theorem timed_ticking (probe : Tool (Option α)) :
    Timed ticking (fun s => s.world) probe monotonic sleep where
  probe _ := (ticking_later le_rfl (safe_trivial probe)).mono (fun _ _ h => h.2)
    fun _ _ _ => trivial
  clock _ := safe_monotonic
  sleep _ _ := safe_sleep

/-- A loop that settles: with what a probe ended it with, or by giving up when its time was up. -/
theorem safe_poll {probe : Tool (Option α)} {verdict : α} {interval deadline : ℚ} {rounds : Nat}
    (hinterval : 0 ≤ interval) (hrounds : deadline ≤ s.world + rounds * interval)
    {Q : α → HostState ℚ → Prop}
    (hprobe : ∀ s, Safe ticking probe (fun r t => ∀ a, r = some a → Q a t) s) :
    Safe ticking (pollUntil probe monotonic sleep (pure verdict) interval deadline (rounds + 1))
      (fun r t => ∃ a, r = some a ∧ (Q a t ∨ (a = verdict ∧ deadline ≤ t.world))) s := by
  have hsettles := Conc.pollUntil_settles (timed_ticking probe)
    (fun s => safe_trivial (pure verdict) (s := s)) hinterval hrounds
  have hspec : Safe ticking
      (pollUntil probe monotonic sleep (pure verdict) interval deadline (rounds + 1))
      (fun r t => ∀ a, r = some a → Q a t ∨ (a = verdict ∧ deadline ≤ t.world)) s := by
    refine Conc.pollUntil_spec (I := fun _ => True) (J := fun _ => True)
      (T := fun x t => x ≤ t.world) ?_ ?_ ?_ ?_ ?_ trivial
    · intro s _
      refine (hprobe s).mono (fun r t hr => ?_) fun _ _ _ => trivial
      cases r with
      | none => trivial
      | some a =>
          rintro _ ⟨⟩
          exact Or.inl (hr a rfl)
    · exact fun s _ => safe_monotonic.mono (fun _ _ h => ⟨trivial, h.2⟩) fun _ _ _ => trivial
    · exact fun s x _ => safe_trivial _
    · rintro s x - hx hdue _ ⟨⟩
      exact Or.inr ⟨rfl, hdue.trans hx⟩
    · rintro s - a ⟨⟩
  refine (hsettles.and hspec).mono (fun r t h => ?_) fun _ _ _ => trivial
  obtain ⟨a, ha⟩ := Option.ne_none_iff_exists'.mp h.1
  exact ⟨a, ha, h.2 a ha⟩

theorem safe_drainInTime {compose : List String} {timeout poll : ℚ} {rounds : Nat}
    (hpoll : 0 ≤ poll) (hrounds : timeout ≤ rounds * poll) :
    Safe ticking (waitForDrain compose timeout poll (rounds + 1))
      (fun r t => ∃ code, r = some code ∧
        (code = 3 → CrawlerAbsent compose t ∨ s.world + timeout ≤ t.world)) s := by
  refine Audit.meets_seq ((ticking_later le_rfl (safe_crawlerIsRunning lenient_ticking)).mono
    (fun b t hb => ?_) fun _ _ _ => trivial)
  obtain ⟨habsent, hlater⟩ := hb
  split
  · rename_i hempty
    have habsent := habsent (by simpa using hempty)
    refine Audit.meets_seq (safe_activeCrawlCount trivial fun n t' ht' _ => ?_)
    obtain ⟨r, htold, hr⟩ := habsent
    have habsent' : CrawlerAbsent compose t' := ⟨r, evident_told t t' ht' htold, hr⟩
    split
    · exact ⟨_, rfl, fun _ => Or.inl habsent'⟩
    · exact ⟨_, rfl, fun _ => Or.inl habsent'⟩
  · refine Audit.meets_seq (safe_monotonic.mono (fun now t' hnow => ?_) fun _ _ _ => trivial)
    have hstart : now + timeout ≤ t'.world + rounds * poll := by
      have h₂ := hnow.2
      linarith
    refine (safe_poll hpoll hstart (Q := fun code _ => code ≠ 3) fun s' => ?_).mono
      (fun r t'' h => ?_) fun _ _ _ => trivial
    · refine Audit.meets_seq (safe_activeCrawlCount trivial fun n t₁ _ _ => ?_)
      split
      · rintro _ ⟨⟩
        decide
      · rintro _ ⟨⟩
    · obtain ⟨code, hr, hcode⟩ := h
      refine ⟨code, hr, fun hthree => Or.inr ?_⟩
      rcases hcode with hne | ⟨-, hdue⟩
      · exact absurd hthree hne
      · have h₁ := hnow.1
        linarith

/-- The wait for the crawler comes to an end, after at most one count more than there are polls in
its time: with 0 or 4 only if the last command of all was a count of zero, with 4 only if there was
no crawler, and with 3 only if the latest count was not zero - and either there was no crawler, or
the whole time has passed. -/
theorem drain_settles {compose : List String} {timeout poll : ℚ} {rounds : Nat} {t₀ : ℚ}
    {r : Option ℤ} (hpoll : 0 ≤ poll) (hrounds : timeout ≤ rounds * poll)
    (hrun : Conc.Runs Conc.recording ticking.allow 0
      (waitForDrain compose timeout poll (rounds + 1)) ⟨t₀, []⟩ (.ok r) s) :
    ∃ code, r = some code ∧ DrainMeans compose code s ∧
      (code = 3 → CrawlerAbsent compose s ∨ t₀ + timeout ≤ s.world) := by
  have hmeans := ((safe_waitForDrain lenient_ticking).runs hrun).1 r rfl
  obtain ⟨code, rfl, hdue⟩ := ((safe_drainInTime hpoll hrounds).runs hrun).1 r rfl
  exact ⟨code, rfl, hmeans code rfl, hdue⟩

/-- A crawler, no unfinished run, and a stable group. -/
def idleDocker : DockerCommand → CompletedProcess
  | .crawlCount _ => ⟨0, "0\n", ""⟩
  | .groupState _ => ⟨0, "GROUP COORDINATOR STATE #MEMBERS\ncrawlers kafka:9092 Stable 1\n", ""⟩
  | _ => ⟨0, "c1\n", ""⟩

def idleReaction (time : ℚ) : Conc.Reaction HostCommand HostReply ToolRaise ℚ :=
  ⟨fun c => .ok (bareReply idleDocker time c), time⟩

theorem ticking_allow {c : HostCommand} {s : HostState ℚ} {time : ℚ} (h : s.world ≤ time)
    (hsleep : ∀ x, c ≠ .sleep x) : ticking.allow c (idleReaction time) s := by
  refine ⟨h, ?_⟩
  cases c with
  | monotonic => exact ⟨time, rfl, h, le_rfl⟩
  | sleep x => exact absurd rfl (hsleep x)
  | _ => trivial

set_option maxRecDepth 4000 in
theorem idle_drain_settles : ∃ r s,
    Conc.Runs Conc.recording ticking.allow 0 (waitForDrain [] 0 0 1) ⟨0, []⟩ (.ok r) s ∧
    ∃ code, r = some code ∧ DrainMeans [] code s ∧
      (code = 3 → CrawlerAbsent [] s ∨ (0 : ℚ) + 0 ≤ s.world) := by
  have hrun : ∃ r s, Conc.Runs Conc.recording ticking.allow 0 (waitForDrain [] 0 0 1) ⟨0, []⟩
      (.ok r) s :=
    ⟨some 0, _, .call (e := idleReaction 0) (ticking_allow le_rfl (by simp)) rfl
      (.call (e := idleReaction 1) (ticking_allow zero_le_one (by simp)) rfl
        (.call (e := idleReaction 1) (ticking_allow le_rfl (by simp)) rfl (.ret _ _)))⟩
  obtain ⟨r, s, hrun⟩ := hrun
  exact ⟨r, s, hrun, drain_settles le_rfl (by simp) hrun⟩

end

end Deploy

end Sahabino
