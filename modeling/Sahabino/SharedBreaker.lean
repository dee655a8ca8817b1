import Sahabino.PlayStoreClient

/-!
# Calls through one breaker

Any number of threads run `_execute` over one circuit breaker, in any
interleaving; hooks, adapters, classifier and clock may raise anything.

A call that passes the half-open breaker is the probe until its token is
handed back. Two things are shown. The flag is cleared again before the
probe's call ends, unless the call is left by an exception that is none of
the crawler's own: such an exception passes `_execute` without a record.
And the probe is the only call of its generation, unless it falls back to
the secondary adapter: its first record frees the flag while the call goes
on.

Both rest on the same invariant of the breaker (`Breaker.Inv`) and on the
same account of what the other calls can do to it (`Breaker.Moves`).
-/

namespace Sahabino

open Conc

/-! ## What a record does to the circuit -/

/-- A record closes the breaker, opens it, frees the flag, or changes nothing
that is read here. -/
structure Circuit.Recorded (token : Option Nat) (c c' : Circuit Seconds) : Prop where
  generation : c.generation ≤ c'.generation
  halfOpen : c'.state = .halfOpen → c.state = .halfOpen ∧ c'.generation = c.generation
  opened : c'.state = .opened →
    (c.state = .opened ∧ c'.generation = c.generation ∧ c'.openedAt = c.openedAt) ∨
    (c.generation < c'.generation ∧ ∃ t, c'.openedAt = some t)
  flag : c'.probeInFlight = true →
    c.probeInFlight = true ∧ c'.state = c.state ∧ c'.generation = c.generation
  current : token = some c.generation → c.state = .halfOpen → c'.probeInFlight = false
  stale : ∀ {g}, token = some g → g ≠ c.generation → c' = c

namespace Circuit

variable {cfg : CircuitConfig Seconds} {token : Option Nat} {c : Circuit Seconds}

theorem not_stale_of_current (h : token = some c.generation) : c.stale token = false := by
  simp [stale, h]

theorem Recorded.ignored (h : cfg.enabled = false ∨ c.stale token = true ∨ c.state = .opened)
    (hon : cfg.enabled = true) : Recorded token c c := by
  refine ⟨Nat.le_refl _, fun hh => ⟨hh, rfl⟩, fun ho => Or.inl ⟨ho, rfl, rfl⟩,
    fun hf => ⟨hf, rfl, rfl⟩, fun ht hh => ?_, fun _ _ => rfl⟩
  rcases h with hoff | hstale | ho
  · rw [hon] at hoff
    cases hoff
  · rw [not_stale_of_current ht] at hstale
    cases hstale
  · rw [hh] at ho
    cases ho

/-- A token that counts is not one of another generation. -/
theorem eq_of_not_stale {p : Prop} (h : c.stale token = false) {g : Nat} (ht : token = some g)
    (hne : g ≠ c.generation) : p := by
  rw [ht] at h
  simp [stale, hne] at h

theorem Recorded.opens (hstale : c.stale token = false) (now : Seconds) (count : Nat) :
    Recorded token c (open_ now { c with failureCount := count }) :=
  ⟨Nat.le_succ _, nofun, fun _ => Or.inr ⟨Nat.lt_succ_self _, now, rfl⟩, nofun, fun _ _ => rfl,
    eq_of_not_stale hstale⟩

theorem recordSuccess_recorded (hon : cfg.enabled = true) :
    Recorded token c (c.recordSuccess cfg token) := by
  rcases recordSuccess_cases cfg token c with ⟨hcase, heq⟩ | ⟨-, hstale, heq⟩
  · rw [heq]
    exact .ignored (hcase.imp_right Or.inl) hon
  · rw [heq]
    exact ⟨Nat.le_refl _, nofun, nofun, nofun, fun _ _ => rfl, eq_of_not_stale hstale⟩

theorem recordFailure_recorded (hon : cfg.enabled = true) (now : Seconds) (error : PyError)
    (proxied : Bool) : Recorded token c (c.recordFailure cfg now error proxied token) := by
  rcases recordFailure_cases cfg now error proxied token c with ⟨hcase, heq⟩ |
    ⟨-, hstale, hopen, ⟨-, heq⟩ | ⟨-, -, heq⟩ | ⟨-, -, -, heq⟩ | ⟨-, hclosed, -, heq⟩⟩
  · rw [heq]
    exact .ignored hcase hon
  · rw [heq]
    exact ⟨Nat.le_refl _, fun hh => ⟨hh, rfl⟩, fun ho => absurd ho hopen, nofun, fun _ _ => rfl,
      eq_of_not_stale hstale⟩
  · rw [heq]
    exact .opens hstale now c.failureCount
  · rw [heq]
    exact .opens hstale now _
  · rw [heq]
    refine ⟨Nat.le_refl _, fun hh => ⟨hh, rfl⟩, fun ho => absurd ho hopen,
      fun hf => ⟨hf, rfl, rfl⟩, fun _ hh => ?_, eq_of_not_stale hstale⟩
    rw [hh] at hclosed
    cases hclosed

end Circuit

/-! ## The breaker and its calls -/

/-- The token a record hands back. -/
def BreakerCmd.token : BreakerCmd → Option (Option Nat)
  | beforeCall => none
  | recordSuccess token => some token
  | recordFailure _ _ token => some token

namespace Breaker

variable {cfg : CircuitConfig Seconds} {b b' b'' : Breaker} {i j : Nat}

/-- The breaker is half-open and admitted the call since it last opened. -/
def Current (b : Breaker) (i : Nat) : Prop :=
  b.circuit.state = .halfOpen ∧ b.admitted i = some (some b.circuit.generation)

structure Inv (b : Breaker) : Prop where
  flag : b.circuit.probeInFlight = b.probe.isSome
  probe : ∀ {i}, b.probe = some i → b.Current i
  token : ∀ {i t}, b.admitted i = some t → ∃ g, t = some g ∧ g ≤ b.circuit.generation ∧
    (b.circuit.state = .opened → g < b.circuit.generation)
  opened : b.circuit.state = .opened → ∃ t, b.circuit.openedAt = some t

/-- What the others can do to call `i`: it does not become the probe, and it is
not admitted anew. -/
structure Moves (i : Nat) (b b' : Breaker) : Prop where
  admitted : b'.admitted i = b.admitted i
  recorded : i ∈ b'.recorded ↔ i ∈ b.recorded
  probe : b'.probe = some i → b.probe = some i
  current : b'.Current i → b.Current i

theorem Moves.refl (i : Nat) (b : Breaker) : b.Moves i b := ⟨rfl, Iff.rfl, id, id⟩

theorem Moves.trans (h : Moves i b b') (h' : Moves i b' b'') : Moves i b b'' :=
  ⟨h'.admitted.trans h.admitted, h'.recorded.trans h.recorded, h.probe ∘ h'.probe,
    h.current ∘ h'.current⟩

/-- The breaker after a call was admitted. -/
def letIn (i : Nat) (circuit : Circuit Seconds) (probe : Option Nat) (b : Breaker) : Breaker :=
  { b with
    circuit := circuit
    admitted := fun j => if j = i then some (some b.circuit.generation) else b.admitted j
    probe := probe }

/-- A call is refused, passes the closed breaker, or becomes the probe. -/
theorem beforeCall_cases {now : Seconds} {r : Except PyError (Option Nat)}
    (hon : cfg.enabled = true) (h : b.beforeCall cfg now i = (r, b')) :
    ((∃ x, r = .error x) ∧ b' = b) ∨
    (r = .ok (some b.circuit.generation) ∧
      ((b.circuit.state = .closed ∧ b' = b.letIn i b.circuit b.probe) ∨
        ((b.circuit.state = .opened ∨
            b.circuit.state = .halfOpen ∧ b.circuit.probeInFlight = false) ∧
          b' = b.letIn i { b.circuit with state := .halfOpen, probeInFlight := true }
            (some i)))) := by
  unfold beforeCall at h
  split at h
  · rename_i x circuit heq
    obtain ⟨rfl, rfl⟩ := Prod.mk.injEq .. |>.mp h
    rcases Circuit.beforeCall_cases heq with ⟨hoff, -⟩ | ⟨-, -, rfl⟩ | ⟨-, -, hok, -⟩ |
      ⟨-, -, hok, -⟩
    · rw [hon] at hoff
      cases hoff
    · exact Or.inl ⟨⟨x, rfl⟩, rfl⟩
    · cases hok
    · cases hok
  · rename_i token circuit heq
    obtain ⟨rfl, rfl⟩ := Prod.mk.injEq .. |>.mp h
    rcases Circuit.beforeCall_cases heq with ⟨hoff, -⟩ | ⟨-, ⟨x, hx⟩, -⟩ | ⟨-, hclosed, hok, rfl⟩ |
      ⟨-, hfrom, hok, rfl⟩
    · rw [hon] at hoff
      cases hoff
    · cases hx
    · obtain rfl := Except.ok.inj hok
      refine Or.inr ⟨rfl, Or.inl ⟨hclosed, ?_⟩⟩
      rw [hclosed]
      rfl
    · obtain rfl := Except.ok.inj hok
      refine Or.inr ⟨rfl, Or.inr ⟨?_, rfl⟩⟩
      exact hfrom.symm.imp_left And.left

/-- Nobody of the current generation is out when a probe is let through. -/
theorem Inv.beforeCall {now : Seconds} {r : Except PyError (Option Nat)} (h : b.Inv)
    (hon : cfg.enabled = true) (hcall : b.beforeCall cfg now i = (r, b')) :
    b'.Inv ∧ ∀ j, j ≠ i → b.Moves j b' := by
  rcases beforeCall_cases hon hcall with ⟨-, rfl⟩ | ⟨-, ⟨hclosed, rfl⟩ | ⟨hfrom, rfl⟩⟩
  · exact ⟨h, fun j _ => .refl j _⟩
  · have hnoProbe : ∀ {j}, b.probe ≠ some j := by
      intro j hj
      rw [(h.probe hj).1] at hclosed
      cases hclosed
    refine ⟨⟨h.flag, fun hj => absurd hj hnoProbe, fun {j t} ht => ?_, h.opened⟩,
      fun j hj => ⟨if_neg hj, Iff.rfl, id, fun hcurrent => ?_⟩⟩
    · by_cases hj : j = i
      · obtain rfl := Option.some.inj ((if_pos hj).symm.trans ht)
        refine ⟨_, rfl, Nat.le_refl _, fun ho => ?_⟩
        rw [show b.circuit.state = .opened from ho] at hclosed
        cases hclosed
      · exact h.token ((if_neg hj).symm.trans ht)
    · have hhalf : b.circuit.state = .halfOpen := hcurrent.1
      rw [hhalf] at hclosed
      cases hclosed
  · refine ⟨⟨rfl, fun {j} hj => ?_, fun {j t} ht => ?_, nofun⟩,
      fun j hj => ⟨if_neg hj, Iff.rfl, fun hp => ?_, fun hcurrent => ?_⟩⟩
    · obtain rfl := Option.some.inj hj
      exact ⟨rfl, if_pos rfl⟩
    · by_cases hj : j = i
      · obtain rfl := Option.some.inj ((if_pos hj).symm.trans ht)
        exact ⟨_, rfl, Nat.le_refl _, nofun⟩
      · obtain ⟨g, rfl, hle, -⟩ := h.token ((if_neg hj).symm.trans ht)
        exact ⟨g, rfl, hle, nofun⟩
    · exact absurd (Option.some.inj hp).symm hj
    · have hold : b.admitted j = some (some b.circuit.generation) :=
        (if_neg hj).symm.trans hcurrent.2
      rcases hfrom with ho | ⟨hhalf, -⟩
      · obtain ⟨g, hg, -, hlt⟩ := h.token hold
        have := hlt ho
        have : b.circuit.generation = g := Option.some.inj hg
        omega
      · exact ⟨hhalf, hold⟩

theorem Inv.record {token : Option Nat} {circuit : Circuit Seconds} (h : b.Inv)
    (hrec : Circuit.Recorded token b.circuit circuit) :
    (b.record circuit i).Inv ∧ ∀ j, j ≠ i → b.Moves j (b.record circuit i) := by
  have hkept : ∀ {j}, (b.record circuit i).probe = some j →
      circuit.probeInFlight = true ∧ b.probe = some j := by
    intro j hj
    simp only [Breaker.record] at hj
    split at hj
    · rename_i hflag
      exact ⟨hflag, hj⟩
    · cases hj
  refine ⟨⟨?_, fun {j} hj => ?_, fun {j t} ht => ?_, fun ho => ?_⟩, fun j hj => ⟨rfl, ?_,
    fun hp => (hkept hp).2, fun hcurrent => ?_⟩⟩
  · simp only [Breaker.record]
    split
    · rename_i hflag
      rw [hflag, ← h.flag, (hrec.flag hflag).1]
    · rename_i hflag
      simpa using hflag
  · obtain ⟨hflag, hprobe⟩ := hkept hj
    obtain ⟨-, hstate, hgeneration⟩ := hrec.flag hflag
    obtain ⟨hhalf, hadmitted⟩ := h.probe hprobe
    exact ⟨hstate.trans hhalf, by rw [← hgeneration] at hadmitted; exact hadmitted⟩
  · obtain ⟨g, rfl, hle, hlt⟩ := h.token ht
    have hgeneration := hrec.generation
    refine ⟨g, rfl, hle.trans hgeneration, fun ho => ?_⟩
    rcases hrec.opened ho with ⟨ho', heq, -⟩ | ⟨hgt, -⟩
    · exact (hlt ho').trans_le hgeneration
    · exact hle.trans_lt hgt
  · rcases hrec.opened ho with ⟨ho', -, hat⟩ | ⟨-, hat⟩
    · obtain ⟨t, ht⟩ := h.opened ho'
      exact ⟨t, hat.trans ht⟩
    · exact hat
  · simp [Breaker.record, hj]
  · obtain ⟨hhalf, hgeneration⟩ := hrec.halfOpen hcurrent.1
    exact ⟨hhalf, by rw [← hgeneration]; exact hcurrent.2⟩

theorem record_ne_probe {circuit : Circuit Seconds} (h : b.probe ≠ some j) :
    (b.record circuit i).probe ≠ some j := by
  simp only [Breaker.record]
  split
  · exact h
  · nofun

/-- The call that hands its token back is not the probe any more. -/
theorem Inv.record_probe {token : Option Nat} {circuit : Circuit Seconds} (h : b.Inv)
    (hrec : Circuit.Recorded token b.circuit circuit) (htoken : b.admitted i = some token) :
    (b.record circuit i).probe ≠ some i := by
  intro hprobe
  simp only [Breaker.record] at hprobe
  split at hprobe
  · rename_i hflag
    obtain ⟨hhalf, hadmitted⟩ := h.probe hprobe
    have hcurrent := Option.some.inj (htoken.symm.trans hadmitted)
    rw [hrec.current hcurrent hhalf] at hflag
    cases hflag
  · cases hprobe

theorem record_exec {now : Seconds} {c : BreakerCmd} {v : Except PyError c.Answer}
    {handed : Option Nat} (hon : cfg.enabled = true) (hc : c.token = some handed)
    (hx : c.exec cfg now i b = (v, b')) : (∀ x, v ≠ .error x) ∧
      ∃ circuit, b' = b.record circuit i ∧ Circuit.Recorded handed b.circuit circuit := by
  cases c with
  | beforeCall => cases hc
  | recordSuccess _ =>
      obtain rfl := Option.some.inj hc
      obtain ⟨rfl, rfl⟩ := Prod.mk.injEq .. |>.mp hx
      exact ⟨nofun, _, rfl, Circuit.recordSuccess_recorded hon⟩
  | recordFailure error proxied _ =>
      obtain rfl := Option.some.inj hc
      obtain ⟨rfl, rfl⟩ := Prod.mk.injEq .. |>.mp hx
      exact ⟨nofun, _, rfl, Circuit.recordFailure_recorded hon now error proxied⟩

theorem Inv.exec {now : Seconds} {c : BreakerCmd} {v : Except PyError c.Answer} (h : b.Inv)
    (hon : cfg.enabled = true) (hx : c.exec cfg now i b = (v, b')) :
    b'.Inv ∧ ∀ j, j ≠ i → b.Moves j b' := by
  cases hc : c.token with
  | none =>
      cases c with
      | beforeCall => exact h.beforeCall hon hx
      | recordSuccess _ => cases hc
      | recordFailure _ _ _ => cases hc
  | some handed =>
      obtain ⟨-, circuit, rfl, hrec⟩ := record_exec hon hc hx
      exact h.record hrec

end Breaker

/-! ## Steps of the crawler -/

/-- The commands that are none of the breaker's. -/
def CrawlerCmd.Quiet : CrawlerCmd → Prop
  | breaker _ => False
  | _ => True

theorem CrawlerCmd.quiet_or_breaker (c : CrawlerCmd) : c.Quiet ∨ ∃ b, c = .breaker b := by
  cases c with
  | breaker b => exact Or.inr ⟨b, rfl⟩
  | _ => exact Or.inl trivial

section Steps

variable {cfg : CrawlerConfig} {i : Nat} {e : CrawlerEnv} {s s' : CrawlerState}

theorem breaker_exec {c : BreakerCmd} {v : Except PyError c.Answer}
    (h : crawlerExec cfg i e (.breaker c) s = some (v, s')) :
    c.exec cfg.circuit e.now i s.breaker = (v, s'.breaker) := by
  obtain ⟨rfl, rfl⟩ := Prod.mk.injEq .. |>.mp (Option.some.inj h)
  rfl

/-- Any other command leaves the breaker alone. -/
theorem breaker_kept {c : CrawlerCmd} {v : Except PyError c.Answer} (hc : c.Quiet)
    (h : crawlerExec cfg i e c s = some (v, s')) : s'.breaker = s.breaker := by
  cases c with
  | client c =>
      obtain ⟨r, -, heq⟩ := Option.map_eq_some_iff.mp h
      obtain ⟨-, rfl⟩ := Prod.mk.injEq .. |>.mp heq
      rfl
  | breaker b => exact hc.elim
  | egress c =>
      obtain ⟨-, rfl⟩ := Prod.mk.injEq .. |>.mp (Option.some.inj h)
      rfl
  | outside c =>
      obtain ⟨-, rfl⟩ := Prod.mk.injEq .. |>.mp (Option.some.inj h)
      exact (c.exec_frame s).1
  | lifecycle c =>
      obtain ⟨-, rfl⟩ := Prod.mk.injEq .. |>.mp (Option.some.inj h)
      rfl
  | executor c =>
      obtain ⟨r, -, heq⟩ := Option.map_eq_some_iff.mp h
      obtain ⟨-, rfl⟩ := Prod.mk.injEq .. |>.mp heq
      rfl

theorem breakerInv_exec {c : CrawlerCmd} {v : Except PyError c.Answer} (h : s.breaker.Inv)
    (hon : cfg.circuit.enabled = true) (hx : crawlerExec cfg i e c s = some (v, s')) :
    s'.breaker.Inv ∧ ∀ j, j ≠ i → s.breaker.Moves j s'.breaker := by
  rcases c.quiet_or_breaker with hc | ⟨b, rfl⟩
  · rw [breaker_kept hc hx]
    exact ⟨h, fun j _ => .refl j _⟩
  · exact h.exec hon (breaker_exec hx)

/-- The object attributes are read and written without fail. -/
theorem client_raises {c : ClientCmd} {x : PyError}
    (h : crawlerExec cfg i e (.client c) s = some (.error x, s')) : False := by
  obtain ⟨r, -, heq⟩ := Option.map_eq_some_iff.mp h
  cases (Prod.mk.injEq .. |>.mp heq).1

end Steps

/-- What the moves of the others do not change. -/
def Stable (i : Nat) (I : CrawlerState → Prop) : Prop :=
  ∀ s s' : CrawlerState, s.breaker.Moves i s'.breaker → I s → I s'

theorem Stable.kept {i : Nat} {I : CrawlerState → Prop} (h : Stable i I) {s s' : CrawlerState}
    (heq : s'.breaker = s.breaker) (hs : I s) : I s' :=
  h s s' (by rw [heq]; exact .refl i _) hs

/-- A command that is none of the breaker's, under whatever the others do. -/
theorem wp_quiet {P : Proto CrawlerState CrawlerCmd CrawlerEnv} {cfg : CrawlerConfig} {i : Nat}
    {c : CrawlerCmd} {I : CrawlerState → Prop} {X : PyError → CrawlerState → Prop}
    {s : CrawlerState} (hc : c.Quiet) (hI : Stable i I)
    (hrely : ∀ {s s'}, P.rely i s s' → s.breaker.Moves i s'.breaker)
    (hpre : ∀ {s}, P.inv s → I s → P.pre i c s)
    (hX : ∀ {e x s s'}, I s → I s' → P.allow i c e s →
      crawlerExec cfg i e c s = some (.error x, s') → X x s') (hs : I s) :
    P.wp (crawlerExec cfg) i (Prog.cmd c) (fun _ => I) X s := by
  refine Proto.wp_cmd.mpr fun s' hr hi => ?_
  have hs' := hI s s' (hrely hr) hs
  refine ⟨hpre hi hs', fun e r s'' ha hx _ => ?_⟩
  have hs'' := hI.kept (breaker_kept hc hx) hs'
  refine ⟨fun a _ => hs'', fun x hraised => ?_⟩
  subst hraised
  exact hX hs' hs'' ha hx

/-! ## The threads -/

/-- `_execute` calls on any clients. -/
def sharedBreaker (cfg : CrawlerConfig) :
    System CrawlerState CrawlerCmd CrawlerEnv Empty Nat PyError Unit CrawlerCmd.Answer where
  exec := crawlerExec cfg
  prog client := ApplicationPlayStoreClient.execute cfg client .arbitrary
  crash _ s := s
  ext x := nomatch x

abbrev BreakerWorld := World CrawlerState CrawlerCmd Nat PyError Unit CrawlerCmd.Answer

def Breaker.initial : Breaker := ⟨.initial, fun _ => none, none, []⟩

theorem Breaker.Inv.initial : Breaker.initial.Inv := ⟨rfl, nofun, nofun, nofun⟩

/-! ## The probe is given back -/

/-- The operations themselves: whatever they raise is classified. -/
def OutsideCmd.isOperation : OutsideCmd → Bool
  | primaryOperation _ _ => true
  | secondaryOperation => true
  | _ => false

/-- The commands of a call, but for the breaker's and the operations. -/
def CrawlerCmd.Mild : CrawlerCmd → Prop
  | client _ => True
  | egress _ => True
  | outside c => c.isOperation = false
  | _ => False

theorem CrawlerCmd.Idle.mild {c : CrawlerCmd} (h : c.Idle) : c.Mild := by
  cases c with
  | client c => trivial
  | breaker c => exact h
  | egress c => trivial
  | outside c =>
      cases c with
      | primaryOperation client adapter => exact h.elim
      | secondaryOperation => exact h.elim
      | _ => rfl
  | lifecycle c => exact h
  | executor c => exact h

theorem CrawlerCmd.Mild.quiet {c : CrawlerCmd} (h : c.Mild) : c.Quiet := by
  cases c with
  | breaker b => exact h.elim
  | _ => trivial

/-- As long as call `i` is the probe, nothing but an operation raises an exception
that is none of the crawler's own. -/
def KeepsProbe (cfg : CrawlerConfig) (i : Nat) (c : CrawlerCmd) (e : CrawlerEnv)
    (s : CrawlerState) : Prop :=
  s.breaker.probe = some i → match c with
    | .outside c => c.isOperation = true ∨
        ∀ name message, (c.exec cfg e s).1 ≠ .error (.other name message)
    | _ => True

def probeDiscipline (cfg : CrawlerConfig) :
    Discipline CrawlerState CrawlerCmd CrawlerEnv Empty Nat PyError Unit where
  inv s := s.breaker.Inv
  rely i s s' := s.breaker.Moves i s'.breaker
  fresh i s := s.breaker.admitted i = none
  pre _ _ _ _ := True
  allow _ i c e s := KeepsProbe cfg i c e s
  allowExt _ _ := True
  post _ i _ s := s.breaker.probe ≠ some i
  xpost _ i _ s := s.breaker.probe ≠ some i

section Probe

open ApplicationPlayStoreClient

variable {cfg : CrawlerConfig} {client i : Nat} {token : Option Nat} {s : CrawlerState}

/-- Call `i` has the token. -/
def HoldsToken (i : Nat) (token : Option Nat) (s : CrawlerState) : Prop :=
  s.breaker.admitted i = some token

/-- What the probe raises is the crawler's own. -/
def Caught (i : Nat) (x : PyError) (s : CrawlerState) : Prop :=
  s.breaker.probe = some i → ∃ error, x = .crawler error

def NotProbe (i : Nat) (s : CrawlerState) : Prop := s.breaker.probe ≠ some i

theorem caught_of_keepsProbe {e : CrawlerEnv} {c : CrawlerCmd} {x : PyError} {s' : CrawlerState}
    (hc : c.Mild) (ha : KeepsProbe cfg i c e s)
    (hx : crawlerExec cfg i e c s = some (.error x, s')) : Caught i x s' := by
  rw [Caught, breaker_kept hc.quiet hx]
  intro hprobe
  cases c with
  | client c => exact (client_raises hx).elim
  | breaker b => exact hc.elim
  | egress c =>
      obtain ⟨hraised, -⟩ := Prod.mk.injEq .. |>.mp (Option.some.inj hx)
      exact ⟨_, EgressCmd.raises hraised⟩
  | outside c =>
      obtain ⟨hraised, -⟩ := Prod.mk.injEq .. |>.mp (Option.some.inj hx)
      cases x with
      | crawler error => exact ⟨error, rfl⟩
      | other name message =>
          rcases ha hprobe with hoperation | hnot
          · rw [show c.isOperation = false from hc] at hoperation
            cases hoperation
          · exact absurd hraised (hnot name message)
  | lifecycle l => exact hc.elim
  | executor w => exact hc.elim

theorem holds_stable (i : Nat) (token : Option Nat) : Stable i (HoldsToken i token) :=
  fun _ _ h hs => h.admitted.trans hs

theorem notProbe_stable (i : Nat) : Stable i (NotProbe i) :=
  fun _ _ h hs hprobe => hs (h.probe hprobe)

theorem probe_cmd {I : CrawlerState → Prop} (hI : Stable i I) {c : CrawlerCmd} (hc : c.Mild)
    (hs : I s) : ((probeDiscipline cfg).proto client).wp (crawlerExec cfg) i (Prog.cmd c)
      (fun _ => I) (fun x s => I s ∧ Caught i x s) s :=
  wp_quiet hc.quiet hI id (fun _ _ => trivial)
    (fun _ hs' ha hx => ⟨hs', caught_of_keepsProbe hc ha hx⟩) hs

theorem probe_steady {I : CrawlerState → Prop} (hI : Stable i I) :
    Steady ((probeDiscipline cfg).proto client) cfg i I (Caught i) where
  idle hc hs := probe_cmd hI hc.mild hs
  operation hs := wp_quiet (by trivial) hI id (fun _ _ => trivial) (fun _ hs' _ _ => hs') hs
  crawler _ := fun _ => ⟨_, rfl⟩

/-- Two commands in a row. -/
theorem probe_cmds {I : CrawlerState → Prop} (hI : Stable i I) {c : CrawlerCmd} {d : CrawlerCmd}
    (hc : c.Mild) (hd : d.Mild) (hs : I s) :
    ((probeDiscipline cfg).proto client).wp (crawlerExec cfg) i
      (Prog.cmd c >>= fun _ => Prog.cmd d) (fun _ => I) (fun x s => I s ∧ Caught i x s) s :=
  Proto.wp_seq (Proto.wp_mono (fun _ _ hs' => probe_cmd hI hd hs') (fun _ _ h => h)
    (probe_cmd hI hc hs))

/-- The attempts of a call: while it is the probe, they end with an exception of
the crawler's own. -/
theorem probe_attempts (hs : HoldsToken i token s) :
    ((probeDiscipline cfg).proto client).wp (crawlerExec cfg) i
      (RetryPolicy.execute cfg (attempt cfg client .arbitrary)
        OperationHooks.arbitrary.beforeRetry)
      (fun _ => HoldsToken i token) (fun x s => HoldsToken i token s ∧ Caught i x s) s := by
  have hI := holds_stable i token
  refine (probe_steady hI).attempts_wp (fun hs => probe_cmds hI trivial rfl hs)
    (fun {n e s} hs he => ?_) (fun hs => probe_cmds hI rfl rfl hs) hs
  have hcaught : Stable i (fun s => HoldsToken i token s ∧ Caught i e s) :=
    fun s s' h hs => ⟨hI s s' h hs.1, fun hprobe => hs.2 (h.probe hprobe)⟩
  exact Proto.wp_mono (fun _ _ h => h) (fun _ _ h => ⟨h.1.1, h.2⟩) (probe_cmd hcaught rfl ⟨hs, he⟩)

/-- Handing the token back. -/
theorem probe_record (hon : cfg.circuit.enabled = true) {c : BreakerCmd}
    (hc : c.token = some token) (hs : HoldsToken i token s) :
    ((probeDiscipline cfg).proto client).wp (crawlerExec cfg) i (onBreaker c)
      (fun _ => NotProbe i) (fun _ => NotProbe i) s := by
  refine Proto.wp_cmd.mpr fun s' hr hi => ⟨trivial, fun e r s'' _ hx _ => ?_⟩
  obtain ⟨hok, circuit, hrecord, hrec⟩ := Breaker.record_exec hon hc (breaker_exec hx)
  refine ⟨fun _ _ => ?_, fun x hraised => absurd hraised (hok x)⟩
  rw [NotProbe, hrecord]
  exact Breaker.Inv.record_probe hi hrec (holds_stable i token _ _ hr hs)

theorem notProbe_record (hon : cfg.circuit.enabled = true) {c : BreakerCmd}
    (hc : c.token = some token) (hs : NotProbe i s) :
    ((probeDiscipline cfg).proto client).wp (crawlerExec cfg) i (onBreaker c)
      (fun _ => NotProbe i) (fun _ => NotProbe i) s := by
  refine Proto.wp_cmd.mpr fun s' hr hi => ⟨trivial, fun e r s'' _ hx _ => ?_⟩
  obtain ⟨hok, circuit, hrecord, -⟩ := Breaker.record_exec hon hc (breaker_exec hx)
  refine ⟨fun _ _ => ?_, fun x hraised => absurd hraised (hok x)⟩
  rw [NotProbe, hrecord]
  exact Breaker.record_ne_probe (notProbe_stable i _ _ hr hs)

theorem notProbe_cmd {c : CrawlerCmd} (hc : c.Quiet) (hs : NotProbe i s) :
    ((probeDiscipline cfg).proto client).wp (crawlerExec cfg) i (Prog.cmd c)
      (fun _ => NotProbe i) (fun _ => NotProbe i) s :=
  wp_quiet hc (notProbe_stable i) id (fun _ _ => trivial) (fun _ hs' _ _ => hs') hs

/-- Without the probe, a call may end in any way. -/
theorem notProbe_fallback (hon : cfg.circuit.enabled = true) {error : PyError}
    (hs : NotProbe i s) : ((probeDiscipline cfg).proto client).wp (crawlerExec cfg) i
      (fallback .arbitrary error token) (fun _ => NotProbe i) (fun _ => NotProbe i) s := by
  refine Proto.wp_seq (Proto.wp_mono (fun _ s hs => ?_) (fun _ _ h => h)
    (notProbe_cmd (by trivial) hs))
  refine Proto.wp_seq (Proto.wp_mono (fun last s hs => ?_) (fun _ _ h => h)
    (notProbe_cmd (by trivial) hs))
  refine Proto.wp_seq (Proto.wp_mono (fun _ s hs => ?_) (fun _ _ h => h)
    (notProbe_cmd (by trivial) hs))
  refine Proto.wp_seq (Proto.wp_outcome.mpr (Proto.wp_mono (fun _ s hs => ?_)
    (fun rawError s hs => ?_) (notProbe_cmd (by trivial) hs)))
  · exact notProbe_record hon rfl hs
  · refine Proto.wp_seq (Proto.wp_mono (fun error s hs => ?_) (fun _ _ h => h)
      (notProbe_cmd (by trivial) hs))
    exact Proto.wp_seq (Proto.wp_mono (fun _ _ h => h) (fun _ _ h => h)
      (notProbe_record hon rfl hs))

/-- From the token on, the flag is cleared on every way out. -/
theorem probe_admitted (hon : cfg.circuit.enabled = true) (hs : HoldsToken i token s) :
    ((probeDiscipline cfg).proto client).wp (crawlerExec cfg) i
      (admitted cfg client .arbitrary token) (fun _ => NotProbe i) (fun _ => NotProbe i) s := by
  have hI := holds_stable i token
  -- reading or writing an attribute in front
  have hclient : ∀ {c : ClientCmd} {f : c.Answer → CrawlerProg Unit} {s}, HoldsToken i token s →
      (∀ {a s}, HoldsToken i token s →
        ((probeDiscipline cfg).proto client).wp (crawlerExec cfg) i (f a)
        (fun _ => NotProbe i) (fun _ => NotProbe i) s) →
      ((probeDiscipline cfg).proto client).wp (crawlerExec cfg) i (onClient c >>= f)
        (fun _ => NotProbe i) (fun _ => NotProbe i) s := fun hs hf =>
    Proto.wp_seq (Proto.wp_mono (fun _ _ h => hf h) (fun _ _ h => h)
      (wp_quiet (by trivial) hI id (fun _ _ => trivial)
        (fun _ _ _ hx => (client_raises hx).elim) hs))
  refine hclient hs fun {_ s} hs => ?_
  refine Proto.wp_seq (Proto.wp_outcome.mpr (Proto.wp_mono (fun _ s hs => ?_)
    (fun x s hx => ?_) (probe_attempts hs)))
  · refine hclient hs fun {c s} hs => ?_
    have hsuccess : ((probeDiscipline cfg).proto client).wp (crawlerExec cfg) i
        (onEgress (.recordSuccess c.lease)) (fun _ => HoldsToken i token)
        (fun _ => NotProbe i) s := by
      refine wp_quiet (by trivial) hI id (fun _ _ => trivial) (fun _ _ _ hx => ?_) hs
      cases (Prod.mk.injEq .. |>.mp (Option.some.inj hx)).1
    exact Proto.wp_seq (Proto.wp_mono (fun _ s hs => probe_record hon rfl hs) (fun _ _ h => h)
      hsuccess)
  · obtain ⟨hs, hcaught⟩ := hx
    cases x with
    | crawler error =>
        refine hclient hs fun {c s} hs => ?_
        refine Proto.wp_seq (Proto.wp_mono (fun _ s hs => ?_) (fun _ _ h => h)
          (probe_record hon rfl hs))
        split
        · exact hs
        · exact notProbe_fallback hon hs
    | other name message =>
        intro hprobe
        obtain ⟨error, herror⟩ := hcaught hprobe
        cases herror

theorem probe_execute (hon : cfg.circuit.enabled = true) (hs : NotProbe i s) :
    ((probeDiscipline cfg).proto client).wp (crawlerExec cfg) i (execute cfg client .arbitrary)
      (fun _ => NotProbe i) (fun _ => NotProbe i) s := by
  refine Proto.wp_seq (Proto.wp_mono (fun _ s hs => ?_) (fun _ _ h => h.1)
    ((probe_steady (notProbe_stable i)).refreshEgressIfNeeded_wp hs))
  refine Proto.wp_seq (Proto.wp_mono (fun token s hs => probe_admitted hon hs) (fun _ _ h => h) ?_)
  refine Proto.wp_cmd.mpr fun s' hr hi => ⟨trivial, fun e r s'' _ hx _ => ?_⟩
  have hs' : NotProbe i s' := notProbe_stable i _ _ hr hs
  rcases Breaker.beforeCall_cases hon (breaker_exec hx) with ⟨⟨x, rfl⟩, heq⟩ | ⟨rfl, hadmit⟩
  · exact ⟨nofun, fun _ _ => (notProbe_stable i).kept heq hs'⟩
  · refine ⟨fun a ha => ?_, nofun⟩
    obtain rfl := Except.ok.inj ha
    rcases hadmit with ⟨-, heq⟩ | ⟨-, heq⟩
    · rw [HoldsToken, heq]
      exact if_pos rfl
    · rw [HoldsToken, heq]
      exact if_pos rfl

theorem probeDiscipline_sound (hon : cfg.circuit.enabled = true) :
    (probeDiscipline cfg).Sound (sharedBreaker cfg) where
  rely_refl i s := .refl i _
  rely_trans h h' := h.trans h'
  fresh_rely h hs := h.admitted.trans hs
  post_rely h hs := notProbe_stable _ _ _ h hs
  xpost_rely h hs := notProbe_stable _ _ _ h hs
  exec hi _ _ hx := breakerInv_exec hi hon hx
  crash hi := ⟨hi, fun j _ => .refl j _⟩
  ext {x} := nomatch x
  spawn hi hfresh := by
    refine probe_execute hon fun hprobe => ?_
    cases hfresh.symm.trans (hi.probe hprobe).2

end Probe

/-- Every step of a call meets the condition on the probe. -/
def keepsProbes (cfg : CrawlerConfig) : Label CrawlerEnv Empty Nat → BreakerWorld → Prop
  | .run i e, w => ∀ client c k, w.sessions[i]? = some ⟨client, some (.call c k)⟩ →
      KeepsProbe cfg i c e w.shared
  | _, _ => True

/-- With the flag cleared, only an open breaker that has not cooled down refuses a
call. -/
theorem Circuit.admits {cfg : CircuitConfig Seconds} {c : Circuit Seconds} {now : Seconds}
    (hflag : c.probeInFlight = false) (hopened : c.state = .opened → ∃ t, c.openedAt = some t)
    (hcooled : ∀ t, c.state = .opened → c.openedAt = some t → ¬now - t < cfg.cooldown) :
    ∃ token, (c.beforeCall cfg now).1 = .ok token := by
  unfold beforeCall letThrough
  split
  · exact ⟨none, rfl⟩
  split
  · rename_i ho
    obtain ⟨t, ht⟩ := hopened ho
    rw [ht]
    simp only [if_neg (hcooled t ho ht), if_true]
    exact ⟨_, rfl⟩
  · split
    · rw [hflag]
      exact ⟨_, rfl⟩
    · exact ⟨_, rfl⟩

theorem probe_given_back {cfg : CrawlerConfig} (hon : cfg.circuit.enabled = true)
    {s₀ : CrawlerState} (hs₀ : s₀.breaker = .initial) {w : BreakerWorld}
    (h : (sharedBreaker cfg).Reach (keepsProbes cfg) ⟨s₀, []⟩ w) (hw : w.Quiescent) :
    w.shared.breaker.circuit.probeInFlight = false ∧
      ∀ now, (∀ t, w.shared.breaker.circuit.state = .opened →
          w.shared.breaker.circuit.openedAt = some t → ¬now - t < cfg.circuit.cooldown) →
        ∃ token, (w.shared.breaker.circuit.beforeCall cfg.circuit now).1 = .ok token := by
  have hallows : ∀ l w, keepsProbes cfg l w → (probeDiscipline cfg).Allows l w := by
    intro l w hkeeps
    cases l with
    | run i e => exact hkeeps
    | spawn r => trivial
    | crash i => trivial
    | ext x => trivial
  have hidle : (probeDiscipline cfg).Ok (sharedBreaker cfg) ⟨s₀, []⟩ := by
    refine Discipline.ok_idle ?_ fun i => ?_
    · show s₀.breaker.Inv
      rw [hs₀]
      exact .initial
    · show s₀.breaker.admitted i = none
      rw [hs₀]
      rfl
  have hok := (probeDiscipline_sound hon).ok_of_reach hidle (h.mono hallows)
  have hinv : w.shared.breaker.Inv := hok.inv
  have hnone : ∀ i, w.shared.breaker.probe ≠ some i := by
    intro i hprobe
    rcases hok.quiescent hw i with hfresh | ⟨client, a, hnot⟩ | ⟨client, x, hnot⟩
    · cases hfresh.symm.trans (hinv.probe hprobe).2
    · exact hnot hprobe
    · exact hnot hprobe
  have hflag : w.shared.breaker.circuit.probeInFlight = false := by
    rw [hinv.flag, Option.isSome_eq_false_iff, Option.isNone_iff_eq_none]
    exact Option.eq_none_iff_forall_ne_some.mpr hnone
  exact ⟨hflag, fun now hcooled => Circuit.admits hflag hinv.opened hcooled⟩

/-- The step raises nothing but the crawler's own exceptions. -/
def raisesCrawlerErrors (cfg : CrawlerConfig) :
    Label CrawlerEnv Empty Nat → BreakerWorld → Bool
  | .run i e, w => match w.sessions[i]? with
      | some ⟨_, some (.call (.outside c) _)⟩ => match (c.exec cfg e w.shared).1 with
          | .error (.other _ _) => false
          | _ => true
      | _ => true
  | _, _ => true

theorem keepsProbes_of_raisesCrawlerErrors {cfg : CrawlerConfig}
    (l : Label CrawlerEnv Empty Nat) (w : BreakerWorld)
    (h : raisesCrawlerErrors cfg l w = true) : keepsProbes cfg l w := by
  cases l with
  | run i e =>
      intro client c k hi _
      cases c with
      | outside c =>
          refine Or.inr fun name message hraised => ?_
          simp only [raisesCrawlerErrors, hi, hraised] at h
          cases h
      | _ => trivial
  | spawn r => trivial
  | crash i => trivial
  | ext x => trivial

namespace Sample

def times (n i : Nat) : List (Label CrawlerEnv Empty Nat) := List.replicate n (.run i calm)

/-- A call whose operation is throttled: the breaker opens at time 0. -/
def openingCall : List (Label CrawlerEnv Empty Nat) :=
  [.spawn 0] ++ times 8 0 ++ [.run 0 (raising throttled)] ++ times 7 0

/-- The next call, up to the probe's token. -/
def probeCall : List (Label CrawlerEnv Empty Nat) :=
  openingCall ++ [.spawn 0, .run 1 calm, .run 1 { calm with now := 10 }]

end Sample

open Sample in
/-- The probe returns and the breaker closes. -/
theorem probe_given_back_recovery :
    ∃ w, (sharedBreaker crawlerConfig).Reach (keepsProbes crawlerConfig) ⟨crawlerState, []⟩ w ∧
      w.sessions.length = 2 ∧ w.shared.breaker.circuit.generation = 1 ∧
      w.shared.breaker.circuit.probeInFlight = false ∧
      ∃ token, (w.shared.breaker.circuit.beforeCall crawlerConfig.circuit 20).1 = .ok token := by
  have hrun : ((sharedBreaker crawlerConfig).runIf (raisesCrawlerErrors crawlerConfig)
      ⟨crawlerState, []⟩ (probeCall ++ times 8 1)).map (fun w => (w.isQuiescent,
        w.sessions.length, w.shared.breaker.circuit.generation,
        w.shared.breaker.circuit.state)) = some (true, 2, 1, .closed) := by
    decide +kernel
  obtain ⟨w, hw, hfacts⟩ := Option.map_eq_some_iff.mp hrun
  simp only [Prod.mk.injEq] at hfacts
  obtain ⟨hquiescent, hlength, hgeneration, hclosed⟩ := hfacts
  have hreach := System.reach_of_runIf keepsProbes_of_raisesCrawlerErrors .refl hw
  obtain ⟨hflag, hadmits⟩ := probe_given_back (by rfl) (by rfl) hreach
    (World.isQuiescent_iff.mp hquiescent)
  refine ⟨w, hreach, hlength, hgeneration, hflag, hadmits 20 fun t ho => ?_⟩
  rw [hclosed] at ho
  cases ho

open Sample in
/-- The probe's attempt hook fails in the database: the flag stays set, and every
later call is refused. -/
theorem probe_leaked : ¬∀ (cfg : CrawlerConfig) (s₀ : CrawlerState) (w : BreakerWorld),
    cfg.circuit.enabled = true → s₀.breaker = .initial →
      (sharedBreaker cfg).Reach (fun _ _ => True) ⟨s₀, []⟩ w → w.Quiescent →
        w.shared.breaker.circuit.probeInFlight = false := by
  intro hclaim
  have hrun : ((sharedBreaker crawlerConfig).run ⟨crawlerState, []⟩
      (probeCall ++ times 2 1 ++ [.run 1 (raising databaseError)])).map
        (fun w => (w.isQuiescent, w.shared.breaker.circuit.probeInFlight)) =
      some (true, true) := by
    decide +kernel
  obtain ⟨w, hw, hfacts⟩ := Option.map_eq_some_iff.mp hrun
  obtain ⟨hquiescent, hflag⟩ := Prod.mk.inj hfacts
  have hreach := System.reach_of_run (fun _ _ _ => trivial) .refl hw
  have hcleared := hclaim crawlerConfig crawlerState w rfl rfl hreach
    (World.isQuiescent_iff.mp hquiescent)
  rw [hflag] at hcleared
  cases hcleared

/-! ## One probe at a time -/

/-- The call does not fall back to the secondary adapter as the probe. -/
def NoFallback (cfg : CrawlerConfig) (c : CrawlerCmd) (s : CrawlerState) : Prop :=
  match c with
  | .breaker (.recordFailure error _ token) => shouldUseSecondary cfg error = true →
      ¬(s.breaker.circuit.state = .halfOpen ∧ token = some s.breaker.circuit.generation)
  | _ => True

/-- Of the calls the half-open breaker has let through, only the probe is still
out. -/
def Breaker.Single (b : Breaker) : Prop :=
  ∀ i, b.Current i → i ∈ b.recorded ∨ b.probe = some i

/-- A call that goes on has not handed back the token of a half-open breaker, and
hands back the token it got. -/
def Owes (i : Nat) (c : CrawlerCmd) (s : CrawlerState) : Prop :=
  (s.breaker.Current i → i ∉ s.breaker.recorded) ∧
    match c with
    | .breaker c => ∀ token, c.token = some token → HoldsToken i token s
    | _ => True

def singleDiscipline (cfg : CrawlerConfig) :
    Discipline CrawlerState CrawlerCmd CrawlerEnv Empty Nat PyError Unit where
  inv s := s.breaker.Inv ∧ s.breaker.Single
  rely i s s' := s.breaker.Moves i s'.breaker
  fresh i s := s.breaker.admitted i = none ∧ i ∉ s.breaker.recorded
  pre _ i c s := Owes i c s
  allow _ _ c _ s := NoFallback cfg c s
  allowExt _ _ := True
  post _ _ _ _ := True
  xpost _ _ _ _ := True

section Single

open ApplicationPlayStoreClient

variable {cfg : CrawlerConfig} {client i : Nat} {token : Option Nat} {s s' : CrawlerState}

/-- The record of another call than the probe changes nothing while the breaker is
half-open. -/
theorem Breaker.Single.record {b : Breaker} {circuit : Circuit Seconds} (h : b.Inv)
    (hsingle : b.Single) (hrec : Circuit.Recorded token b.circuit circuit)
    (htoken : b.admitted i = some token) (howes : b.Current i → i ∉ b.recorded) :
    (b.record circuit i).Single := by
  intro j hcurrent
  obtain ⟨hhalf, hgeneration⟩ := hrec.halfOpen hcurrent.1
  have hbefore : b.Current j := ⟨hhalf, by rw [← hgeneration]; exact hcurrent.2⟩
  rcases hsingle j hbefore with hrecorded | hprobe
  · exact Or.inl (List.mem_append_left _ hrecorded)
  obtain ⟨g, rfl, -, -⟩ := h.token htoken
  by_cases hg : g = b.circuit.generation
  · subst hg
    rcases hsingle i ⟨hhalf, htoken⟩ with hrecorded | hprobe'
    · exact absurd hrecorded (howes ⟨hhalf, htoken⟩)
    · obtain rfl := Option.some.inj (hprobe.symm.trans hprobe')
      exact Or.inl (List.mem_append_right _ (List.mem_singleton_self _))
  · obtain rfl := hrec.stale rfl hg
    refine Or.inr ?_
    simp only [Breaker.record, h.flag, hprobe, Option.isSome_some, if_true]

theorem Breaker.Single.beforeCall {b b' : Breaker} {now : Seconds}
    {r : Except PyError (Option Nat)} (h : b.Inv) (hsingle : b.Single)
    (hon : cfg.circuit.enabled = true) (hcall : b.beforeCall cfg.circuit now i = (r, b')) :
    b'.Single := by
  intro j hcurrent
  have hmoves := (h.beforeCall hon hcall).2 j
  rcases Breaker.beforeCall_cases hon hcall with ⟨-, rfl⟩ | ⟨-, ⟨hclosed, rfl⟩ | ⟨hfrom, rfl⟩⟩
  · exact hsingle j hcurrent
  · rw [show b.circuit.state = .halfOpen from hcurrent.1] at hclosed
    cases hclosed
  · by_cases hj : j = i
    · exact Or.inr (by rw [hj]; rfl)
    · have hbefore := (hmoves hj).current hcurrent
      rcases hsingle j hbefore with hrecorded | hprobe
      · exact Or.inl hrecorded
      · rcases hfrom with ho | ⟨-, hflag⟩
        · rw [hbefore.1] at ho
          cases ho
        · rw [h.flag, hprobe] at hflag
          cases hflag

theorem single_exec {e : CrawlerEnv} {c : CrawlerCmd} {v : Except PyError c.Answer}
    (hon : cfg.circuit.enabled = true) (h : s.breaker.Inv) (hsingle : s.breaker.Single)
    (howes : Owes i c s) (hx : crawlerExec cfg i e c s = some (v, s')) : s'.breaker.Single := by
  rcases c.quiet_or_breaker with hc | ⟨b, rfl⟩
  · rw [breaker_kept hc hx]
    exact hsingle
  cases htoken : b.token with
  | none =>
      cases b with
      | beforeCall => exact Breaker.Single.beforeCall h hsingle hon (breaker_exec hx)
      | recordSuccess _ => cases htoken
      | recordFailure _ _ _ => cases htoken
  | some handed =>
      obtain ⟨-, circuit, hrecord, hrec⟩ := Breaker.record_exec hon htoken (breaker_exec hx)
      rw [hrecord]
      exact hsingle.record h hrec (howes.2 handed htoken) howes.1

/-- The call has not handed its token back. -/
def Out (i : Nat) (token : Option Nat) (s : CrawlerState) : Prop :=
  HoldsToken i token s ∧ i ∉ s.breaker.recorded

/-- The call has a token that does not count any more. -/
def Late (i : Nat) (token : Option Nat) (s : CrawlerState) : Prop :=
  HoldsToken i token s ∧ ¬s.breaker.Current i

theorem out_stable (i : Nat) (token : Option Nat) : Stable i (Out i token) :=
  fun _ _ h hs => ⟨h.admitted.trans hs.1, fun hr => hs.2 (h.recorded.mp hr)⟩

theorem late_stable (i : Nat) (token : Option Nat) : Stable i (Late i token) :=
  fun _ _ h hs => ⟨h.admitted.trans hs.1, fun hc => hs.2 (h.current hc)⟩

theorem single_cmd {I : CrawlerState → Prop} (hI : Stable i I)
    (howes : ∀ {s}, I s → s.breaker.Current i → i ∉ s.breaker.recorded) {c : CrawlerCmd}
    (hc : c.Quiet) (hs : I s) :
    ((singleDiscipline cfg).proto client).wp (crawlerExec cfg) i (Prog.cmd c)
      (fun _ => I) (fun _ => I) s := by
  refine wp_quiet hc hI id (fun {s} _ hs => ⟨howes hs, ?_⟩) (fun _ hs' _ _ => hs') hs
  split
  · exact hc.elim
  · trivial

theorem single_steady {I : CrawlerState → Prop} (hI : Stable i I)
    (howes : ∀ {s}, I s → s.breaker.Current i → i ∉ s.breaker.recorded) :
    Steady ((singleDiscipline cfg).proto client) cfg i I (fun _ _ => True) where
  idle hc hs := Proto.wp_mono (fun _ _ h => h) (fun _ _ h => ⟨h, trivial⟩)
    (single_cmd hI howes hc.mild.quiet hs)
  operation hs := single_cmd hI howes (by trivial) hs
  crawler _ := trivial

/-- The last record of a call. -/
theorem single_record {I : CrawlerState → Prop} (hI : Stable i I)
    (howes : ∀ {s}, I s → s.breaker.Current i → i ∉ s.breaker.recorded)
    (hholds : ∀ {s}, I s → HoldsToken i token s) {c : BreakerCmd} (hc : c.token = some token)
    (hs : I s) : ((singleDiscipline cfg).proto client).wp (crawlerExec cfg) i (onBreaker c)
      (fun _ _ => True) (fun _ _ => True) s := by
  refine Proto.wp_cmd.mpr fun s' hr hi => ?_
  have hs' := hI _ _ hr hs
  refine ⟨⟨howes hs', fun handed hhanded => ?_⟩, fun _ _ _ _ _ _ => ⟨fun _ _ => trivial,
    fun _ _ => trivial⟩⟩
  obtain rfl := Option.some.inj (hc.symm.trans hhanded)
  exact hholds hs'

theorem out_owes (hs : Out i token s) (_ : s.breaker.Current i) : i ∉ s.breaker.recorded := hs.2

theorem late_owes (hs : Late i token s) (h : s.breaker.Current i) : i ∉ s.breaker.recorded :=
  absurd h hs.2

/-- The record before the fallback: it was not the probe's. -/
theorem single_recordFailure (hon : cfg.circuit.enabled = true) {error : PyError} {proxied : Bool}
    (hsecondary : shouldUseSecondary cfg error = true) (hs : Out i token s) :
    ((singleDiscipline cfg).proto client).wp (crawlerExec cfg) i
      (ApplicationPlayStoreClient.recordFailure error proxied token) (fun _ => Late i token)
      (fun _ _ => True) s := by
  refine Proto.wp_cmd.mpr fun s' hr hi => ?_
  have hs' := out_stable i token _ _ hr hs
  refine ⟨⟨out_owes hs', fun handed hhanded => ?_⟩, fun e r s'' ha hx _ => ⟨fun _ _ => ?_,
    fun _ _ => trivial⟩⟩
  · obtain rfl := Option.some.inj hhanded
    exact hs'.1
  · obtain ⟨-, circuit, hrecord, hrec⟩ := Breaker.record_exec hon rfl (breaker_exec hx)
    refine ⟨by rw [HoldsToken, hrecord]; exact hs'.1, fun hcurrent => ?_⟩
    rw [hrecord] at hcurrent
    obtain ⟨hhalf, hgeneration⟩ := hrec.halfOpen hcurrent.1
    have hadmitted : s'.breaker.admitted i = some (some circuit.generation) := hcurrent.2
    refine ha hsecondary ⟨hhalf, ?_⟩
    rw [← hgeneration]
    exact Option.some.inj (hs'.1.symm.trans hadmitted)

theorem single_fallback {error : PyError} (hs : Late i token s) :
    ((singleDiscipline cfg).proto client).wp (crawlerExec cfg) i
      (fallback .arbitrary error token) (fun _ _ => True) (fun _ _ => True) s := by
  have hcmd : ∀ {c : CrawlerCmd} {f : c.Answer → CrawlerProg Unit} {s}, Late i token s → c.Quiet →
      (∀ {a s}, Late i token s → ((singleDiscipline cfg).proto client).wp (crawlerExec cfg) i
        (f a) (fun _ _ => True) (fun _ _ => True) s) →
      ((singleDiscipline cfg).proto client).wp (crawlerExec cfg) i (Prog.cmd c >>= f)
        (fun _ _ => True) (fun _ _ => True) s := fun hs hc hf =>
    Proto.wp_seq (Proto.wp_mono (fun _ _ h => hf h) (fun _ _ _ => trivial)
      (single_cmd (late_stable i token) late_owes hc hs))
  have hrecord : ∀ {c : BreakerCmd} {s}, c.token = some token → Late i token s →
      ((singleDiscipline cfg).proto client).wp (crawlerExec cfg) i (onBreaker c)
        (fun _ _ => True) (fun _ _ => True) s :=
    fun hc hs => single_record (late_stable i token) late_owes And.left hc hs
  refine hcmd hs (by trivial) fun {_ s} hs => ?_
  refine hcmd hs (by trivial) fun {last s} hs => ?_
  refine hcmd hs (by trivial) fun {_ s} hs => ?_
  refine Proto.wp_seq (Proto.wp_outcome.mpr (Proto.wp_mono (fun _ s hs => ?_)
    (fun rawError s hs => ?_) (single_cmd (late_stable i token) late_owes (by trivial) hs)))
  · exact hrecord rfl hs
  · refine hcmd hs (by trivial) fun {secondaryError s} hs => ?_
    exact Proto.wp_seq (Proto.wp_mono (fun _ _ _ => trivial) (fun _ _ h => h) (hrecord rfl hs))

theorem single_admitted (hon : cfg.circuit.enabled = true) (hs : Out i token s) :
    ((singleDiscipline cfg).proto client).wp (crawlerExec cfg) i
      (admitted cfg client .arbitrary token) (fun _ _ => True) (fun _ _ => True) s := by
  have hI := out_stable i token
  have hcmd : ∀ {α : Type} {c : CrawlerCmd} {f : c.Answer → CrawlerProg α} {s} {Q X},
      Out i token s → c.Quiet → (∀ {x s}, Out i token s → X x s) →
      (∀ {a s}, Out i token s →
        ((singleDiscipline cfg).proto client).wp (crawlerExec cfg) i (f a) Q X s) →
      ((singleDiscipline cfg).proto client).wp (crawlerExec cfg) i (Prog.cmd c >>= f) Q X s :=
    fun hs hc hX hf => Proto.wp_seq (Proto.wp_mono (fun _ _ h => hf h) (fun _ _ h => hX h)
      (single_cmd hI out_owes hc hs))
  refine hcmd hs (by trivial) (fun _ => trivial) fun {_ s} hs => ?_
  refine Proto.wp_seq (Proto.wp_outcome.mpr (Proto.wp_mono (fun _ s hs => ?_)
    (fun x s hx => ?_) ((single_steady hI out_owes).attempts_wp ?_ ?_ ?_ hs)))
  · refine hcmd hs (by trivial) (fun _ => trivial) fun {c s} hs => ?_
    refine hcmd hs (by trivial) (fun _ => trivial) fun {_ s} hs => ?_
    exact single_record hI out_owes And.left rfl hs
  · obtain ⟨hs, -⟩ := hx
    cases x with
    | crawler error =>
        refine hcmd hs (by trivial) (fun _ => trivial) fun {c s} hs => ?_
        by_cases hsecondary : shouldUseSecondary cfg (.crawler error) = true
        · refine Proto.wp_seq (Proto.wp_mono (fun _ s hs => ?_) (fun _ _ h => h)
            (single_recordFailure hon hsecondary hs))
          rw [hsecondary]
          exact single_fallback hs
        · refine Proto.wp_seq (Proto.wp_mono (fun _ s _ => ?_) (fun _ _ h => h)
            (single_record hI out_owes And.left rfl hs))
          rw [Bool.not_eq_true] at hsecondary
          rw [hsecondary]
          trivial
    | other name message => trivial
  · intro n s hs
    refine hcmd hs (by trivial) (fun h => ⟨h, trivial⟩) fun {_ s} hs => ?_
    exact (Proto.wp_mono (fun _ _ h => h) (fun _ _ h => ⟨h, trivial⟩)
      (single_cmd hI out_owes (by trivial) hs))
  · intro n x s hs _
    exact Proto.wp_mono (fun _ _ h => ⟨h, trivial⟩) (fun _ _ h => ⟨h, trivial⟩)
      (single_cmd hI out_owes (by trivial) hs)
  · intro x seconds s hs
    refine hcmd hs (by trivial) (fun h => ⟨h, trivial⟩) fun {_ s} hs => ?_
    exact (Proto.wp_mono (fun _ _ h => h) (fun _ _ h => ⟨h, trivial⟩)
      (single_cmd hI out_owes (by trivial) hs))

theorem single_execute (hon : cfg.circuit.enabled = true)
    (hs : s.breaker.admitted i = none ∧ i ∉ s.breaker.recorded) :
    ((singleDiscipline cfg).proto client).wp (crawlerExec cfg) i (execute cfg client .arbitrary)
      (fun _ _ => True) (fun _ _ => True) s := by
  have hI : Stable i (fun s => s.breaker.admitted i = none ∧ i ∉ s.breaker.recorded) :=
    fun _ _ h hs => ⟨h.admitted.trans hs.1, fun hr => hs.2 (h.recorded.mp hr)⟩
  refine Proto.wp_seq (Proto.wp_mono (fun _ s hs => ?_) (fun _ _ _ => trivial)
    ((single_steady hI (fun hs _ => hs.2)).refreshEgressIfNeeded_wp hs))
  refine Proto.wp_seq (Proto.wp_mono (fun token s hs => single_admitted hon hs) (fun _ _ h => h) ?_)
  refine Proto.wp_cmd.mpr fun s' hr hi => ?_
  have hs' := hI _ _ hr hs
  refine ⟨⟨fun _ => hs'.2, nofun⟩, fun e r s'' _ hx _ => ⟨fun token htoken => ?_,
    fun _ _ => trivial⟩⟩
  subst htoken
  rcases Breaker.beforeCall_cases hon (breaker_exec hx) with ⟨⟨x, hx⟩, -⟩ | ⟨hok, hadmit⟩
  · cases hx
  obtain rfl := Except.ok.inj hok
  rcases hadmit with ⟨-, heq⟩ | ⟨-, heq⟩
  · rw [Out, HoldsToken, heq]
    exact ⟨if_pos rfl, hs'.2⟩
  · rw [Out, HoldsToken, heq]
    exact ⟨if_pos rfl, hs'.2⟩

theorem singleDiscipline_sound (hon : cfg.circuit.enabled = true) :
    (singleDiscipline cfg).Sound (sharedBreaker cfg) where
  rely_refl i s := .refl i _
  rely_trans h h' := h.trans h'
  fresh_rely h hs := ⟨h.admitted.trans hs.1, fun hr => hs.2 (h.recorded.mp hr)⟩
  post_rely _ _ := trivial
  xpost_rely _ _ := trivial
  exec hi hpre _ hx := by
    obtain ⟨hinv, hmoves⟩ := breakerInv_exec hi.1 hon hx
    exact ⟨⟨hinv, single_exec hon hi.1 hi.2 hpre hx⟩, hmoves⟩
  crash hi := ⟨hi, fun j _ => .refl j _⟩
  ext {x} := nomatch x
  spawn _ hfresh := single_execute hon hfresh

end Single

/-- No step lets the probe fall back. -/
def noFallbacks (cfg : CrawlerConfig) : Label CrawlerEnv Empty Nat → BreakerWorld → Prop
  | .run i _, w => ∀ client c k, w.sessions[i]? = some ⟨client, some (.call c k)⟩ →
      NoFallback cfg c w.shared
  | _, _ => True

/-- The call was admitted since the breaker last opened, and has neither returned
nor raised. -/
def InProgress (w : BreakerWorld) (i : Nat) : Prop :=
  w.shared.breaker.admitted i = some (some w.shared.breaker.circuit.generation) ∧
    ∃ client c k, w.sessions[i]? = some ⟨client, some (.call c k)⟩

theorem single_probe {cfg : CrawlerConfig} (hon : cfg.circuit.enabled = true) {s₀ : CrawlerState}
    (hs₀ : s₀.breaker = .initial) {w : BreakerWorld}
    (h : (sharedBreaker cfg).Reach (noFallbacks cfg) ⟨s₀, []⟩ w)
    (hhalf : w.shared.breaker.circuit.state = .halfOpen) {i j : Nat} (hi : InProgress w i)
    (hj : InProgress w j) : i = j := by
  have hallows : ∀ l w, noFallbacks cfg l w → (singleDiscipline cfg).Allows l w := by
    intro l w hkeeps
    cases l with
    | run i e => exact hkeeps
    | spawn r => trivial
    | crash i => trivial
    | ext x => trivial
  have hidle : (singleDiscipline cfg).Ok (sharedBreaker cfg) ⟨s₀, []⟩ := by
    refine Discipline.ok_idle ⟨?_, ?_⟩ fun i => ⟨?_, ?_⟩
    · rw [hs₀]
      exact .initial
    · rw [hs₀]
      rintro i ⟨hstate, -⟩
      cases hstate
    · rw [hs₀]
      rfl
    · rw [hs₀]
      exact List.not_mem_nil
  have hsound := singleDiscipline_sound hon
  have hok := hsound.ok_of_reach hidle (h.mono hallows)
  have hprobe : ∀ {k}, InProgress w k → w.shared.breaker.probe = some k := by
    rintro k ⟨hadmitted, client, c, rest, hk⟩
    have howes := (hok.issued hsound hk).1 ⟨hhalf, hadmitted⟩
    exact (hok.inv.2 k ⟨hhalf, hadmitted⟩).resolve_left howes
  exact Option.some.inj ((hprobe hi).symm.trans (hprobe hj))

/-- `InProgress`, as a check. -/
def inProgress (w : BreakerWorld) (i : Nat) : Bool :=
  w.shared.breaker.admitted i = some (some w.shared.breaker.circuit.generation) &&
    (w.sessions[i]?.any fun session => session.prog.any fun p => !p.ended)

theorem inProgress_of_check {w : BreakerWorld} {i : Nat} (h : inProgress w i = true) :
    InProgress w i := by
  simp only [inProgress, Bool.and_eq_true, decide_eq_true_eq, Option.any_eq_true] at h
  obtain ⟨hadmitted, ⟨client, q⟩, hi, p, rfl, hrunning⟩ := h
  cases p with
  | ret a => cases hrunning
  | raise e => cases hrunning
  | call c k => exact ⟨hadmitted, client, c, k, hi⟩

/-- The step hands back no failure that goes to the secondary adapter. -/
def keepsToPrimary (cfg : CrawlerConfig) : Label CrawlerEnv Empty Nat → BreakerWorld → Bool
  | .run i _, w => match w.sessions[i]? with
      | some ⟨_, some (.call (.breaker (.recordFailure error _ _)) _)⟩ =>
          !shouldUseSecondary cfg error
      | _ => true
  | _, _ => true

theorem noFallbacks_of_keepsToPrimary {cfg : CrawlerConfig} (l : Label CrawlerEnv Empty Nat)
    (w : BreakerWorld) (h : keepsToPrimary cfg l w = true) : noFallbacks cfg l w := by
  cases l with
  | run i e =>
      intro client c k hi
      unfold NoFallback
      split
      · rename_i error proxied token
        intro hsecondary
        simp only [keepsToPrimary, hi, hsecondary] at h
        cases h
      · trivial
  | spawn r => trivial
  | crash i => trivial
  | ext x => trivial

open Sample in
/-- While the probe is out, a third call is refused. -/
theorem single_probe_third_call :
    ∃ w, (sharedBreaker crawlerConfig).Reach (noFallbacks crawlerConfig) ⟨crawlerState, []⟩ w ∧
      w.shared.breaker.circuit.state = .halfOpen ∧ w.sessions.length = 3 ∧ InProgress w 1 ∧
      ∀ i, InProgress w i → i = 1 := by
  have hrun : ((sharedBreaker crawlerConfig).runIf (keepsToPrimary crawlerConfig)
      ⟨crawlerState, []⟩ (probeCall ++ [.spawn 0, .run 2 calm, .run 2 { calm with now := 12 }])).map
        (fun w => (w.shared.breaker.circuit.state, w.sessions.length, inProgress w 1)) =
      some (.halfOpen, 3, true) := by
    decide +kernel
  obtain ⟨w, hw, hfacts⟩ := Option.map_eq_some_iff.mp hrun
  simp only [Prod.mk.injEq] at hfacts
  obtain ⟨hhalf, hlength, hprogress⟩ := hfacts
  have hreach := System.reach_of_runIf noFallbacks_of_keepsToPrimary .refl hw
  have hprobe := inProgress_of_check hprogress
  exact ⟨w, hreach, hhalf, hlength, hprobe,
    fun i hi => single_probe (by rfl) (by rfl) hreach hhalf hi hprobe⟩

open Sample in
/-- The probe's page cannot be read: its record frees the flag, and while the call
falls back to the secondary adapter another one is let through. -/
theorem two_probes : ¬∀ (cfg : CrawlerConfig) (s₀ : CrawlerState) (w : BreakerWorld),
    cfg.circuit.enabled = true → s₀.breaker = .initial →
      (sharedBreaker cfg).Reach (fun _ _ => True) ⟨s₀, []⟩ w →
        w.shared.breaker.circuit.state = .halfOpen →
          ∀ i j, InProgress w i → InProgress w j → i = j := by
  intro hclaim
  have hrun : ((sharedBreaker crawlerConfig).run ⟨crawlerState, []⟩
      (probeCall ++ times 4 1 ++ [.run 1 (raising unreadable)] ++ times 6 1 ++
        [.spawn 0, .run 2 calm, .run 2 { calm with now := 12 }])).map
        (fun w => (w.shared.breaker.circuit.state, inProgress w 1, inProgress w 2)) =
      some (.halfOpen, true, true) := by
    decide +kernel
  obtain ⟨w, hw, hfacts⟩ := Option.map_eq_some_iff.mp hrun
  simp only [Prod.mk.injEq] at hfacts
  obtain ⟨hhalf, hfirst, hsecond⟩ := hfacts
  have hreach := System.reach_of_run (fun _ _ _ => trivial) .refl hw
  have heq := hclaim crawlerConfig crawlerState w rfl rfl hreach hhalf 1 2
    (inProgress_of_check hfirst) (inProgress_of_check hsecond)
  omega

end Sahabino
