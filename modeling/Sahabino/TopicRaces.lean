import Sahabino.TopicProvisioning

/-!
# Racing for the topics

What holds of any number of processes that run `ensure_topics` on one
cluster. The broker's account of a session is what the process waits for
(`Cluster.Inv`), and nobody else changes what has been settled there
(`Rely`).
-/

namespace Sahabino

namespace Admin

open Conc

/-! ## The broker's account -/

/-- An answer belongs to a creation that was asked for, and success to a topic that the session
itself has created. -/
structure Cluster.Inv (s : Cluster) : Prop where
  asked : ∀ {i name o}, s.outcome i name = some o → ∃ new ∈ s.requested i, new.topic = name
  won : ∀ {i name}, s.outcome i name = some (.ok ()) → s.creator name = some (.session i) ∧
    ∃ new ∈ s.requested i, new.topic = name ∧ Held new.topology name s
  known : ∀ {name}, s.creator name ≠ none → s.topics name ≠ none
  told : ∀ {i name}, s.creator name = some (.session i) → s.outcome i name ≠ none

/-- What the others, the broker and the clients leave alone. -/
structure Rely (i : Nat) (s s' : Cluster) : Prop where
  topics : ∀ {name topic}, s.topics name = some topic → s'.topics name = some topic
  requested : s'.requested i = s.requested i
  outcome : ∀ {name}, (s.outcome i name = none → ∀ new ∈ s.requested i, new.topic ≠ name) →
    s'.outcome i name = s.outcome i name

section

variable {i j : Nat} {s s' s'' : Cluster} {topology : TopicTopology} {name : String}

theorem Rely.refl (i : Nat) (s : Cluster) : Rely i s s := ⟨id, rfl, fun _ => rfl⟩

theorem Rely.trans (h : Rely i s s') (h' : Rely i s' s'') : Rely i s s'' := by
  refine ⟨fun ht => h'.topics (h.topics ht), h'.requested.trans h.requested, fun hsettled => ?_⟩
  have hsame := h.outcome hsettled
  refine (h'.outcome ?_).trans hsame
  rw [hsame, h.requested]
  exact hsettled

theorem Rely.held (h : Rely i s s') (hs : Held topology name s) : Held topology name s' := by
  obtain ⟨topic, htopic, hhas⟩ := hs
  exact ⟨topic, h.topics htopic, hhas⟩

/-- A settled answer stays. -/
theorem Rely.answered {o : Except (Option ℤ) Unit} (h : Rely i s s')
    (hs : s.outcome i name = some o) : s'.outcome i name = some o := by
  rw [h.outcome fun hnone => absurd (hs.symm.trans hnone) (by simp)]
  exact hs

/-! ### New topics -/

theorem add_creator_cases {topic : Topic} {creator : Creator} {x : String} {c : Creator}
    (h : (s.add name topic creator).creator x = some c) :
    x = name ∧ c = creator ∨ s.creator x = some c := by
  by_cases hx : x = name
  · subst hx
    have hself : (s.add x topic creator).creator x = some creator := Function.update_self ..
    exact Or.inl ⟨rfl, Option.some.inj (h.symm.trans hself)⟩
  · have hother : (s.add name topic creator).creator x = s.creator x :=
      Function.update_of_ne hx ..
    exact Or.inr (hother.symm.trans h)

section

variable {topic : Topic} {creator : Creator} {x : String} (hnone : s.topics name = none)

include hnone

theorem ne_of_topic (h : s.topics x ≠ none) : x ≠ name := by
  rintro rfl
  exact h hnone

theorem add_topics (h : s.topics x ≠ none) : (s.add name topic creator).topics x = s.topics x :=
  Function.update_of_ne (ne_of_topic hnone h) ..

theorem add_held (h : Held topology x s) : Held topology x (s.add name topic creator) := by
  obtain ⟨held, hheld, hhas⟩ := h
  refine ⟨held, ?_, hhas⟩
  rw [add_topics hnone (by simp [hheld])]
  exact hheld

theorem add_rely : Rely i s (s.add name topic creator) :=
  ⟨fun ht => (add_topics hnone (by simp [ht])).trans ht, rfl, fun _ => rfl⟩

theorem add_creator (hs : s.Inv) (h : s.creator x ≠ none) :
    (s.add name topic creator).creator x = s.creator x :=
  Function.update_of_ne (ne_of_topic hnone (hs.known h)) ..

theorem add_known (hs : s.Inv) (h : (s.add name topic creator).creator x ≠ none) :
    (s.add name topic creator).topics x ≠ none := by
  by_cases hx : x = name
  · rw [hx]
    simp [Cluster.add]
  · have hcreator : s.creator x ≠ none := by simpa [Cluster.add, hx] using h
    rw [add_topics hnone (hs.known hcreator)]
    exact hs.known hcreator

theorem add_won (hs : s.Inv) (hwon : s.outcome i x = some (.ok ())) :
    (s.add name topic creator).creator x = some (.session i) ∧
      ∃ new ∈ s.requested i, new.topic = x ∧ Held new.topology x (s.add name topic creator) := by
  obtain ⟨hcreator, new, hnew, hname, hheld⟩ := hs.won hwon
  refine ⟨?_, new, hnew, hname, add_held hnone hheld⟩
  rw [add_creator hnone hs (by simp [hcreator])]
  exact hcreator

end

/-! ### Steps of the cluster -/

theorem tell_outcome {o : Except (Option ℤ) Unit} {x : String} :
    (s.tell i name o).outcome j x = if j = i ∧ x = name then some o else s.outcome j x := rfl

theorem clusterStep_inv {x : ClusterStep} (h : s.Inv) (hx : clusterStep x s = some s') :
    s'.Inv := by
  cases x with
  | create k new topic answer =>
      simp only [clusterStep] at hx
      split at hx
      · rename_i hcond
        obtain ⟨hnew, hnone, hhas⟩ := hcond
        obtain rfl := Option.some.inj hx
        refine ⟨fun {l x o} ho => ?_, fun {l x} hwon => ?_, fun hc => add_known hnone h hc,
          fun {l x} hc => ?_⟩
        · rw [tell_outcome] at ho
          split at ho
          · rename_i heq
            obtain ⟨rfl, rfl⟩ := heq
            exact ⟨new, hnew, rfl⟩
          · exact h.asked ho
        · rw [tell_outcome] at hwon
          split at hwon
          · rename_i heq
            obtain ⟨rfl, rfl⟩ := heq
            refine ⟨Function.update_self .., new, hnew, rfl, topic, Function.update_self .., hhas⟩
          · exact add_won hnone h hwon
        · rw [tell_outcome]
          split
          · simp
          · rename_i hne
            have hc' : (s.add new.topic topic (.session k)).creator x = some (.session l) := hc
            rcases add_creator_cases hc' with ⟨hname, hl⟩ | hold
            · exact absurd ⟨Creator.session.inj hl, hname⟩ hne
            · exact h.told hold
      · cases hx
  | refuse k new code =>
      simp only [clusterStep] at hx
      split at hx
      · rename_i hcond
        obtain rfl := Option.some.inj hx
        refine ⟨fun {l x o} ho => ?_, fun {l x} hwon => ?_, fun hc => h.known hc,
          fun {l x} hc => ?_⟩
        · rw [tell_outcome] at ho
          split at ho
          · rename_i heq
            obtain ⟨rfl, rfl⟩ := heq
            exact ⟨new, hcond.1, rfl⟩
          · exact h.asked ho
        · rw [tell_outcome] at hwon
          split at hwon
          · cases hwon
          · exact h.won hwon
        · rw [tell_outcome]
          split
          · simp
          · exact h.told hc
      · cases hx
  | other name topic =>
      simp only [clusterStep] at hx
      split at hx
      · rename_i hnone
        obtain rfl := Option.some.inj hx
        refine ⟨fun ho => h.asked ho, fun hwon => add_won hnone h hwon,
          fun hc => add_known hnone h hc, fun {l x} hc => ?_⟩
        rcases add_creator_cases hc with ⟨-, hl⟩ | hold
        · cases hl
        · exact h.told hold
      · cases hx

theorem tell_rely {o : Except (Option ℤ) Unit} {new : NewTopic} (hnew : new ∈ s.requested j)
    (hold : ∀ o', s.outcome j new.topic = some o' → o = o') :
    Rely i s (s.tell j new.topic o) := by
  refine ⟨id, rfl, fun {x} hsettled => ?_⟩
  rw [tell_outcome]
  split
  · rename_i heq
    obtain ⟨rfl, rfl⟩ := heq
    cases ho : s.outcome i new.topic with
    | none => exact absurd rfl (hsettled ho new hnew)
    | some o' => rw [hold o' ho]
  · rfl

theorem clusterStep_rely {x : ClusterStep} (hx : clusterStep x s = some s') : Rely i s s' := by
  cases x with
  | create k new topic answer =>
      simp only [clusterStep] at hx
      split at hx
      · rename_i hcond
        obtain rfl := Option.some.inj hx
        refine (add_rely hcond.2.1).trans (tell_rely hcond.1 fun o' ho' => ?_)
        show (s.outcome k new.topic).getD answer = o'
        rw [show s.outcome k new.topic = some o' from ho']
        rfl
      · cases hx
  | refuse k new code =>
      simp only [clusterStep] at hx
      split at hx
      · rename_i hcond
        obtain rfl := Option.some.inj hx
        refine tell_rely hcond.1 fun o' ho' => ?_
        rw [hcond.2.1] at ho'
        cases ho'
      · cases hx
  | other name topic =>
      simp only [clusterStep] at hx
      split at hx
      · rename_i hnone
        obtain rfl := Option.some.inj hx
        exact add_rely hnone
      · cases hx

/-! ### Commands -/

theorem adminExec_cases {c : AdminCommand} {e : AdminEnv} {v : Except AdminRaise (AdminReply c)}
    (hx : adminExec i e c s = some (v, s')) :
    s' = s ∨ ∃ new, c = .createTopics new ∧
      s' = { s with requested := Function.update s.requested i (s.requested i ++ new) } := by
  cases c with
  | adminClient servers =>
      obtain ⟨-, rfl⟩ := Prod.mk.inj (Option.some.inj hx)
      exact Or.inl rfl
  | listTopics =>
      obtain ⟨-, rfl⟩ := Prod.mk.inj (Option.some.inj hx)
      exact Or.inl rfl
  | createTopics new =>
      obtain ⟨-, rfl⟩ := Prod.mk.inj (Option.some.inj hx)
      exact Or.inr ⟨new, rfl, rfl⟩
  | result name =>
      simp only [adminExec] at hx
      split at hx
      · cases hx
      · exact Or.inl (Prod.mk.inj (Option.some.inj hx)).2.symm
      · exact Or.inl (Prod.mk.inj (Option.some.inj hx)).2.symm
      · exact Or.inl (Prod.mk.inj (Option.some.inj hx)).2.symm
      · cases hx

/-- The answer of a future is the broker's. -/
theorem result_ok {e : AdminEnv} {u : Unit}
    (hx : adminExec i e (.result name) s = some (.ok u, s')) :
    s.outcome i name = some (.ok ()) := by
  simp only [adminExec] at hx
  split at hx
  · cases hx
  · cases (Prod.mk.inj (Option.some.inj hx)).1
  · assumption
  · cases (Prod.mk.inj (Option.some.inj hx)).1
  · cases hx

theorem result_kafka {e : AdminEnv} {code : Option ℤ}
    (hx : adminExec i e (.result name) s = some (.error (.kafka code), s')) :
    s.outcome i name = some (.error code) := by
  simp only [adminExec] at hx
  split at hx
  · cases hx
  · rename_i x hnot hfailure
    obtain rfl := Except.error.inj (Prod.mk.inj (Option.some.inj hx)).1
    exact absurd rfl (hnot code)
  · cases (Prod.mk.inj (Option.some.inj hx)).1
  · rename_i houtcome
    obtain rfl := AdminRaise.kafka.inj (Except.error.inj (Prod.mk.inj (Option.some.inj hx)).1)
    exact houtcome
  · cases hx

end

/-! ## The discipline -/

/-- Nothing asked for, and nothing told. -/
def Untold (i : Nat) (s : Cluster) : Prop :=
  s.requested i = [] ∧ ∀ name, s.outcome i name = none

theorem Rely.untold {i : Nat} {s s' : Cluster} (h : Rely i s s') (hs : Untold i s) :
    Untold i s' := by
  refine ⟨h.requested.trans hs.1, fun name => (h.outcome fun _ => ?_).trans (hs.2 name)⟩
  rw [hs.1]
  simp

/-- What a process that has returned `created` has brought about. -/
structure Ensured (r : EnsureRequest) (i : Nat) (created : List String) (s : Cluster) : Prop where
  topics : ∀ name ∈ r.topics, Held r.topology name s
  sublist : created.Sublist r.topics
  settled : ∀ new ∈ s.requested i, s.outcome i new.topic ≠ none
  created : ∀ name, name ∈ created ↔ s.outcome i name = some (.ok ())

theorem Rely.ensured {r : EnsureRequest} {i : Nat} {created : List String} {s s' : Cluster}
    (h : Rely i s s') (hs : Ensured r i created s) : Ensured r i created s' := by
  have hsame : ∀ name, s'.outcome i name = s.outcome i name := by
    intro name
    refine h.outcome fun hnone new hnew heq => hs.settled new hnew ?_
    rw [heq]
    exact hnone
  refine ⟨fun name hname => h.held (hs.topics name hname), hs.sublist, fun new hnew => ?_,
    fun name => ?_⟩
  · rw [h.requested] at hnew
    rw [hsame]
    exact hs.settled new hnew
  · rw [hsame]
    exact hs.created name

/-- The metadata does not show a topic that is not there, or not as it is. -/
def discipline : Discipline Cluster AdminCommand AdminEnv ClusterStep EnsureRequest AdminRaise
    (List String) where
  inv := Cluster.Inv
  rely := Rely
  fresh := Untold
  pre _ i c s := match c with
    | .createTopics _ => Untold i s
    | _ => True
  allow _ _ c e s := match c with
    | .listTopics => ∀ known, e.metadata.topics = some known → Truthful known s
    | _ => True
  allowExt _ _ := True
  post := Ensured
  xpost _ _ _ _ := True

section

variable {i j : Nat} {s s' : Cluster} {r : EnsureRequest} {topology : TopicTopology}

theorem request_mono {new : List NewTopic} {n : NewTopic} (h : n ∈ s.requested j) :
    n ∈ Function.update s.requested i (s.requested i ++ new) j := by
  by_cases hj : j = i
  · subst hj
    rw [Function.update_self]
    exact List.mem_append_left _ h
  · rw [Function.update_of_ne hj]
    exact h

theorem adminExec_inv {c : AdminCommand} {e : AdminEnv} {v : Except AdminRaise (AdminReply c)}
    (h : s.Inv) (hx : adminExec i e c s = some (v, s')) :
    s'.Inv ∧ ∀ j, j ≠ i → Rely j s s' := by
  rcases adminExec_cases hx with rfl | ⟨new, rfl, rfl⟩
  · exact ⟨h, fun j _ => .refl j _⟩
  · refine ⟨⟨fun {k x o} ho => ?_, fun {k x} hwon => ?_, h.known, h.told⟩, fun j hj => ?_⟩
    · obtain ⟨n, hn, hname⟩ := h.asked ho
      exact ⟨n, request_mono hn, hname⟩
    · obtain ⟨hcreator, n, hn, hname, hheld⟩ := h.won hwon
      exact ⟨hcreator, n, request_mono hn, hname, hheld⟩
    · exact ⟨id, Function.update_of_ne hj .., fun _ => rfl⟩

/-! ## One process -/

/-- A command that asks for nothing, between two moves of the others. -/
theorem quiet_wp {c : AdminCommand} (hc : ∀ new, c ≠ .createTopics new)
    {Q : AdminReply c → Cluster → Prop} {X : AdminRaise → Cluster → Prop}
    (h : ∀ s' e a, Rely i s s' → s'.Inv → discipline.allow r i c e s' →
      adminExec i e c s' = some (.ok a, s') → Q a s')
    (hX : ∀ s' e x, Rely i s s' → adminExec i e c s' = some (.error x, s') → X x s') :
    (discipline.proto r).wp adminExec i (Prog.cmd c) Q X s := by
  refine Proto.wp_cmd.mpr fun s' hr hi => ⟨?_, fun e v s'' ha hx _ => ?_⟩
  · cases c with
    | createTopics new => exact absurd rfl (hc new)
    | _ => trivial
  · rcases adminExec_cases hx with rfl | ⟨new, hnew, -⟩
    · refine ⟨?_, ?_⟩
      · rintro a rfl
        exact h _ e a hr hi ha hx
      · rintro x rfl
        exact hX _ e x hr hx
    · exact absurd hnew (hc new)

theorem orRaise_wp {α : Type} {v : Except AdminRaise α} {Q : α → Cluster → Prop}
    (h : ∀ a, v = .ok a → Q a s) :
    (discipline.proto r).wp adminExec i (orRaise v) Q (fun _ _ => True) s := by
  cases v with
  | ok a => exact h a rfl
  | error e => trivial

theorem readMetadata_wp {Q : ClusterMetadata → Cluster → Prop}
    (h : ∀ s' metadata, Rely i s s' →
      (∀ known, metadata.topics = some known → Truthful known s') → Q metadata s') :
    (discipline.proto r).wp adminExec i readMetadata Q (fun _ _ => True) s := by
  refine Proto.wp_tryCatch.mpr (quiet_wp (fun _ h => by cases h) (fun s' e a hr _ ha hx => ?_)
    fun s' e x _ _ => ?_)
  · have hreply : a = e.metadata := by
      have hanswer := (Prod.mk.inj (Option.some.inj hx)).1
      unfold answer at hanswer
      split at hanswer
      · cases hanswer
      · exact (Except.ok.inj hanswer).symm
    rw [hreply]
    exact h s' _ hr ha
  · cases x with
    | _ => trivial

theorem metadataTopics_ok {metadata : ClusterMetadata} {known : String → Option TopicMetadata}
    (h : metadataTopics metadata = .ok known) : metadata.topics = some known := by
  unfold metadataTopics at h
  split at h
  · rename_i topics htopics
    rw [htopics, Except.ok.inj h]
  · cases h

/-- What has been settled of the creations of `names`. -/
structure Awaited (topology : TopicTopology) (i : Nat) (names created raced : List String)
    (s : Cluster) : Prop where
  won : ∀ name ∈ created, s.outcome i name = some (.ok ()) ∧ Held topology name s
  lost : ∀ name ∈ raced, s.outcome i name = some (.error (some TOPIC_ALREADY_EXISTS))
  all : ∀ name ∈ names, name ∈ created ∨ name ∈ raced
  sublist : created.Sublist names

/-- What was asked for; nothing else has been answered. -/
def Asked (topology : TopicTopology) (i : Nat) (missing : List String) (s : Cluster) : Prop :=
  s.requested i = missing.map (fun name => ⟨name, topology⟩) ∧
    ∀ name, name ∉ missing → s.outcome i name = none

theorem Asked.rely {missing : List String} (h : Rely i s s') (hs : Asked topology i missing s) :
    Asked topology i missing s' := by
  refine ⟨h.requested.trans hs.1, fun name hname => (h.outcome fun _ => ?_).trans (hs.2 name hname)⟩
  rw [hs.1]
  rintro new hnew rfl
  obtain ⟨x, hx, rfl⟩ := List.mem_map.mp hnew
  exact hname hx

theorem Awaited.rely {names created raced : List String} (h : Rely i s s')
    (hs : Awaited topology i names created raced s) : Awaited topology i names created raced s' :=
  ⟨fun name hname => ⟨h.answered (hs.won name hname).1, h.held (hs.won name hname).2⟩,
    fun name hname => h.answered (hs.lost name hname), hs.all, hs.sublist⟩

theorem awaitCreation_wp {futures missing : List String} {name : String}
    (hs : Asked topology i missing s) {Q : Bool → Cluster → Prop}
    (h : ∀ s', Rely i s s' → ∀ won : Bool,
      (if won then s'.outcome i name = some (.ok ()) ∧ Held topology name s'
        else s'.outcome i name = some (.error (some TOPIC_ALREADY_EXISTS))) → Q won s') :
    (discipline.proto r).wp adminExec i (awaitCreation futures name) Q (fun _ _ => True) s := by
  unfold awaitCreation
  split
  · refine Proto.wp_tryCatch.mpr (Proto.wp_seq (quiet_wp (fun _ h => by cases h)
      (fun s' e u hr hi _ hx => ?_) fun s' e x hr hx => ?_))
    · have hok := result_ok hx
      obtain ⟨-, new, hnew, hname, hheld⟩ := hi.won hok
      rw [hr.requested, hs.1] at hnew
      obtain ⟨x, -, rfl⟩ := List.mem_map.mp hnew
      exact h s' hr true ⟨hok, hheld⟩
    · cases x with
      | kafka code =>
          dsimp only
          split
          · rename_i hcode
            subst hcode
            exact h s' hr false (result_kafka hx)
          · trivial
      | _ => trivial
  · trivial

theorem awaitCreations_wp {futures missing names : List String}
    (hs : Asked topology i missing s) {Q : List String × List String → Cluster → Prop}
    (h : ∀ s', Rely i s s' → ∀ created raced, Awaited topology i names created raced s' →
      Q (created, raced) s') :
    (discipline.proto r).wp adminExec i (awaitCreations futures names) Q (fun _ _ => True) s := by
  induction names generalizing s Q with
  | nil =>
      exact h s (.refl i s) [] [] ⟨by simp, by simp, by simp, .slnil⟩
  | cons name names ih =>
      refine Proto.wp_seq (awaitCreation_wp hs fun s₁ hr₁ won hwon => ?_)
      refine Proto.wp_seq (ih (hs.rely hr₁) fun s₂ hr₂ created raced haw => ?_)
      have hname : Awaited topology i (name :: names)
          (if won then name :: created else created) (if won then raced else name :: raced) s₂ := by
        cases won with
        | true =>
            obtain ⟨hok, hheld⟩ := hwon
            exact ⟨List.forall_mem_cons.mpr ⟨⟨hr₂.answered hok, hr₂.held hheld⟩, haw.won⟩, haw.lost,
              List.forall_mem_cons.mpr ⟨Or.inl (List.mem_cons_self ..), fun x hx =>
                (haw.all x hx).imp_left (List.mem_cons_of_mem name)⟩, haw.sublist.cons_cons name⟩
        | false =>
            exact ⟨haw.won, List.forall_mem_cons.mpr ⟨hr₂.answered hwon, haw.lost⟩,
              List.forall_mem_cons.mpr ⟨Or.inr (List.mem_cons_self ..), fun x hx =>
                (haw.all x hx).imp_right (List.mem_cons_of_mem name)⟩, haw.sublist.cons name⟩
      have hdone := h s₂ (hr₁.trans hr₂) _ _ hname
      cases won with
      | true => exact hdone
      | false => exact hdone

/-- The end of a process that has settled all of its creations. -/
theorem ensured_of_awaited {missing created raced : List String}
    (hsub : missing.Sublist r.topics)
    (hfound : ∀ name ∈ r.topics, name ∈ missing ∨ Held r.topology name s)
    (hasked : Asked r.topology i missing s) (haw : Awaited r.topology i missing created raced s)
    (hraced : ∀ name ∈ raced, Held r.topology name s) : Ensured r i created s := by
  refine ⟨fun name hname => ?_, haw.sublist.trans hsub, fun new hnew => ?_, fun name =>
    ⟨fun h => ?_, fun h => ?_⟩⟩
  · rcases hfound name hname with hmissing | hheld
    · rcases haw.all name hmissing with hcreated | hlost
      · exact (haw.won name hcreated).2
      · exact hraced name hlost
    · exact hheld
  · rw [hasked.1] at hnew
    obtain ⟨name, hname, rfl⟩ := List.mem_map.mp hnew
    rcases haw.all name hname with hcreated | hlost
    · rw [(haw.won name hcreated).1]
      simp
    · rw [haw.lost name hlost]
      simp
  · exact (haw.won name h).1
  · by_cases hmissing : name ∈ missing
    · refine (haw.all name hmissing).resolve_right fun hlost => ?_
      rw [haw.lost name hlost] at h
      cases h
    · rw [hasked.2 name hmissing] at h
      cases h

theorem createTopics_wp {missing : List String} {Q : List String → Cluster → Prop}
    (hs : Untold i s) (h : ∀ s' futures, Asked topology i missing s' →
      (∀ name t, s.topics name = some t → s'.topics name = some t) → Q futures s') :
    (discipline.proto r).wp adminExec i
      ((createTopics (missing.map fun name => ⟨name, topology⟩)).tryCatch fun
        | .kafka _ => .raise (.provisioning .notRequested)
        | .timeout => .raise (.provisioning .requestTimeout)
        | e => .raise e) Q (fun _ _ => True) s := by
  refine Proto.wp_tryCatch.mpr (Proto.wp_cmd.mpr fun s' hr _ => ⟨hr.untold hs,
    fun e v s'' _ hx _ => ?_⟩)
  obtain ⟨rfl, rfl⟩ := Prod.mk.inj (Option.some.inj hx)
  obtain ⟨hrequested, houtcome⟩ := hr.untold hs
  refine ⟨fun futures _ => ?_, fun x _ => ?_⟩
  · refine h _ futures ⟨?_, fun name _ => houtcome name⟩ fun name t ht => hr.topics ht
    show Function.update s'.requested i _ i = _
    rw [Function.update_self, hrequested, List.nil_append]
  · cases x with
    | _ => trivial

theorem ensureTopics_wp (hs : Untold i s) :
    (discipline.proto r).wp adminExec i (ensureTopics r) (Ensured r i) (fun _ _ => True) s := by
  refine Proto.wp_seq (orRaise_wp fun names hnames => ?_)
  obtain rfl : r.topics = names := by
    unfold validatedTopicNames at hnames
    split at hnames
    · cases hnames
    · split at hnames
      · cases hnames
      · exact Except.ok.inj hnames
  refine Proto.wp_seq (Proto.wp_tryCatch.mpr (quiet_wp (fun _ h => by cases h)
    (fun s₁ _ _ hr₁ _ _ _ => ?_) fun _ _ x _ _ => by cases x <;> trivial))
  refine Proto.wp_seq (readMetadata_wp fun s₂ metadata hr₂ htruth => ?_)
  refine Proto.wp_seq (orRaise_wp fun known hknown => ?_)
  refine Proto.wp_seq (orRaise_wp fun missing hmissing => ?_)
  have huntold := hr₂.untold (hr₁.untold hs)
  obtain ⟨hsub, hfound⟩ := findMissing_ok (htruth known (metadataTopics_ok hknown)) hmissing
  split
  · rename_i hnone
    subst hnone
    refine ⟨fun name hname => (hfound name hname).resolve_left (by simp), List.nil_sublist _,
      fun new hnew => ?_, fun name => ?_⟩
    · rw [huntold.1] at hnew
      cases hnew
    · rw [huntold.2 name]
      simp
  refine Proto.wp_seq (createTopics_wp huntold fun s₃ futures hasked hkept => ?_)
  refine Proto.wp_seq (awaitCreations_wp hasked fun s₄ hr₄ created raced haw => ?_)
  have hfound₄ : ∀ name ∈ r.topics, name ∈ missing ∨ Held r.topology name s₄ := by
    intro name hname
    refine (hfound name hname).imp_right ?_
    rintro ⟨topic, htopic, hhas⟩
    exact ⟨topic, hr₄.topics (hkept name topic htopic), hhas⟩
  have hasked₄ := hasked.rely hr₄
  dsimp only
  split
  · rename_i hnone
    subst hnone
    exact ensured_of_awaited hsub hfound₄ hasked₄ haw (by simp)
  refine Proto.wp_seq (readMetadata_wp fun s₅ refreshed hr₅ htruth₅ => ?_)
  refine Proto.wp_seq (orRaise_wp fun refreshedTopics hrefreshed => ?_)
  refine Proto.wp_seq (orRaise_wp fun _ hverified => ?_)
  have hraced := verifyRaced_ok (htruth₅ _ (metadataTopics_ok hrefreshed)) hverified
  exact ensured_of_awaited hsub (fun name hname => (hfound₄ name hname).imp_right hr₅.held)
    (hasked₄.rely hr₅) (haw.rely hr₅) hraced

end

/-! ## Any number of processes -/

theorem provisioning_sound : discipline.Sound provisioning where
  rely_refl := Rely.refl
  rely_trans := Rely.trans
  fresh_rely := Rely.untold
  post_rely := Rely.ensured
  xpost_rely _ _ := trivial
  exec hi _ _ hx := adminExec_inv hi hx
  crash hi := ⟨hi, fun j _ => .refl j _⟩
  ext hi _ hx := ⟨clusterStep_inv hi hx, fun _ => clusterStep_rely hx⟩
  spawn _ hfresh := ensureTopics_wp hfresh

/-- A cluster on which nobody has provisioned yet. -/
structure Cluster.Blank (s : Cluster) : Prop where
  creator : ∀ name, s.creator name = none
  untold : ∀ i, Untold i s

theorem Cluster.Blank.inv {s : Cluster} (h : s.Blank) : s.Inv := by
  refine ⟨fun {i name o} ho => ?_, fun {i name} hwon => ?_, fun {name} hc => ?_,
    fun {i name} hc => ?_⟩
  · rw [(h.untold i).2 name] at ho
    cases ho
  · rw [(h.untold i).2 name] at hwon
    cases hwon
  · exact absurd (h.creator name) hc
  · rw [h.creator name] at hc
    cases hc

abbrev ProvisioningWorld := World Cluster AdminCommand EnsureRequest AdminRaise (List String)
    AdminReply

/-- The worlds that provisioning reaches from a cluster. -/
def Provisions (s₀ : Cluster) (w : ProvisioningWorld) : Prop :=
  provisioning.Reach discipline.Allows ⟨s₀, []⟩ w

/-- The topics from before are as they were, and all others have been created since. -/
structure Grown (s₀ s : Cluster) : Prop where
  kept : ∀ {name topic}, s₀.topics name = some topic →
    s.topics name = some topic ∧ s.creator name = none
  added : ∀ {name}, s.topics name ≠ none → s₀.topics name ≠ none ∨ s.creator name ≠ none

section

variable {s₀ s s' : Cluster} {w : ProvisioningWorld} {i j : Nat} {r r' : EnsureRequest}
  {created created' : List String}

theorem add_grown {name : String} {topic : Topic} {creator : Creator} (hnone : s.topics name = none)
    (h : Grown s₀ s) : Grown s₀ (s.add name topic creator) := by
  refine ⟨fun {x t} hx => ?_, fun {x} hx => ?_⟩
  · obtain ⟨hkept, huncreated⟩ := h.kept hx
    have hthere : s.topics x ≠ none := by simp [hkept]
    refine ⟨(add_topics hnone hthere).trans hkept, ?_⟩
    exact (Function.update_of_ne (ne_of_topic hnone hthere) ..).trans huncreated
  · by_cases hname : x = name
    · subst hname
      exact Or.inr (by simp [Cluster.add])
    · have hthere : s.topics x ≠ none := by simpa [Cluster.add, hname] using hx
      refine (h.added hthere).imp_right fun hcreator => ?_
      rwa [show (s.add name topic creator).creator x = s.creator x from
        Function.update_of_ne hname ..]

theorem clusterStep_grown {x : ClusterStep} (hx : clusterStep x s = some s') (h : Grown s₀ s) :
    Grown s₀ s' := by
  cases x with
  | create k new topic answer =>
      simp only [clusterStep] at hx
      split at hx
      · rename_i hcond
        obtain rfl := Option.some.inj hx
        have hgrown : Grown s₀ (s.add new.topic topic (.session k)) := add_grown hcond.2.1 h
        exact ⟨hgrown.kept, hgrown.added⟩
      · cases hx
  | refuse k new code =>
      simp only [clusterStep] at hx
      split at hx
      · obtain rfl := Option.some.inj hx
        exact ⟨h.kept, h.added⟩
      · cases hx
  | other name topic =>
      simp only [clusterStep] at hx
      split at hx
      · rename_i hnone
        obtain rfl := Option.some.inj hx
        exact add_grown hnone h
      · cases hx

theorem Provisions.ok (h₀ : s₀.Blank) (h : Provisions s₀ w) : discipline.Ok provisioning w :=
  provisioning_sound.ok_of_reach (Discipline.ok_idle h₀.inv h₀.untold) h

theorem Provisions.grown (h₀ : s₀.Blank) (h : Provisions s₀ w) : Grown s₀ w.shared := by
  refine provisioning_sound.always (fun {r i c e v s s'} _ _ _ hx hJ => ?_) (fun _ hJ => hJ)
    (fun _ _ hx hJ => clusterStep_grown hx hJ) (Discipline.ok_idle h₀.inv h₀.untold)
    ⟨fun {name topic} ht => ⟨ht, h₀.creator name⟩, fun h => Or.inl h⟩ h
  rcases adminExec_cases hx with rfl | ⟨new, -, rfl⟩
  · exact hJ
  · exact ⟨hJ.kept, hJ.added⟩

theorem Provisions.ensured (h₀ : s₀.Blank) (h : Provisions s₀ w)
    (hi : w.sessions[i]? = some ⟨r, some (.ret created)⟩) : Ensured r i created w.shared :=
  (h.ok h₀).returned hi

/-- A topic reported as created was created by this session. -/
theorem Provisions.creator (h₀ : s₀.Blank) (h : Provisions s₀ w)
    (hi : w.sessions[i]? = some ⟨r, some (.ret created)⟩) {name : String} (hname : name ∈ created) :
    w.shared.creator name = some (.session i) :=
  ((h.ok h₀).inv.won (((h.ensured h₀ hi).created name).mp hname)).1

/-- However many processes provision at once, crash, time out and race with other clients: one that
returns has every topic it asked for, with its topology, from then on. What it reports as created
was not there at the start, and what was there is as it was. -/
theorem topics_ensured (h₀ : s₀.Blank) (h : Provisions s₀ w)
    (hi : w.sessions[i]? = some ⟨r, some (.ret created)⟩) :
    (∀ name ∈ r.topics, ∃ topic, w.shared.topics name = some topic ∧ topic.Has r.topology) ∧
    created.Sublist r.topics ∧ (∀ name ∈ created, s₀.topics name = none) ∧
    ∀ name topic, s₀.topics name = some topic → w.shared.topics name = some topic := by
  have hensured := h.ensured h₀ hi
  have hgrown := h.grown h₀
  refine ⟨hensured.topics, hensured.sublist, fun name hname => ?_, fun name topic ht =>
    (hgrown.kept ht).1⟩
  cases ht : s₀.topics name with
  | none => rfl
  | some topic =>
      have huncreated := (hgrown.kept ht).2
      rw [h.creator h₀ hi hname] at huncreated
      cases huncreated

/-- Two processes that both return want the same topology of a topic they share. -/
theorem topologies_agree (h₀ : s₀.Blank) (h : Provisions s₀ w)
    (hi : w.sessions[i]? = some ⟨r, some (.ret created)⟩)
    (hj : w.sessions[j]? = some ⟨r', some (.ret created')⟩) {name : String}
    (hname : name ∈ r.topics) (hname' : name ∈ r'.topics) : r.topology = r'.topology := by
  obtain ⟨topic, htopic, hlength, hreplicas⟩ := (h.ensured h₀ hi).topics name hname
  obtain ⟨topic', htopic', hlength', hreplicas'⟩ := (h.ensured h₀ hj).topics name hname'
  obtain rfl := Option.some.inj (htopic.symm.trans htopic')
  have hpartitions := hlength.symm.trans hlength'
  have hpos := hlength ▸ r.topology.partitions_pos
  obtain ⟨partition, hpartition⟩ := List.exists_mem_of_length_pos hpos
  have hreplication := (hreplicas partition hpartition).symm.trans (hreplicas' partition hpartition)
  cases hr : r.topology with
  | mk p n hp hn =>
      cases hr' : r'.topology with
      | mk p' n' hp' hn' =>
          rw [hr, hr'] at hpartitions hreplication
          obtain rfl : p = p' := hpartitions
          obtain rfl : n = n' := hreplication
          rfl

/-- No topic is reported as created twice. And where the broker confirms all that it creates and
every process returns, each new topic is reported, unless another client made it. -/
theorem created_once (h₀ : s₀.Blank) (h : Provisions s₀ w) :
    (∀ (i j : Nat) (r r' : EnsureRequest) (created created' : List String),
      w.sessions[i]? = some ⟨r, some (.ret created)⟩ →
        w.sessions[j]? = some ⟨r', some (.ret created')⟩ →
        i ≠ j → ∀ name ∈ created, name ∉ created') ∧
    ((∀ session ∈ w.sessions, ∃ created, session.prog = some (.ret created)) →
      (∀ i name, w.shared.creator name = some (.session i) →
        w.shared.outcome i name = some (.ok ())) →
      ∀ name, s₀.topics name = none → w.shared.topics name ≠ none →
        w.shared.creator name = some .client ∨
          ∃ (i : Nat) (r : EnsureRequest) (created : List String),
            w.sessions[i]? = some ⟨r, some (.ret created)⟩ ∧ name ∈ created) := by
  refine ⟨fun i j r r' created created' hi hj hij name hname hname' => ?_,
    fun hall hconfirmed name hnew hthere => ?_⟩
  · have hcreators := (h.creator h₀ hi hname).symm.trans (h.creator h₀ hj hname')
    exact hij (Creator.session.inj (Option.some.inj hcreators))
  · have hcreated := ((h.grown h₀).added hthere).resolve_left (not_not.mpr hnew)
    cases hcreator : w.shared.creator name with
    | none => exact absurd hcreator hcreated
    | some creator =>
        cases creator with
        | client => exact Or.inl rfl
        | session i =>
            right
            have hok := hconfirmed i name hcreator
            cases hi : w.sessions[i]? with
            | none =>
                have hlength := List.getElem?_eq_none_iff.mp hi
                have huntold := (h.ok h₀).fresh i hlength
                rw [huntold.2 name] at hok
                cases hok
            | some session =>
                obtain ⟨r, q⟩ := session
                obtain ⟨created, rfl⟩ := hall _ (List.mem_of_getElem? hi)
                exact ⟨i, r, created, hi, ((h.ensured h₀ hi).created name).mpr hok⟩

end

/-! ### A race -/

def blank : Cluster := ⟨fun _ => none, fun _ => none, fun _ => [], fun _ _ => none⟩

theorem blank_blank : blank.Blank := ⟨fun _ => rfl, fun _ => ⟨rfl, fun _ => rfl⟩⟩

def single : TopicTopology := ⟨1, 1, Nat.one_pos, Nat.one_pos⟩

def eventsRequest : EnsureRequest := ⟨"kafka:9092", ["events"], single⟩

def eventsTopic : Topic := ⟨[(0, [1])]⟩

/-- The network when the metadata shows no topic yet. -/
def early : AdminEnv := ⟨none, ⟨some fun _ => none⟩, ["events"]⟩

/-- The network when it shows the new one. -/
def late : AdminEnv :=
  ⟨none, ⟨some fun name => if name = "events" then
    some ⟨none, some [(0, ⟨none, some [1]⟩)]⟩ else none⟩, []⟩

theorem early_allowed {l : Label AdminEnv ClusterStep EnsureRequest} {w : ProvisioningWorld}
    (h : ∀ i e, l = .run i e → e = early) : discipline.Allows l w := by
  cases l with
  | run i e =>
      obtain rfl := h i e rfl
      intro r c k _
      cases c with
      | listTopics =>
          rintro known ⟨⟩ name metadata hknown
          cases hknown
      | _ => trivial
  | ext x => trivial
  | _ => trivial

/-- Two processes look, both create, and the broker serves the first. -/
def raceMoves : List (Label AdminEnv ClusterStep EnsureRequest) :=
  [.spawn eventsRequest, .spawn eventsRequest, .run 0 early, .run 1 early, .run 0 early,
    .run 1 early, .run 0 early, .run 1 early,
    .ext (.create 0 ⟨"events", single⟩ eventsTopic (.ok ())),
    .ext (.refuse 1 ⟨"events", single⟩ (some TOPIC_ALREADY_EXISTS)), .run 1 early]

theorem late_allowed {i : Nat} {w : ProvisioningWorld}
    (h : w.shared.topics "events" = some eventsTopic) :
    discipline.Allows (.run i late : Label AdminEnv ClusterStep EnsureRequest) w := by
  intro r c k _
  cases c with
  | listTopics =>
      rintro known ⟨⟩ name metadata hknown
      dsimp only at hknown
      split at hknown
      · rename_i hname
        subst hname
        obtain rfl := Option.some.inj hknown
        refine ⟨eventsTopic, h, fun _ partitions hpartitions _ => ?_⟩
        obtain rfl := Option.some.inj hpartitions
        rfl
      · cases hknown
  | _ => trivial

/-- Both return; one of them has created the topic. -/
theorem race : ∃ w, Provisions blank w ∧
    w.sessions = [⟨eventsRequest, some (.ret ["events"])⟩, ⟨eventsRequest, some (.ret [])⟩] ∧
    w.shared.topics "events" = some eventsTopic ∧
    w.shared.outcome 0 "events" = some (.ok ()) ∧
    w.shared.creator = Function.update (fun _ => none) "events" (some (.session 0)) := by
  obtain ⟨w, w', w'', hrun, htopic, hlate, hlast, hfinal⟩ :
      ∃ w w' w'', provisioning.run ⟨blank, []⟩ raceMoves = some w ∧
        w.shared.topics "events" = some eventsTopic ∧
        provisioning.step (.run 1 late) w = some w' ∧
        provisioning.run w' [.run 0 early] = some w'' ∧
        w''.sessions =
          [⟨eventsRequest, some (.ret ["events"])⟩, ⟨eventsRequest, some (.ret [])⟩] ∧
        w''.shared.topics "events" = some eventsTopic ∧
        w''.shared.outcome 0 "events" = some (.ok ()) ∧
        w''.shared.creator = Function.update (fun _ => none) "events" (some (.session 0)) :=
    ⟨_, _, _, rfl, rfl, rfl, rfl, rfl, rfl, rfl, rfl⟩
  have hearly : ∀ l ∈ raceMoves ++ [.run 0 early], ∀ w : ProvisioningWorld,
      discipline.Allows l w := by
    intro l hl w
    refine early_allowed fun i e he => ?_
    subst he
    by_contra hne
    simp [raceMoves, hne] at hl
  have hfirst := System.reach_of_run (fun l hl => hearly l (List.mem_append_left _ hl)) .refl hrun
  have hsecond := hfirst.step (late_allowed htopic) hlate
  have hthird := System.reach_of_run (fun l hl => hearly l (List.mem_append_right _ hl)) hsecond
    hlast
  exact ⟨w'', hthird, hfinal⟩

theorem race_ensured : ∃ w, Provisions blank w ∧
    w.sessions[1]? = some ⟨eventsRequest, some (.ret [])⟩ ∧
    ∀ name ∈ eventsRequest.topics, ∃ topic,
      w.shared.topics name = some topic ∧ topic.Has eventsRequest.topology := by
  obtain ⟨w, hw, hsessions, -⟩ := race
  have hi : w.sessions[1]? = some ⟨eventsRequest, some (.ret [])⟩ := by rw [hsessions]; rfl
  exact ⟨w, hw, hi, (topics_ensured blank_blank hw hi).1⟩

theorem race_created_once : ∃ w, Provisions blank w ∧
    w.sessions = [⟨eventsRequest, some (.ret ["events"])⟩, ⟨eventsRequest, some (.ret [])⟩] ∧
    (w.shared.creator "events" = some .client ∨
      ∃ (i : Nat) (r : EnsureRequest) (created : List String),
        w.sessions[i]? = some ⟨r, some (.ret created)⟩ ∧ "events" ∈ created) := by
  obtain ⟨w, hw, hsessions, htopic, houtcome, hcreator⟩ := race
  refine ⟨w, hw, hsessions, (created_once blank_blank hw).2 (fun session hsession => ?_)
    (fun i name hname => ?_) "events" rfl (by rw [htopic]; simp)⟩
  · rw [hsessions] at hsession
    rcases List.mem_cons.mp hsession with rfl | hsession
    · exact ⟨_, rfl⟩
    · obtain rfl := List.mem_singleton.mp hsession
      exact ⟨_, rfl⟩
  · rw [hcreator] at hname
    by_cases hevents : name = "events"
    · subst hevents
      rw [Function.update_self] at hname
      obtain rfl := Creator.session.inj (Option.some.inj hname)
      exact houtcome
    · rw [Function.update_of_ne hevents] at hname
      cases hname

end Admin

end Sahabino
