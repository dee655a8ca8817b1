import Sahabino.NetworkMetrics

/-!
# Zero-window stalls

A direction of a connection stalls when one of its packets is flagged
zero-window, until its next packet that is not flagged and advertises a
window. `stallPeriods` says so packet by packet: the periods overlap, and
every flagged packet has one. The loop of `_aggregate_tcp` keeps one open
stall for each direction instead, and merges what it collected. Both cover
the same times (`Tracked.covered_close`), so the stall time of a
connection is the measure of the union of its periods.
-/

namespace Sahabino

open MeasureTheory

/-! ## The periods -/

/-- The end of a stall of the direction `key` that is open before `rest`. -/
def stallEnd (key : DirectionKey) (flowEnd : ℚ) (rest : List (PacketRecord ℚ)) : ℚ :=
  ((rest.find? fun p => p.directionKey = key && p.opensWindow).map (·.timestamp)).getD flowEnd

/-- From each packet flagged zero-window to the next packet of its direction that
opens the window, or to the end of the flow. -/
def stallPeriods (flowEnd : ℚ) : List (PacketRecord ℚ) → List (ℚ × ℚ)
  | [] => []
  | p :: rest =>
      if p.tcpZeroWindow then
        (p.timestamp, stallEnd p.directionKey flowEnd rest) :: stallPeriods flowEnd rest
      else stallPeriods flowEnd rest

/-- What is collected before `rest`, when the open stalls last as long as they will. -/
def StallState.expected (flowEnd : ℚ) (rest : List (PacketRecord ℚ)) (s : StallState) :
    List (ℚ × ℚ) :=
  s.intervals ++ s.openStalls.map fun o => (o.2, stallEnd o.1 flowEnd rest)

/-- A loop state before `rest`, in a flow between `lo` and `hi`. -/
structure Tracked (lo hi : ℚ) (rest : List (PacketRecord ℚ)) (s : StallState) : Prop where
  nodup : (s.openStalls.map Prod.fst).Nodup
  started : ∀ o ∈ s.openStalls, lo ≤ o.2 ∧ ∀ p ∈ rest, o.2 ≤ p.timestamp
  within : ∀ i ∈ s.intervals, lo ≤ i.1 ∧ i.2 ≤ hi

section Loop

variable {lo hi flowEnd : ℚ} {p : PacketRecord ℚ} {rest : List (PacketRecord ℚ)} {s : StallState}
  {key : DirectionKey}

theorem stallEnd_cons_of_not (h : ¬(p.directionKey = key ∧ p.opensWindow = true)) :
    stallEnd key flowEnd (p :: rest) = stallEnd key flowEnd rest := by
  rw [stallEnd, List.find?_cons_of_neg (by simpa using h)]
  rfl

theorem stallEnd_cons_of_opens (h : p.opensWindow = true) :
    stallEnd p.directionKey flowEnd (p :: rest) = p.timestamp := by
  rw [stallEnd, List.find?_cons_of_pos (by simp [h])]
  rfl

/-- A packet that opens no window changes no expectation. -/
theorem expected_cons_of_not (h : p.opensWindow = false) :
    s.expected flowEnd (p :: rest) = s.expected flowEnd rest := by
  unfold StallState.expected
  congr 1
  refine List.map_congr_left fun o _ => ?_
  rw [stallEnd_cons_of_not (by simp [h])]

theorem opensWindow_eq_false (h : p.tcpZeroWindow = true) : p.opensWindow = false := by
  simp [PacketRecord.opensWindow, h]

theorem opensWindow_eq (h : p.tcpZeroWindow = false) :
    p.opensWindow = p.tcpWindowSize.any (0 < ·) := by
  simp [PacketRecord.opensWindow, h]

/-- The entry of a direction, found by its key. -/
theorem find?_openStalls {o : DirectionKey × ℚ} (h : s.openStalls.find? (·.1 = key) = some o) :
    o ∈ s.openStalls ∧ o.1 = key :=
  ⟨List.mem_of_find?_eq_some h, by simpa using List.find?_some h⟩

theorem Tracked.begin (h : Tracked lo hi (p :: rest) s) (hlo : lo ≤ p.timestamp)
    (hsorted : ∀ q ∈ rest, p.timestamp ≤ q.timestamp) :
    Tracked lo hi rest (s.begin p.directionKey p.timestamp) := by
  have hstarted : ∀ o ∈ s.openStalls, lo ≤ o.2 ∧ ∀ q ∈ rest, o.2 ≤ q.timestamp :=
    fun o ho => ⟨(h.started o ho).1, fun q hq => (h.started o ho).2 q (List.mem_cons_of_mem _ hq)⟩
  rw [StallState.begin]
  split
  · exact ⟨h.nodup, hstarted, h.within⟩
  · rename_i hnew
    refine ⟨?_, fun o ho => ?_, h.within⟩
    · rw [List.map_append, List.nodup_append]
      refine ⟨h.nodup, List.nodup_singleton _, ?_⟩
      rintro a ha b hb rfl
      obtain ⟨o, ho, rfl⟩ := List.mem_map.mp ha
      rw [List.map_singleton, List.mem_singleton] at hb
      exact hnew (List.any_eq_true.mpr ⟨o, ho, decide_eq_true hb⟩)
    · rcases List.mem_append.mp ho with ho | ho
      · exact hstarted o ho
      · rw [List.mem_singleton.mp ho]
        exact ⟨hlo, hsorted⟩

theorem Tracked.finish (h : Tracked lo hi (p :: rest) s) (hhi : p.timestamp ≤ hi) :
    Tracked lo hi rest (s.finish p.directionKey p.timestamp) := by
  have hstarted : ∀ o ∈ s.openStalls, lo ≤ o.2 ∧ ∀ q ∈ rest, o.2 ≤ q.timestamp :=
    fun o ho => ⟨(h.started o ho).1, fun q hq => (h.started o ho).2 q (List.mem_cons_of_mem _ hq)⟩
  rw [StallState.finish]
  split
  · exact ⟨h.nodup, hstarted, h.within⟩
  · rename_i k started hfind
    obtain ⟨hmem, -⟩ := find?_openStalls hfind
    refine ⟨?_, fun o ho => hstarted o (List.mem_of_mem_filter ho), fun i hi => ?_⟩
    · exact h.nodup.sublist (List.filter_sublist.map _)
    · rcases List.mem_append.mp hi with hi | hi
      · exact h.within i hi
      · rw [List.mem_singleton.mp hi]
        exact ⟨(h.started _ hmem).1, hhi⟩

theorem Tracked.step (h : Tracked lo hi (p :: rest) s) (hp : lo ≤ p.timestamp ∧ p.timestamp ≤ hi)
    (hsorted : ∀ q ∈ rest, p.timestamp ≤ q.timestamp) : Tracked lo hi rest (s.step p) := by
  rw [StallState.step]
  split
  · exact h.begin hp.1 hsorted
  · split
    · exact h.finish hp.2
    · refine ⟨h.nodup, fun o ho => ⟨(h.started o ho).1, fun q hq => ?_⟩, h.within⟩
      exact (h.started o ho).2 q (List.mem_cons_of_mem _ hq)

open Intervals

section Covered

variable {β : Type} [LinearOrder β] {φ : ℚ → β}

/-- A new stall, or one inside a stall of its direction that is open already. -/
theorem covered_begin (hφ : StrictMono φ) (h : Tracked lo hi (p :: rest) s)
    (hzero : p.tcpZeroWindow = true) :
    covered φ ((s.begin p.directionKey p.timestamp).expected flowEnd rest) =
      covered φ (s.expected flowEnd (p :: rest)) ∪
        covered φ [(p.timestamp, stallEnd p.directionKey flowEnd rest)] := by
  rw [expected_cons_of_not (opensWindow_eq_false hzero), StallState.begin]
  split
  · rename_i hopen
    obtain ⟨o, ho, hkey⟩ := List.any_eq_true.mp hopen
    have hkey : o.1 = p.directionKey := of_decide_eq_true hkey
    refine (Set.union_eq_self_of_subset_right ?_).symm
    rintro x ⟨i, hi, hlo, hhi⟩
    rw [List.mem_singleton.mp hi] at hlo hhi
    refine ⟨(o.2, stallEnd o.1 flowEnd rest), ?_, ?_, ?_⟩
    · exact List.mem_append_right _ (List.mem_map.mpr ⟨o, ho, rfl⟩)
    · have hle := (h.started o ho).2 p (List.mem_cons_self ..)
      exact le_trans (hφ.monotone hle) hlo
    · rw [hkey]
      exact hhi
  · rw [← covered_append]
    simp only [StallState.expected, List.map_append, List.map_singleton, List.append_assoc]

/-- The stall of the packet's direction, if one is open, becomes an interval. -/
theorem covered_finish (h : Tracked lo hi (p :: rest) s) (hopens : p.opensWindow = true) :
    covered φ ((s.finish p.directionKey p.timestamp).expected flowEnd rest) =
      covered φ (s.expected flowEnd (p :: rest)) := by
  rw [StallState.finish]
  split
  · rename_i hnone
    rw [List.find?_eq_none] at hnone
    unfold StallState.expected
    congr 2
    refine List.map_congr_left fun o ho => ?_
    have hne : o.1 ≠ p.directionKey := by simpa using hnone o ho
    rw [stallEnd_cons_of_not fun hboth => hne hboth.1.symm]
  · rename_i k started hfind
    obtain ⟨hmem, rfl⟩ := find?_openStalls hfind
    ext x
    simp only [StallState.expected, mem_covered, List.mem_append, List.mem_map, List.mem_filter,
      List.mem_singleton]
    constructor
    · rintro ⟨i, (hi | rfl) | ⟨o, ⟨ho, hne⟩, rfl⟩, hx⟩
      · exact ⟨i, Or.inl hi, hx⟩
      · refine ⟨_, Or.inr ⟨_, hmem, rfl⟩, ?_⟩
        rw [stallEnd_cons_of_opens hopens]
        exact hx
      · refine ⟨_, Or.inr ⟨o, ho, rfl⟩, ?_⟩
        have hne : o.1 ≠ p.directionKey := of_decide_eq_true hne
        rw [stallEnd_cons_of_not fun hboth => hne hboth.1.symm]
        exact hx
    · rintro ⟨i, hi | ⟨o, ho, rfl⟩, hx⟩
      · exact ⟨i, Or.inl (Or.inl hi), hx⟩
      · by_cases hkey : o.1 = p.directionKey
        · -- no other stall of the direction is open
          have ho : o = (p.directionKey, started) :=
            List.inj_on_of_nodup_map h.nodup ho hmem hkey
          subst ho
          refine ⟨(started, p.timestamp), Or.inl (Or.inr rfl), ?_⟩
          rw [stallEnd_cons_of_opens hopens] at hx
          exact hx
        · refine ⟨_, Or.inr ⟨o, ⟨ho, decide_eq_true hkey⟩, rfl⟩, ?_⟩
          rw [stallEnd_cons_of_not fun hboth => hkey hboth.1.symm] at hx
          exact hx

/-- What is expected after a packet, with the periods of the packets after it. -/
theorem covered_step (hφ : StrictMono φ) (h : Tracked lo hi (p :: rest) s) :
    covered φ ((s.step p).expected flowEnd rest ++ stallPeriods flowEnd rest) =
      covered φ (s.expected flowEnd (p :: rest) ++ stallPeriods flowEnd (p :: rest)) := by
  rw [covered_append, covered_append, StallState.step, stallPeriods]
  split
  · rename_i hzero
    rw [covered_begin hφ h hzero, Set.union_assoc, ← covered_append]
    rfl
  · rename_i hzero
    have hzero : p.tcpZeroWindow = false := by simpa using hzero
    split
    · rename_i hwindow
      rw [covered_finish h (by rw [opensWindow_eq hzero]; exact hwindow)]
    · rename_i hwindow
      rw [expected_cons_of_not (by rw [opensWindow_eq hzero]; simpa using hwindow)]

/-- The loop collects what the periods cover, and stays inside the flow. -/
theorem Tracked.covered_close (hφ : StrictMono φ) (rest : List (PacketRecord ℚ)) :
    ∀ {s : StallState}, Tracked lo hi rest s → rest.Pairwise (·.timestamp ≤ ·.timestamp) →
      (∀ p ∈ rest, lo ≤ p.timestamp ∧ p.timestamp ≤ hi) → flowEnd ≤ hi →
      covered φ ((rest.foldl StallState.step s).close flowEnd) =
          covered φ (s.expected flowEnd rest ++ stallPeriods flowEnd rest) ∧
        ∀ i ∈ (rest.foldl StallState.step s).close flowEnd, lo ≤ i.1 ∧ i.2 ≤ hi := by
  induction rest with
  | nil =>
      intro s h _ _ hend
      refine ⟨by rw [stallPeriods, List.append_nil]; rfl, fun i hi => ?_⟩
      rcases List.mem_append.mp hi with hi | hi
      · exact h.within i hi
      · obtain ⟨o, ho, rfl⟩ := List.mem_map.mp hi
        exact ⟨(h.started o ho).1, hend⟩
  | cons p rest ih =>
      intro s h hsorted hbounds hend
      rw [List.pairwise_cons] at hsorted
      have hstep := h.step (hbounds p (List.mem_cons_self ..)) hsorted.1
      obtain ⟨hcovered, hwithin⟩ := ih hstep hsorted.2
        (fun q hq => hbounds q (List.mem_cons_of_mem _ hq)) hend
      exact ⟨hcovered.trans (covered_step hφ h), hwithin⟩

end Covered

end Loop

/-! ## A connection -/

instance : IsTrans (PacketRecord ℚ) fun a b => a.timestamp ≤ b.timestamp := ⟨fun _ _ _ => le_trans⟩

instance : Std.Total fun a b : PacketRecord ℚ => a.timestamp ≤ b.timestamp :=
  ⟨fun _ _ => le_total _ _⟩

theorem pairwise_sortByTime (records : List (PacketRecord ℚ)) :
    (sortByTime records).Pairwise (·.timestamp ≤ ·.timestamp) :=
  List.pairwise_insertionSort (fun a b : PacketRecord ℚ => a.timestamp ≤ b.timestamp) records

instance : IsTrans (ℚ × ℚ) pairLe where
  trans a b c hab hbc := by
    rcases hab with hab | ⟨hab, hab'⟩ <;> rcases hbc with hbc | ⟨hbc, hbc'⟩
    · exact Or.inl (hab.trans hbc)
    · exact Or.inl (hbc ▸ hab)
    · exact Or.inl (hab ▸ hbc)
    · exact Or.inr ⟨hab.trans hbc, hab'.trans hbc'⟩

instance : Std.Total pairLe where
  total a b := by
    rcases lt_trichotomy a.1 b.1 with h | h | h
    · exact Or.inl (Or.inl h)
    · rcases le_total a.2 b.2 with h' | h'
      · exact Or.inl (Or.inr ⟨h, h'⟩)
      · exact Or.inr (Or.inr ⟨h.symm, h'⟩)
    · exact Or.inr (Or.inl h)

theorem fst_le_of_pairLe {a b : ℚ × ℚ} (h : pairLe a b) : a.1 ≤ b.1 := by
  rcases h with h | ⟨h, -⟩
  · exact h.le
  · exact h.le

section Connection

variable {records : List (PacketRecord ℚ)}

theorem firstTimestamp_le (hsorted : records.Pairwise (·.timestamp ≤ ·.timestamp))
    {p : PacketRecord ℚ} (hp : p ∈ records) : firstTimestamp records ≤ p.timestamp := by
  cases records with
  | nil => cases hp
  | cons q records =>
      rcases List.mem_cons.mp hp with rfl | hp
      · exact le_rfl
      · exact (List.pairwise_cons.mp hsorted).1 p hp

theorem le_lastTimestamp (hsorted : records.Pairwise (·.timestamp ≤ ·.timestamp))
    {p : PacketRecord ℚ} (hp : p ∈ records) : p.timestamp ≤ lastTimestamp records := by
  obtain ⟨init, last, rfl⟩ := List.eq_nil_or_concat' records |>.resolve_left (List.ne_nil_of_mem hp)
  have hlast : lastTimestamp (init ++ [last]) = last.timestamp := by
    rw [lastTimestamp, List.getLast?_concat]
    rfl
  rw [hlast]
  rcases List.mem_append.mp hp with hp | hp
  · exact (List.pairwise_append.mp hsorted).2.2 p hp last (List.mem_singleton_self _)
  · rw [List.mem_singleton.mp hp]

theorem firstTimestamp_le_lastTimestamp
    (hsorted : records.Pairwise (·.timestamp ≤ ·.timestamp)) :
    firstTimestamp records ≤ lastTimestamp records := by
  cases records with
  | nil => exact le_rfl
  | cons p records => exact le_lastTimestamp hsorted (List.mem_cons_self ..)

/-- What the merge makes of the stalls of sorted records. -/
theorem mergedStalls_spec (hsorted : records.Pairwise (·.timestamp ≤ ·.timestamp)) :
    Intervals.Separated (mergedStalls records) ∧
      (∀ i ∈ mergedStalls records,
        i.1 < i.2 ∧ firstTimestamp records ≤ i.1 ∧ i.2 ≤ lastTimestamp records) ∧
      volume (Intervals.covered (fun t : ℚ => (t : ℝ))
          (stallPeriods (lastTimestamp records) records)) =
        ENNReal.ofReal (((mergedStalls records).map fun i => (i.2 - i.1 : ℝ)).sum) := by
  have hcast : StrictMono fun t : ℚ => (t : ℝ) := Rat.cast_strictMono
  have hstart : Tracked (firstTimestamp records) (lastTimestamp records) records ⟨[], []⟩ :=
    ⟨List.nodup_nil, by simp, by simp⟩
  obtain ⟨hcovered, hwithin⟩ := hstart.covered_close hcast records hsorted
    (fun p hp => ⟨firstTimestamp_le hsorted hp, le_lastTimestamp hsorted hp⟩) le_rfl
  -- the intervals in the order in which they are merged
  have hperm := List.perm_insertionSort pairLe ((trackStalls records).close (lastTimestamp records))
  have hordered := (List.pairwise_insertionSort pairLe
    ((trackStalls records).close (lastTimestamp records))).imp fst_le_of_pairLe
  obtain ⟨⟨bound, hmerged⟩, hmerge⟩ := Intervals.covered_merge hcast hordered
    (fun i hi => hwithin i (hperm.mem_iff.mp hi))
  refine ⟨hmerged.separated, fun i hi => ⟨hmerged.proper i hi, hmerged.within i hi⟩, ?_⟩
  have hvolume := Intervals.volume_covered hcast hmerged.separated hmerged.proper
  rw [hmerge, Intervals.volume_covered_filter hcast] at hvolume
  refine Eq.trans (congrArg _ ?_) hvolume
  ext x
  rw [Intervals.mem_covered, Intervals.mem_covered]
  simp only [hperm.mem_iff]
  exact Set.ext_iff.mp hcovered.symm x

theorem stallMs_eq (records : List (PacketRecord ℚ)) :
    (tcpConnection records).stallMs = ms (Intervals.length (mergedStalls records)) := by
  show ((mergedStalls records).map fun i => (i.2 - i.1) * 1000).sum = _
  rw [List.sum_map_mul_right]
  rfl

theorem stallMs_nonneg (hsorted : records.Pairwise (·.timestamp ≤ ·.timestamp)) :
    0 ≤ (tcpConnection records).stallMs := by
  obtain ⟨-, hwithin, -⟩ := mergedStalls_spec hsorted
  rw [stallMs_eq]
  exact mul_nonneg (Intervals.length_nonneg fun i hi => (hwithin i hi).1.le) (by norm_num)

/-- A connection stalls no longer than it is active. -/
theorem stallMs_le_activeMs (hsorted : records.Pairwise (·.timestamp ≤ ·.timestamp)) :
    (tcpConnection records).stallMs ≤ (tcpConnection records).activeMs := by
  obtain ⟨hseparated, hwithin, -⟩ := mergedStalls_spec hsorted
  have hlength : Intervals.length (mergedStalls records) ≤
      lastTimestamp records - firstTimestamp records := by
    refine Intervals.length_le hseparated (firstTimestamp_le_lastTimestamp hsorted) fun i hi => ?_
    obtain ⟨hlt, hfirst, hlast⟩ := hwithin i hi
    exact ⟨hfirst, hlt.le, hlast⟩
  rw [stallMs_eq]
  refine le_trans ?_ (le_max_right _ _)
  exact mul_le_mul_of_nonneg_right hlength (by norm_num)

end Connection

/-! ## All connections -/

theorem tcpConnection_mem {tcpPackets : List (PacketRecord ℚ)} {c : TcpConnection}
    (hc : c ∈ tcpConnections tcpPackets) : 0 ≤ c.stallMs ∧ c.stallMs ≤ c.activeMs := by
  obtain ⟨e, -, rfl⟩ := List.mem_map.mp hc
  have hsorted := pairwise_sortByTime e.2
  exact ⟨stallMs_nonneg hsorted, stallMs_le_activeMs hsorted⟩

theorem ratio_le_one {a b r : ℚ} (hab : a ≤ b) (h : ratio a b = some r) : r ≤ 1 := by
  rw [ratio] at h
  split at h
  · cases h
  · rename_i hb
    rw [not_le] at hb
    rw [← Option.some.inj h]
    exact (div_le_one hb).mpr hab

theorem stallTotal_le_activeTotal (tcpPackets : List (PacketRecord ℚ)) :
    ((tcpConnections tcpPackets).map (·.stallMs)).sum ≤
      ((tcpConnections tcpPackets).map (·.activeMs)).sum :=
  List.sum_le_sum fun _ hc => (tcpConnection_mem hc).2

/-- The stall time of a connection is the measure of its stall periods, and is
never more than its active time; so the stall ratio is never above 1. -/
theorem stall_time (records : List (PacketRecord ℚ)) :
    Intervals.Separated (mergedStalls (sortByTime records)) ∧
      (∀ i ∈ mergedStalls (sortByTime records), i.1 < i.2 ∧
        firstTimestamp (sortByTime records) ≤ i.1 ∧ i.2 ≤ lastTimestamp (sortByTime records)) ∧
      volume (Intervals.covered (fun t : ℚ => (t : ℝ))
          (stallPeriods (lastTimestamp (sortByTime records)) (sortByTime records))) =
        ENNReal.ofReal
          (((mergedStalls (sortByTime records)).map fun i => (i.2 - i.1 : ℝ)).sum) ∧
      (tcpConnection (sortByTime records)).stallMs =
        ((mergedStalls (sortByTime records)).map fun i => (i.2 - i.1) * 1000).sum ∧
      (tcpConnection (sortByTime records)).stallMs ≤
        (tcpConnection (sortByTime records)).activeMs ∧
      ∀ (packets : List (PacketRecord ℚ)) (r : ℚ),
        (tcpMetrics packets).tcpReceiverStallRatio = some r → r ≤ 1 := by
  have hsorted := pairwise_sortByTime records
  obtain ⟨hseparated, hwithin, hvolume⟩ := mergedStalls_spec hsorted
  refine ⟨hseparated, hwithin, hvolume, rfl, stallMs_le_activeMs hsorted, fun packets r hr => ?_⟩
  exact ratio_le_one (stallTotal_le_activeTotal packets) hr

end Sahabino
