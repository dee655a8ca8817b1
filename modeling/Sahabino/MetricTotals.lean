import Sahabino.NetworkMetrics

/-!
# Coherence of the metrics

Which metrics are null together, and how few flows carry most of the
payload.
-/

namespace Sahabino

/-! ## Null and zero -/

/-- Null means unavailable in every place that depends on the same input. -/
structure NullCoherent (m : AggregatedMetrics) : Prop where
  directed : m.capabilities.directionMetadataAvailable = false ↔
    m.traffic.txNetworkBytes = none ∧ m.traffic.rxNetworkBytes = none ∧
      m.traffic.txL4PayloadBytes = none ∧ m.traffic.rxL4PayloadBytes = none ∧
      m.traffic.txPacketCount = none ∧ m.traffic.rxPacketCount = none ∧
      m.flow.uniqueRemoteIpCount = none
  undirected : m.capabilities.directionMetadataAvailable = false →
    m.transfer.observedPrimaryPayloadSpanMs = none ∧
      m.transfer.effectiveFileThroughputMbps = none ∧
      m.transfer.primaryDirectionAmplificationRatio = none ∧
      m.transfer.reversePathCostRatio = none ∧
      "direction_unavailable" ∈ m.capture.analysisWarnings ∧
      m.capabilities.comparisonReady = false
  ready : m.capabilities.comparisonReady = true →
    0 < m.capture.captureDurationMs ∧ m.capture.truncatedPacketCount = 0 ∧
      (∃ span, m.transfer.observedPrimaryPayloadSpanMs = some span ∧ 0 < span) ∧
      m.transfer.effectiveFileThroughputMbps.isSome ∧
      m.transfer.averageNetworkThroughputMbps.isSome ∧
      m.transfer.primaryDirectionAmplificationRatio.isSome
  tcp : m.tcp = none ↔ m.capabilities.tcpPresent = false
  quic : m.quic = none ↔ m.capabilities.quicPresent = false
  udp : m.udp = none ↔ m.capabilities.otherUdpPresent = false
  dns : m.dns = none ↔ m.capabilities.dnsMetricsAvailable = false

section Nulls

variable {τ : Type} {packets : List (PacketRecord τ)}

theorem ifDirected_eq_none_iff {α : Type} {value : α} :
    ifDirected packets value = none ↔ directionAvailable packets = false := by
  unfold ifDirected
  split
  · rename_i h
    simp [h]
  · rename_i h
    simpa using h

theorem ifDirected_isSome {α : Type} {value : α} (h : directionAvailable packets = true) :
    (ifDirected packets value).isSome := by
  rw [ifDirected, if_pos h]
  rfl

end Nulls

theorem mem_warningTuple {packets : List (PacketRecord ℚ)} {scenario : Scenario} {s : String} :
    s ∈ warningTuple packets scenario ↔ ∃ w ∈ analysisWarnings packets scenario, w.text = s := by
  rw [warningTuple, List.mem_insertionSort, List.mem_dedup, List.mem_map]

/-- Without direction there is no primary payload. -/
theorem primarySpanMs_eq_none {packets : List (PacketRecord ℚ)} {scenario : Scenario}
    (h : directionAvailable packets = false) : primarySpanMs packets scenario = none := by
  rw [primarySpanMs, primarySpread, if_neg (by simp [h])]
  rfl

theorem isSome_eq_false_iff {α : Type} {x : Option α} : x = none ↔ x.isSome = false := by
  cases x <;> simp

/-- The nulls of the result fit together, its warnings are the distinct ones in
sorted order, and there are as many as it counts. -/
theorem null_coherence (packets : List (PacketRecord ℚ)) (captureFormat : CaptureFormat)
    (captureSizeBytes : ℤ) (scenario : Scenario) (transferFileSizeBytes : ℤ)
    (supportedFields : Option (List String)) :
    (∀ m, aggregatePackets packets captureFormat captureSizeBytes scenario transferFileSizeBytes
      supportedFields = .ok m → m = aggregated packets captureFormat captureSizeBytes scenario
        transferFileSizeBytes supportedFields) ∧
    NullCoherent (aggregated packets captureFormat captureSizeBytes scenario transferFileSizeBytes
      supportedFields) ∧
    (aggregated packets captureFormat captureSizeBytes scenario transferFileSizeBytes
        supportedFields).capture.analysisWarningCount =
      ((analysisWarnings packets scenario).map (·.text)).toFinset.card ∧
    (aggregated packets captureFormat captureSizeBytes scenario transferFileSizeBytes
        supportedFields).capture.analysisWarnings.Pairwise (· < ·) ∧
    ∀ s, s ∈ (aggregated packets captureFormat captureSizeBytes scenario transferFileSizeBytes
        supportedFields).capture.analysisWarnings ↔
      ∃ w ∈ analysisWarnings packets scenario, w.text = s := by
  refine ⟨fun m hm => ?_, ⟨?_, fun hnot => ?_, fun hready => ?_, isSome_eq_false_iff,
    isSome_eq_false_iff, isSome_eq_false_iff, isSome_eq_false_iff⟩, ?_, ?_,
    fun s => mem_warningTuple⟩
  · simp only [aggregatePackets] at hm
    split at hm
    · cases hm
    · exact (Except.ok.inj hm).symm
  · show directionAvailable packets = false ↔ ifDirected packets _ = none ∧
      ifDirected packets _ = none ∧ ifDirected packets _ = none ∧ ifDirected packets _ = none ∧
      ifDirected packets _ = none ∧ ifDirected packets _ = none ∧ ifDirected packets _ = none
    simp only [ifDirected_eq_none_iff, and_self]
  · have hnot : directionAvailable packets = false := hnot
    have hspan : primarySpanMs packets scenario = none := primarySpanMs_eq_none hnot
    have hprimary : primaryNetwork packets scenario = none := ifDirected_eq_none_iff.mpr hnot
    have hreverse : reverseNetwork packets scenario = none := ifDirected_eq_none_iff.mpr hnot
    refine ⟨hspan, ?_, ?_, ?_, ?_, ?_⟩
    · simp only [aggregated, transferMetrics, hspan, Option.map_none]
    · simp only [aggregated, transferMetrics, hprimary, Option.map_none]
    · simp only [aggregated, transferMetrics, hreverse, reversePathCost]
    · refine mem_warningTuple.mpr ⟨.directionUnavailable, ?_, rfl⟩
      simp [analysisWarnings, warnIf, hnot]
    · simp [aggregated, networkCapabilities, comparisonReady, hnot]
  · have hready : comparisonReady packets scenario = true := hready
    simp only [comparisonReady, Bool.and_eq_true, decide_eq_true_eq] at hready
    obtain ⟨⟨⟨⟨-, hduration⟩, htruncated⟩, hdirected⟩, hspan⟩ := hready
    obtain ⟨span, hspan⟩ := Option.isSome_iff_exists.mp hspan
    have hpositive : 0 < span := of_decide_eq_true (Option.filter_eq_some_iff.mp hspan).2
    refine ⟨hduration, htruncated, ⟨span, hspan, hpositive⟩, ?_, ?_, ?_⟩
    · simp [aggregated, transferMetrics, hspan]
    · have hseconds : 0 < durationMs packets / 1000 := div_pos hduration (by norm_num)
      simp [aggregated, transferMetrics, hseconds]
    · simp only [aggregated, transferMetrics, Option.isSome_map]
      exact ifDirected_isSome hdirected
  · show (List.insertionSort _ _).length = _
    rw [List.length_insertionSort]
    rfl
  · have hnodup : (warningTuple packets scenario).Nodup :=
      (List.perm_insertionSort _ _).nodup_iff.mpr (List.nodup_dedup _)
    have hsorted := List.pairwise_insertionSort (· ≤ ·)
      ((analysisWarnings packets scenario).map (·.text)).dedup
    exact (hsorted.and hnodup).imp fun hboth => lt_of_le_of_ne hboth.1 hboth.2

/-! ## Flows for 80% of the payload -/

section Greedy

variable {α : Type} [AddCommMonoid α] [LinearOrder α] [IsOrderedAddMonoid α]

/-- In front of a descending list, one more value is worth at least the last one
that a longer prefix takes. -/
theorem sum_take_succ_le {a : α} {l : List α} (ha : ∀ x ∈ l, x ≤ a) {j : ℕ} (hj : j < l.length) :
    (l.take (j + 1)).sum ≤ a + (l.take j).sum := by
  rw [List.take_add_one, List.getElem?_eq_getElem hj, Option.toList_some, List.sum_append,
    List.sum_singleton, add_comm]
  exact add_le_add_left (ha _ (List.getElem_mem hj)) _

/-- No choice of values from a descending list beats its prefix. -/
theorem sum_le_sum_take {l : List α} (hl : l.Pairwise (· ≥ ·)) : ∀ {s : Multiset α},
    s ≤ (l : Multiset α) → s.sum ≤ (l.take (Multiset.card s)).sum := by
  induction l with
  | nil =>
      intro s hs
      rw [Multiset.le_zero.mp hs]
      simp
  | cons a l ih =>
      intro s hs
      rw [List.pairwise_cons] at hl
      rw [← Multiset.cons_coe] at hs
      by_cases ha : a ∈ s
      · obtain ⟨t, rfl⟩ := Multiset.exists_cons_of_mem ha
        have ht := ih hl.2 ((Multiset.cons_le_cons_iff a).mp hs)
        rw [Multiset.sum_cons, Multiset.card_cons, List.take_succ_cons, List.sum_cons]
        exact add_le_add_right ht a
      · have ht : s ≤ (l : Multiset α) := (Multiset.le_cons_of_notMem ha).mp hs
        refine le_trans (ih hl.2 ht) ?_
        cases hcard : Multiset.card s with
        | zero => simp
        | succ j =>
            have hle := Multiset.card_le_card ht
            rw [hcard, Multiset.coe_card] at hle
            rw [List.take_succ_cons, List.sum_cons]
            exact sum_take_succ_le hl.1 hle

end Greedy

/-- The loop stops at the first prefix that reaches the threshold. -/
theorem reachThreshold_eq_some {threshold : ℚ} : ∀ {payloads : List ℤ} {index : ℕ}
    {accumulated : ℤ} {k : ℕ}, reachThreshold threshold index accumulated payloads = some k →
    ∃ j, k = index + j ∧ 0 < j ∧ j ≤ payloads.length ∧
      threshold ≤ accumulated + (payloads.take j).sum ∧
      ∀ i, 0 < i → i < j → accumulated + ((payloads.take i).sum : ℚ) < threshold := by
  intro payloads
  induction payloads with
  | nil =>
      intro index accumulated k h
      cases h
  | cons x payloads ih =>
      intro index accumulated k h
      rw [reachThreshold] at h
      split at h
      · rename_i hreached
        refine ⟨1, (Option.some.inj h).symm, Nat.one_pos, by simp, ?_, fun i hpos hlt => by omega⟩
        rw [List.take_succ_cons, List.take_zero, List.sum_singleton]
        exact_mod_cast hreached
      · rename_i hnot
        obtain ⟨j, rfl, hpos, hle, hreached, hbefore⟩ := ih h
        refine ⟨j + 1, by omega, Nat.succ_pos _, by simpa using hle, ?_, fun i hi hlt => ?_⟩
        · rw [List.take_succ_cons, List.sum_cons]
          push_cast at hreached ⊢
          linarith
        · cases i with
          | zero => cases hi
          | succ i =>
              rw [List.take_succ_cons, List.sum_cons]
              cases i with
              | zero =>
                  rw [not_le] at hnot
                  simpa using hnot
              | succ i =>
                  have hlater := hbefore (i + 1) (Nat.succ_pos _) (by omega)
                  push_cast at hlater ⊢
                  linarith

theorem reachThreshold_eq_none {threshold : ℚ} : ∀ {payloads : List ℤ} {index : ℕ}
    {accumulated : ℤ}, reachThreshold threshold index accumulated payloads = none →
    ∀ i, 0 < i → i ≤ payloads.length → accumulated + ((payloads.take i).sum : ℚ) < threshold := by
  intro payloads
  induction payloads with
  | nil =>
      intro index accumulated _ i hpos hle
      rw [List.length_nil] at hle
      omega
  | cons x payloads ih =>
      intro index accumulated h i hpos hle
      rw [reachThreshold] at h
      split at h
      · cases h
      · rename_i hnot
        cases i with
        | zero => cases hpos
        | succ i =>
            rw [List.take_succ_cons, List.sum_cons]
            cases i with
            | zero =>
                rw [not_le] at hnot
                simpa using hnot
            | succ i =>
                have hlater := ih h (i + 1) (Nat.succ_pos _) (by simpa using hle)
                push_cast at hlater ⊢
                linarith

/-- The payloads of flows, the largest first. -/
def descending (flows : List (FlowKey × ℤ)) : List ℤ :=
  (flows.map (·.2)).insertionSort (· ≥ ·)

/-- The flows carry 80% of `total`. -/
def Reaches (total : ℤ) (S : Finset (FlowKey × ℤ)) : Prop :=
  (total : ℚ) * (4 / 5) ≤ (∑ e ∈ S, e.2 : ℤ)

/-- `k` is the least number of flows that carry 80% of `total`: the `k` largest
do, and no fewer. When no set of flows does, it is the number of all of them. -/
structure FewestFlows (flows : List (FlowKey × ℤ)) (total : ℤ) (k : ℕ) : Prop where
  zero : total = 0 → k = 0
  enough : 0 < total → (∃ S ⊆ flows.toFinset, Reaches total S) →
    (total : ℚ) * (4 / 5) ≤ ((descending flows).take k).sum
  fewest : 0 < total → (∃ S ⊆ flows.toFinset, Reaches total S) →
    ∀ S ⊆ flows.toFinset, S.card < k → ¬Reaches total S
  unreachable : 0 < total → (¬∃ S ⊆ flows.toFinset, Reaches total S) → k = flows.length

section Fewest

variable {flows : List (FlowKey × ℤ)} (hnodup : flows.Nodup) {total : ℤ} (htotal : 0 < total)
include hnodup

/-- A set of flows carries no more than as many of the largest ones. -/
theorem sum_flows_le {S : Finset (FlowKey × ℤ)} (hS : S ⊆ flows.toFinset) :
    S.card ≤ (descending flows).length ∧ ∑ e ∈ S, e.2 ≤ ((descending flows).take S.card).sum := by
  have hval : S.val ≤ (flows : Multiset (FlowKey × ℤ)) := by
    have hval := Finset.val_le_iff.mpr hS
    rwa [List.toFinset_val, hnodup.dedup] at hval
  have hmap : S.val.map (·.2) ≤ (descending flows : Multiset ℤ) := by
    have hperm : (descending flows : Multiset ℤ) = ((flows.map (·.2) : List ℤ) : Multiset ℤ) :=
      Multiset.coe_eq_coe.mpr (List.perm_insertionSort _ _)
    rw [hperm, ← Multiset.map_coe]
    exact Multiset.map_le_map hval
  have hcard := Multiset.card_le_card hmap
  have hsum := sum_le_sum_take (List.pairwise_insertionSort (· ≥ ·) (flows.map (·.2))) hmap
  rw [Multiset.card_map] at hcard hsum
  exact ⟨hcard, hsum⟩

/-- The largest flows are a set of flows. -/
theorem exists_largest (k : ℕ) :
    ∃ S ⊆ flows.toFinset, ∑ e ∈ S, e.2 = ((descending flows).take k).sum := by
  have hsorted : descending flows =
      (flows.insertionSort fun a b => a.2 ≥ b.2).map (·.2) := by
    refine (List.map_insertionSort (fun a b : FlowKey × ℤ => a.2 ≥ b.2) (· ≥ ·) _ flows ?_).symm
    exact fun _ _ _ _ => Iff.rfl
  have hperm := List.perm_insertionSort (fun a b : FlowKey × ℤ => a.2 ≥ b.2) flows
  have htake : ((flows.insertionSort fun a b => a.2 ≥ b.2).take k).Nodup :=
    (hperm.nodup_iff.mpr hnodup).sublist (List.take_sublist _ _)
  refine ⟨((flows.insertionSort fun a b => a.2 ≥ b.2).take k).toFinset, fun e he => ?_, ?_⟩
  · rw [List.mem_toFinset] at he ⊢
    exact hperm.mem_iff.mp (List.mem_of_mem_take he)
  · rw [List.sum_toFinset _ htake, hsorted, List.map_take]

include htotal

/-- A set that reaches the threshold is not empty, and its size makes a prefix
that reaches it as well. -/
theorem prefix_reaches {S : Finset (FlowKey × ℤ)} (hS : S ⊆ flows.toFinset)
    (hreaches : Reaches total S) : 0 < S.card ∧ S.card ≤ (descending flows).length ∧
      (total : ℚ) * (4 / 5) ≤ ((descending flows).take S.card).sum := by
  obtain ⟨hcard, hsum⟩ := sum_flows_le hnodup hS
  refine ⟨?_, hcard, le_trans hreaches (by exact_mod_cast hsum)⟩
  rw [Finset.card_pos, Finset.nonempty_iff_ne_empty]
  rintro rfl
  have hpos : (0 : ℚ) < total := by exact_mod_cast htotal
  rw [Reaches, Finset.sum_empty, Int.cast_zero] at hreaches
  linarith

theorem fewestFlows_of_pos : FewestFlows flows total (flowsFor80Percent flows total) := by
  have hdef : flowsFor80Percent flows total = (reachThreshold (total * (4 / 5)) 0 0
      (descending flows)).getD flows.length := if_neg (not_le.mpr htotal)
  cases hloop : reachThreshold ((total : ℚ) * (4 / 5)) 0 0 (descending flows) with
  | none =>
      have hnot : ¬∃ S ⊆ flows.toFinset, Reaches total S := by
        rintro ⟨S, hS, hreaches⟩
        obtain ⟨hpos, hcard, hreaches⟩ := prefix_reaches hnodup htotal hS hreaches
        have hshort := reachThreshold_eq_none hloop S.card hpos hcard
        rw [Int.cast_zero, zero_add] at hshort
        exact absurd hreaches (not_le.mpr hshort)
      rw [hdef, hloop, Option.getD_none]
      exact ⟨fun hzero => absurd hzero htotal.ne', fun _ hsome => absurd hsome hnot,
        fun _ hsome => absurd hsome hnot, fun _ _ => rfl⟩
  | some k =>
      obtain ⟨j, rfl, -, -, hreached, hbefore⟩ := reachThreshold_eq_some hloop
      rw [Int.cast_zero, zero_add] at hreached
      rw [hdef, hloop, Option.getD_some, Nat.zero_add]
      refine ⟨fun hzero => absurd hzero htotal.ne', fun _ _ => hreached,
        fun _ _ S hS hcard hreaches => ?_, fun _ hnot => absurd ?_ hnot⟩
      · obtain ⟨hpos, -, hreaches⟩ := prefix_reaches hnodup htotal hS hreaches
        have hshort := hbefore S.card hpos hcard
        rw [Int.cast_zero, zero_add] at hshort
        exact absurd hreaches (not_le.mpr hshort)
      · obtain ⟨S, hS, hsum⟩ := exists_largest hnodup j
        refine ⟨S, hS, ?_⟩
        rw [Reaches, hsum]
        exact hreached

end Fewest

/-- `flows_for_80pct_payload` of a result, against its flows and its payload. -/
theorem flowsFor80Percent_minimal {τ : Type} (packets : List (PacketRecord τ))
    (transferFileSizeBytes : ℤ) :
    FewestFlows (flowPayload (ipPackets packets)) (payloadBytes (ipPackets packets))
      (flowMetrics packets transferFileSizeBytes).flowsFor80pctPayload := by
  have hnodup : (flowPayload (ipPackets packets)).Nodup := Dict.collect_nodup ..
  rcases lt_or_ge 0 (payloadBytes (ipPackets packets)) with hpos | hle
  · exact fewestFlows_of_pos hnodup hpos
  · exact ⟨fun _ => if_pos hle, fun hpos => absurd hpos (not_lt.mpr hle),
      fun hpos => absurd hpos (not_lt.mpr hle), fun hpos => absurd hpos (not_lt.mpr hle)⟩

end Sahabino
