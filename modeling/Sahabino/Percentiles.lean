import Sahabino.Lib.OrderStatistics
import Sahabino.MetricOrder
import Sahabino.MetricRanges

/-!
# What the percentiles are

`percentile` sorts and indexes. What it finds is said without either: the
least value that `p` percent of the values do not exceed. From that it
follows that the order of the samples does not matter, that a higher
percentile is not smaller, and that the percentiles of every metric stand
between its extrema.
-/

namespace Sahabino

/-- At least `p` percent of the values are at most `v`. -/
def Percentile.Covers (p : Percentile) (values : List ℚ) (v : ℚ) : Prop :=
  p.value / 100 * values.length ≤ values.countP (· ≤ v)

/-- `max(1, ceil(p / 100 * len(values)))`. -/
def Percentile.rank (p : Percentile) (values : List ℚ) : ℕ :=
  max 1 ⌈p.value / 100 * values.length⌉₊

section

variable {values : List ℚ} {p q : Percentile}

theorem Percentile.rank_le_length (p : Percentile) (hne : values ≠ []) :
    p.rank values ≤ values.length := by
  refine max_le (List.length_pos_of_ne_nil hne) (Nat.ceil_le.mpr ?_)
  have hp : p.value / 100 ≤ 1 := (div_le_one (by norm_num)).mpr p.ok.2
  exact mul_le_of_le_one_left (Nat.cast_nonneg _) hp

theorem Percentile.rank_mono (h : p.value ≤ q.value) : p.rank values ≤ q.rank values := by
  refine max_le_max le_rfl (Nat.ceil_mono ?_)
  exact mul_le_mul_of_nonneg_right (div_le_div_of_nonneg_right h (by norm_num))
    (Nat.cast_nonneg _)

/-- Among the values, covering `p` percent is reaching the rank: the clamp at one
changes nothing, since every value is at most itself. -/
theorem Percentile.covers_iff {v : ℚ} (hv : v ∈ values) :
    p.Covers values v ↔ p.rank values ≤ OrderStat.upTo values v := by
  have hpos : 1 ≤ OrderStat.upTo values v := OrderStat.upTo_pos hv
  rw [Percentile.rank, max_le_iff, Nat.ceil_le]
  exact ⟨fun h => ⟨hpos, h⟩, fun h => h.2⟩

theorem percentile_isLeast (p : Percentile) (hne : values ≠ []) :
    ∃ v, percentile values p = some v ∧ IsLeast (OrderStat.reached values (p.rank values)) v := by
  obtain ⟨v, hget, hleast⟩ :=
    OrderStat.isLeast_getElem_insertionSort (le_max_left 1 _) (p.rank_le_length hne)
  refine ⟨v, ?_, hleast⟩
  rw [percentile, if_neg hne]
  simp only [List.length_insertionSort]
  exact hget

theorem percentile_mono (h : p.value ≤ q.value) {v w : ℚ} (hv : percentile values p = some v)
    (hw : percentile values q = some w) : v ≤ w := by
  have hne : values ≠ [] := List.ne_nil_of_mem (mem_of_percentile hv)
  obtain ⟨v', hv', hleast⟩ := percentile_isLeast p hne
  obtain ⟨w', hw', hleast'⟩ := percentile_isLeast q hne
  obtain rfl := Option.some.inj (hv'.symm.trans hv)
  obtain rfl := Option.some.inj (hw'.symm.trans hw)
  exact hleast.2 (OrderStat.reached_antitone values (Percentile.rank_mono h) hleast'.1)

end

/-! ## Reported percentiles -/

/-- The first is not greater, if both are there. -/
def Before (x y : Option ℚ) : Prop := ∀ v, x = some v → ∀ w, y = some w → v ≤ w

/-- Those that are there ascend. -/
def Ascending (xs : List (Option ℚ)) : Prop := xs.Pairwise Before

section

variable {values : List ℚ}

theorem Before.refl (x : Option ℚ) : Before x x := by
  intro v hv w hw
  rw [Option.some.inj (hv.symm.trans hw)]

theorem min?_before {x : Option ℚ} (hx : ∀ v, x = some v → v ∈ values) : Before values.min? x :=
  fun _ hmin w hw => (List.min?_eq_some_iff.mp hmin).2 w (hx w hw)

theorem before_max? {x : Option ℚ} (hx : ∀ v, x = some v → v ∈ values) : Before x values.max? :=
  fun v hv _ hmax => (List.max?_eq_some_iff.mp hmax).2 v (hx v hv)

theorem min?_before_percentile (p : Percentile) : Before values.min? (percentile values p) :=
  min?_before fun _ => mem_of_percentile

theorem percentile_before_max? (p : Percentile) : Before (percentile values p) values.max? :=
  before_max? fun _ => mem_of_percentile

theorem min?_before_max? : Before values.min? values.max? :=
  min?_before fun _ => List.max?_mem

theorem percentile_before {p q : Percentile} (h : p.value ≤ q.value) :
    Before (percentile values p) (percentile values q) :=
  fun _ hv _ hw => percentile_mono h hv hw

end

/-- The samples of every metric with a percentile, and what is reported of them, from the
least to the greatest. -/
def sampledMetrics (packets : List (PacketRecord ℚ)) (m : AggregatedMetrics) :
    List (List ℚ × List (Option ℚ)) :=
  (m.tcp.elim [] fun tcp =>
    [(initialRtts (tcpConnections (tcpPackets packets)),
        [tcp.tcpInitialRttP50Ms, tcp.tcpInitialRttP95Ms]),
      (ackRtts (tcpPackets packets),
        [tcp.tcpAckRttMinMs, tcp.tcpAckRttP50Ms, tcp.tcpAckRttP95Ms])])
  ++ (m.quic.elim [] fun quic =>
    [(quicInitialRtts (quicPackets packets),
        [quic.quicInitialRttP50Ms, quic.quicInitialRttP95Ms]),
      (quicSpinSamples (quicPackets packets),
        [quic.quicSpinRttMinMs, quic.quicSpinRttP50Ms, quic.quicSpinRttP95Ms])])
  ++ (m.udp.elim [] fun udp =>
    [(payloadSizes ((ipPackets packets).filter (·.isOtherUdp)),
        [udp.udpPayloadSizeP50, udp.udpPayloadSizeP95])])
  ++ (m.dns.elim [] fun dns =>
    [(dnsRtts (packets.filter (·.dnsIsResponse.isSome)), [dns.dnsRttP50Ms, dns.dnsRttP95Ms])])
  ++ [(throughputWindows packets,
        [m.transfer.p95Of1sNetworkThroughputMbps, m.transfer.peak1sNetworkThroughputMbps])]

/-- A block of metrics that is only there for some packets. -/
theorem mem_block {α β γ : Type} {p : Prop} [Decidable p] {block : γ} {f : γ → List (α × β)}
    {e : α × β} (he : e ∈ (if p then none else some block : Option γ).elim [] f) : e ∈ f block := by
  split at he
  · cases he
  · exact he

/-- The two percentiles that are reported stand in order between the extrema. -/
theorem ascending_p50_p95 (values : List ℚ) :
    Ascending [values.min?, percentile values p50, percentile values p95, values.max?] := by
  have hle : p50.value ≤ p95.value := by decide
  simp [Ascending, min?_before_percentile, percentile_before_max?, min?_before_max?,
    percentile_before hle]

theorem Ascending.refl_cons {x : Option ℚ} {xs : List (Option ℚ)} (h : Ascending (x :: xs)) :
    Ascending (x :: x :: xs) := by
  refine List.pairwise_cons.mpr ⟨fun y hy => ?_, h⟩
  rcases List.mem_cons.mp hy with rfl | hy
  · exact Before.refl y
  · exact (List.pairwise_cons.mp h).1 y hy

section

variable {captureFormat : CaptureFormat} {captureSizeBytes : ℤ} {scenario : Scenario}
  {transferFileSizeBytes : ℤ} {supportedFields : Option (List String)}

theorem sampledMetrics_ascending (packets : List (PacketRecord ℚ)) {e : List ℚ × List (Option ℚ)}
    (he : e ∈ sampledMetrics packets (aggregated packets captureFormat captureSizeBytes scenario
      transferFileSizeBytes supportedFields)) :
    Ascending (e.1.min? :: e.2 ++ [e.1.max?]) := by
  have hpair := ascending_p50_p95
  have hmin : ∀ values : List ℚ, Ascending [values.min?, values.min?, percentile values p50,
      percentile values p95, values.max?] := fun values => (hpair values).refl_cons
  have hpeak : ∀ values : List ℚ, Ascending [values.min?, percentile values p95, values.max?,
      values.max?] := by
    intro values
    simp [Ascending, min?_before_percentile, percentile_before_max?, min?_before_max?, Before.refl]
  simp only [sampledMetrics, aggregated, aggregateTcp, aggregateQuic, aggregateUdp, aggregateDns,
    List.mem_append] at he
  rcases he with (((htcp | hquic) | hudp) | hdns) | hthroughput
  · have htcp := mem_block htcp
    rcases List.mem_pair.mp htcp with rfl | rfl
    · exact hpair _
    · exact hmin _
  · have hquic := mem_block hquic
    rcases List.mem_pair.mp hquic with rfl | rfl
    · exact hpair _
    · exact hmin _
  · have hudp := mem_block hudp
    obtain rfl := List.mem_singleton.mp hudp
    exact hpair _
  · have hdns := mem_block hdns
    obtain rfl := List.mem_singleton.mp hdns
    exact hpair _
  · obtain rfl := List.mem_singleton.mp hthroughput
    exact hpeak _

end

/-- The nearest-rank percentile is the least of the values that `p` percent of them do not
exceed; it is the same for every order of the values and does not fall when `p` rises, so
what is reported of a metric stands in order between the least and the greatest sample. -/
theorem percentile_nearestRank (values : List ℚ) (hne : values ≠ []) :
    (∀ p : Percentile, ∃ v ∈ values, percentile values p = some v ∧ p.Covers values v ∧
      ∀ w ∈ values, w < v → ¬p.Covers values w) ∧
    (∀ (p : Percentile) (others : List ℚ), values.Perm others →
      percentile others p = percentile values p) ∧
    (∀ p q : Percentile, p.value ≤ q.value → ∃ v w, percentile values p = some v ∧
      percentile values q = some w ∧ v ≤ w) ∧
    Ascending [values.min?, percentile values p50, percentile values p95, values.max?] ∧
    ∀ (packets : List (PacketRecord ℚ)) (captureFormat : CaptureFormat) (captureSizeBytes : ℤ)
      (scenario : Scenario) (transferFileSizeBytes : ℤ) (supportedFields : Option (List String)),
      ∀ e ∈ sampledMetrics packets (aggregated packets captureFormat captureSizeBytes scenario
        transferFileSizeBytes supportedFields), Ascending (e.1.min? :: e.2 ++ [e.1.max?]) := by
  refine ⟨fun p => ?_, fun p others h => percentile_perm h.symm p, fun p q h => ?_,
    ascending_p50_p95 values, fun packets _ _ _ _ _ e he => sampledMetrics_ascending packets he⟩
  · obtain ⟨v, hv, hleast⟩ := percentile_isLeast p hne
    have hmem : v ∈ values := mem_of_percentile hv
    refine ⟨v, hmem, hv, (Percentile.covers_iff hmem).mpr hleast.1.2, fun w hw hlt hcovers => ?_⟩
    exact absurd (hleast.2 ⟨hw, (Percentile.covers_iff hw).mp hcovers⟩) (not_le.mpr hlt)
  · obtain ⟨v, hv, -⟩ := percentile_isLeast p hne
    obtain ⟨w, hw, -⟩ := percentile_isLeast q hne
    exact ⟨v, w, hv, hw, percentile_mono h hv hw⟩

theorem percentile_nearestRank_three_values :
    percentile [3, 1, 2] p50 = some 2 ∧ (∃ v ∈ [(3 : ℚ), 1, 2],
      percentile [3, 1, 2] p50 = some v ∧ p50.Covers [3, 1, 2] v) ∧
      percentile [1, 2, 3] p50 = percentile [3, 1, 2] p50 := by
  obtain ⟨hleast, hperm, -⟩ := percentile_nearestRank [3, 1, 2] (by decide)
  obtain ⟨v, hv, hvalue, hcovers, -⟩ := hleast p50
  exact ⟨by decide +kernel, ⟨v, hv, hvalue, hcovers⟩, hperm p50 [1, 2, 3] (by decide)⟩

end Sahabino
