import Mathlib.Algebra.Order.Monoid.Prod
import Sahabino.StallTime

/-!
# The range of the metrics

Every float of the result is a count, a sum, a quotient or a member of a
list of samples, so its range follows from that of the samples and from
which packets a numerator shares with its denominator. One lemma for each
model says which of its arguments are accepted; all but one are.
-/

namespace Sahabino

/-! ## Ranges -/

/-- `None`, or not negative. -/
def NonNeg (x : Option ℚ) : Prop := ∀ v, x = some v → 0 ≤ v

/-- `None`, or a fraction. -/
def InUnit (x : Option ℚ) : Prop := ∀ v, x = some v → 0 ≤ v ∧ v ≤ 1

@[simp]
theorem accepted_nonNegativeFloat {x : Option ℚ} :
    (Argument.nonNegativeFloat x).accepted = true ↔ NonNeg x := by
  cases x <;> simp [Argument.accepted, NonNeg]

@[simp]
theorem accepted_ratio {x : Option ℚ} : (Argument.ratio x).accepted = true ↔ InUnit x := by
  cases x <;> simp [Argument.accepted, InUnit]

@[simp]
theorem accepted_natCast (n : ℕ) : (Argument.nonNegativeInt (some (n : ℤ))).accepted = true := by
  simp [Argument.accepted]

@[simp]
theorem accepted_map_natCast (n : Option ℕ) :
    (Argument.nonNegativeInt (n.map Nat.cast)).accepted = true := by
  cases n <;> simp [Argument.accepted]

@[simp]
theorem accepted_some_int {n : ℤ} : (Argument.nonNegativeInt (some n)).accepted = true ↔ 0 ≤ n := by
  simp [Argument.accepted]

theorem accepted_option_int {n : Option ℤ} (h : ∀ v, n = some v → 0 ≤ v) :
    (Argument.nonNegativeInt n).accepted = true := by
  cases n with
  | none => rfl
  | some n => exact decide_eq_true (h n rfl)

theorem nonNeg_some {x : ℚ} (h : 0 ≤ x) : NonNeg (some x) := by
  rintro _ ⟨⟩
  exact h

theorem inUnit_ratio {a b : ℚ} (ha : 0 ≤ a) (hab : a ≤ b) : InUnit (ratio a b) := by
  intro v hv
  refine ⟨?_, ratio_le_one hab hv⟩
  rw [ratio] at hv
  split at hv
  · cases hv
  · rename_i hb
    rw [← Option.some.inj hv]
    exact div_nonneg ha (not_le.mp hb).le

theorem nonNeg_ratio {a b : ℚ} (ha : 0 ≤ a) : NonNeg (ratio a b) := by
  intro v hv
  rw [ratio] at hv
  split at hv
  · cases hv
  · rename_i hb
    rw [← Option.some.inj hv]
    exact div_nonneg ha (not_le.mp hb).le

/-- A percentile is one of the values. -/
theorem mem_of_percentile {values : List ℚ} {p : Percentile} {v : ℚ}
    (h : percentile values p = some v) : v ∈ values := by
  rw [percentile] at h
  split at h
  · cases h
  · exact (List.mem_insertionSort _).mp (List.mem_of_getElem? h)

section Samples

variable {values : List ℚ} (h : ∀ v ∈ values, 0 ≤ v)
include h

theorem nonNeg_percentile (p : Percentile) : NonNeg (percentile values p) :=
  fun v hv => h v (mem_of_percentile hv)

theorem nonNeg_average : NonNeg (average values) := by
  intro v hv
  rw [average] at hv
  split at hv
  · cases hv
  · rw [← Option.some.inj hv]
    exact div_nonneg (List.sum_nonneg h) (Nat.cast_nonneg _)

theorem nonNeg_min? : NonNeg values.min? := fun v hv => h v (List.min?_mem hv)

theorem nonNeg_max? : NonNeg values.max? := fun v hv => h v (List.max?_mem hv)

theorem nonNeg_tailInflation :
    NonNeg (tailInflation (percentile values p50) (percentile values p95)) := by
  intro v hv
  unfold tailInflation at hv
  split at hv
  · rename_i high low hhigh hlow
    split at hv
    · cases hv
    · rw [← Option.some.inj hv]
      exact div_nonneg (h _ (mem_of_percentile hhigh)) (h _ (mem_of_percentile hlow))
  · cases hv

end Samples

/-- The bytes and times of a record are not negative. -/
structure PacketRecord.NonNegative (p : PacketRecord ℚ) : Prop where
  networkBytes : 0 ≤ p.networkBytes
  l4PayloadBytes : 0 ≤ p.l4PayloadBytes
  tcpInitialRtt : NonNeg p.tcpInitialRttSeconds
  tcpAckRtt : NonNeg p.tcpAckRttSeconds
  dnsTime : NonNeg p.dnsTimeSeconds

section Sums

variable {τ α : Type}

theorem sum_map_filter_le {xs : List α} {f : α → ℤ} (h : ∀ x ∈ xs, 0 ≤ f x) (keep : α → Bool) :
    ((xs.filter keep).map f).sum ≤ (xs.map f).sum := by
  refine List.Sublist.sum_le_sum (List.filter_sublist.map f) fun y hy => ?_
  obtain ⟨x, hx, rfl⟩ := List.mem_map.mp hy
  exact h x hx

theorem sum_map_nonneg {xs : List α} {f : α → ℤ} (h : ∀ x ∈ xs, 0 ≤ f x) :
    0 ≤ (xs.map f).sum := by
  refine List.sum_nonneg fun y hy => ?_
  obtain ⟨x, hx, rfl⟩ := List.mem_map.mp hy
  exact h x hx

theorem countP_le_length_rat (p : α → Bool) (xs : List α) : ((xs.countP p : ℕ) : ℚ) ≤ xs.length :=
  Nat.cast_le.mpr List.countP_le_length

end Sums

/-! ## Each group -/

theorem ms_nonneg {x : ℚ} (h : 0 ≤ x) : 0 ≤ ms x := mul_nonneg h (by norm_num)

theorem filterMap_ms_nonneg {α : Type} {xs : List α} {f : α → Option ℚ}
    (h : ∀ x ∈ xs, NonNeg (f x)) : ∀ v ∈ xs.filterMap (fun x => (f x).map ms), 0 ≤ v := by
  intro v hv
  obtain ⟨x, hx, hmap⟩ := List.mem_filterMap.mp hv
  obtain ⟨t, ht, rfl⟩ := Option.map_eq_some_iff.mp hmap
  exact ms_nonneg (h x hx t ht)

/-- Spin samples are distances. -/
theorem SpinState.step_nonneg {s : SpinState} (h : ∀ v ∈ s.samples, 0 ≤ v) (p : PacketRecord ℚ) :
    ∀ v ∈ (s.step p).samples, 0 ≤ v := by
  intro v hv
  unfold SpinState.step at hv
  split at hv
  · simp only at hv
    split at hv
    · split at hv
      · exact h v hv
      · rcases List.mem_append.mp hv with hv | hv
        · exact h v hv
        · rw [List.mem_singleton.mp hv]
          exact le_max_left _ _
    · exact h v hv
  · exact h v hv

theorem spinSamples_nonneg (records : List (PacketRecord ℚ)) :
    ∀ v ∈ spinSamples records, 0 ≤ v := by
  have hrun : ∀ (rest : List (PacketRecord ℚ)) (s : SpinState), (∀ v ∈ s.samples, 0 ≤ v) →
      ∀ v ∈ (rest.foldl SpinState.step s).samples, 0 ≤ v := by
    intro rest
    induction rest with
    | nil => exact fun _ h => h
    | cons p rest ih => exact fun s h => ih (s.step p) (SpinState.step_nonneg h p)
  exact hrun records _ (by simp)

/-- QUIC takes no numbers from the packets that could be negative. -/
theorem quic_accepted (supportedFields : List String) (packets : List (PacketRecord ℚ)) :
    ∀ a ∈ (quicMetrics supportedFields packets).arguments, a.2.accepted = true := by
  have hinitial : ∀ v ∈ quicInitialRtts packets, 0 ≤ v := by
    intro v hv
    obtain ⟨records, -, hrtt⟩ := List.mem_filterMap.mp hv
    unfold quicInitialRtt at hrtt
    split at hrtt
    · rw [← Option.some.inj hrtt]
      exact ms_nonneg (abs_nonneg _)
    · cases hrtt
  have hspin : ∀ v ∈ quicSpinSamples packets, 0 ≤ v := by
    intro v hv
    obtain ⟨records, -, hmem⟩ := List.mem_flatMap.mp hv
    exact spinSamples_nonneg records v hmem
  have hsamples : NonNeg (quicMetrics supportedFields packets).quicInitialRttAvgMs ∧
      NonNeg (quicMetrics supportedFields packets).quicInitialRttP50Ms ∧
      NonNeg (quicMetrics supportedFields packets).quicInitialRttP95Ms ∧
      NonNeg (quicMetrics supportedFields packets).quicSpinRttMinMs ∧
      NonNeg (quicMetrics supportedFields packets).quicSpinRttP50Ms ∧
      NonNeg (quicMetrics supportedFields packets).quicSpinRttP95Ms :=
    ⟨nonNeg_average hinitial, nonNeg_percentile hinitial _, nonNeg_percentile hinitial _,
      nonNeg_min? hspin, nonNeg_percentile hspin _, nonNeg_percentile hspin _⟩
  have hversions : (Argument.strings
      (quicMetrics supportedFields packets).quicVersionsSeen).accepted
      = true := rfl
  simp [QuicMetrics.arguments, hsamples, hversions]

section Groups

variable {packets : List (PacketRecord ℚ)} (h : ∀ p ∈ packets, p.NonNegative)
include h

theorem initialRtts_nonneg : ∀ v ∈ initialRtts (tcpConnections packets), 0 ≤ v := by
  intro v hv
  obtain ⟨c, hc, hrtt⟩ := List.mem_filterMap.mp hv
  obtain ⟨e, he, rfl⟩ := List.mem_map.mp hc
  obtain ⟨t, ht, rfl⟩ := Option.map_eq_some_iff.mp hrtt
  obtain ⟨p, hp, hpt⟩ := List.exists_of_findSome?_eq_some ht
  have hmem : p ∈ packets := Dict.mem_of_mem_group he ((List.mem_insertionSort _).mp hp)
  exact ms_nonneg ((h p hmem).tcpInitialRtt t hpt)

theorem payloadBytes_nonneg : 0 ≤ payloadBytes packets :=
  sum_map_nonneg fun p hp => (h p hp).l4PayloadBytes

theorem networkBytes_nonneg : 0 ≤ networkBytes packets :=
  sum_map_nonneg fun p hp => (h p hp).networkBytes

theorem nonNegative_filter (keep : PacketRecord ℚ → Bool) :
    ∀ p ∈ packets.filter keep, p.NonNegative :=
  fun p hp => h p (List.mem_of_mem_filter hp)

theorem networkBytes_filter_le (keep : PacketRecord ℚ → Bool) :
    networkBytes (packets.filter keep) ≤ networkBytes packets :=
  sum_map_filter_le (fun p hp => (h p hp).networkBytes) keep

theorem payloadBytes_filter_le (keep : PacketRecord ℚ → Bool) :
    payloadBytes (packets.filter keep) ≤ payloadBytes packets :=
  sum_map_filter_le (fun p hp => (h p hp).l4PayloadBytes) keep

/-- Every TCP argument but one is in range. -/
theorem tcp_accepted : ∀ a ∈ (tcpMetrics packets).arguments,
    a.1 ≠ "tcp_retransmission_rate" → a.2.accepted = true := by
  have hinitial := initialRtts_nonneg h
  have hack : ∀ v ∈ ackRtts packets, 0 ≤ v := filterMap_ms_nonneg fun p hp => (h p hp).tcpAckRtt
  have hpayload := payloadBytes_nonneg (nonNegative_filter h (·.retransmitted))
  have hstall : 0 ≤ ((tcpConnections packets).map (·.stallMs)).sum := by
    refine List.sum_nonneg fun x hx => ?_
    obtain ⟨c, hc, rfl⟩ := List.mem_map.mp hx
    exact (tcpConnection_mem hc).1
  have hstalls := stallTotal_le_activeTotal packets
  have htax : InUnit (tcpMetrics packets).tcpRecoveryTax :=
    inUnit_ratio (by exact_mod_cast hpayload) (by exact_mod_cast payloadBytes_filter_le h _)
  have hrate : InUnit (tcpMetrics packets).tcpHandshakeSuccessRate :=
    inUnit_ratio (Nat.cast_nonneg _) (countP_le_length_rat _ _)
  have hreset : InUnit (tcpMetrics packets).tcpResetRate :=
    inUnit_ratio (Nat.cast_nonneg _) (countP_le_length_rat _ _)
  have hratio : InUnit (tcpMetrics packets).tcpReceiverStallRatio := inUnit_ratio hstall hstalls
  have hsamples : NonNeg (tcpMetrics packets).tcpInitialRttAvgMs ∧
      NonNeg (tcpMetrics packets).tcpInitialRttP50Ms ∧
      NonNeg (tcpMetrics packets).tcpInitialRttP95Ms ∧
      NonNeg (tcpMetrics packets).tcpAckRttMinMs ∧ NonNeg (tcpMetrics packets).tcpAckRttP50Ms ∧
      NonNeg (tcpMetrics packets).tcpAckRttP95Ms ∧
      NonNeg (tcpMetrics packets).tcpRttTailInflation :=
    ⟨nonNeg_average hinitial, nonNeg_percentile hinitial _, nonNeg_percentile hinitial _,
      nonNeg_min? hack, nonNeg_percentile hack _, nonNeg_percentile hack _,
      nonNeg_tailInflation hack⟩
  have htotals : 0 ≤ (tcpMetrics packets).tcpRetransmittedPayloadBytes ∧
      NonNeg (some (tcpMetrics packets).tcpZeroWindowDurationMs) ∧
      NonNeg (some (tcpMetrics packets).tcpActiveDurationMs) :=
    ⟨hpayload, nonNeg_some hstall, nonNeg_some (hstall.trans hstalls)⟩
  simp [TcpMetrics.arguments, htax, hrate, hreset, hratio, hsamples, htotals]

theorem udp_accepted : ∀ a ∈ (udpMetrics packets).arguments, a.2.accepted = true := by
  have hsizes : ∀ v ∈ payloadSizes packets, 0 ≤ v := by
    intro v hv
    obtain ⟨p, hp, rfl⟩ := List.mem_map.mp hv
    exact_mod_cast (h p hp).l4PayloadBytes
  have htotals : 0 ≤ directionTotals packets := by
    rw [directionTotals, flowDirections, Dict.sum_totals]
    refine List.sum_nonneg fun pair hpair => ?_
    obtain ⟨p, hp, rfl⟩ := List.mem_map.mp hpair
    have hbytes := (h p (List.mem_of_mem_filter hp)).networkBytes
    unfold PacketRecord.directionalBytes
    split
    · split
      · exact Prod.le_def.mpr ⟨hbytes, le_rfl⟩
      · exact Prod.le_def.mpr ⟨le_rfl, hbytes⟩
    · exact le_rfl
  have hbalance : InUnit (udpMetrics packets).udpBidirectionalByteRatio := by
    intro v hv
    simp only [udpMetrics, byteBalance] at hv
    split at hv
    · rename_i hlarge
      rw [← Option.some.inj hv]
      have hlarge : (0 : ℚ) <
          (max (directionTotals packets).1 (directionTotals packets).2 : ℤ) := by
        exact_mod_cast hlarge
      have hmin : (0 : ℚ) ≤ (min (directionTotals packets).1 (directionTotals packets).2 : ℤ) := by
        exact_mod_cast le_min (Prod.le_def.mp htotals).1 (Prod.le_def.mp htotals).2
      refine ⟨div_nonneg hmin hlarge.le, (div_le_one hlarge).mpr ?_⟩
      exact_mod_cast min_le_max
    · cases hv
  have hsamples : NonNeg (udpMetrics packets).udpPayloadSizeP50 ∧
      NonNeg (udpMetrics packets).udpPayloadSizeP95 :=
    ⟨nonNeg_percentile hsizes _, nonNeg_percentile hsizes _⟩
  have hbytes : 0 ≤ (udpMetrics packets).udpNetworkBytes ∧
      0 ≤ (udpMetrics packets).udpPayloadBytes :=
    ⟨networkBytes_nonneg h, payloadBytes_nonneg h⟩
  simp [UdpMetrics.arguments, hsamples, hbytes, hbalance]

theorem dns_accepted : ∀ a ∈ (dnsMetrics packets).arguments, a.2.accepted = true := by
  have hrtts : ∀ v ∈ dnsRtts packets, 0 ≤ v := filterMap_ms_nonneg fun p hp => (h p hp).dnsTime
  have hsamples : NonNeg (dnsMetrics packets).dnsRttP50Ms ∧
      NonNeg (dnsMetrics packets).dnsRttP95Ms :=
    ⟨nonNeg_percentile hrtts _, nonNeg_percentile hrtts _⟩
  simp [DnsMetrics.arguments, hsamples]

theorem traffic_accepted : ∀ a ∈ (trafficMetrics packets).arguments, a.2.accepted = true := by
  have hip := nonNegative_filter h (·.isIp)
  have hdirected : ∀ {f : List (PacketRecord ℚ) → ℤ} {direction : PacketDirection},
      (∀ {ps : List (PacketRecord ℚ)}, (∀ p ∈ ps, p.NonNegative) → 0 ≤ f ps) →
      (Argument.nonNegativeInt (ifDirected packets (f (directed packets direction)))).accepted
        = true := by
    intro f direction hf
    refine accepted_option_int fun v hv => ?_
    unfold ifDirected at hv
    split at hv
    · rw [← Option.some.inj hv]
      exact hf (nonNegative_filter hip _)
    · cases hv
  have hpayload := payloadBytes_nonneg hip
  have hnetwork := networkBytes_nonneg hip
  have hheader : headerBytes packets ≤ networkBytes (ipPackets packets) := by
    refine max_le hnetwork ?_
    have : 0 ≤ payloadBytes (ipPackets packets) := hpayload
    omega
  have hratio : InUnit (trafficMetrics packets).ipTransportHeaderOverheadRatio :=
    inUnit_ratio (by exact_mod_cast le_max_left _ _) (by exact_mod_cast hheader)
  have htotals : 0 ≤ (trafficMetrics packets).networkBytesTotal ∧
      0 ≤ (trafficMetrics packets).l4PayloadBytesTotal ∧
      0 ≤ (trafficMetrics packets).ipTransportHeaderBytes :=
    ⟨hnetwork, hpayload, le_max_left _ _⟩
  have htx : (Argument.nonNegativeInt (trafficMetrics packets).txNetworkBytes).accepted = true :=
    hdirected networkBytes_nonneg
  have hrx : (Argument.nonNegativeInt (trafficMetrics packets).rxNetworkBytes).accepted = true :=
    hdirected networkBytes_nonneg
  have htx' : (Argument.nonNegativeInt (trafficMetrics packets).txL4PayloadBytes).accepted = true :=
    hdirected payloadBytes_nonneg
  have hrx' : (Argument.nonNegativeInt (trafficMetrics packets).rxL4PayloadBytes).accepted = true :=
    hdirected payloadBytes_nonneg
  simp [TrafficMetrics.arguments, hratio, htotals, htx, hrx, htx', hrx']

theorem protocolMix_accepted :
    ∀ a ∈ (protocolMixMetrics packets).arguments, a.2.accepted = true := by
  have hip := nonNegative_filter h (·.isIp)
  have hbytes : ∀ isOf : PacketRecord ℚ → Bool, 0 ≤ bytesOf packets isOf :=
    fun isOf => networkBytes_nonneg (nonNegative_filter hip isOf)
  have hparts := fun isOf : PacketRecord ℚ → Bool => networkBytes_filter_le hip isOf
  have hshare : ∀ {a b : ℤ}, 0 ≤ a → a ≤ b → InUnit (ratio a b) := fun ha hab =>
    inUnit_ratio (by exact_mod_cast ha) (by exact_mod_cast hab)
  have htcp := hbytes (·.isTcp)
  have hquic := hbytes (·.quic)
  have hudp := hbytes (·.isOtherUdp)
  have hshares : InUnit (protocolMixMetrics packets).tcpByteShare ∧
      InUnit (protocolMixMetrics packets).quicByteShare ∧
      InUnit (protocolMixMetrics packets).otherUdpByteShare ∧
      InUnit (protocolMixMetrics packets).ipv4ByteShare ∧
      InUnit (protocolMixMetrics packets).ipv6ByteShare :=
    ⟨hshare htcp (by omega), hshare hquic (by omega), hshare hudp (by omega),
      hshare (hbytes _) (hparts _), hshare (hbytes _) (hparts _)⟩
  have htotals : 0 ≤ (protocolMixMetrics packets).tcpBytes ∧
      0 ≤ (protocolMixMetrics packets).quicIdentifiedBytes ∧
      0 ≤ (protocolMixMetrics packets).otherUdpBytes := ⟨htcp, hquic, hudp⟩
  simp [ProtocolMixMetrics.arguments, hshares, htotals]

omit h in
theorem ip_accepted (packets : List (PacketRecord ℚ)) :
    ∀ a ∈ (ipMetrics packets).arguments, a.2.accepted = true := by
  have hrates : InUnit (ipMetrics packets).ipFragmentRate ∧
      InUnit (ipMetrics packets).ecnCePacketRate :=
    ⟨inUnit_ratio (Nat.cast_nonneg _) (countP_le_length_rat _ _),
      inUnit_ratio (Nat.cast_nonneg _) (countP_le_length_rat _ _)⟩
  simp [IpMetrics.arguments, hrates]

theorem flow_accepted {transferFileSizeBytes : ℤ} (hsize : 1 ≤ transferFileSizeBytes) :
    ∀ a ∈ (flowMetrics packets transferFileSizeBytes).arguments, a.2.accepted = true := by
  have hip := nonNegative_filter h (·.isIp)
  have hshare : InUnit (flowMetrics packets transferFileSizeBytes).topFlowPayloadShare := by
    intro v hv
    obtain ⟨largest, hmax, hratio⟩ := Option.bind_eq_some_iff.mp hv
    obtain ⟨⟨k, total⟩, hmem, rfl⟩ := List.mem_map.mp (List.max?_mem hmax)
    obtain ⟨-, htotal⟩ := (Dict.mem_totals _ _ _ _ _).mp hmem
    refine inUnit_ratio ?_ ?_ v hratio
    · simp only [htotal]
      exact_mod_cast payloadBytes_nonneg (nonNegative_filter hip _)
    · simp only [htotal]
      exact_mod_cast payloadBytes_filter_le hip _
  have hchurn : NonNeg
      (some (flowMetrics packets transferFileSizeBytes).connectionChurnPerMib) := by
    refine nonNeg_some (div_nonneg (Nat.cast_nonneg _) (div_nonneg ?_ (by norm_num)))
    exact_mod_cast (by omega : (0 : ℤ) ≤ transferFileSizeBytes)
  simp [FlowMetrics.arguments, hshare, hchurn]

theorem throughputWindows_nonneg : ∀ v ∈ throughputWindows packets, 0 ≤ v := by
  intro v hv
  obtain ⟨⟨second, total⟩, hmem, rfl⟩ := List.mem_map.mp hv
  obtain ⟨-, rfl⟩ := (Dict.mem_totals _ _ _ _ _).mp hmem
  have hbytes : (0 : ℚ) ≤ networkBytes
      (Dict.ofKey (fun p : PacketRecord ℚ => some ⌊p.timestamp⌋) second (ipPackets packets)) := by
    exact_mod_cast networkBytes_nonneg (nonNegative_filter (nonNegative_filter h (·.isIp)) _)
  exact div_nonneg (mul_nonneg hbytes (by norm_num)) (by norm_num)

theorem directedBytes_nonneg {direction : PacketDirection} {v : ℤ}
    (hv : ifDirected packets (networkBytes (directed packets direction)) = some v) :
    (0 : ℚ) ≤ v := by
  unfold ifDirected at hv
  split at hv
  · rw [← Option.some.inj hv]
    exact_mod_cast networkBytes_nonneg (nonNegative_filter (nonNegative_filter h (·.isIp)) _)
  · cases hv

theorem transfer_accepted (scenario : Scenario) {transferFileSizeBytes : ℤ}
    (hsize : 1 ≤ transferFileSizeBytes) :
    ∀ a ∈ (transferMetrics packets scenario transferFileSizeBytes).arguments,
      a.2.accepted = true := by
  have hip := nonNegative_filter h (·.isIp)
  have hfile : (0 : ℚ) ≤ transferFileSizeBytes := by
    exact_mod_cast (by omega : (0 : ℤ) ≤ transferFileSizeBytes)
  have htotal : (0 : ℚ) ≤ networkBytes (ipPackets packets) := by
    exact_mod_cast networkBytes_nonneg hip
  have hwindows := throughputWindows_nonneg h
  have hspan : NonNeg (primarySpanMs packets scenario) := by
    intro v hv
    exact (of_decide_eq_true (Option.filter_eq_some_iff.mp hv).2).le
  have haverage : NonNeg (transferMetrics packets scenario
      transferFileSizeBytes).averageNetworkThroughputMbps := by
    intro v hv
    simp only [transferMetrics] at hv
    split at hv
    · rename_i hseconds
      rw [← Option.some.inj hv]
      exact div_nonneg (div_nonneg (mul_nonneg htotal (by norm_num)) hseconds.le) (by norm_num)
    · cases hv
  have heffective : NonNeg (transferMetrics packets scenario
      transferFileSizeBytes).effectiveFileThroughputMbps := by
    intro v hv
    obtain ⟨span, hsome, rfl⟩ := Option.map_eq_some_iff.mp hv
    have hspan := hspan span hsome
    exact div_nonneg (div_nonneg (mul_nonneg hfile (by norm_num)) (by linarith)) (by norm_num)
  have hprimary : NonNeg (transferMetrics packets scenario
      transferFileSizeBytes).primaryDirectionAmplificationRatio := by
    intro v hv
    obtain ⟨bytes, hsome, rfl⟩ := Option.map_eq_some_iff.mp hv
    exact div_nonneg (directedBytes_nonneg h hsome) hfile
  have hreverse : NonNeg (transferMetrics packets scenario
      transferFileSizeBytes).reversePathCostRatio := by
    intro v hv
    simp only [transferMetrics] at hv
    unfold reversePathCost at hv
    split at hv
    · rename_i reverse primary hr hp
      exact nonNeg_ratio (directedBytes_nonneg h hr) v hv
    · cases hv
  have hothers : NonNeg (transferMetrics packets scenario
        transferFileSizeBytes).observedPrimaryPayloadSpanMs ∧
      NonNeg (transferMetrics packets scenario
        transferFileSizeBytes).peak1sNetworkThroughputMbps ∧
      NonNeg (transferMetrics packets scenario
        transferFileSizeBytes).p95Of1sNetworkThroughputMbps ∧
      NonNeg (some (transferMetrics packets scenario
        transferFileSizeBytes).totalTransferAmplificationRatio) :=
    ⟨hspan, nonNeg_max? hwindows, nonNeg_percentile hwindows _,
      nonNeg_some (div_nonneg htotal hfile)⟩
  simp [TransferMetrics.arguments, haverage, heffective, hprimary, hreverse, hothers]

end Groups

theorem warning_nonBlank (w : AnalysisWarning) :
    (w.text.toList.any fun c => !isWhiteSpace c) = true := by
  cases w <;> decide

theorem capture_accepted (packets : List (PacketRecord ℚ)) (captureFormat : CaptureFormat)
    (scenario : Scenario) {captureSizeBytes transferFileSizeBytes : ℤ}
    (hcapture : 1 ≤ captureSizeBytes) (htransfer : 1 ≤ transferFileSizeBytes) :
    ∀ a ∈ (captureMetrics packets captureFormat captureSizeBytes scenario
      transferFileSizeBytes).arguments, a.2.accepted = true := by
  have hformat : (Argument.literal ["pcap", "pcapng"] captureFormat.text).accepted = true := by
    cases captureFormat <;> decide
  have hsizes : (Argument.positiveInt captureSizeBytes).accepted = true ∧
      (Argument.positiveInt transferFileSizeBytes).accepted = true :=
    ⟨decide_eq_true hcapture, decide_eq_true htransfer⟩
  have hduration : NonNeg (some (durationMs packets)) := nonNeg_some (le_max_left _ _)
  have hwarnings : (Argument.nonBlankStrings (warningTuple packets scenario)).accepted = true := by
    refine List.all_eq_true.mpr fun s hs => ?_
    rw [warningTuple, List.mem_insertionSort, List.mem_dedup] at hs
    obtain ⟨w, -, rfl⟩ := List.mem_map.mp hs
    exact warning_nonBlank w
  simp [CaptureMetrics.arguments, captureMetrics, hformat, hsizes, hduration, hwarnings]

theorem capabilities_accepted (m : NetworkCapabilities) :
    ∀ a ∈ m.arguments, a.2.accepted = true := by
  simp [NetworkCapabilities.arguments, Argument.accepted]

end Sahabino
