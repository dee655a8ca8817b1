import Sahabino.StallTime

/-!
# The order of the packets

`aggregate_packets` on two arrangements of the same packets. Counts, sums,
extrema and percentiles see only which values there are. Dictionaries keep
the order of insertion, but their entries are only counted, summed or
sorted. What is left are the scans over the packets of a connection, and
these see the packets in the order of time: where the times of a group are
distinct there is one such order (`sortByTime_perm`).
-/

namespace Sahabino

/-! ## Statistics of permuted values -/

theorem insertionSort_perm {α : Type} {r : α → α → Prop} [DecidableRel r] [IsTrans α r]
    [Std.Total r] [Std.Antisymm r] {xs ys : List α} (h : xs.Perm ys) :
    xs.insertionSort r = ys.insertionSort r := by
  have hperm : (xs.insertionSort r).Perm (ys.insertionSort r) :=
    (List.perm_insertionSort r xs).trans (h.trans (List.perm_insertionSort r ys).symm)
  refine List.Perm.eq_of_pairwise (fun a b _ _ hab hba => ?_)
    (List.pairwise_insertionSort r xs) (List.pairwise_insertionSort r ys) hperm
  exact antisymm_of r hab hba

theorem min?_perm {xs ys : List ℚ} (h : xs.Perm ys) : xs.min? = ys.min? := by
  cases hx : xs.min? with
  | none =>
      rw [List.min?_eq_none_iff] at hx
      subst hx
      rw [h.symm.eq_nil]
      rfl
  | some a =>
      rw [List.min?_eq_some_iff] at hx
      exact (List.min?_eq_some_iff.mpr
        ⟨h.mem_iff.mp hx.1, fun b hb => hx.2 b (h.mem_iff.mpr hb)⟩).symm

theorem max?_perm {α : Type} [LinearOrder α] {xs ys : List α} (h : xs.Perm ys) :
    xs.max? = ys.max? := by
  cases hx : xs.max? with
  | none =>
      rw [List.max?_eq_none_iff] at hx
      subst hx
      rw [h.symm.eq_nil]
      rfl
  | some a =>
      rw [List.max?_eq_some_iff] at hx
      exact (List.max?_eq_some_iff.mpr
        ⟨h.mem_iff.mp hx.1, fun b hb => hx.2 b (h.mem_iff.mpr hb)⟩).symm

theorem nil_iff_perm {α : Type} {xs ys : List α} (h : xs.Perm ys) : xs = [] ↔ ys = [] := by
  rw [← List.length_eq_zero_iff, ← List.length_eq_zero_iff, h.length_eq]

theorem percentile_perm {xs ys : List ℚ} (h : xs.Perm ys) (p : Percentile) :
    percentile xs p = percentile ys p := by
  simp only [percentile, nil_iff_perm h, insertionSort_perm h]

theorem average_perm {xs ys : List ℚ} (h : xs.Perm ys) : average xs = average ys := by
  simp only [average, nil_iff_perm h, h.sum_eq, h.length_eq]

theorem spread_perm {xs ys : List ℚ} (h : xs.Perm ys) : spread xs = spread ys := by
  simp only [spread, max?_perm h, min?_perm h]

/-! ## Groups of packets -/

/-- No two packets of one key share a timestamp. -/
def DistinctTimes {κ : Type} (key : PacketRecord ℚ → Option κ)
    (packets : List (PacketRecord ℚ)) : Prop :=
  packets.Pairwise fun p q => ∀ k, key p = some k → key q = some k → p.timestamp ≠ q.timestamp

theorem sortByTime_perm {xs ys : List (PacketRecord ℚ)} (h : xs.Perm ys)
    (htimes : (xs.map (·.timestamp)).Nodup) : sortByTime xs = sortByTime ys := by
  have hx : (sortByTime xs).Perm xs := List.perm_insertionSort _ xs
  have hy : (sortByTime ys).Perm ys := List.perm_insertionSort _ ys
  refine List.Perm.eq_of_pairwise (fun p q hp hq hpq hqp => ?_) (pairwise_sortByTime xs)
    (pairwise_sortByTime ys) (hx.trans (h.trans hy.symm))
  have hq' : q ∈ xs := h.mem_iff.mpr (hy.mem_iff.mp hq)
  exact List.inj_on_of_nodup_map htimes (hx.mem_iff.mp hp) hq' (le_antisymm hpq hqp)

section Groups

variable {κ : Type} [DecidableEq κ] {key : PacketRecord ℚ → Option κ}
  {xs ys : List (PacketRecord ℚ)}

theorem DistinctTimes.nodup_ofKey (h : DistinctTimes key xs) (k : κ) :
    ((Dict.ofKey key k xs).map (·.timestamp)).Nodup := by
  refine List.pairwise_map.mpr ((h.sublist List.filter_sublist).imp_of_mem ?_)
  intro p q hp hq hpq
  exact hpq k (of_decide_eq_true (List.mem_filter.mp hp).2)
    (of_decide_eq_true (List.mem_filter.mp hq).2)

/-- The sorted groups are the same, in some order. -/
theorem groups_perm (h : xs.Perm ys) (hdistinct : DistinctTimes key xs) :
    ((Dict.groups key xs).map fun e => sortByTime e.2).Perm
      ((Dict.groups key ys).map fun e => sortByTime e.2) := by
  refine Dict.collect_perm key [] _ [] _ h _ _ fun k _ => ?_
  rw [Dict.foldl_concat, Dict.foldl_concat]
  exact sortByTime_perm (h.filter _) (hdistinct.nodup_ofKey k)

end Groups

/-- The totals of a dictionary are the same, in some order. -/
theorem totals_perm {α κ β : Type} [DecidableEq κ] [AddCommMonoid β] (key : α → Option κ)
    (f : α → β) {xs ys : List α} (h : xs.Perm ys) :
    ((Dict.totals key f xs).map (·.2)).Perm ((Dict.totals key f ys).map (·.2)) := by
  refine Dict.collect_perm key 0 _ 0 _ h _ _ fun k _ => ?_
  rw [Dict.foldl_add, Dict.foldl_add]
  exact congrArg (0 + ·) ((h.filter _).map f).sum_eq

theorem length_totals_perm {α κ β : Type} [DecidableEq κ] [AddCommMonoid β] (key : α → Option κ)
    (f : α → β) {xs ys : List α} (h : xs.Perm ys) :
    (Dict.totals key f xs).length = (Dict.totals key f ys).length := by
  simpa using (totals_perm key f h).length_eq

/-! ## TCP, QUIC, UDP and DNS -/

section Protocols

variable {xs ys : List (PacketRecord ℚ)}

theorem payloadBytes_perm {τ : Type} {xs ys : List (PacketRecord τ)} (h : xs.Perm ys) :
    payloadBytes xs = payloadBytes ys :=
  (h.map _).sum_eq

theorem networkBytes_perm {τ : Type} {xs ys : List (PacketRecord τ)} (h : xs.Perm ys) :
    networkBytes xs = networkBytes ys :=
  (h.map _).sum_eq

theorem tcpConnections_perm (h : xs.Perm ys) (hdistinct : DistinctTimes (·.tcpConnectionKey) xs) :
    (tcpConnections xs).Perm (tcpConnections ys) := by
  have hgroups := (groups_perm h hdistinct).map tcpConnection
  rw [List.map_map, List.map_map] at hgroups
  exact hgroups

theorem tcpMetrics_perm (h : xs.Perm ys) (hdistinct : DistinctTimes (·.tcpConnectionKey) xs) :
    tcpMetrics xs = tcpMetrics ys := by
  have hconnections := tcpConnections_perm h hdistinct
  have hinitial : (initialRtts (tcpConnections xs)).Perm (initialRtts (tcpConnections ys)) :=
    hconnections.filterMap _
  have hack : (ackRtts xs).Perm (ackRtts ys) := h.filterMap _
  have hretransmitted : (xs.filter (·.retransmitted)).Perm (ys.filter (·.retransmitted)) :=
    h.filter _
  simp only [tcpMetrics, hconnections.length_eq, hconnections.countP_eq,
    (hconnections.map _).sum_eq, h.countP_eq, hretransmitted.length_eq, average_perm hinitial,
    percentile_perm hinitial, percentile_perm hack, min?_perm hack, payloadBytes_perm h,
    payloadBytes_perm hretransmitted]

theorem quicFlows_perm (h : xs.Perm ys) (hdistinct : DistinctTimes (·.flowKey) xs) :
    (quicFlows xs).Perm (quicFlows ys) :=
  groups_perm h hdistinct

theorem quicVersions_perm {τ : Type} {xs ys : List (PacketRecord τ)} (h : xs.Perm ys) :
    quicVersions xs = quicVersions ys :=
  insertionSort_perm (h.filterMap _).dedup

theorem quicMetrics_perm (supportedFields : List String) (h : xs.Perm ys)
    (hdistinct : DistinctTimes (·.flowKey) xs) :
    quicMetrics supportedFields xs = quicMetrics supportedFields ys := by
  have hflows := quicFlows_perm h hdistinct
  have hinitial : (quicInitialRtts xs).Perm (quicInitialRtts ys) := hflows.filterMap _
  have hspin : (quicSpinSamples xs).Perm (quicSpinSamples ys) := hflows.flatMap_right _
  simp only [quicMetrics, quicVersions_perm h, hflows.length_eq, h.countP_eq, hspin.length_eq,
    average_perm hinitial, percentile_perm hinitial, percentile_perm hspin, min?_perm hspin]

theorem udpMetrics_perm {τ : Type} {xs ys : List (PacketRecord τ)} (h : xs.Perm ys) :
    udpMetrics xs = udpMetrics ys := by
  have hsizes : (payloadSizes xs).Perm (payloadSizes ys) := h.map _
  have htotals : directionTotals xs = directionTotals ys := (totals_perm _ _ h).sum_eq
  have hflows : (flowDirections xs).length = (flowDirections ys).length := length_totals_perm _ _ h
  simp only [udpMetrics, hflows, h.length_eq, networkBytes_perm h, payloadBytes_perm h,
    percentile_perm hsizes, htotals]

theorem aggregateUdp_perm {τ : Type} {xs ys : List (PacketRecord τ)} (h : xs.Perm ys) :
    aggregateUdp xs = aggregateUdp ys := by
  have hudp : (xs.filter (·.isOtherUdp)).Perm (ys.filter (·.isOtherUdp)) := h.filter _
  simp only [aggregateUdp, nil_iff_perm hudp, udpMetrics_perm hudp]

theorem aggregateDns_perm (h : xs.Perm ys) : aggregateDns xs = aggregateDns ys := by
  have hdns : (xs.filter (·.dnsIsResponse.isSome)).Perm (ys.filter (·.dnsIsResponse.isSome)) :=
    h.filter _
  have hrtts : (dnsRtts (xs.filter (·.dnsIsResponse.isSome))).Perm
      (dnsRtts (ys.filter (·.dnsIsResponse.isSome))) := hdns.filterMap _
  simp only [aggregateDns, dnsMetrics, nil_iff_perm hdns, hdns.countP_eq, percentile_perm hrtts]

end Protocols

/-! ## The whole capture -/

section Bytes

variable {τ : Type} {packets packets' : List (PacketRecord τ)}

theorem ipPackets_perm (h : packets.Perm packets') :
    (ipPackets packets).Perm (ipPackets packets') :=
  h.filter _

theorem directed_perm (h : packets.Perm packets') (direction : PacketDirection) :
    (directed packets direction).Perm (directed packets' direction) :=
  (ipPackets_perm h).filter _

theorem directionAvailable_perm (h : packets.Perm packets') :
    directionAvailable packets = directionAvailable packets' := by
  have hip := ipPackets_perm h
  simp only [directionAvailable, hip.isEmpty_eq, hip.all_eq]

theorem ifDirected_perm {α : Type} (h : packets.Perm packets') (value : α) :
    ifDirected packets value = ifDirected packets' value := by
  simp only [ifDirected, directionAvailable_perm h]

theorem bytesOf_perm (h : packets.Perm packets') (isOf : PacketRecord τ → Bool) :
    bytesOf packets isOf = bytesOf packets' isOf :=
  networkBytes_perm ((ipPackets_perm h).filter _)

theorem trafficMetrics_perm (h : packets.Perm packets') :
    trafficMetrics packets = trafficMetrics packets' := by
  have hip := ipPackets_perm h
  have hdirected := directed_perm h
  have hheader : headerBytes packets = headerBytes packets' := by
    simp only [headerBytes, networkBytes_perm hip, payloadBytes_perm hip]
  simp only [trafficMetrics, hheader, networkBytes_perm hip, payloadBytes_perm hip,
    ifDirected_perm h, networkBytes_perm (hdirected _), payloadBytes_perm (hdirected _),
    (hdirected _).length_eq]

theorem protocolMixMetrics_perm (h : packets.Perm packets') :
    protocolMixMetrics packets = protocolMixMetrics packets' := by
  simp only [protocolMixMetrics, bytesOf_perm h, networkBytes_perm (ipPackets_perm h)]

theorem ipMetrics_perm (h : packets.Perm packets') : ipMetrics packets = ipMetrics packets' := by
  have hip := ipPackets_perm h
  simp only [ipMetrics, hip.countP_eq, hip.length_eq, h.countP_eq]

theorem flowsFor80Percent_perm {d d' : List (FlowKey × ℤ)} (h : (d.map (·.2)).Perm (d'.map (·.2)))
    (totalPayload : ℤ) : flowsFor80Percent d totalPayload = flowsFor80Percent d' totalPayload := by
  have hlength : d.length = d'.length := by simpa using h.length_eq
  simp only [flowsFor80Percent, insertionSort_perm h, hlength]

theorem topFlowPayloadShare_perm (h : packets.Perm packets') :
    topFlowPayloadShare packets = topFlowPayloadShare packets' := by
  have hip := ipPackets_perm h
  have hshares := (totals_perm (·.flowKey) (·.l4PayloadBytes) hip).map fun bytes : ℤ => (bytes : ℚ)
  rw [List.map_map, List.map_map] at hshares
  simp only [topFlowPayloadShare, payloadBytes_perm hip]
  exact congrArg (Option.bind · _) (max?_perm hshares)

theorem flowMetrics_perm (h : packets.Perm packets') (transferFileSizeBytes : ℤ) :
    flowMetrics packets transferFileSizeBytes = flowMetrics packets' transferFileSizeBytes := by
  have hip := ipPackets_perm h
  have hflows : ((flowPayload (ipPackets packets)).map (·.2)).Perm
      ((flowPayload (ipPackets packets')).map (·.2)) := totals_perm _ _ hip
  have hcount : (flowPayload (ipPackets packets)).length =
      (flowPayload (ipPackets packets')).length := length_totals_perm _ _ hip
  have hremote : (remoteIps packets).Perm (remoteIps packets') := (hip.filterMap _).dedup
  simp only [flowMetrics, hcount, ifDirected_perm h, hremote.length_eq,
    topFlowPayloadShare_perm h, flowsFor80Percent_perm hflows, payloadBytes_perm hip]

end Bytes

section Times

variable {packets packets' : List (PacketRecord ℚ)}

theorem durationMs_perm (h : packets.Perm packets') : durationMs packets = durationMs packets' := by
  simp only [durationMs, spread_perm (h.map _)]

theorem throughputWindows_perm (h : packets.Perm packets') :
    (throughputWindows packets).Perm (throughputWindows packets') := by
  have hwindows := (totals_perm (fun p : PacketRecord ℚ => some ⌊p.timestamp⌋) (·.networkBytes)
    (ipPackets_perm h)).map fun bytes : ℤ => (bytes : ℚ) * 8 / 1000000
  rw [List.map_map, List.map_map] at hwindows
  exact hwindows

theorem primarySpread_perm (h : packets.Perm packets') (scenario : Scenario) :
    primarySpread packets scenario = primarySpread packets' scenario := by
  have htimes : (primaryPayloadTimes packets scenario).Perm
      (primaryPayloadTimes packets' scenario) := ((ipPackets_perm h).filter _).map _
  simp only [primarySpread, directionAvailable_perm h, spread_perm htimes]

theorem primarySpanMs_perm (h : packets.Perm packets') (scenario : Scenario) :
    primarySpanMs packets scenario = primarySpanMs packets' scenario := by
  simp only [primarySpanMs, primarySpread_perm h]

theorem transferMetrics_perm (h : packets.Perm packets') (scenario : Scenario)
    (transferFileSizeBytes : ℤ) : transferMetrics packets scenario transferFileSizeBytes =
      transferMetrics packets' scenario transferFileSizeBytes := by
  have hwindows := throughputWindows_perm h
  simp only [transferMetrics, primarySpanMs_perm h, durationMs_perm h,
    networkBytes_perm (ipPackets_perm h), max?_perm hwindows, percentile_perm hwindows,
    primaryNetwork, reverseNetwork, ifDirected_perm h, networkBytes_perm (directed_perm h _)]

theorem truncatedCount_perm (h : packets.Perm packets') :
    truncatedCount packets = truncatedCount packets' :=
  h.countP_eq _

theorem comparisonReady_perm (h : packets.Perm packets') (scenario : Scenario) :
    comparisonReady packets scenario = comparisonReady packets' scenario := by
  rw [comparisonReady, h.isEmpty_eq, durationMs_perm h, truncatedCount_perm h,
    directionAvailable_perm h, primarySpanMs_perm h]
  rfl

theorem tcpPackets_perm (h : packets.Perm packets') :
    (tcpPackets packets).Perm (tcpPackets packets') :=
  (ipPackets_perm h).filter _

theorem quicPackets_perm (h : packets.Perm packets') :
    (quicPackets packets).Perm (quicPackets packets') :=
  (ipPackets_perm h).filter _

variable (htcp : DistinctTimes (·.tcpConnectionKey) (tcpPackets packets))

include htcp

theorem tcpWarnings_perm (h : packets.Perm packets') :
    tcpWarnings packets = tcpWarnings packets' := by
  have htcp' := tcpPackets_perm h
  have hconnections := tcpConnections_perm htcp' htcp
  have hcompleted := hconnections.countP_eq (·.completed)
  simp only [tcpWarnings, nil_iff_perm htcp', hconnections.any_eq]
  rw [hcompleted]

variable (hquic : DistinctTimes (·.flowKey) (quicPackets packets))

include hquic

theorem analysisWarnings_perm (h : packets.Perm packets') (scenario : Scenario) :
    analysisWarnings packets scenario = analysisWarnings packets' scenario := by
  have hquic' := quicPackets_perm h
  have hspin : (quicSpinSamples (quicPackets packets)).Perm
      (quicSpinSamples (quicPackets packets')) := (quicFlows_perm hquic' hquic).flatMap_right _
  rw [analysisWarnings, truncatedCount_perm h, directionAvailable_perm h, primarySpread_perm h,
    tcpWarnings_perm htcp h, hquic'.isEmpty_eq, hspin.isEmpty_eq, aggregateDns_perm h]
  rfl

theorem networkCapabilities_perm (h : packets.Perm packets') (scenario : Scenario)
    (supportedFields : Option (List String)) :
    networkCapabilities packets scenario supportedFields =
      networkCapabilities packets' scenario supportedFields := by
  have htcp' := tcpPackets_perm h
  have hquic' := quicPackets_perm h
  have hinitial : (initialRtts (tcpConnections (tcpPackets packets))).Perm
      (initialRtts (tcpConnections (tcpPackets packets'))) :=
    (tcpConnections_perm htcp' htcp).filterMap _
  have hack : (ackRtts (tcpPackets packets)).Perm (ackRtts (tcpPackets packets')) :=
    htcp'.filterMap _
  have hflows := quicFlows_perm hquic' hquic
  have hquicInitial : (quicInitialRtts (quicPackets packets)).Perm
      (quicInitialRtts (quicPackets packets')) := hflows.filterMap _
  have hspin : (quicSpinSamples (quicPackets packets)).Perm
      (quicSpinSamples (quicPackets packets')) := hflows.flatMap_right _
  simp only [networkCapabilities, aggregateTcp, aggregateQuic, tcpRttAvailable,
    directionAvailable_perm h, nil_iff_perm htcp', tcpMetrics_perm htcp' htcp, nil_iff_perm hquic',
    quicMetrics_perm _ hquic' hquic, aggregateUdp_perm (ipPackets_perm h), hinitial.isEmpty_eq,
    hack.isEmpty_eq, hquicInitial.isEmpty_eq, hspin.isEmpty_eq, aggregateDns_perm h,
    comparisonReady_perm h]

theorem aggregated_perm (h : packets.Perm packets') (captureFormat : CaptureFormat)
    (captureSizeBytes : ℤ) (scenario : Scenario) (transferFileSizeBytes : ℤ)
    (supportedFields : Option (List String)) :
    aggregated packets captureFormat captureSizeBytes scenario transferFileSizeBytes
        supportedFields =
      aggregated packets' captureFormat captureSizeBytes scenario transferFileSizeBytes
        supportedFields := by
  have htcp' := tcpPackets_perm h
  have hquic' := quicPackets_perm h
  simp only [aggregated, captureMetrics, warningTuple, aggregateTcp, aggregateQuic,
    truncatedCount_perm h, h.length_eq, durationMs_perm h, analysisWarnings_perm htcp hquic h,
    networkCapabilities_perm htcp hquic h, trafficMetrics_perm h, protocolMixMetrics_perm h,
    ipMetrics_perm h, flowMetrics_perm h, transferMetrics_perm h, nil_iff_perm htcp',
    tcpMetrics_perm htcp' htcp, nil_iff_perm hquic', quicMetrics_perm _ hquic' hquic,
    aggregateUdp_perm (ipPackets_perm h), aggregateDns_perm h]

end Times

/-- Where the packets of a TCP connection and the QUIC packets of a flow have
distinct times, the order of a capture's packets does not show in its metrics. -/
theorem order_independent {packets packets' : List (PacketRecord ℚ)}
    (htcp : DistinctTimes (·.tcpConnectionKey) (tcpPackets packets))
    (hquic : DistinctTimes (·.flowKey) (quicPackets packets)) (h : packets.Perm packets')
    (captureFormat : CaptureFormat) (captureSizeBytes : ℤ) (scenario : Scenario)
    (transferFileSizeBytes : ℤ) (supportedFields : Option (List String)) :
    aggregatePackets packets captureFormat captureSizeBytes scenario transferFileSizeBytes
        supportedFields =
      aggregatePackets packets' captureFormat captureSizeBytes scenario transferFileSizeBytes
        supportedFields := by
  simp only [aggregatePackets, aggregated_perm htcp hquic h]

theorem DistinctTimes.of_pairwise {κ : Type} {key : PacketRecord ℚ → Option κ}
    {packets : List (PacketRecord ℚ)} (h : packets.Pairwise (·.timestamp ≠ ·.timestamp)) :
    DistinctTimes key packets :=
  h.imp fun hne _ _ _ => hne

namespace Sample

/-- A packet that a client sends to a server. -/
def sent (timestamp : ℚ) (transport : Transport) : PacketRecord ℚ where
  timestamp := timestamp
  frameLen := 74
  capturedLen := 74
  direction := some .tx
  ipVersion := some 4
  networkBytes := 60
  srcIp := some "10.0.0.2"
  dstIp := some "192.0.2.1"
  srcPort := some 50000
  dstPort := some 443
  transport := transport
  l4PayloadBytes := 20

/-- A packet that the server sends back. -/
def received (timestamp : ℚ) (transport : Transport) : PacketRecord ℚ :=
  { sent timestamp transport with
    direction := some .rx, srcIp := some "192.0.2.1", dstIp := some "10.0.0.2"
    srcPort := some 443, dstPort := some 50000 }

/-- A TCP handshake and the first two packets of a QUIC flow. -/
def twoOpenings : List (PacketRecord ℚ) :=
  [{ sent 0 .tcp with tcpSyn := true },
    { received (1 / 10) .tcp with tcpSyn := true, tcpAck := true },
    { sent (2 / 10) .tcp with tcpAck := true },
    { sent (1 / 10) .udp with quic := true, quicVersion := some "0x00000001" },
    { received (3 / 10) .udp with quic := true, quicVersion := some "0x00000001" }]

end Sample

open Sample in
theorem order_independent_twoOpenings :
    aggregatePackets twoOpenings .pcap 400 .upload 200 none =
        aggregatePackets twoOpenings.reverse .pcap 400 .upload 200 none ∧
      ((aggregated twoOpenings .pcap 400 .upload 200 none).tcp.map
        (·.tcpSuccessfulHandshakeCount)) = some 1 ∧
      (aggregated twoOpenings .pcap 400 .upload 200 none).quic.bind (·.quicVersionsSeen) =
        some ["0x00000001"] := by
  have htcp : (tcpPackets twoOpenings).Pairwise (·.timestamp ≠ ·.timestamp) := by decide +kernel
  have hquic : (quicPackets twoOpenings).Pairwise (·.timestamp ≠ ·.timestamp) := by decide +kernel
  refine ⟨?_, by decide +kernel, by decide +kernel⟩
  exact order_independent (.of_pairwise htcp) (.of_pairwise hquic)
    (List.reverse_perm twoOpenings).symm .pcap 400 .upload 200 none

end Sahabino
