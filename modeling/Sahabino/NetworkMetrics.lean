import Sahabino.Events
import Sahabino.Packets

/-!
# Network metrics

`aggregate_packets`: the metric groups of a capture, its warnings, and the
models they are put into.

The structures here are the arguments of the models in `Events.lean`, as
they are computed (`aggregated`). Building a model validates them, so
`aggregatePackets` returns its groups or the first model's error.
-/

namespace Sahabino

/-! ## The whole capture -/

inductive AnalysisWarning where
  | captureTruncated
  | directionUnavailable
  | zeroTransferSpan
  | noPrimaryPayload
  | tcpZeroWindowOpenAtCaptureEnd
  | missingTcpHandshake
  | quicSpinUnavailable
  | dnsIncomplete
deriving DecidableEq, Repr

def AnalysisWarning.text : AnalysisWarning → String
  | captureTruncated => "capture_truncated"
  | directionUnavailable => "direction_unavailable"
  | zeroTransferSpan => "zero_transfer_span"
  | noPrimaryPayload => "no_primary_payload"
  | tcpZeroWindowOpenAtCaptureEnd => "tcp_zero_window_open_at_capture_end"
  | missingTcpHandshake => "missing_tcp_handshake"
  | quicSpinUnavailable => "quic_spin_unavailable"
  | dnsIncomplete => "dns_incomplete"

structure CaptureMetrics where
  captureFormat : CaptureFormat
  captureSizeBytes : ℤ
  transferFileSizeBytes : ℤ
  captureDurationMs : ℚ
  packetCount : ℕ
  truncatedPacketCount : ℕ
  analysisWarningCount : ℕ
  analysisWarnings : List String
deriving DecidableEq

structure NetworkCapabilities where
  directionMetadataAvailable : Bool
  payloadPlaintextAvailable : Bool
  handshakeObserved : Bool
  tcpPresent : Bool
  quicPresent : Bool
  otherUdpPresent : Bool
  tcpRttAvailable : Bool
  quicInitialRttAvailable : Bool
  quicSpinRttAvailable : Bool
  dnsMetricsAvailable : Bool
  comparisonReady : Bool
deriving DecidableEq

structure TrafficMetrics where
  networkBytesTotal : ℤ
  txNetworkBytes : Option ℤ
  rxNetworkBytes : Option ℤ
  l4PayloadBytesTotal : ℤ
  txL4PayloadBytes : Option ℤ
  rxL4PayloadBytes : Option ℤ
  ipTransportHeaderBytes : ℤ
  ipTransportHeaderOverheadRatio : Option ℚ
  txPacketCount : Option ℕ
  rxPacketCount : Option ℕ
deriving DecidableEq

structure ProtocolMixMetrics where
  tcpBytes : ℤ
  quicIdentifiedBytes : ℤ
  otherUdpBytes : ℤ
  tcpByteShare : Option ℚ
  quicByteShare : Option ℚ
  otherUdpByteShare : Option ℚ
  ipv4ByteShare : Option ℚ
  ipv6ByteShare : Option ℚ
deriving DecidableEq

structure IpMetrics where
  ipFragmentCount : ℕ
  ipFragmentRate : Option ℚ
  ecnCePacketCount : ℕ
  ecnCePacketRate : Option ℚ
  icmpErrorCount : ℕ
deriving DecidableEq

structure FlowMetrics where
  flowCount : ℕ
  uniqueRemoteIpCount : Option ℕ
  topFlowPayloadShare : Option ℚ
  flowsFor80pctPayload : ℕ
  connectionChurnPerMib : ℚ
deriving DecidableEq

structure TransferMetrics where
  observedPrimaryPayloadSpanMs : Option ℚ
  averageNetworkThroughputMbps : Option ℚ
  peak1sNetworkThroughputMbps : Option ℚ
  p95Of1sNetworkThroughputMbps : Option ℚ
  effectiveFileThroughputMbps : Option ℚ
  primaryDirectionAmplificationRatio : Option ℚ
  totalTransferAmplificationRatio : ℚ
  reversePathCostRatio : Option ℚ
deriving DecidableEq

structure AggregatedMetrics where
  capture : CaptureMetrics
  capabilities : NetworkCapabilities
  traffic : TrafficMetrics
  protocolMix : ProtocolMixMetrics
  ip : IpMetrics
  flow : FlowMetrics
  transfer : TransferMetrics
  tcp : Option TcpMetrics
  quic : Option QuicMetrics
  udp : Option UdpMetrics
  dns : Option DnsMetrics
deriving DecidableEq

section Bytes

variable {τ : Type} (packets : List (PacketRecord τ))

def ipPackets : List (PacketRecord τ) := packets.filter (·.isIp)

def directionAvailable : Bool :=
  !(ipPackets packets).isEmpty && (ipPackets packets).all (·.direction.isSome)

/-- `value if direction_available else None`. -/
def ifDirected {α : Type} (value : α) : Option α :=
  if directionAvailable packets then some value else none

/-- `tx_packets` or `rx_packets`. -/
def directed (direction : PacketDirection) : List (PacketRecord τ) :=
  (ipPackets packets).filter (·.direction = some direction)

def headerBytes : ℤ :=
  max 0 (networkBytes (ipPackets packets) - payloadBytes (ipPackets packets))

def trafficMetrics : TrafficMetrics where
  networkBytesTotal := networkBytes (ipPackets packets)
  txNetworkBytes := ifDirected packets (networkBytes (directed packets .tx))
  rxNetworkBytes := ifDirected packets (networkBytes (directed packets .rx))
  l4PayloadBytesTotal := payloadBytes (ipPackets packets)
  txL4PayloadBytes := ifDirected packets (payloadBytes (directed packets .tx))
  rxL4PayloadBytes := ifDirected packets (payloadBytes (directed packets .rx))
  ipTransportHeaderBytes := headerBytes packets
  ipTransportHeaderOverheadRatio := ratio (headerBytes packets) (networkBytes (ipPackets packets))
  txPacketCount := ifDirected packets (directed packets .tx).length
  rxPacketCount := ifDirected packets (directed packets .rx).length

/-- The bytes of the IP packets of one class. -/
def bytesOf (isOf : PacketRecord τ → Bool) : ℤ := networkBytes ((ipPackets packets).filter isOf)

def protocolMixMetrics : ProtocolMixMetrics :=
  let tcpBytes := bytesOf packets (·.isTcp)
  let quicBytes := bytesOf packets (·.quic)
  let otherUdpBytes := bytesOf packets (·.isOtherUdp)
  let transportBytes := tcpBytes + quicBytes + otherUdpBytes
  let total := networkBytes (ipPackets packets)
  { tcpBytes := tcpBytes
    quicIdentifiedBytes := quicBytes
    otherUdpBytes := otherUdpBytes
    tcpByteShare := ratio tcpBytes transportBytes
    quicByteShare := ratio quicBytes transportBytes
    otherUdpByteShare := ratio otherUdpBytes transportBytes
    ipv4ByteShare := ratio (bytesOf packets (·.ipVersion = some 4)) total
    ipv6ByteShare := ratio (bytesOf packets (·.ipVersion = some 6)) total }

def ipMetrics : IpMetrics :=
  let fragments := (ipPackets packets).countP (·.ipFragment)
  let marked := (ipPackets packets).countP (·.ecnCe)
  { ipFragmentCount := fragments
    ipFragmentRate := ratio fragments (ipPackets packets).length
    ecnCePacketCount := marked
    ecnCePacketRate := ratio marked (ipPackets packets).length
    icmpErrorCount := packets.countP (·.icmpError) }

/-- The address at the other end; `if remote:` drops the empty text. -/
def remoteIp (p : PacketRecord τ) : Option String :=
  (if p.direction = some .tx then p.dstIp else p.srcIp).filter (· ≠ "")

def remoteIps : List String := ((ipPackets packets).filterMap remoteIp).dedup

def topFlowPayloadShare : Option ℚ :=
  ((flowPayload (ipPackets packets)).map (·.2)).max?.bind fun largest =>
    ratio largest (payloadBytes (ipPackets packets))

def flowMetrics (transferFileSizeBytes : ℤ) : FlowMetrics where
  flowCount := (flowPayload (ipPackets packets)).length
  uniqueRemoteIpCount := ifDirected packets (remoteIps packets).length
  topFlowPayloadShare := topFlowPayloadShare packets
  flowsFor80pctPayload :=
    flowsFor80Percent (flowPayload (ipPackets packets)) (payloadBytes (ipPackets packets))
  connectionChurnPerMib :=
    (flowPayload (ipPackets packets)).length / ((transferFileSizeBytes : ℚ) / 1048576)

end Bytes

section Times

variable (packets : List (PacketRecord ℚ))

/-- `max(times) - min(times)`; nothing when there is no time. -/
def spread (times : List ℚ) : Option ℚ :=
  match times.max?, times.min? with
  | some latest, some earliest => some (ms (latest - earliest))
  | _, _ => none

def durationMs : ℚ := max 0 ((spread (packets.map (·.timestamp))).getD 0)

def throughputWindows : List ℚ :=
  (Dict.totals (fun p => some ⌊p.timestamp⌋) (·.networkBytes) (ipPackets packets)).map
    fun e => e.2 * 8 / 1000000

def primaryDirection : Scenario → PacketDirection
  | .upload => .tx
  | .download => .rx

def reverseDirection : Scenario → PacketDirection
  | .upload => .rx
  | .download => .tx

def primaryPayloadTimes (scenario : Scenario) : List ℚ :=
  ((ipPackets packets).filter fun p =>
    p.direction = some (primaryDirection scenario) && 0 < p.l4PayloadBytes).map (·.timestamp)

/-- `max - min` of the primary payload's times, in milliseconds, if the direction
is available and there are any. -/
def primarySpread (scenario : Scenario) : Option ℚ :=
  if directionAvailable packets then spread (primaryPayloadTimes packets scenario) else none

/-- `primary_span_ms`. -/
def primarySpanMs (scenario : Scenario) : Option ℚ :=
  (primarySpread packets scenario).filter (0 < ·)

def primaryNetwork (scenario : Scenario) : Option ℤ :=
  ifDirected packets (networkBytes (directed packets (primaryDirection scenario)))

def reverseNetwork (scenario : Scenario) : Option ℤ :=
  ifDirected packets (networkBytes (directed packets (reverseDirection scenario)))

def reversePathCost (reverse primary : Option ℤ) : Option ℚ :=
  match reverse, primary with
  | some reverse, some primary => ratio reverse primary
  | _, _ => none

def transferMetrics (scenario : Scenario) (transferFileSizeBytes : ℤ) : TransferMetrics where
  observedPrimaryPayloadSpanMs := primarySpanMs packets scenario
  averageNetworkThroughputMbps :=
    if 0 < durationMs packets / 1000 then
      some (networkBytes (ipPackets packets) * 8 / (durationMs packets / 1000) / 1000000)
    else none
  peak1sNetworkThroughputMbps := (throughputWindows packets).max?
  p95Of1sNetworkThroughputMbps := percentile (throughputWindows packets) p95
  effectiveFileThroughputMbps := (primarySpanMs packets scenario).map fun span =>
    transferFileSizeBytes * 8 / (span / 1000) / 1000000
  primaryDirectionAmplificationRatio := (primaryNetwork packets scenario).map fun bytes : ℤ =>
    (bytes : ℚ) / transferFileSizeBytes
  totalTransferAmplificationRatio :=
    (networkBytes (ipPackets packets) : ℚ) / transferFileSizeBytes
  reversePathCostRatio :=
    reversePathCost (reverseNetwork packets scenario) (primaryNetwork packets scenario)

def tcpPackets : List (PacketRecord ℚ) := (ipPackets packets).filter (·.isTcp)

def quicPackets : List (PacketRecord ℚ) := (ipPackets packets).filter (·.quic)

/-- The metrics of `_aggregate_tcp`. -/
def aggregateTcp : Option TcpMetrics :=
  if tcpPackets packets = [] then none else some (tcpMetrics (tcpPackets packets))

/-- Its second result. -/
def tcpRttAvailable : Bool :=
  !(initialRtts (tcpConnections (tcpPackets packets))).isEmpty
    || !(ackRtts (tcpPackets packets)).isEmpty

/-- The metrics of `_aggregate_quic`. -/
def aggregateQuic (supportedFields : List String) : Option QuicMetrics :=
  if quicPackets packets = [] then none
  else some (quicMetrics supportedFields (quicPackets packets))

def truncatedCount : ℕ := packets.countP (·.truncated)

def comparisonReady (scenario : Scenario) : Bool :=
  !packets.isEmpty && 0 < durationMs packets && truncatedCount packets = 0
    && directionAvailable packets && (primarySpanMs packets scenario).isSome

/-- A warning under its condition. -/
def warnIf (condition : Bool) (warning : AnalysisWarning) : List AnalysisWarning :=
  if condition then [warning] else []

/-- What `_aggregate_tcp` adds to `warnings`. -/
def tcpWarnings : List AnalysisWarning :=
  let connections := tcpConnections (tcpPackets packets)
  if tcpPackets packets = [] then []
  else
    warnIf (connections.any (·.stalledAtEnd)) .tcpZeroWindowOpenAtCaptureEnd
      ++ warnIf (connections.countP (·.completed) = 0) .missingTcpHandshake

/-- The warnings of a capture, in the order in which they are added. -/
def analysisWarnings (scenario : Scenario) : List AnalysisWarning :=
  warnIf (truncatedCount packets ≠ 0) .captureTruncated
    ++ warnIf (!directionAvailable packets) .directionUnavailable
    ++ (match primarySpread packets scenario with
      | some span => warnIf (span ≤ 0) .zeroTransferSpan
      | none => [.noPrimaryPayload])
    ++ tcpWarnings packets
    ++ warnIf (!(quicPackets packets).isEmpty && (quicSpinSamples (quicPackets packets)).isEmpty)
      .quicSpinUnavailable
    ++ warnIf ((aggregateDns packets).any fun dns => dns.dnsQueryCount ≠ dns.dnsResponseCount)
      .dnsIncomplete

/-- `tuple(sorted(warnings))`. -/
def warningTuple (scenario : Scenario) : List String :=
  ((analysisWarnings packets scenario).map (·.text)).dedup.insertionSort (· ≤ ·)

end Times

def defaultSupportedFields : List String :=
  ["quic.version", "quic.long.packet_type", "quic.spin_bit"]

/-- `supported_fields or {...}`. -/
def supportedOrDefault (supportedFields : Option (List String)) : List String :=
  match supportedFields with
  | none | some [] => defaultSupportedFields
  | some (name :: names) => name :: names

section Aggregate

variable (packets : List (PacketRecord ℚ)) (captureFormat : CaptureFormat)
  (captureSizeBytes : ℤ) (scenario : Scenario) (transferFileSizeBytes : ℤ)
  (supportedFields : Option (List String))

def captureMetrics : CaptureMetrics where
  captureFormat := captureFormat
  captureSizeBytes := captureSizeBytes
  transferFileSizeBytes := transferFileSizeBytes
  captureDurationMs := durationMs packets
  packetCount := packets.length
  truncatedPacketCount := truncatedCount packets
  analysisWarningCount := (warningTuple packets scenario).length
  analysisWarnings := warningTuple packets scenario

def networkCapabilities : NetworkCapabilities where
  directionMetadataAvailable := directionAvailable packets
  payloadPlaintextAvailable := true
  handshakeObserved := (aggregateTcp packets).any (0 < ·.tcpSuccessfulHandshakeCount)
  tcpPresent := (aggregateTcp packets).isSome
  quicPresent := (aggregateQuic packets (supportedOrDefault supportedFields)).isSome
  otherUdpPresent := (aggregateUdp (ipPackets packets)).isSome
  tcpRttAvailable := tcpRttAvailable packets
  quicInitialRttAvailable := !(quicInitialRtts (quicPackets packets)).isEmpty
  quicSpinRttAvailable := !(quicSpinSamples (quicPackets packets)).isEmpty
  dnsMetricsAvailable := (aggregateDns packets).isSome
  comparisonReady := comparisonReady packets scenario

/-- The arguments of all models. -/
def aggregated : AggregatedMetrics where
  capture := captureMetrics packets captureFormat captureSizeBytes scenario transferFileSizeBytes
  capabilities := networkCapabilities packets scenario supportedFields
  traffic := trafficMetrics packets
  protocolMix := protocolMixMetrics packets
  ip := ipMetrics packets
  flow := flowMetrics packets transferFileSizeBytes
  transfer := transferMetrics packets scenario transferFileSizeBytes
  tcp := aggregateTcp packets
  quic := aggregateQuic packets (supportedOrDefault supportedFields)
  udp := aggregateUdp (ipPackets packets)
  dns := aggregateDns packets

end Aggregate

/-! ## Validation -/

/-- An argument of a model under its annotation. -/
inductive Argument where
  | flag (b : Bool)
  | literal (allowed : List String) (s : String)
  | strings (texts : Option (List String))
  | nonBlankStrings (texts : List String)
  | nonNegativeInt (n : Option ℤ)
  | positiveInt (n : ℤ)
  | nonNegativeFloat (x : Option ℚ)
  | ratio (x : Option ℚ)

namespace Argument

/-- The annotation accepts the value. `NonBlankString` strips before it looks at
the length. -/
def accepted : Argument → Bool
  | flag _ | strings _ => true
  | literal allowed s => allowed.contains s
  | nonBlankStrings texts => texts.all fun s => s.toList.any fun c => !isWhiteSpace c
  | nonNegativeInt n => n.all (0 ≤ ·)
  | positiveInt n => 0 < n
  | nonNegativeFloat x => x.all (0 ≤ ·)
  | ratio x => x.all fun x => 0 ≤ x && x ≤ 1

/-- The value as it is stored. -/
def value : Argument → Rel.Value
  | flag _ => .scalar .boolean
  | literal _ s => .text s
  | strings texts => texts.elim .null .json
  | nonBlankStrings texts => .json texts
  | nonNegativeInt n => n.elim .null .int
  | positiveInt n => .int n
  | nonNegativeFloat x | ratio x => x.elim .null fun x => .double (.finite x)

end Argument

abbrev Arguments := List (String × Argument)

def TcpMetrics.arguments (m : TcpMetrics) : Arguments :=
  [("tcp_connection_count", .nonNegativeInt (some m.tcpConnectionCount)),
    ("tcp_successful_handshake_count", .nonNegativeInt (some m.tcpSuccessfulHandshakeCount)),
    ("tcp_incomplete_handshake_count", .nonNegativeInt (some m.tcpIncompleteHandshakeCount)),
    ("tcp_handshake_success_rate", .ratio m.tcpHandshakeSuccessRate),
    ("tcp_initial_rtt_avg_ms", .nonNegativeFloat m.tcpInitialRttAvgMs),
    ("tcp_initial_rtt_p50_ms", .nonNegativeFloat m.tcpInitialRttP50Ms),
    ("tcp_initial_rtt_p95_ms", .nonNegativeFloat m.tcpInitialRttP95Ms),
    ("tcp_ack_rtt_min_ms", .nonNegativeFloat m.tcpAckRttMinMs),
    ("tcp_ack_rtt_p50_ms", .nonNegativeFloat m.tcpAckRttP50Ms),
    ("tcp_ack_rtt_p95_ms", .nonNegativeFloat m.tcpAckRttP95Ms),
    ("tcp_rtt_tail_inflation", .nonNegativeFloat m.tcpRttTailInflation),
    ("tcp_data_segment_count", .nonNegativeInt (some m.tcpDataSegmentCount)),
    ("tcp_retransmission_count", .nonNegativeInt (some m.tcpRetransmissionCount)),
    ("tcp_fast_retransmission_count", .nonNegativeInt (some m.tcpFastRetransmissionCount)),
    ("tcp_spurious_retransmission_count", .nonNegativeInt (some m.tcpSpuriousRetransmissionCount)),
    ("tcp_retransmitted_payload_bytes", .nonNegativeInt (some m.tcpRetransmittedPayloadBytes)),
    ("tcp_retransmission_rate", .ratio m.tcpRetransmissionRate),
    ("tcp_recovery_tax", .ratio m.tcpRecoveryTax),
    ("tcp_zero_window_count", .nonNegativeInt (some m.tcpZeroWindowCount)),
    ("tcp_window_full_count", .nonNegativeInt (some m.tcpWindowFullCount)),
    ("tcp_zero_window_duration_ms", .nonNegativeFloat (some m.tcpZeroWindowDurationMs)),
    ("tcp_active_duration_ms", .nonNegativeFloat (some m.tcpActiveDurationMs)),
    ("tcp_receiver_stall_ratio", .ratio m.tcpReceiverStallRatio),
    ("tcp_reset_count", .nonNegativeInt (some m.tcpResetCount)),
    ("tcp_reset_rate", .ratio m.tcpResetRate),
    ("tcp_out_of_order_count", .nonNegativeInt (some m.tcpOutOfOrderCount)),
    ("tcp_duplicate_ack_count", .nonNegativeInt (some m.tcpDuplicateAckCount)),
    ("tcp_lost_segment_indicator_count", .nonNegativeInt (some m.tcpLostSegmentIndicatorCount))]

def QuicMetrics.arguments (m : QuicMetrics) : Arguments :=
  [("quic_identified_connection_count", .nonNegativeInt (some m.quicIdentifiedConnectionCount)),
    ("quic_version_count", .nonNegativeInt (m.quicVersionCount.map (↑))),
    ("quic_versions_seen", .strings m.quicVersionsSeen),
    ("quic_retry_count", .nonNegativeInt (m.quicRetryCount.map (↑))),
    ("quic_version_negotiation_count", .nonNegativeInt (m.quicVersionNegotiationCount.map (↑))),
    ("quic_0rtt_observed_count", .nonNegativeInt (m.quic0rttObservedCount.map (↑))),
    ("quic_initial_rtt_avg_ms", .nonNegativeFloat m.quicInitialRttAvgMs),
    ("quic_initial_rtt_p50_ms", .nonNegativeFloat m.quicInitialRttP50Ms),
    ("quic_initial_rtt_p95_ms", .nonNegativeFloat m.quicInitialRttP95Ms),
    ("quic_spin_rtt_sample_count", .nonNegativeInt (m.quicSpinRttSampleCount.map (↑))),
    ("quic_spin_rtt_min_ms", .nonNegativeFloat m.quicSpinRttMinMs),
    ("quic_spin_rtt_p50_ms", .nonNegativeFloat m.quicSpinRttP50Ms),
    ("quic_spin_rtt_p95_ms", .nonNegativeFloat m.quicSpinRttP95Ms)]

def UdpMetrics.arguments (m : UdpMetrics) : Arguments :=
  [("udp_flow_count", .nonNegativeInt (some m.udpFlowCount)),
    ("udp_datagram_count", .nonNegativeInt (some m.udpDatagramCount)),
    ("udp_network_bytes", .nonNegativeInt (some m.udpNetworkBytes)),
    ("udp_payload_bytes", .nonNegativeInt (some m.udpPayloadBytes)),
    ("udp_payload_size_p50", .nonNegativeFloat m.udpPayloadSizeP50),
    ("udp_payload_size_p95", .nonNegativeFloat m.udpPayloadSizeP95),
    ("udp_bidirectional_byte_ratio", .ratio m.udpBidirectionalByteRatio)]

def DnsMetrics.arguments (m : DnsMetrics) : Arguments :=
  [("dns_query_count", .nonNegativeInt (some m.dnsQueryCount)),
    ("dns_response_count", .nonNegativeInt (some m.dnsResponseCount)),
    ("dns_failure_count", .nonNegativeInt (some m.dnsFailureCount)),
    ("dns_rtt_p50_ms", .nonNegativeFloat m.dnsRttP50Ms),
    ("dns_rtt_p95_ms", .nonNegativeFloat m.dnsRttP95Ms)]

def CaptureMetrics.arguments (m : CaptureMetrics) : Arguments :=
  [("capture_format", .literal ["pcap", "pcapng"] m.captureFormat.text),
    ("capture_size_bytes", .positiveInt m.captureSizeBytes),
    ("transfer_file_size_bytes", .positiveInt m.transferFileSizeBytes),
    ("capture_duration_ms", .nonNegativeFloat (some m.captureDurationMs)),
    ("packet_count", .nonNegativeInt (some m.packetCount)),
    ("truncated_packet_count", .nonNegativeInt (some m.truncatedPacketCount)),
    ("analysis_warning_count", .nonNegativeInt (some m.analysisWarningCount)),
    ("analysis_warnings", .nonBlankStrings m.analysisWarnings)]

def NetworkCapabilities.arguments (m : NetworkCapabilities) : Arguments :=
  [("direction_metadata_available", .flag m.directionMetadataAvailable),
    ("payload_plaintext_available", .flag m.payloadPlaintextAvailable),
    ("handshake_observed", .flag m.handshakeObserved), ("tcp_present", .flag m.tcpPresent),
    ("quic_present", .flag m.quicPresent), ("other_udp_present", .flag m.otherUdpPresent),
    ("tcp_rtt_available", .flag m.tcpRttAvailable),
    ("quic_initial_rtt_available", .flag m.quicInitialRttAvailable),
    ("quic_spin_rtt_available", .flag m.quicSpinRttAvailable),
    ("dns_metrics_available", .flag m.dnsMetricsAvailable),
    ("comparison_ready", .flag m.comparisonReady)]

def TrafficMetrics.arguments (m : TrafficMetrics) : Arguments :=
  [("network_bytes_total", .nonNegativeInt (some m.networkBytesTotal)),
    ("tx_network_bytes", .nonNegativeInt m.txNetworkBytes),
    ("rx_network_bytes", .nonNegativeInt m.rxNetworkBytes),
    ("l4_payload_bytes_total", .nonNegativeInt (some m.l4PayloadBytesTotal)),
    ("tx_l4_payload_bytes", .nonNegativeInt m.txL4PayloadBytes),
    ("rx_l4_payload_bytes", .nonNegativeInt m.rxL4PayloadBytes),
    ("ip_transport_header_bytes", .nonNegativeInt (some m.ipTransportHeaderBytes)),
    ("ip_transport_header_overhead_ratio", .ratio m.ipTransportHeaderOverheadRatio),
    ("tx_packet_count", .nonNegativeInt (m.txPacketCount.map (↑))),
    ("rx_packet_count", .nonNegativeInt (m.rxPacketCount.map (↑)))]

def ProtocolMixMetrics.arguments (m : ProtocolMixMetrics) : Arguments :=
  [("tcp_bytes", .nonNegativeInt (some m.tcpBytes)),
    ("quic_identified_bytes", .nonNegativeInt (some m.quicIdentifiedBytes)),
    ("other_udp_bytes", .nonNegativeInt (some m.otherUdpBytes)),
    ("tcp_byte_share", .ratio m.tcpByteShare), ("quic_byte_share", .ratio m.quicByteShare),
    ("other_udp_byte_share", .ratio m.otherUdpByteShare),
    ("ipv4_byte_share", .ratio m.ipv4ByteShare), ("ipv6_byte_share", .ratio m.ipv6ByteShare)]

def IpMetrics.arguments (m : IpMetrics) : Arguments :=
  [("ip_fragment_count", .nonNegativeInt (some m.ipFragmentCount)),
    ("ip_fragment_rate", .ratio m.ipFragmentRate),
    ("ecn_ce_packet_count", .nonNegativeInt (some m.ecnCePacketCount)),
    ("ecn_ce_packet_rate", .ratio m.ecnCePacketRate),
    ("icmp_error_count", .nonNegativeInt (some m.icmpErrorCount))]

def FlowMetrics.arguments (m : FlowMetrics) : Arguments :=
  [("flow_count", .nonNegativeInt (some m.flowCount)),
    ("unique_remote_ip_count", .nonNegativeInt (m.uniqueRemoteIpCount.map (↑))),
    ("top_flow_payload_share", .ratio m.topFlowPayloadShare),
    ("flows_for_80pct_payload", .nonNegativeInt (some m.flowsFor80pctPayload)),
    ("connection_churn_per_mib", .nonNegativeFloat (some m.connectionChurnPerMib))]

def TransferMetrics.arguments (m : TransferMetrics) : Arguments :=
  [("observed_primary_payload_span_ms", .nonNegativeFloat m.observedPrimaryPayloadSpanMs),
    ("average_network_throughput_mbps", .nonNegativeFloat m.averageNetworkThroughputMbps),
    ("peak_1s_network_throughput_mbps", .nonNegativeFloat m.peak1sNetworkThroughputMbps),
    ("p95_1s_network_throughput_mbps", .nonNegativeFloat m.p95Of1sNetworkThroughputMbps),
    ("effective_file_throughput_mbps", .nonNegativeFloat m.effectiveFileThroughputMbps),
    ("primary_direction_amplification_ratio",
      .nonNegativeFloat m.primaryDirectionAmplificationRatio),
    ("total_transfer_amplification_ratio",
      .nonNegativeFloat (some m.totalTransferAmplificationRatio)),
    ("reverse_path_cost_ratio", .nonNegativeFloat m.reversePathCostRatio)]

structure ValidationError where
  title : String
  fields : List String
deriving DecidableEq

/-- A model is built from its arguments, or lists those it rejects. -/
def modelError (model : String × Arguments) : Option ValidationError :=
  if model.2.all fun a => a.2.accepted then none
  else some ⟨model.1, (model.2.filter fun a => !a.2.accepted).map (·.1)⟩

/-- The models in the order in which they are built. -/
def AggregatedMetrics.models (m : AggregatedMetrics) : List (String × Arguments) :=
  (m.tcp.map fun tcp => ("TcpMetricsV1", tcp.arguments)).toList
    ++ (m.quic.map fun quic => ("QuicMetricsV1", quic.arguments)).toList
    ++ (m.udp.map fun udp => ("UdpMetricsV1", udp.arguments)).toList
    ++ (m.dns.map fun dns => ("DnsMetricsV1", dns.arguments)).toList
    ++ [("CaptureMetricsV1", m.capture.arguments),
      ("NetworkCapabilitiesV1", m.capabilities.arguments),
      ("TrafficMetricsV1", m.traffic.arguments),
      ("ProtocolMixMetricsV1", m.protocolMix.arguments), ("IpMetricsV1", m.ip.arguments),
      ("FlowMetricsV1", m.flow.arguments), ("TransferMetricsV1", m.transfer.arguments)]

def AggregatedMetrics.arguments (m : AggregatedMetrics) : Arguments :=
  m.models.flatMap (·.2)

def aggregatePackets (packets : List (PacketRecord ℚ)) (captureFormat : CaptureFormat)
    (captureSizeBytes : ℤ) (scenario : Scenario) (transferFileSizeBytes : ℤ)
    (supportedFields : Option (List String)) : Except ValidationError AggregatedMetrics :=
  let m := aggregated packets captureFormat captureSizeBytes scenario transferFileSizeBytes
    supportedFields
  match m.models.findSome? modelError with
  | some e => .error e
  | none => .ok m

end Sahabino
