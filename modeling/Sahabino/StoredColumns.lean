import Sahabino.Ingestion

/-!
# The columns ingestion writes

The columns of the four tables that handlers insert into, with their types
and `CHECK` constraints, and the values each statement sends: the two
schemas are written down separately, the database's from
`ingestion/models.py` and `network/models.py`, the values from the
repository's statements. Columns that a statement leaves to their
defaults are not listed.
-/

namespace Sahabino

open Rel

/-! ## Values -/

/-- A value of a statement. A float field has an upper bound or none; `rowId`
is an identity that the database returned. -/
inductive Field where
  | uuid (u : Uuid)
  | bool (b : Bool)
  | timestamp (t : Option Timestamp)
  | date (d : Option Int)
  | str (s : Option String)
  | strs (s : Option (List String))
  | int (n : Option Nat)
  | float (x : Option Double)
  | boundedFloat (x : Option Double)
  | rowId (id : Nat)

namespace Field

/-- UUIDs, booleans, dates and times of Python all exist in PostgreSQL. -/
def value : Field → Value
  | uuid _ => .scalar .uuid
  | bool _ => .scalar .boolean
  | timestamp t => t.elim .null fun _ => .scalar .timestamptz
  | date d => d.elim .null fun _ => .scalar .date
  | str s => s.elim .null .text
  | strs s => s.elim .null .json
  | int n => n.elim .null fun n => .int n
  | float x => x.elim .null .double
  | boundedFloat x => x.elim .null .double
  | rowId _ => .scalar .bigint

/-- An integer is below 2^63, a text has no U+0000, and a float that has an
upper bound is a number. -/
def fits : Field → Bool
  | str s => s.all nulFree
  | strs s => s.all fun s => s.all nulFree
  | int n => n.all fun n => decide (n < 2 ^ 63)
  | boundedFloat x => x ≠ some .nan
  | _ => true

end Field

/-! ## Tables -/

def required (name : String) (type : SqlType) (checks : List Check := []) : Column :=
  ⟨name, type, false, checks⟩

def nullable (name : String) (type : SqlType) (checks : List Check := []) : Column :=
  ⟨name, type, true, checks⟩

def snapshotColumns : List Column :=
  [required "crawl_task_id" .uuid, required "application_id" .uuid, required "package_name" .text,
    required "collected_at" .timestamptz, required "min_installs" .bigint [.atLeast 0],
    required "score" .double [.between 0 5], required "ratings_count" .bigint [.atLeast 0],
    required "reviews_count" .bigint [.atLeast 0], nullable "store_updated_on" .date,
    nullable "version" .text, required "ad_supported" .boolean, required "source_adapter" .text]

def reviewColumns : List Column :=
  [required "application_id" .uuid, required "external_review_id" .text,
    required "source_at" .timestamptz, required "author_name" .text,
    required "thumbs_up_count" .bigint [.atLeast 0], required "score" .smallint [.between 1 5],
    required "content" .text, required "source_adapter" .text,
    required "first_observed_at" .timestamptz, required "last_observed_at" .timestamptz]

def observationColumns : List Column :=
  [required "crawl_task_id" .uuid, required "review_id" .bigint,
    required "observed_at" .timestamptz, required "position" .smallint [.between 1 1000],
    required "score" .smallint [.between 1 5], required "thumbs_up_count" .bigint [.atLeast 0],
    required "source_adapter" .text, nullable "content" .text, nullable "source_at" .timestamptz]

def identityColumns : List Column :=
  [required "analysis_id" .uuid, required "capture_id" .uuid, required "application_id" .uuid,
    required "package_name" .text, required "scenario" .text [.oneOf ["upload", "download"]],
    required "analyzed_at" .timestamptz, required "analyzer_version" .text,
    required "tshark_version" .text, required "source_analyzer" .text,
    required "verified_sha256" .text]

def captureColumns : List Column :=
  [required "capture_format" .text [.oneOf ["pcap", "pcapng"]],
    required "capture_size_bytes" .bigint [.above 0],
    required "transfer_file_size_bytes" .bigint [.above 0],
    required "capture_duration_ms" .double [.atLeast 0],
    required "packet_count" .bigint [.atLeast 0],
    required "truncated_packet_count" .bigint [.atLeast 0],
    required "analysis_warning_count" .bigint [.atLeast 0]]

def capabilityColumns : List Column :=
  [required "direction_metadata_available" .boolean,
    required "payload_plaintext_available" .boolean, required "handshake_observed" .boolean,
    required "tcp_present" .boolean, required "quic_present" .boolean,
    required "other_udp_present" .boolean, required "tcp_rtt_available" .boolean,
    required "quic_initial_rtt_available" .boolean, required "quic_spin_rtt_available" .boolean,
    required "dns_metrics_available" .boolean, required "comparison_ready" .boolean]

def warningColumns : List Column :=
  [required "analysis_warnings" .jsonb]

def trafficColumns : List Column :=
  [required "network_bytes_total" .bigint [.atLeast 0],
    nullable "tx_network_bytes" .bigint [.atLeast 0],
    nullable "rx_network_bytes" .bigint [.atLeast 0],
    required "l4_payload_bytes_total" .bigint [.atLeast 0],
    nullable "tx_l4_payload_bytes" .bigint [.atLeast 0],
    nullable "rx_l4_payload_bytes" .bigint [.atLeast 0],
    required "ip_transport_header_bytes" .bigint [.atLeast 0],
    nullable "ip_transport_header_overhead_ratio" .double [.between 0 1],
    nullable "tx_packet_count" .bigint [.atLeast 0],
    nullable "rx_packet_count" .bigint [.atLeast 0]]

def protocolMixColumns : List Column :=
  [required "tcp_bytes" .bigint [.atLeast 0],
    required "quic_identified_bytes" .bigint [.atLeast 0],
    required "other_udp_bytes" .bigint [.atLeast 0],
    nullable "tcp_byte_share" .double [.between 0 1],
    nullable "quic_byte_share" .double [.between 0 1],
    nullable "other_udp_byte_share" .double [.between 0 1],
    nullable "ipv4_byte_share" .double [.between 0 1],
    nullable "ipv6_byte_share" .double [.between 0 1]]

def ipColumns : List Column :=
  [required "ip_fragment_count" .bigint, nullable "ip_fragment_rate" .double [.between 0 1],
    required "ecn_ce_packet_count" .bigint [.atLeast 0],
    nullable "ecn_ce_packet_rate" .double [.between 0 1],
    required "icmp_error_count" .bigint [.atLeast 0]]

def flowColumns : List Column :=
  [required "flow_count" .bigint [.atLeast 0],
    nullable "unique_remote_ip_count" .bigint [.atLeast 0],
    nullable "top_flow_payload_share" .double [.between 0 1],
    required "flows_for_80pct_payload" .bigint [.atLeast 0],
    required "connection_churn_per_mib" .double [.atLeast 0]]

def transferColumns : List Column :=
  [nullable "observed_primary_payload_span_ms" .double [.atLeast 0],
    nullable "average_network_throughput_mbps" .double [.atLeast 0],
    nullable "peak_1s_network_throughput_mbps" .double [.atLeast 0],
    nullable "p95_1s_network_throughput_mbps" .double [.atLeast 0],
    nullable "effective_file_throughput_mbps" .double [.atLeast 0],
    nullable "primary_direction_amplification_ratio" .double [.atLeast 0],
    required "total_transfer_amplification_ratio" .double [.atLeast 0],
    nullable "reverse_path_cost_ratio" .double [.atLeast 0]]

def tcpColumns : List Column :=
  [nullable "tcp_connection_count" .bigint [.atLeast 0],
    nullable "tcp_successful_handshake_count" .bigint [.atLeast 0],
    nullable "tcp_incomplete_handshake_count" .bigint [.atLeast 0],
    nullable "tcp_handshake_success_rate" .double [.between 0 1],
    nullable "tcp_initial_rtt_avg_ms" .double [.atLeast 0],
    nullable "tcp_initial_rtt_p50_ms" .double [.atLeast 0],
    nullable "tcp_initial_rtt_p95_ms" .double [.atLeast 0],
    nullable "tcp_ack_rtt_min_ms" .double [.atLeast 0],
    nullable "tcp_ack_rtt_p50_ms" .double [.atLeast 0],
    nullable "tcp_ack_rtt_p95_ms" .double [.atLeast 0],
    nullable "tcp_rtt_tail_inflation" .double [.atLeast 0],
    nullable "tcp_data_segment_count" .bigint [.atLeast 0],
    nullable "tcp_retransmission_count" .bigint [.atLeast 0],
    nullable "tcp_fast_retransmission_count" .bigint [.atLeast 0],
    nullable "tcp_spurious_retransmission_count" .bigint [.atLeast 0],
    nullable "tcp_retransmitted_payload_bytes" .bigint [.atLeast 0],
    nullable "tcp_retransmission_rate" .double [.between 0 1],
    nullable "tcp_recovery_tax" .double [.between 0 1],
    nullable "tcp_zero_window_count" .bigint [.atLeast 0],
    nullable "tcp_window_full_count" .bigint [.atLeast 0],
    nullable "tcp_zero_window_duration_ms" .double [.atLeast 0],
    nullable "tcp_active_duration_ms" .double [.atLeast 0],
    nullable "tcp_receiver_stall_ratio" .double [.between 0 1],
    nullable "tcp_reset_count" .bigint [.atLeast 0],
    nullable "tcp_reset_rate" .double [.between 0 1],
    nullable "tcp_out_of_order_count" .bigint [.atLeast 0],
    nullable "tcp_duplicate_ack_count" .bigint [.atLeast 0],
    nullable "tcp_lost_segment_indicator_count" .bigint [.atLeast 0]]

def quicColumns : List Column :=
  [nullable "quic_identified_connection_count" .bigint [.atLeast 0],
    nullable "quic_version_count" .bigint [.atLeast 0], nullable "quic_versions_seen" .jsonb,
    nullable "quic_retry_count" .bigint [.atLeast 0],
    nullable "quic_version_negotiation_count" .bigint [.atLeast 0],
    nullable "quic_0rtt_observed_count" .bigint [.atLeast 0],
    nullable "quic_initial_rtt_avg_ms" .double [.atLeast 0],
    nullable "quic_initial_rtt_p50_ms" .double [.atLeast 0],
    nullable "quic_initial_rtt_p95_ms" .double [.atLeast 0],
    nullable "quic_spin_rtt_sample_count" .bigint [.atLeast 0],
    nullable "quic_spin_rtt_min_ms" .double [.atLeast 0],
    nullable "quic_spin_rtt_p50_ms" .double [.atLeast 0],
    nullable "quic_spin_rtt_p95_ms" .double [.atLeast 0]]

def udpColumns : List Column :=
  [nullable "udp_flow_count" .bigint [.atLeast 0],
    nullable "udp_datagram_count" .bigint [.atLeast 0],
    nullable "udp_network_bytes" .bigint [.atLeast 0],
    nullable "udp_payload_bytes" .bigint [.atLeast 0],
    nullable "udp_payload_size_p50" .double [.atLeast 0],
    nullable "udp_payload_size_p95" .double [.atLeast 0],
    nullable "udp_bidirectional_byte_ratio" .double [.between 0 1]]

def dnsColumns : List Column :=
  [nullable "dns_query_count" .bigint [.atLeast 0],
    nullable "dns_response_count" .bigint [.atLeast 0],
    nullable "dns_failure_count" .bigint [.atLeast 0],
    nullable "dns_rtt_p50_ms" .double [.atLeast 0],
    nullable "dns_rtt_p95_ms" .double [.atLeast 0]]

def networkAnalysisColumns : List Column :=
  identityColumns ++ captureColumns ++ capabilityColumns ++ warningColumns ++ trafficColumns ++
    protocolMixColumns ++ ipColumns ++ flowColumns ++ transferColumns ++ tcpColumns ++
    quicColumns ++ udpColumns ++ dnsColumns

/-! ## Rows -/

def PlaystoreAppSnapshot.values (r : PlaystoreAppSnapshot) : List (String × Field) :=
  [("crawl_task_id", .uuid r.crawlTaskId), ("application_id", .uuid r.applicationId),
    ("package_name", .str (some r.packageName)), ("collected_at", .timestamp (some r.collectedAt)),
    ("min_installs", .int (some r.minInstalls)), ("score", .boundedFloat (some r.score)),
    ("ratings_count", .int (some r.ratingsCount)), ("reviews_count", .int (some r.reviewsCount)),
    ("store_updated_on", .date r.storeUpdatedOn), ("version", .str r.version),
    ("ad_supported", .bool r.adSupported), ("source_adapter", .str (some r.sourceAdapter))]

def Review.values (r : Review) : List (String × Field) :=
  [("application_id", .uuid r.applicationId),
    ("external_review_id", .str (some r.externalReviewId)),
    ("source_at", .timestamp (some r.sourceAt)), ("author_name", .str (some r.authorName)),
    ("thumbs_up_count", .int (some r.thumbsUpCount)), ("score", .int (some r.score)),
    ("content", .str (some r.content)), ("source_adapter", .str (some r.sourceAdapter)),
    ("first_observed_at", .timestamp (some r.firstObservedAt)),
    ("last_observed_at", .timestamp (some r.lastObservedAt))]

def ReviewObservation.values (r : ReviewObservation) : List (String × Field) :=
  [("crawl_task_id", .uuid r.crawlTaskId), ("review_id", .rowId r.reviewId),
    ("observed_at", .timestamp (some r.observedAt)), ("position", .int (some r.position)),
    ("score", .int (some r.score)), ("thumbs_up_count", .int (some r.thumbsUpCount)),
    ("source_adapter", .str (some r.sourceAdapter)), ("content", .str r.content),
    ("source_at", .timestamp r.sourceAt)]

def Scenario.text : Scenario → String
  | .upload => "upload"
  | .download => "download"

def CaptureMetricsV1.modelDump (g : CaptureMetricsV1) : List (String × Field) :=
  [("capture_format", .str (some g.captureFormat.text)),
    ("capture_size_bytes", .int (some g.captureSizeBytes.1)),
    ("transfer_file_size_bytes", .int (some g.transferFileSizeBytes.1)),
    ("capture_duration_ms", .float (some g.captureDurationMs.1)),
    ("packet_count", .int (some g.packetCount)),
    ("truncated_packet_count", .int (some g.truncatedPacketCount)),
    ("analysis_warning_count", .int (some g.analysisWarningCount))]

def NetworkCapabilitiesV1.modelDump (g : NetworkCapabilitiesV1) : List (String × Field) :=
  [("direction_metadata_available", .bool g.directionMetadataAvailable),
    ("payload_plaintext_available", .bool g.payloadPlaintextAvailable),
    ("handshake_observed", .bool g.handshakeObserved), ("tcp_present", .bool g.tcpPresent),
    ("quic_present", .bool g.quicPresent), ("other_udp_present", .bool g.otherUdpPresent),
    ("tcp_rtt_available", .bool g.tcpRttAvailable),
    ("quic_initial_rtt_available", .bool g.quicInitialRttAvailable),
    ("quic_spin_rtt_available", .bool g.quicSpinRttAvailable),
    ("dns_metrics_available", .bool g.dnsMetricsAvailable),
    ("comparison_ready", .bool g.comparisonReady)]

def TrafficMetricsV1.modelDump (g : TrafficMetricsV1) : List (String × Field) :=
  [("network_bytes_total", .int (some g.networkBytesTotal)),
    ("tx_network_bytes", .int g.txNetworkBytes), ("rx_network_bytes", .int g.rxNetworkBytes),
    ("l4_payload_bytes_total", .int (some g.l4PayloadBytesTotal)),
    ("tx_l4_payload_bytes", .int g.txL4PayloadBytes),
    ("rx_l4_payload_bytes", .int g.rxL4PayloadBytes),
    ("ip_transport_header_bytes", .int (some g.ipTransportHeaderBytes)),
    ("ip_transport_header_overhead_ratio",
      .boundedFloat (g.ipTransportHeaderOverheadRatio.map (·.1))),
    ("tx_packet_count", .int g.txPacketCount), ("rx_packet_count", .int g.rxPacketCount)]

def ProtocolMixMetricsV1.modelDump (g : ProtocolMixMetricsV1) : List (String × Field) :=
  [("tcp_bytes", .int (some g.tcpBytes)),
    ("quic_identified_bytes", .int (some g.quicIdentifiedBytes)),
    ("other_udp_bytes", .int (some g.otherUdpBytes)),
    ("tcp_byte_share", .boundedFloat (g.tcpByteShare.map (·.1))),
    ("quic_byte_share", .boundedFloat (g.quicByteShare.map (·.1))),
    ("other_udp_byte_share", .boundedFloat (g.otherUdpByteShare.map (·.1))),
    ("ipv4_byte_share", .boundedFloat (g.ipv4ByteShare.map (·.1))),
    ("ipv6_byte_share", .boundedFloat (g.ipv6ByteShare.map (·.1)))]

def IpMetricsV1.modelDump (g : IpMetricsV1) : List (String × Field) :=
  [("ip_fragment_count", .int (some g.ipFragmentCount)),
    ("ip_fragment_rate", .boundedFloat (g.ipFragmentRate.map (·.1))),
    ("ecn_ce_packet_count", .int (some g.ecnCePacketCount)),
    ("ecn_ce_packet_rate", .boundedFloat (g.ecnCePacketRate.map (·.1))),
    ("icmp_error_count", .int (some g.icmpErrorCount))]

def FlowMetricsV1.modelDump (g : FlowMetricsV1) : List (String × Field) :=
  [("flow_count", .int (some g.flowCount)),
    ("unique_remote_ip_count", .int g.uniqueRemoteIpCount),
    ("top_flow_payload_share", .boundedFloat (g.topFlowPayloadShare.map (·.1))),
    ("flows_for_80pct_payload", .int (some g.flowsFor80pctPayload)),
    ("connection_churn_per_mib", .float (some g.connectionChurnPerMib.1))]

def TransferMetricsV1.modelDump (g : TransferMetricsV1) : List (String × Field) :=
  [("observed_primary_payload_span_ms", .float (g.observedPrimaryPayloadSpanMs.map (·.1))),
    ("average_network_throughput_mbps", .float (g.averageNetworkThroughputMbps.map (·.1))),
    ("peak_1s_network_throughput_mbps", .float (g.peak1sNetworkThroughputMbps.map (·.1))),
    ("p95_1s_network_throughput_mbps", .float (g.p95Of1sNetworkThroughputMbps.map (·.1))),
    ("effective_file_throughput_mbps", .float (g.effectiveFileThroughputMbps.map (·.1))),
    ("primary_direction_amplification_ratio",
      .float (g.primaryDirectionAmplificationRatio.map (·.1))),
    ("total_transfer_amplification_ratio", .float (some g.totalTransferAmplificationRatio.1)),
    ("reverse_path_cost_ratio", .float (g.reversePathCostRatio.map (·.1)))]

def TcpMetricsV1.modelDump (g : Option TcpMetricsV1) : List (String × Field) :=
  [("tcp_connection_count", .int (g.map (·.tcpConnectionCount))),
    ("tcp_successful_handshake_count", .int (g.map (·.tcpSuccessfulHandshakeCount))),
    ("tcp_incomplete_handshake_count", .int (g.map (·.tcpIncompleteHandshakeCount))),
    ("tcp_handshake_success_rate",
      .boundedFloat ((g.bind (·.tcpHandshakeSuccessRate)).map (·.1))),
    ("tcp_initial_rtt_avg_ms", .float ((g.bind (·.tcpInitialRttAvgMs)).map (·.1))),
    ("tcp_initial_rtt_p50_ms", .float ((g.bind (·.tcpInitialRttP50Ms)).map (·.1))),
    ("tcp_initial_rtt_p95_ms", .float ((g.bind (·.tcpInitialRttP95Ms)).map (·.1))),
    ("tcp_ack_rtt_min_ms", .float ((g.bind (·.tcpAckRttMinMs)).map (·.1))),
    ("tcp_ack_rtt_p50_ms", .float ((g.bind (·.tcpAckRttP50Ms)).map (·.1))),
    ("tcp_ack_rtt_p95_ms", .float ((g.bind (·.tcpAckRttP95Ms)).map (·.1))),
    ("tcp_rtt_tail_inflation", .float ((g.bind (·.tcpRttTailInflation)).map (·.1))),
    ("tcp_data_segment_count", .int (g.map (·.tcpDataSegmentCount))),
    ("tcp_retransmission_count", .int (g.map (·.tcpRetransmissionCount))),
    ("tcp_fast_retransmission_count", .int (g.map (·.tcpFastRetransmissionCount))),
    ("tcp_spurious_retransmission_count", .int (g.map (·.tcpSpuriousRetransmissionCount))),
    ("tcp_retransmitted_payload_bytes", .int (g.map (·.tcpRetransmittedPayloadBytes))),
    ("tcp_retransmission_rate", .boundedFloat ((g.bind (·.tcpRetransmissionRate)).map (·.1))),
    ("tcp_recovery_tax", .boundedFloat ((g.bind (·.tcpRecoveryTax)).map (·.1))),
    ("tcp_zero_window_count", .int (g.map (·.tcpZeroWindowCount))),
    ("tcp_window_full_count", .int (g.map (·.tcpWindowFullCount))),
    ("tcp_zero_window_duration_ms", .float ((g.map (·.tcpZeroWindowDurationMs)).map (·.1))),
    ("tcp_active_duration_ms", .float ((g.map (·.tcpActiveDurationMs)).map (·.1))),
    ("tcp_receiver_stall_ratio", .boundedFloat ((g.bind (·.tcpReceiverStallRatio)).map (·.1))),
    ("tcp_reset_count", .int (g.map (·.tcpResetCount))),
    ("tcp_reset_rate", .boundedFloat ((g.bind (·.tcpResetRate)).map (·.1))),
    ("tcp_out_of_order_count", .int (g.map (·.tcpOutOfOrderCount))),
    ("tcp_duplicate_ack_count", .int (g.map (·.tcpDuplicateAckCount))),
    ("tcp_lost_segment_indicator_count", .int (g.map (·.tcpLostSegmentIndicatorCount)))]

def QuicMetricsV1.modelDump (g : Option QuicMetricsV1) : List (String × Field) :=
  [("quic_identified_connection_count", .int (g.bind (·.quicIdentifiedConnectionCount))),
    ("quic_version_count", .int (g.bind (·.quicVersionCount))),
    ("quic_versions_seen", .strs (g.bind (·.quicVersionsSeen))),
    ("quic_retry_count", .int (g.bind (·.quicRetryCount))),
    ("quic_version_negotiation_count", .int (g.bind (·.quicVersionNegotiationCount))),
    ("quic_0rtt_observed_count", .int (g.bind (·.quic0rttObservedCount))),
    ("quic_initial_rtt_avg_ms", .float ((g.bind (·.quicInitialRttAvgMs)).map (·.1))),
    ("quic_initial_rtt_p50_ms", .float ((g.bind (·.quicInitialRttP50Ms)).map (·.1))),
    ("quic_initial_rtt_p95_ms", .float ((g.bind (·.quicInitialRttP95Ms)).map (·.1))),
    ("quic_spin_rtt_sample_count", .int (g.bind (·.quicSpinRttSampleCount))),
    ("quic_spin_rtt_min_ms", .float ((g.bind (·.quicSpinRttMinMs)).map (·.1))),
    ("quic_spin_rtt_p50_ms", .float ((g.bind (·.quicSpinRttP50Ms)).map (·.1))),
    ("quic_spin_rtt_p95_ms", .float ((g.bind (·.quicSpinRttP95Ms)).map (·.1)))]

def UdpMetricsV1.modelDump (g : Option UdpMetricsV1) : List (String × Field) :=
  [("udp_flow_count", .int (g.map (·.udpFlowCount))),
    ("udp_datagram_count", .int (g.map (·.udpDatagramCount))),
    ("udp_network_bytes", .int (g.map (·.udpNetworkBytes))),
    ("udp_payload_bytes", .int (g.map (·.udpPayloadBytes))),
    ("udp_payload_size_p50", .float ((g.bind (·.udpPayloadSizeP50)).map (·.1))),
    ("udp_payload_size_p95", .float ((g.bind (·.udpPayloadSizeP95)).map (·.1))),
    ("udp_bidirectional_byte_ratio",
      .boundedFloat ((g.bind (·.udpBidirectionalByteRatio)).map (·.1)))]

def DnsMetricsV1.modelDump (g : Option DnsMetricsV1) : List (String × Field) :=
  [("dns_query_count", .int (g.map (·.dnsQueryCount))),
    ("dns_response_count", .int (g.map (·.dnsResponseCount))),
    ("dns_failure_count", .int (g.map (·.dnsFailureCount))),
    ("dns_rtt_p50_ms", .float ((g.bind (·.dnsRttP50Ms)).map (·.1))),
    ("dns_rtt_p95_ms", .float ((g.bind (·.dnsRttP95Ms)).map (·.1)))]

/-- The `values` of `insert_network_analysis`; an absent metric group is `NULL` in
all of its columns. -/
def NetworkAnalysisCollectedV1.values (p : NetworkAnalysisCollectedV1) : List (String × Field) :=
  [("analysis_id", .uuid p.analysisId), ("capture_id", .uuid p.captureId),
    ("application_id", .uuid p.applicationId), ("package_name", .str (some p.packageName.text)),
    ("scenario", .str (some p.scenario.text)), ("analyzed_at", .timestamp (some p.analyzedAt)),
    ("analyzer_version", .str (some p.analyzerVersion.text)),
    ("tshark_version", .str (some p.tsharkVersion.text)),
    ("source_analyzer", .str (some "tshark")),
    ("verified_sha256", .str (some p.verifiedSha256.hex))] ++
  p.capture.modelDump ++ p.capabilities.modelDump ++
  [("analysis_warnings", .strs (some (p.capture.analysisWarnings.map (·.text))))] ++
  p.traffic.modelDump ++ p.protocolMix.modelDump ++ p.ip.modelDump ++ p.flow.modelDump ++
  p.transfer.modelDump ++ TcpMetricsV1.modelDump p.tcp ++ QuicMetricsV1.modelDump p.quic ++
  UdpMetricsV1.modelDump p.udp ++ DnsMetricsV1.modelDump p.dns

end Sahabino
