import Sahabino.Capture
import Sahabino.Lib.Columns

/-!
# Event contracts

The typed Kafka payloads of `messaging/network_events.py` and
`messaging/playstore_events.py`, with the field constraints in the types:
a value of one of these structures is a payload that passed validation.

The bounds of a float field are tests for a value that is too small or too
large, which a NaN passes.
-/

namespace Sahabino

/-! ## Constrained fields -/

/-- The Unicode `White_Space` characters, which `strip_whitespace` removes. -/
def isWhiteSpace (c : Char) : Bool :=
  [0x09, 0x0A, 0x0B, 0x0C, 0x0D, 0x20, 0x85, 0xA0, 0x1680, 0x2000, 0x2001, 0x2002, 0x2003,
    0x2004, 0x2005, 0x2006, 0x2007, 0x2008, 0x2009, 0x200A, 0x2028, 0x2029, 0x202F, 0x205F,
    0x3000].contains c.toNat

/-- Not empty, and stripping changes nothing. -/
def isNonBlank (s : String) : Bool :=
  match s.toList.head?, s.toList.getLast? with
  | some first, some last => !isWhiteSpace first && !isWhiteSpace last
  | _, _ => false

structure NonBlankString where
  text : String
  ok : isNonBlank text = true
deriving DecidableEq

abbrev NonNegativeInt := Nat

abbrev PositiveInt := { n : Nat // 0 < n }

abbrev NonNegativeFloat := { x : Rel.Double // x.below 0 = false }

/-- A float between 0 and `hi`, as far as the bounds are tested. -/
abbrev BoundedFloat (hi : ℚ) := { x : Rel.Double // x.below 0 = false ∧ x.above hi = false }

abbrev Ratio := BoundedFloat 1

/-! ## Network events -/

structure NetworkCaptureReadyV1 where
  captureId : Uuid
  analysisId : Uuid
  applicationId : Uuid
  packageName : NonBlankString
  scenario : Scenario
  objectKey : String
  captureFormat : CaptureFormat
  captureSizeBytes : Nat
  transferFileSizeBytes : Nat
  expectedSha256 : Sha256
  uploadedAt : Timestamp

structure CaptureMetricsV1 where
  captureFormat : CaptureFormat
  captureSizeBytes : PositiveInt
  transferFileSizeBytes : PositiveInt
  captureDurationMs : NonNegativeFloat
  packetCount : NonNegativeInt
  truncatedPacketCount : NonNegativeInt
  analysisWarningCount : NonNegativeInt
  analysisWarnings : List NonBlankString

structure NetworkCapabilitiesV1 where
  directionMetadataAvailable : Bool
  payloadPlaintextAvailable : Bool
  handshakeObserved : Bool
  tcpPresent : Bool
  quicPresent : Bool
  otherUdpPresent : Bool
  tcpRttAvailable : Bool
  quicInitialRttAvailable : Bool
  quicSpinRttAvailable : Bool
  dnsMetricsAvailable : Bool
  comparisonReady : Bool

structure TrafficMetricsV1 where
  networkBytesTotal : NonNegativeInt
  txNetworkBytes : Option NonNegativeInt
  rxNetworkBytes : Option NonNegativeInt
  l4PayloadBytesTotal : NonNegativeInt
  txL4PayloadBytes : Option NonNegativeInt
  rxL4PayloadBytes : Option NonNegativeInt
  ipTransportHeaderBytes : NonNegativeInt
  ipTransportHeaderOverheadRatio : Option Ratio
  txPacketCount : Option NonNegativeInt
  rxPacketCount : Option NonNegativeInt

structure ProtocolMixMetricsV1 where
  tcpBytes : NonNegativeInt
  quicIdentifiedBytes : NonNegativeInt
  otherUdpBytes : NonNegativeInt
  tcpByteShare : Option Ratio
  quicByteShare : Option Ratio
  otherUdpByteShare : Option Ratio
  ipv4ByteShare : Option Ratio
  ipv6ByteShare : Option Ratio

structure IpMetricsV1 where
  ipFragmentCount : NonNegativeInt
  ipFragmentRate : Option Ratio
  ecnCePacketCount : NonNegativeInt
  ecnCePacketRate : Option Ratio
  icmpErrorCount : NonNegativeInt

structure FlowMetricsV1 where
  flowCount : NonNegativeInt
  uniqueRemoteIpCount : Option NonNegativeInt
  topFlowPayloadShare : Option Ratio
  flowsFor80pctPayload : NonNegativeInt
  connectionChurnPerMib : NonNegativeFloat

structure TransferMetricsV1 where
  observedPrimaryPayloadSpanMs : Option NonNegativeFloat
  averageNetworkThroughputMbps : Option NonNegativeFloat
  peak1sNetworkThroughputMbps : Option NonNegativeFloat
  p95Of1sNetworkThroughputMbps : Option NonNegativeFloat
  effectiveFileThroughputMbps : Option NonNegativeFloat
  primaryDirectionAmplificationRatio : Option NonNegativeFloat
  totalTransferAmplificationRatio : NonNegativeFloat
  reversePathCostRatio : Option NonNegativeFloat

structure TcpMetricsV1 where
  tcpConnectionCount : NonNegativeInt
  tcpSuccessfulHandshakeCount : NonNegativeInt
  tcpIncompleteHandshakeCount : NonNegativeInt
  tcpHandshakeSuccessRate : Option Ratio
  tcpInitialRttAvgMs : Option NonNegativeFloat
  tcpInitialRttP50Ms : Option NonNegativeFloat
  tcpInitialRttP95Ms : Option NonNegativeFloat
  tcpAckRttMinMs : Option NonNegativeFloat
  tcpAckRttP50Ms : Option NonNegativeFloat
  tcpAckRttP95Ms : Option NonNegativeFloat
  tcpRttTailInflation : Option NonNegativeFloat
  tcpDataSegmentCount : NonNegativeInt
  tcpRetransmissionCount : NonNegativeInt
  tcpFastRetransmissionCount : NonNegativeInt
  tcpSpuriousRetransmissionCount : NonNegativeInt
  tcpRetransmittedPayloadBytes : NonNegativeInt
  tcpRetransmissionRate : Option Ratio
  tcpRecoveryTax : Option Ratio
  tcpZeroWindowCount : NonNegativeInt
  tcpWindowFullCount : NonNegativeInt
  tcpZeroWindowDurationMs : NonNegativeFloat
  tcpActiveDurationMs : NonNegativeFloat
  tcpReceiverStallRatio : Option Ratio
  tcpResetCount : NonNegativeInt
  tcpResetRate : Option Ratio
  tcpOutOfOrderCount : NonNegativeInt
  tcpDuplicateAckCount : NonNegativeInt
  tcpLostSegmentIndicatorCount : NonNegativeInt

structure QuicMetricsV1 where
  quicIdentifiedConnectionCount : Option NonNegativeInt
  quicVersionCount : Option NonNegativeInt
  quicVersionsSeen : Option (List String)
  quicRetryCount : Option NonNegativeInt
  quicVersionNegotiationCount : Option NonNegativeInt
  quic0rttObservedCount : Option NonNegativeInt
  quicInitialRttAvgMs : Option NonNegativeFloat
  quicInitialRttP50Ms : Option NonNegativeFloat
  quicInitialRttP95Ms : Option NonNegativeFloat
  quicSpinRttSampleCount : Option NonNegativeInt
  quicSpinRttMinMs : Option NonNegativeFloat
  quicSpinRttP50Ms : Option NonNegativeFloat
  quicSpinRttP95Ms : Option NonNegativeFloat

structure UdpMetricsV1 where
  udpFlowCount : NonNegativeInt
  udpDatagramCount : NonNegativeInt
  udpNetworkBytes : NonNegativeInt
  udpPayloadBytes : NonNegativeInt
  udpPayloadSizeP50 : Option NonNegativeFloat
  udpPayloadSizeP95 : Option NonNegativeFloat
  udpBidirectionalByteRatio : Option Ratio

structure DnsMetricsV1 where
  dnsQueryCount : NonNegativeInt
  dnsResponseCount : NonNegativeInt
  dnsFailureCount : NonNegativeInt
  dnsRttP50Ms : Option NonNegativeFloat
  dnsRttP95Ms : Option NonNegativeFloat

/-- The metric groups an analysis produces. -/
structure MetricGroups where
  capture : CaptureMetricsV1
  capabilities : NetworkCapabilitiesV1
  traffic : TrafficMetricsV1
  protocolMix : ProtocolMixMetricsV1
  ip : IpMetricsV1
  flow : FlowMetricsV1
  transfer : TransferMetricsV1
  tcp : Option TcpMetricsV1
  quic : Option QuicMetricsV1
  udp : Option UdpMetricsV1
  dns : Option DnsMetricsV1

/-- `AnalysisMetrics`: what `analyze_capture` returns. -/
structure AnalysisMetrics extends MetricGroups where
  analyzedAt : Timestamp
  analyzerVersion : NonBlankString
  tsharkVersion : NonBlankString
  verifiedSha256 : Sha256

/-- `source_analyzer` is the literal `tshark` and is not carried. -/
structure NetworkAnalysisCollectedV1 extends AnalysisMetrics where
  analysisId : Uuid
  captureId : Uuid
  applicationId : Uuid
  packageName : NonBlankString
  scenario : Scenario

/-! ## Play Store events -/

abbrev NonEmptyString := { s : String // s ≠ "" }

structure AppStatsCollectedV1 where
  crawlTaskId : Uuid
  applicationId : Uuid
  packageName : NonEmptyString
  collectedAt : Timestamp
  minInstalls : NonNegativeInt
  score : BoundedFloat 5
  ratingsCount : NonNegativeInt
  reviewsCount : NonNegativeInt
  storeUpdatedOn : Option Int
  version : Option String
  adSupported : Bool
  sourceAdapter : NonEmptyString

structure ReviewObservedV1 where
  crawlTaskId : Uuid
  applicationId : Uuid
  packageName : NonEmptyString
  observedAt : Timestamp
  position : { n : Nat // 1 ≤ n ∧ n ≤ 1000 }
  externalReviewId : NonEmptyString
  sourceAt : Timestamp
  authorName : String
  thumbsUpCount : NonNegativeInt
  score : { n : Nat // 1 ≤ n ∧ n ≤ 5 }
  content : String
  sourceAdapter : NonEmptyString

/-! ## Envelopes

`event_type` and `schema_version` follow from the payload type: the
decoders accept an envelope only with the values its constructors set. -/

structure EventEnvelope (π : Type) where
  eventId : Uuid
  occurredAt : Timestamp
  payload : π

def captureReadyEnvelope (payload : NetworkCaptureReadyV1) (eventId : Uuid) :
    EventEnvelope NetworkCaptureReadyV1 :=
  ⟨eventId, payload.uploadedAt, payload⟩

def analysisCollectedEnvelope (payload : NetworkAnalysisCollectedV1) (eventId : Uuid) :
    EventEnvelope NetworkAnalysisCollectedV1 :=
  ⟨eventId, payload.analyzedAt, payload⟩

/-- `SupportedEvent`: what ingestion routes. -/
inductive SupportedEvent where
  | appStats (event : EventEnvelope AppStatsCollectedV1)
  | reviewObserved (event : EventEnvelope ReviewObservedV1)
  | networkAnalysis (event : EventEnvelope NetworkAnalysisCollectedV1)

namespace SupportedEvent

def eventId : SupportedEvent → Uuid
  | .appStats e => e.eventId
  | .reviewObserved e => e.eventId
  | .networkAnalysis e => e.eventId

def eventType : SupportedEvent → String
  | .appStats _ => "playstore.app_stats.collected"
  | .reviewObserved _ => "playstore.review.observed"
  | .networkAnalysis _ => "network.analysis.collected"

/-- `PLAYSTORE_SCHEMA_VERSION` and `NETWORK_SCHEMA_VERSION` are both 1. -/
def schemaVersion (_ : SupportedEvent) : Nat := 1

end SupportedEvent

namespace Sample

def appPackage : NonEmptyString := ⟨"org.example.app", by decide⟩

def gplay : NonEmptyString := ⟨"gplay", by decide⟩

def fourStars : BoundedFloat 5 := ⟨.finite 4, by decide⟩

end Sample

end Sahabino
