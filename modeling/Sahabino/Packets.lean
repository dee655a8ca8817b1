import Mathlib.Data.List.Dedup
import Mathlib.Data.List.MinMax
import Mathlib.Data.List.Sort
import Mathlib.Data.Rat.Floor
import Mathlib.Data.String.Basic
import Sahabino.Lib.Dict
import Sahabino.Lib.Intervals

/-!
# Packets

The records of `network/metrics.py`, the keys they are grouped by, and
what `_aggregate_tcp`, `_aggregate_quic`, `_aggregate_udp` and
`_aggregate_dns` compute from the packets they select.

Arithmetic is exact: timestamps, times and every derived float are
rationals. What reads no time is defined for any type of times, so that it
also applies to records straight from the parser, whose cells may hold an
infinity or a NaN.
-/

namespace Sahabino

/-! ## Records -/

inductive PacketDirection where
  | tx
  | rx
deriving DecidableEq, Repr

inductive Transport where
  | tcp
  | udp
  | other
deriving DecidableEq, Repr

structure PacketRecord (τ : Type) where
  timestamp : τ
  frameLen : ℤ
  capturedLen : ℤ
  direction : Option PacketDirection
  ipVersion : Option ℤ
  networkBytes : ℤ
  srcIp : Option String
  dstIp : Option String
  srcPort : Option ℤ
  dstPort : Option ℤ
  transport : Transport
  l4PayloadBytes : ℤ
  tcpStream : Option ℤ := none
  ipFragment : Bool := false
  ecnCe : Bool := false
  icmpError : Bool := false
  tcpSyn : Bool := false
  tcpAck : Bool := false
  tcpRst : Bool := false
  tcpWindowSize : Option ℤ := none
  tcpInitialRttSeconds : Option τ := none
  tcpAckRttSeconds : Option τ := none
  tcpRetransmission : Bool := false
  tcpFastRetransmission : Bool := false
  tcpSpuriousRetransmission : Bool := false
  tcpZeroWindow : Bool := false
  tcpWindowFull : Bool := false
  tcpOutOfOrder : Bool := false
  tcpDuplicateAck : Bool := false
  tcpLostSegment : Bool := false
  quic : Bool := false
  quicVersion : Option String := none
  quicPacketType : Option String := none
  quicSpinBit : Option ℤ := none
  dnsIsResponse : Option Bool := none
  dnsResponseCode : Option ℤ := none
  dnsTimeSeconds : Option τ := none
deriving DecidableEq

/-! ## Statistics -/

/-- A percentile to ask for. Any other value of `percentile_value` raises
`ValueError`; the callers ask for two constants. -/
structure Percentile where
  value : ℚ
  ok : 0 ≤ value ∧ value ≤ 100

def p50 : Percentile := ⟨50, by decide⟩

def p95 : Percentile := ⟨95, by decide⟩

/-- The nearest-rank percentile. -/
def percentile (values : List ℚ) (p : Percentile) : Option ℚ :=
  if values = [] then none
  else
    let ordered := values.insertionSort (· ≤ ·)
    let rank := max 1 ⌈p.value / 100 * ordered.length⌉₊
    ordered[rank - 1]?

def ratio (numerator denominator : ℚ) : Option ℚ :=
  if denominator ≤ 0 then none else some (numerator / denominator)

/-- `sum(values) / len(values) if values else None`. -/
def average (values : List ℚ) : Option ℚ :=
  if values = [] then none else some (values.sum / values.length)

/-- Seconds to milliseconds. -/
def ms (seconds : ℚ) : ℚ := seconds * 1000

/-! ## Flows -/

abbrev Endpoint := String × ℤ

/-- The order of Python tuples; strings are compared by code points. -/
def Endpoint.before (a b : Endpoint) : Bool :=
  a.1 < b.1 || (a.1 = b.1 && a.2 < b.2)

structure FlowKey where
  ipVersion : ℤ
  endpointA : Endpoint
  endpointB : Endpoint
  transport : Transport
deriving DecidableEq

inductive TcpConnectionKey where
  | stream (n : ℤ)
  | flow (key : FlowKey)
deriving DecidableEq

namespace PacketRecord

variable {τ : Type} (p : PacketRecord τ)

/-- `(packet.src_ip, packet.src_port)`. -/
def source : Option String × Option ℤ := (p.srcIp, p.srcPort)

def destination : Option String × Option ℤ := (p.dstIp, p.dstPort)

/-- The same, when both parts are known. -/
def endpoints : Option (Endpoint × Endpoint) :=
  match p.srcIp, p.srcPort, p.dstIp, p.dstPort with
  | some srcIp, some srcPort, some dstIp, some dstPort => some ((srcIp, srcPort), (dstIp, dstPort))
  | _, _, _, _ => none

def flowKey : Option FlowKey :=
  match p.ipVersion, p.endpoints with
  | some ipVersion, some (left, right) =>
      if p.transport = .other then none
      else if right.before left then some ⟨ipVersion, right, left, p.transport⟩
      else some ⟨ipVersion, left, right, p.transport⟩
  | _, _ => none

def tcpConnectionKey : Option TcpConnectionKey :=
  match p.tcpStream with
  | some n => some (.stream n)
  | none => p.flowKey.map .flow

/-- `packet.ip_version in {4, 6}`. -/
def isIp : Bool := p.ipVersion = some 4 || p.ipVersion = some 6

def truncated : Bool := p.capturedLen < p.frameLen

def isTcp : Bool := p.transport = .tcp

/-- UDP that is not QUIC. -/
def isOtherUdp : Bool := p.transport = .udp && !p.quic

def retransmitted : Bool :=
  p.tcpRetransmission || p.tcpFastRetransmission || p.tcpSpuriousRetransmission

end PacketRecord

section Totals

variable {τ : Type}

def networkBytes (packets : List (PacketRecord τ)) : ℤ := (packets.map (·.networkBytes)).sum

def payloadBytes (packets : List (PacketRecord τ)) : ℤ := (packets.map (·.l4PayloadBytes)).sum

/-- `flow_payload`. -/
def flowPayload (ipPackets : List (PacketRecord τ)) : List (FlowKey × ℤ) :=
  Dict.totals (·.flowKey) (·.l4PayloadBytes) ipPackets

end Totals

/-- The loop of `_flows_for_80_percent` over the payloads in descending order. -/
def reachThreshold (threshold : ℚ) : ℕ → ℤ → List ℤ → Option ℕ
  | _, _, [] => none
  | index, accumulated, payloadBytes :: rest =>
      if threshold ≤ accumulated + payloadBytes then some (index + 1)
      else reachThreshold threshold (index + 1) (accumulated + payloadBytes) rest

def flowsFor80Percent (flowPayload : List (FlowKey × ℤ)) (totalPayload : ℤ) : ℕ :=
  if totalPayload ≤ 0 then 0
  else
    (reachThreshold (totalPayload * (4 / 5)) 0 0
      ((flowPayload.map (·.2)).insertionSort (· ≥ ·))).getD flowPayload.length

/-! ## TCP -/

section Handshake

variable {τ : Type}

/-- The innermost loop of `_tcp_handshake_completed`. -/
def acknowledged (initiator responder : Option String × Option ℤ)
    (records : List (PacketRecord τ)) : Bool :=
  records.any fun p => !p.tcpSyn && p.tcpAck && p.source = initiator && p.destination = responder

/-- The loop over the candidates for the SYN-ACK. -/
def answered (initiator responder : Option String × Option ℤ) :
    List (PacketRecord τ) → Bool
  | [] => false
  | p :: rest =>
      (p.tcpSyn && p.tcpAck && p.source = responder && p.destination = initiator
          && acknowledged initiator responder rest)
        || answered initiator responder rest

def tcpHandshakeCompleted : List (PacketRecord τ) → Bool
  | [] => false
  | p :: rest =>
      (p.tcpSyn && !p.tcpAck && answered p.source p.destination rest)
        || tcpHandshakeCompleted rest

end Handshake

/-- `records.sort(key=lambda item: item.timestamp)`, which is stable. -/
def sortByTime (records : List (PacketRecord ℚ)) : List (PacketRecord ℚ) :=
  records.insertionSort fun a b => a.timestamp ≤ b.timestamp

abbrev DirectionKey := (Option String × Option ℤ) × (Option String × Option ℤ)

def PacketRecord.directionKey {τ : Type} (p : PacketRecord τ) : DirectionKey :=
  (p.source, p.destination)

/-- The packet ends a stall of its direction. -/
def PacketRecord.opensWindow {τ : Type} (p : PacketRecord τ) : Bool :=
  !p.tcpZeroWindow && p.tcpWindowSize.any (0 < ·)

/-- `open_stalls` and `stall_intervals`. -/
structure StallState where
  openStalls : List (DirectionKey × ℚ)
  intervals : List (ℚ × ℚ)

namespace StallState

/-- `open_stalls.setdefault(key, timestamp)`. -/
def begin (key : DirectionKey) (timestamp : ℚ) (s : StallState) : StallState :=
  if s.openStalls.any (·.1 = key) then s
  else { s with openStalls := s.openStalls ++ [(key, timestamp)] }

/-- `open_stalls.pop(key, None)`, with its interval. -/
def finish (key : DirectionKey) (timestamp : ℚ) (s : StallState) : StallState :=
  match s.openStalls.find? (·.1 = key) with
  | none => s
  | some (_, started) =>
      { openStalls := s.openStalls.filter (·.1 ≠ key)
        intervals := s.intervals ++ [(started, timestamp)] }

def step (s : StallState) (p : PacketRecord ℚ) : StallState :=
  if p.tcpZeroWindow then s.begin p.directionKey p.timestamp
  else if p.tcpWindowSize.any (0 < ·) then s.finish p.directionKey p.timestamp
  else s

/-- The stalls that are still open last until the end of the flow. -/
def close (flowEnd : ℚ) (s : StallState) : List (ℚ × ℚ) :=
  s.intervals ++ s.openStalls.map fun stall => (stall.2, flowEnd)

end StallState

/-- The loop over the records of a connection. -/
def trackStalls (records : List (PacketRecord ℚ)) : StallState :=
  records.foldl StallState.step ⟨[], []⟩

/-- `records[0].timestamp`; a connection has a record. -/
def firstTimestamp (records : List (PacketRecord ℚ)) : ℚ :=
  (records.head?.map (·.timestamp)).getD 0

/-- `records[-1].timestamp`. -/
def lastTimestamp (records : List (PacketRecord ℚ)) : ℚ :=
  (records.getLast?.map (·.timestamp)).getD 0

/-- The order in which `sorted` puts pairs of floats. -/
def pairLe (a b : ℚ × ℚ) : Prop := a.1 < b.1 ∨ (a.1 = b.1 ∧ a.2 ≤ b.2)

instance : DecidableRel pairLe := fun _ _ => inferInstanceAs (Decidable (_ ∨ _))

/-- `merged`, for the sorted records of a connection. -/
def mergedStalls (records : List (PacketRecord ℚ)) : List (ℚ × ℚ) :=
  Intervals.merge
    (((trackStalls records).close (lastTimestamp records)).insertionSort pairLe)

/-- What the loop over `flow_packets` adds for the sorted records of a connection. -/
structure TcpConnection where
  completed : Bool
  initialRtt : Option ℚ
  reset : Bool
  activeMs : ℚ
  stallMs : ℚ
  stalledAtEnd : Bool

def tcpConnection (records : List (PacketRecord ℚ)) : TcpConnection where
  completed := tcpHandshakeCompleted records
  initialRtt := (records.findSome? (·.tcpInitialRttSeconds)).map ms
  reset := records.any (·.tcpRst)
  activeMs := max 0 (ms (lastTimestamp records - firstTimestamp records))
  stallMs := ((mergedStalls records).map fun i => ms (i.2 - i.1)).sum
  stalledAtEnd := !(trackStalls records).openStalls.isEmpty

def tcpConnections (tcpPackets : List (PacketRecord ℚ)) : List TcpConnection :=
  (Dict.groups (·.tcpConnectionKey) tcpPackets).map fun e => tcpConnection (sortByTime e.2)

structure TcpMetrics where
  tcpConnectionCount : ℕ
  tcpSuccessfulHandshakeCount : ℕ
  tcpIncompleteHandshakeCount : ℕ
  tcpHandshakeSuccessRate : Option ℚ
  tcpInitialRttAvgMs : Option ℚ
  tcpInitialRttP50Ms : Option ℚ
  tcpInitialRttP95Ms : Option ℚ
  tcpAckRttMinMs : Option ℚ
  tcpAckRttP50Ms : Option ℚ
  tcpAckRttP95Ms : Option ℚ
  tcpRttTailInflation : Option ℚ
  tcpDataSegmentCount : ℕ
  tcpRetransmissionCount : ℕ
  tcpFastRetransmissionCount : ℕ
  tcpSpuriousRetransmissionCount : ℕ
  tcpRetransmittedPayloadBytes : ℤ
  tcpRetransmissionRate : Option ℚ
  tcpRecoveryTax : Option ℚ
  tcpZeroWindowCount : ℕ
  tcpWindowFullCount : ℕ
  tcpZeroWindowDurationMs : ℚ
  tcpActiveDurationMs : ℚ
  tcpReceiverStallRatio : Option ℚ
  tcpResetCount : ℕ
  tcpResetRate : Option ℚ
  tcpOutOfOrderCount : ℕ
  tcpDuplicateAckCount : ℕ
  tcpLostSegmentIndicatorCount : ℕ
deriving DecidableEq

/-- `ack_p95 / ack_p50`, unless one is missing or `ack_p50` is 0. -/
def tailInflation (ackP50 ackP95 : Option ℚ) : Option ℚ :=
  match ackP95, ackP50 with
  | some high, some low => if low = 0 then none else some (high / low)
  | _, _ => none

def ackRtts (tcpPackets : List (PacketRecord ℚ)) : List ℚ :=
  tcpPackets.filterMap fun p => p.tcpAckRttSeconds.map ms

def initialRtts (connections : List TcpConnection) : List ℚ :=
  connections.filterMap (·.initialRtt)

def tcpMetrics (tcpPackets : List (PacketRecord ℚ)) : TcpMetrics :=
  let connections := tcpConnections tcpPackets
  let successful := connections.countP (·.completed)
  let initial := initialRtts connections
  let ack := ackRtts tcpPackets
  let retransmitted := tcpPackets.filter (·.retransmitted)
  let dataSegments := tcpPackets.countP (0 < ·.l4PayloadBytes)
  let stallMs := (connections.map (·.stallMs)).sum
  let activeMs := (connections.map (·.activeMs)).sum
  let resets := connections.countP (·.reset)
  { tcpConnectionCount := connections.length
    tcpSuccessfulHandshakeCount := successful
    tcpIncompleteHandshakeCount := connections.length - successful
    tcpHandshakeSuccessRate := ratio successful connections.length
    tcpInitialRttAvgMs := average initial
    tcpInitialRttP50Ms := percentile initial p50
    tcpInitialRttP95Ms := percentile initial p95
    tcpAckRttMinMs := ack.min?
    tcpAckRttP50Ms := percentile ack p50
    tcpAckRttP95Ms := percentile ack p95
    tcpRttTailInflation := tailInflation (percentile ack p50) (percentile ack p95)
    tcpDataSegmentCount := dataSegments
    tcpRetransmissionCount := retransmitted.length
    tcpFastRetransmissionCount := tcpPackets.countP (·.tcpFastRetransmission)
    tcpSpuriousRetransmissionCount := tcpPackets.countP (·.tcpSpuriousRetransmission)
    tcpRetransmittedPayloadBytes := payloadBytes retransmitted
    tcpRetransmissionRate := ratio retransmitted.length dataSegments
    tcpRecoveryTax := ratio (payloadBytes retransmitted) (payloadBytes tcpPackets)
    tcpZeroWindowCount := tcpPackets.countP (·.tcpZeroWindow)
    tcpWindowFullCount := tcpPackets.countP (·.tcpWindowFull)
    tcpZeroWindowDurationMs := stallMs
    tcpActiveDurationMs := activeMs
    tcpReceiverStallRatio := ratio stallMs activeMs
    tcpResetCount := resets
    tcpResetRate := ratio resets connections.length
    tcpOutOfOrderCount := tcpPackets.countP (·.tcpOutOfOrder)
    tcpDuplicateAckCount := tcpPackets.countP (·.tcpDuplicateAck)
    tcpLostSegmentIndicatorCount := tcpPackets.countP (·.tcpLostSegment) }

/-! ## QUIC -/

/-- `value.lower()`, as far as comparisons with ASCII words without a `k` go: no
other character has an ASCII letter as its lower case. -/
def lower (s : String) : String := String.ofList (s.toList.map Char.toLower)

namespace PacketRecord

variable {τ : Type} (p : PacketRecord τ)

/-- The packet's type, in lower case, is one of `names`. -/
def hasQuicType (names : List String) : Bool := p.quicPacketType.any fun t => lower t ∈ names

def isQuicInitial : Bool := p.hasQuicType ["0", "initial"]

def isQuicRetry : Bool := p.hasQuicType ["3", "retry"]

def isQuicZeroRtt : Bool := p.hasQuicType ["1", "0-rtt", "0rtt", "0_rtt"]

def isVersionNegotiation : Bool := p.quicVersion = some "0" || p.quicVersion = some "0x00000000"

/-- The version, unless it is empty or stands for version negotiation. -/
def knownQuicVersion : Option String :=
  p.quicVersion.filter fun v => v ∉ ["", "0", "0x00000000"]

end PacketRecord

/-- The entry of `first_by_direction`. -/
def firstInitial (direction : PacketDirection) (records : List (PacketRecord ℚ)) : Option ℚ :=
  (records.find? fun p => p.direction = some direction && p.isQuicInitial).map (·.timestamp)

def quicInitialRtt (records : List (PacketRecord ℚ)) : Option ℚ :=
  match firstInitial .rx records, firstInitial .tx records with
  | some rx, some tx => some (ms |rx - tx|)
  | _, _ => none

/-- `previous` and the samples of the flow. -/
structure SpinState where
  previous : PacketDirection → Option (ℤ × ℚ)
  samples : List ℚ

def SpinState.step (s : SpinState) (p : PacketRecord ℚ) : SpinState :=
  match p.direction, p.quicSpinBit with
  | some direction, some spinBit =>
      { previous := Function.update s.previous direction (some (spinBit, p.timestamp))
        samples := match s.previous direction with
          | some (bit, timestamp) =>
              if bit = spinBit then s.samples
              else s.samples ++ [max 0 (ms (p.timestamp - timestamp))]
          | none => s.samples }
  | _, _ => s

def spinSamples (records : List (PacketRecord ℚ)) : List ℚ :=
  (records.foldl SpinState.step ⟨fun _ => none, []⟩).samples

/-- `flow_packets.values()` of `_aggregate_quic`, each sorted. -/
def quicFlows (quicPackets : List (PacketRecord ℚ)) : List (List (PacketRecord ℚ)) :=
  (Dict.groups (·.flowKey) quicPackets).map fun e => sortByTime e.2

structure QuicMetrics where
  quicIdentifiedConnectionCount : ℕ
  quicVersionCount : Option ℕ
  quicVersionsSeen : Option (List String)
  quicRetryCount : Option ℕ
  quicVersionNegotiationCount : Option ℕ
  quic0rttObservedCount : Option ℕ
  quicInitialRttAvgMs : Option ℚ
  quicInitialRttP50Ms : Option ℚ
  quicInitialRttP95Ms : Option ℚ
  quicSpinRttSampleCount : Option ℕ
  quicSpinRttMinMs : Option ℚ
  quicSpinRttP50Ms : Option ℚ
  quicSpinRttP95Ms : Option ℚ
deriving DecidableEq

def quicVersions {τ : Type} (quicPackets : List (PacketRecord τ)) : List String :=
  (quicPackets.filterMap (·.knownQuicVersion)).dedup.insertionSort (· ≤ ·)

def quicInitialRtts (quicPackets : List (PacketRecord ℚ)) : List ℚ :=
  (quicFlows quicPackets).filterMap quicInitialRtt

def quicSpinSamples (quicPackets : List (PacketRecord ℚ)) : List ℚ :=
  (quicFlows quicPackets).flatMap spinSamples

/-- `value if name in supported_fields else None`. -/
def ifSupported {α : Type} (supportedFields : List String) (name : String) (value : α) :
    Option α :=
  if name ∈ supportedFields then some value else none

def quicMetrics (supportedFields : List String) (quicPackets : List (PacketRecord ℚ)) :
    QuicMetrics :=
  let versions := quicVersions quicPackets
  let initial := quicInitialRtts quicPackets
  let spin := quicSpinSamples quicPackets
  { quicIdentifiedConnectionCount := (quicFlows quicPackets).length
    quicVersionCount := ifSupported supportedFields "quic.version" versions.length
    quicVersionsSeen := ifSupported supportedFields "quic.version" versions
    quicRetryCount :=
      ifSupported supportedFields "quic.long.packet_type" (quicPackets.countP (·.isQuicRetry))
    quicVersionNegotiationCount :=
      ifSupported supportedFields "quic.version" (quicPackets.countP (·.isVersionNegotiation))
    quic0rttObservedCount :=
      ifSupported supportedFields "quic.long.packet_type" (quicPackets.countP (·.isQuicZeroRtt))
    quicInitialRttAvgMs := average initial
    quicInitialRttP50Ms := percentile initial p50
    quicInitialRttP95Ms := percentile initial p95
    quicSpinRttSampleCount := ifSupported supportedFields "quic.spin_bit" spin.length
    quicSpinRttMinMs := spin.min?
    quicSpinRttP50Ms := percentile spin p50
    quicSpinRttP95Ms := percentile spin p95 }

/-! ## UDP -/

/-- The bytes of a packet, under the index of its direction in the flow. -/
def PacketRecord.directionalBytes {τ : Type} (p : PacketRecord τ) : ℤ × ℤ :=
  match p.flowKey, p.endpoints with
  | some key, some (source, _) =>
      if source = key.endpointA then (p.networkBytes, 0) else (0, p.networkBytes)
  | _, _ => (0, 0)

structure UdpMetrics where
  udpFlowCount : ℕ
  udpDatagramCount : ℕ
  udpNetworkBytes : ℤ
  udpPayloadBytes : ℤ
  udpPayloadSizeP50 : Option ℚ
  udpPayloadSizeP95 : Option ℚ
  udpBidirectionalByteRatio : Option ℚ
deriving DecidableEq

section Udp

variable {τ : Type}

/-- `flow_directions`; its keys are also `flow_keys`. -/
def flowDirections (udpPackets : List (PacketRecord τ)) : List (FlowKey × (ℤ × ℤ)) :=
  Dict.totals (·.flowKey) (·.directionalBytes) udpPackets

def directionTotals (udpPackets : List (PacketRecord τ)) : ℤ × ℤ :=
  ((flowDirections udpPackets).map (·.2)).sum

/-- `min(direction_totals) / largest_direction`. -/
def byteBalance (totals : ℤ × ℤ) : Option ℚ :=
  let largest := max totals.1 totals.2
  if 0 < largest then some ((min totals.1 totals.2 : ℤ) / (largest : ℤ)) else none

def payloadSizes (udpPackets : List (PacketRecord τ)) : List ℚ :=
  udpPackets.map fun p => p.l4PayloadBytes

def udpMetrics (udpPackets : List (PacketRecord τ)) : UdpMetrics where
  udpFlowCount := (flowDirections udpPackets).length
  udpDatagramCount := udpPackets.length
  udpNetworkBytes := networkBytes udpPackets
  udpPayloadBytes := payloadBytes udpPackets
  udpPayloadSizeP50 := percentile (payloadSizes udpPackets) p50
  udpPayloadSizeP95 := percentile (payloadSizes udpPackets) p95
  udpBidirectionalByteRatio := byteBalance (directionTotals udpPackets)

/-- `_aggregate_udp`. -/
def aggregateUdp (packets : List (PacketRecord τ)) : Option UdpMetrics :=
  let udpPackets := packets.filter (·.isOtherUdp)
  if udpPackets = [] then none else some (udpMetrics udpPackets)

end Udp

/-! ## DNS -/

structure DnsMetrics where
  dnsQueryCount : ℕ
  dnsResponseCount : ℕ
  dnsFailureCount : ℕ
  dnsRttP50Ms : Option ℚ
  dnsRttP95Ms : Option ℚ
deriving DecidableEq

def PacketRecord.dnsFailed {τ : Type} (p : PacketRecord τ) : Bool :=
  p.dnsIsResponse = some true && p.dnsResponseCode.any (· ≠ 0)

def dnsRtts (dnsPackets : List (PacketRecord ℚ)) : List ℚ :=
  dnsPackets.filterMap fun p => p.dnsTimeSeconds.map ms

def dnsMetrics (dnsPackets : List (PacketRecord ℚ)) : DnsMetrics where
  dnsQueryCount := dnsPackets.countP (·.dnsIsResponse = some false)
  dnsResponseCount := dnsPackets.countP (·.dnsIsResponse = some true)
  dnsFailureCount := dnsPackets.countP (·.dnsFailed)
  dnsRttP50Ms := percentile (dnsRtts dnsPackets) p50
  dnsRttP95Ms := percentile (dnsRtts dnsPackets) p95

/-- `_aggregate_dns`. -/
def aggregateDns (packets : List (PacketRecord ℚ)) : Option DnsMetrics :=
  let dnsPackets := packets.filter (·.dnsIsResponse.isSome)
  if dnsPackets = [] then none else some (dnsMetrics dnsPackets)

end Sahabino
